import JobQueue.Error
import JobQueue.Job.Basic
import JobQueue.Record.Basic

/-!
# Invocations

A handler is invoked with a job and a context that says which attempt this is.
An invocation ends in one of three ways: it returns, it panics, or it is cut off
because its time is over.  A panic and a cut count as failures that another
attempt may mend.
-/

namespace JobQueue

/-- What a handler is told about the attempt. -/
structure Context where
  /-- The message. -/
  job : JobId
  /-- The tag of the job. -/
  type : String
  /-- The queue of the message. -/
  queue : String
  /-- The number of the attempt, from 1. -/
  attempt : UInt32
  /-- The attempts that the message gets. -/
  maxRetries : UInt32
  /-- How long the attempt may take. -/
  timeout : Option Span
deriving DecidableEq, Repr

/-- Which part of a handler is invoked. -/
inductive Stage where
  /-- The part that does the job. -/
  | handle
  /-- The part that learns that the job failed for good. -/
  | failed (error : JobError)
deriving DecidableEq, Repr

/-- How an invocation ends. -/
inductive Ending where
  /-- It returns. -/
  | returned (result : Except JobError Unit)
  /-- It panics, with a text or without. -/
  | panicked (text : Option String)
  /-- It is cut off. -/
  | timedOut

namespace Ending

/-- Whether the invocation was cut off. -/
def isCut : Ending → Bool
  | timedOut => true
  | _ => false

/-- What is reported of a panic. -/
def panicText (text : Option String) : String := text.getD "unknown panic"

/-- What an ending says about the job; `limit` is the time that it had. -/
def result (limit : Span) : Ending → Except JobError Unit
  | returned r => r
  | panicked text => .error (.retryable s!"handler panicked: {panicText text}")
  | timedOut => .error (.retryable s!"handler timed out after {limit.millis}ms")

end Ending

/-- An invocation of a handler. -/
structure Invocation where
  /-- Which part is invoked. -/
  stage : Stage
  /-- What it is told. -/
  context : Context
  /-- The job. -/
  job : Job
  /-- How it ended, if it has. -/
  ending : Option Ending := none

/-- Whether an invocation was cut off. -/
def Invocation.isCut (i : Invocation) : Bool :=
  match i.ending with
  | some e => e.isCut
  | none => false

end JobQueue
