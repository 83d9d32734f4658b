import JobQueue.Error
import JobQueue.Record.Basic

/-!
# Scripts

A scripted handler does for each attempt what its script lists: it waits a
while, may close the broker, and then acts.  An attempt beyond the end of the
list does what the last entry says, and an empty list lets every attempt
succeed.
-/

namespace JobQueue

/-- How a scripted handler ends. -/
inductive Act where
  /-- It succeeds. -/
  | succeed
  /-- It fails. -/
  | fail (e : JobError)
  /-- It panics, with a text or without. -/
  | panic (text : Option String)
  /-- It waits until its context is cancelled, and succeeds. -/
  | park
  /-- It never ends. -/
  | hang
deriving DecidableEq, Repr

/-- What the end of a scripted handler says about the job, if it ends by itself
without panic. -/
def Act.result? : Act → Option (Except JobError Unit)
  | succeed => some (.ok ())
  | fail e => some (.error e)
  | _ => none

/-- Whether a handler does not end by itself once it acts, with its context
cancelled or not. -/
def Act.blocks (isCancelled : Bool) : Act → Bool
  | park => !isCancelled
  | hang => true
  | _ => false

/-- What a scripted handler does. -/
structure Action where
  /-- The milliseconds that it waits first, if it waits at all. -/
  wait : Option Nat := none
  /-- Whether it closes the broker then. -/
  closesBroker : Bool := false
  /-- How it ends. -/
  act : Act := .succeed
deriving DecidableEq, Repr

/-- A scripted handler. -/
structure Script where
  /-- What it does for the attempts of a job. -/
  actions : List Action := []
  /-- What it does for the attempts of some jobs instead. -/
  jobs : List (String × List Action) := []
  /-- What it does when it learns that a job failed for good. -/
  hook : Action := {}
deriving DecidableEq, Repr

/-- What a list of actions has for an attempt. -/
def Action.ofAttempt (actions : List Action) (attempt : UInt32) : Action :=
  match actions[attempt.toNat - 1]? with
  | some a => a
  | none => actions.getLast?.getD {}

/-- What a scripted handler does for an attempt of a job. -/
def Script.action (s : Script) (job : JobId) (attempt : UInt32) : Action :=
  .ofAttempt ((s.jobs.lookup job.text).getD s.actions) attempt

end JobQueue
