import JobQueue.Job.Posting
import JobQueue.Time.Instant

/-!
# Submissions

A client may choose where and when a job runs.  Its choices are a list, and the
last one of a kind wins; a delay and a fixed time are choices of one kind.  What
nobody chooses comes from the job itself, and an empty queue or a number of
attempts of 0 stand for the general defaults.
-/

namespace JobQueue

/-- A choice of a client. -/
inductive Choice where
  /-- How long the job waits. -/
  | delay (d : Span)
  /-- When the job runs. -/
  | processAt (t : Instant)
  /-- The queue of the job. -/
  | queue (name : String)
  /-- The attempts of the job. -/
  | maxRetries (n : UInt32)
  /-- How long an attempt may take. -/
  | timeout (d : Span)
deriving DecidableEq, Repr

/-- When a job runs. -/
inductive Start where
  /-- After a wait. -/
  | after (d : Span)
  /-- At a fixed time. -/
  | fixed (t : Instant)
deriving DecidableEq, Repr

/-- The time of a start. -/
def Start.time (now : Instant) : Start → Instant
  | after d => now.after d
  | fixed t => t

/-- The choices that are in force so far. -/
structure Submission.Draft where
  /-- The queue. -/
  queue : String
  /-- The attempts. -/
  maxRetries : UInt32
  /-- When the job runs. -/
  start : Start
  /-- How long an attempt may take. -/
  timeout : Option Span
deriving DecidableEq, Repr

namespace Submission.Draft

/-- What a posting has for itself. -/
def ofPosting (p : Posting) : Draft where
  queue := p.queue
  maxRetries := p.maxRetries
  start := .after p.delay
  timeout := none

/-- What a job chooses itself. -/
def ofJob (j : Job) : Draft := .ofPosting j.posting

/-- Let a choice take the place of an earlier one. -/
def choose (s : Draft) : Choice → Draft
  | .delay d => { s with start := .after d }
  | .processAt t => { s with start := .fixed t }
  | .queue name => { s with queue := name }
  | .maxRetries n => { s with maxRetries := n }
  | .timeout d => { s with timeout := some d }

end Submission.Draft

/-- Where and when a job runs. -/
structure Submission where
  /-- The queue. -/
  queue : String
  /-- The attempts. -/
  maxRetries : UInt32
  /-- When the job may be delivered. -/
  processAt : Instant
  /-- How long an attempt may take. -/
  timeout : Option Span
deriving DecidableEq, Repr

namespace Submission

/-- The submission of the choices that are in force. -/
def ofDraft (s : Draft) (now : Instant) : Submission where
  queue := if s.queue = "" then defaultQueue else s.queue
  maxRetries := if s.maxRetries = 0 then defaultMaxRetries else s.maxRetries
  processAt := s.start.time now
  timeout := s.timeout

/-- The submission of a posting with the choices of a client. -/
def ofPosting (choices : List Choice) (p : Posting) (now : Instant) : Submission :=
  ofDraft (choices.foldl Draft.choose (.ofPosting p)) now

/-- The submission of a job with the choices of a client. -/
def resolve (choices : List Choice) (j : Job) (now : Instant) : Submission :=
  ofPosting choices j.posting now

/-- A submission names a queue. -/
theorem queue_ofPosting_ne (choices : List Choice) (p : Posting) (now : Instant) :
    (ofPosting choices p now).queue ≠ "" := by
  simp only [ofPosting, ofDraft]
  split
  · decide
  · assumption

/-- A submission allows an attempt. -/
theorem maxRetries_ofPosting_ne (choices : List Choice) (p : Posting) (now : Instant) :
    (ofPosting choices p now).maxRetries ≠ 0 := by
  simp only [ofPosting, ofDraft]
  split
  · decide
  · assumption

theorem queue_resolve_ne (choices : List Choice) (j : Job) (now : Instant) :
    (resolve choices j now).queue ≠ "" := queue_ofPosting_ne choices j.posting now

theorem maxRetries_resolve_ne (choices : List Choice) (j : Job) (now : Instant) :
    (resolve choices j now).maxRetries ≠ 0 := maxRetries_ofPosting_ne choices j.posting now

end Submission

end JobQueue
