import JobQueue.Job.Payload

/-!
# Postings

A posting is what it takes to submit a job, whatever kind of job it is: its tag, its
payload, and what the job chooses itself.
-/

namespace JobQueue

/-- What it takes to submit a job. -/
structure Posting where
  /-- The tag under which the job is routed. -/
  tag : String
  /-- The payload of the job, or why there is none. -/
  data : Except String Json
  /-- The queue of the job. -/
  queue : String
  /-- The attempts of the job. -/
  maxRetries : UInt32
  /-- How long the job waits. -/
  delay : Span

/-- The posting of a job. -/
def Job.posting (j : Job) : Posting where
  tag := j.tag
  data := j.data
  queue := j.queue
  maxRetries := j.maxRetries
  delay := j.delay

end JobQueue
