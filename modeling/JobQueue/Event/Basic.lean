import JobQueue.Record.Basic

/-!
# Events

What a broker tells its listeners about a message: that it was enqueued, handed
out, is to be tried again, is done, or was given up.
-/

namespace JobQueue

/-- What happened to a message. -/
inductive Event where
  /-- It was put on a queue. -/
  | enqueued (job : JobId) (queue type : String) (time : Instant)
  /-- It was handed out. -/
  | leased (job : JobId) (attempt : UInt32) (time : Instant)
  /-- It waits for another attempt. -/
  | retrying (job : JobId) (retryAt : Instant) (error : String) (time : Instant)
  /-- It is done. -/
  | completed (job : JobId) (time : Instant)
  /-- It was given up. -/
  | archived (job : JobId) (error : String) (time : Instant)
deriving DecidableEq, Repr

namespace Event

/-- The name of an event. -/
def name : Event → String
  | enqueued .. => "enqueued"
  | leased .. => "leased"
  | retrying .. => "retrying"
  | completed .. => "completed"
  | archived .. => "archived"

/-- The message that an event is about. -/
def job : Event → JobId
  | enqueued job .. | leased job .. | retrying job .. | completed job .. | archived job .. => job

/-- When an event happened. -/
def time : Event → Instant
  | enqueued _ _ _ t | leased _ _ t | retrying _ _ _ t | completed _ t | archived _ _ t => t

end Event

end JobQueue
