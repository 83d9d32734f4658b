/-!
# Errors

A `QueueError` is a failure of the queue itself: of the codec, the registry, the
broker or the settings.  A `JobError` is how a handler says that a job failed,
and whether another attempt may help.

Errors that no further attempt can mend are terminal
(`QueueError.isTerminal_iff`): a message that meets one is given up at once.
-/

namespace JobQueue

/-- A failure of the queue. -/
inductive QueueError where
  /-- The bytes of a message hold no envelope. -/
  | envelopeMalformed (reason : String)
  /-- The data of an envelope is not of the shape of its job. -/
  | payloadMismatch (type reason : String)
  /-- No handler is registered for the type. -/
  | unknownType (type : String)
  /-- A handler is registered for the type already. -/
  | duplicateType (type : String)
  /-- The broker is closed. -/
  | unavailable
  /-- A job could not be put into the queue. -/
  | notEnqueued (type : String) (cause : QueueError)
  /-- The pool stopped with handlers still running. -/
  | shutdownTimeout (abandoned : Nat)
  /-- Settings that a pool cannot run with. -/
  | invalidConfig (reason : String)
  /-- There is no record of the job. -/
  | jobNotFound (id : String)
  /-- The lease is not the current one. -/
  | invalidLease
  /-- No broker serves this address. -/
  | unsupported (feature : String)
  /-- A job has no JSON text. -/
  | unserializable (reason : String)
  /-- Anything else. -/
  | internal (reason : String)
deriving DecidableEq, Repr

namespace QueueError

/-- The refusal to start a pool where nothing can run its slots. -/
def nowhereToRun : QueueError :=
  .internal <|
    "worker must be started inside a tokio runtime: there is no reactor running, " ++
      "must be called from the context of a Tokio 1.x runtime"

/-- The wording of an error. -/
def message : QueueError → String
  | envelopeMalformed reason => s!"Malformed job envelope: {reason}"
  | payloadMismatch type reason => s!"Payload mismatch for job type {type}: {reason}"
  | unknownType type => s!"Job type not registered: {type}"
  | duplicateType type => s!"Job type already registered: {type}"
  | unavailable => "Broker unavailable"
  | notEnqueued type cause => s!"Failed to enqueue job of type {type}: {cause.message}"
  | shutdownTimeout n => s!"Shutdown deadline elapsed with {n} handler(s) still running"
  | invalidConfig reason => s!"Invalid configuration: {reason}"
  | jobNotFound id => s!"Job not found: {id}"
  | invalidLease => "Invalid lease token"
  | unsupported feature => s!"Backend does not support feature: {feature}"
  | unserializable reason => s!"Serialization error: {reason}"
  | internal reason => s!"Internal error: {reason}"

/-- Whether no further attempt can mend the error. -/
def isTerminal : QueueError → Bool
  | envelopeMalformed _ | payloadMismatch _ _ | unknownType _ => true
  | _ => false

/-- The terminal errors are those of a message itself. -/
theorem isTerminal_iff {e : QueueError} :
    e.isTerminal ↔ (∃ reason, e = envelopeMalformed reason) ∨
      (∃ type reason, e = payloadMismatch type reason) ∨ ∃ type, e = unknownType type := by
  cases e <;> simp [isTerminal]

end QueueError

/-- The failure of a job. -/
inductive JobError where
  /-- Another attempt may succeed. -/
  | retryable (reason : String)
  /-- No further attempt is to be made. -/
  | permanent (reason : String)
deriving DecidableEq, Repr

namespace JobError

/-- What the handler says about the failure. -/
def reason : JobError → String
  | retryable s | permanent s => s

/-- The wording of a failure. -/
def message : JobError → String
  | retryable s => s!"Retryable error: {s}"
  | permanent s => s!"Permanent error: {s}"

/-- Whether another attempt may succeed. -/
def isRetryable : JobError → Bool
  | retryable _ => true
  | permanent _ => false

end JobError

end JobQueue
