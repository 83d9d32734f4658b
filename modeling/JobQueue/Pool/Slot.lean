import JobQueue.Envelope
import JobQueue.Metrics
import JobQueue.Pool.Token
import JobQueue.Store.Basic

/-!
# Slots

A slot of a pool handles one message at a time.  Its phase says how far it is
with that message and holds what it needs to go on; the order of the phases is
that of the constructors.  In the phases `pulling` and `settling` it waits for
the broker, in `running` and `hooked` for the handler.
-/

namespace JobQueue

/-- A message that a slot handles. -/
structure Task where
  /-- The delivery of the message. -/
  delivery : Delivery
  /-- Its envelope. -/
  envelope : Envelope
  /-- The kind of job that its tag stands for. -/
  kind : JobKind
  /-- What the handler is told. -/
  context : Context
  /-- The token of the context for the handler. -/
  token : Token

/-- How far a slot is. -/
inductive Phase where
  /-- It looks whether the pool stops. -/
  | ready
  /-- It asks the broker for a message. -/
  | pulling
  /-- It holds a message and has not looked at it yet. -/
  | holding (d : Delivery)
  /-- It has counted the message as being handled, as one of `current`. -/
  | counted (t : Task) (current : Nat)
  /-- It is about to invoke the handler. -/
  | calling (t : Task)
  /-- The handler runs. -/
  | running (t : Task) (call : Nat)
  /-- It is about to tell the handler that the job failed for good. -/
  | hooking (t : Task) (error : JobError)
  /-- The handler learns that the job failed for good. -/
  | hooked (t : Task) (error : JobError) (call : Nat)
  /-- It tells the broker how the message ended. -/
  | settling (d : Delivery) (outcome : Outcome) (verdict : Verdict) (isCounted : Bool)
  /-- It waits before it asks the broker again. -/
  | idle
  /-- It has left the pool. -/
  | gone
  /-- A call of the broker crashed it. -/
  | crashed

namespace Phase

/-- Whether a slot has left its work, one way or the other. -/
def isOver : Phase → Bool
  | gone | crashed => true
  | _ => false

/-- Whether a slot counts among those that handle a message. -/
def isCounted : Phase → Bool
  | counted .. | calling _ | running .. | hooking .. | hooked .. => true
  | settling _ _ _ c => c
  | _ => false

/-- The delivery that a slot holds and has not settled. -/
def delivery? : Phase → Option Delivery
  | holding d => some d
  | counted t _ | calling t | running t _ | hooking t _ | hooked t _ _ => some t.delivery
  | settling d _ _ _ => some d
  | _ => none

/-- The invocation that a slot waits for. -/
def call? : Phase → Option Nat
  | running _ call | hooked _ _ call => some call
  | _ => none

end Phase

end JobQueue
