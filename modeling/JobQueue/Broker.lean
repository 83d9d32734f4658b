import JobQueue.Store.Basic

/-!
# Brokers

A broker is a store that clients call, with the events it told and how far each
listener has followed them.  A call may meet an outage before it reaches the
store; it then fails or crashes, and changes nothing.
-/

namespace JobQueue

/-- What a client asks of a broker. -/
inductive Operation where
  /-- To take a message. -/
  | enqueue
  /-- To hand a message out. -/
  | dequeue
  /-- To mark a message as done. -/
  | ack
  /-- To let a message wait for another attempt. -/
  | retry
  /-- To give a message up. -/
  | archive
deriving DecidableEq, Repr

/-- What a client asks for with a verdict. -/
def Verdict.operation : Verdict → Operation
  | ack => .ack
  | retry _ _ => .retry
  | archive _ => .archive

/-- What a call meets instead of the store. -/
inductive Outage where
  /-- It fails. -/
  | failure (e : QueueError)
  /-- It crashes its caller. -/
  | crash
deriving DecidableEq, Repr

/-- What comes back from a call. -/
inductive Reply (α : Type) where
  /-- An answer or an error. -/
  | answered (r : Except QueueError α)
  /-- Nothing: the caller crashes. -/
  | crashed

/-- A store that clients call. -/
structure Broker where
  /-- The store. -/
  store : Store := {}
  /-- The operations that meet an outage. -/
  outages : List (Operation × Outage) := []
  /-- The events that were told, the latest first. -/
  told : List Event := []
  /-- For each listener the number of events that it has followed. -/
  listeners : List Nat := [0]

namespace Broker

/-- The most events that are kept for a listener. -/
abbrev kept : Nat := 1024

/-- Let an operation meet an outage from now on, or none. -/
def setOutage (b : Broker) (op : Operation) (outage : Option Outage) : Broker :=
  let others := b.outages.filter fun o => o.1 ≠ op
  { b with outages := (outage.map fun o => (op, o)).toList ++ others }

/-- Call the store. -/
def call {α : Type} (b : Broker) (op : Operation)
    (run : Store → Except QueueError (Store.Step α)) : Reply α × Broker :=
  match b.outages.lookup op with
  | some (.failure e) => (.answered (.error e), b)
  | some .crash => (.crashed, b)
  | none =>
    match run b.store with
    | .error e => (.answered (.error e), b)
    | .ok step =>
      (.answered (.ok step.answer),
        { b with store := step.store, told := step.event.toList ++ b.told })

/-- Take a new message. -/
def enqueue (b : Broker) (id : JobId) (m : Message) (now : Instant) : Reply JobId × Broker :=
  b.call .enqueue fun s => s.enqueue id m now

/-- Hand out a message of one of the queues. -/
def dequeue (b : Broker) (queues : List String) (lease : LeaseToken) (now : Instant) :
    Reply (Option Delivery) × Broker :=
  b.call .dequeue fun s => s.dequeue queues lease now

/-- Settle a delivery. -/
def settle (b : Broker) (d : Delivery) (verdict : Verdict) (now : Instant) : Reply Unit × Broker :=
  b.call verdict.operation fun s => s.settle d verdict now

/-- Forget the records that are outdated: their number. -/
def prune (b : Broker) (cutoff : Instant) : Nat × Broker :=
  let (store, removed) := b.store.prune cutoff
  (removed, { b with store })

/-- Forget the records that did not change for a span: their number. -/
def reap (b : Broker) (retention : Span) (now : Instant) : Nat × Broker :=
  let (store, removed) := b.store.reap retention now
  (removed, { b with store })

/-- Add a listener, from now on. -/
def listen (b : Broker) : Nat × Broker :=
  (b.listeners.length, { b with listeners := b.listeners ++ [b.told.length] })

/-- The events that wait for a listener, the latest ones if there are too many. -/
def follow (b : Broker) (listener : Nat) : List Event × Broker :=
  let seen := b.listeners[listener]?.getD b.told.length
  (((b.told.take (b.told.length - seen)).take kept).reverse,
    { b with listeners := b.listeners.set listener b.told.length })

end Broker

end JobQueue
