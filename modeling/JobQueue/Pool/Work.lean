import JobQueue.Pool.Step

/-!
# Pools at work

The moves of a slot in which it calls the broker: it pulls from the queues of its
pool in the order of a round, and it settles its message with its verdict.
-/

namespace JobQueue

namespace Pool

variable {η : Type}

/-- Pull a message from the broker; `draw` orders the queues. -/
def pullFrom (p : Pool η) (slot : Nat) (draw : Nat → Nat) (lease : LeaseToken) (now : Instant)
    (b : Broker) : Option (Pool η × Broker × List Notice) :=
  let (reply, b') := b.dequeue (p.schedule.round draw) lease now
  (p.step slot (.pull reply)).map fun r => (r.1, b', r.2)

/-- Settle the message of a slot with the broker. -/
def settleWith (p : Pool η) (slot : Nat) (now : Instant) (b : Broker) :
    Option (Pool η × Broker × List Notice) :=
  match p.slots[slot]? with
  | some (.settling d _ verdict _) =>
    let (reply, b') := b.settle d verdict now
    (p.step slot (.settle reply)).map fun r => (r.1, b', r.2)
  | _ => none

end Pool

end JobQueue
