import JobQueue.Proofs.Pool.Sound
import JobQueue.Proofs.Store.Run

/-!
# Sites

A site is a broker that stays open, with pools that work for it.  Clients enqueue
messages and old records are forgotten; pools start and stop; and slots go on, each
by itself and in any order.  `Site.Step` is one of these things happening, and
`Site.Run` says which sites come about.  How a handler ends, what is drawn, and what
the clock says is up to the step.

A site also knows what was never written down in the program: the calls of the store
so far, and in which order invocations began.  It does not act on either.
-/

namespace JobQueue

/-- A slot or an invocation: the number of its pool and its number in the pool. -/
abbrev Place := Nat × Nat

/-- A broker with the pools that work for it. -/
structure Site (η : Type) where
  /-- The broker. -/
  broker : Broker := {}
  /-- The pools. -/
  pools : List (Pool η) := []
  /-- The calls of the store. -/
  history : History := []
  /-- The invocations, in the order in which they began. -/
  began : List Place := []

namespace Site

open History

variable {η : Type}

/-- The phase of a slot. -/
def phase? (s : Site η) (place : Place) : Option Phase :=
  s.pools[place.1]?.bind fun p => p.slots[place.2]?

/-- The invocation at a place. -/
def invocation? (s : Site η) (place : Place) : Option Invocation :=
  s.pools[place.1]?.bind fun p => p.invocations[place.2]?

/-- The site with another pool in the place of one. -/
def put (s : Site η) (i : Nat) (p : Pool η) : Site η := { s with pools := s.pools.set i p }

/-- The site after a call of its store. -/
def called (s : Site η) (q : Request) (b : Broker) : Site η :=
  { s with broker := b, history := s.history ++ [s.broker.store.exchange q] }

/-- The invocations that are in one pool and not yet in another one. -/
def newIn (i : Nat) (p p' : Pool η) : List Place :=
  (List.range' p.invocations.length (p'.invocations.length - p.invocations.length)).map (i, ·)

/-- The site after a turn of a slot, which may have begun an invocation. -/
def turned (s : Site η) (i : Nat) (p p' : Pool η) : Site η :=
  { s.put i p' with began := s.began ++ newIn i p p' }

/-- Something happens at a site. -/
inductive Step (s : Site η) : Site η → Prop where
  /-- A pool starts. -/
  | opened (w : Worker η) : Step s { s with pools := s.pools ++ [(Pool.start w).1] }
  /-- A client enqueues a message. -/
  | enqueued (id : JobId) (m : Message) (now : Instant) (fresh : id ∉ ids s.history) :
    Step s (s.called (.enqueue id m now) (s.broker.enqueue id m now).2)
  /-- Old records are forgotten. -/
  | pruned (cutoff : Instant) :
    Step s (s.called (.prune cutoff)
      { s.broker with store := (s.broker.store.prune cutoff).1 })
  /-- A slot pulls. -/
  | pulled {i : Nat} {p p' : Pool η} {b : Broker} {notices : List Notice}
    (found : s.pools[i]? = some p) (slot : Nat) (draw : Nat → Nat) (lease : LeaseToken)
    (now : Instant) (fresh : lease ∉ leases s.history)
    (h : p.pullFrom slot draw lease now s.broker = some (p', b, notices)) :
    Step s ((s.called (.dequeue (p.schedule.round draw) lease now) b).put i p')
  /-- A slot settles its message. -/
  | settled {i : Nat} {p p' : Pool η} {b : Broker} {notices : List Notice}
    (found : s.pools[i]? = some p) (slot : Nat) {d : Delivery} {outcome : Outcome} {v : Verdict}
    {isCounted : Bool} (phase : p.slots[slot]? = some (.settling d outcome v isCounted))
    (now : Instant) (h : p.settleWith slot now s.broker = some (p', b, notices)) :
    Step s ((s.called (.settle d v now) b).put i p')
  /-- A slot goes on without the broker. -/
  | moved {i : Nat} {p p' : Pool η} {notices : List Notice} (found : s.pools[i]? = some p)
    (slot : Nat) (m : Move) (own : m.isOwn) (h : p.step slot m = some (p', notices)) :
    Step s (s.turned i p p')
  /-- A pool is asked to stop. -/
  | stopping {i : Nat} {p : Pool η} (found : s.pools[i]? = some p) :
    Step s (s.put i p.requestStop.1)
  /-- A stop is over because all slots have left. -/
  | joined {i : Nat} {p p' : Pool η} {notices : List Notice} (found : s.pools[i]? = some p)
    (h : p.join? = some (p', notices)) : Step s (s.put i p')
  /-- A stop is over because its time is. -/
  | abandoned {i : Nat} {p : Pool η} (found : s.pools[i]? = some p) :
    Step s (s.put i p.abandon.2.1)

/-- The sites that come about from a new broker without pools. -/
inductive Run : Site η → Prop where
  /-- Nothing has happened. -/
  | start : Run {}
  /-- Something happens. -/
  | step {s s' : Site η} (run : Run s) (step : Step s s') : Run s'

end Site

/-! ## Brokers without outages -/

namespace Broker

variable {b : Broker}

/-- The broker after its store has answered a call. -/
def served (b : Broker) (q : Request) : Broker :=
  { b with
    store := (b.store.perform q).store
    told := (b.store.perform q).event.toList ++ b.told }

/-- Without outages a call gets through to the store. -/
theorem call_of_quiet {α : Type} (quiet : b.outages = []) (op : Operation)
    (run : Store → Except QueueError (Store.Step α)) (answer : α → Response) :
    b.call op run =
      (.answered ((run b.store).map Store.Step.answer),
        { b with
          store := (Store.Step.ofResult b.store answer (run b.store)).store
          told := (Store.Step.ofResult b.store answer (run b.store)).event.toList ++ b.told }) := by
  obtain ⟨store, outages, told, listeners⟩ := b
  cases quiet
  unfold call
  cases run store <;> rfl

theorem enqueue_of_quiet (quiet : b.outages = []) (id : JobId) (m : Message) (now : Instant) :
    (b.enqueue id m now).2 = b.served (.enqueue id m now) := by
  unfold enqueue
  rw [call_of_quiet quiet .enqueue _ .enqueued]
  rfl

theorem dequeue_of_quiet (quiet : b.outages = []) (queues : List String) (lease : LeaseToken)
    (now : Instant) :
    b.dequeue queues lease now =
      (.answered ((b.store.dequeue queues lease now).map Store.Step.answer),
        b.served (.dequeue queues lease now)) := by
  unfold dequeue
  rw [call_of_quiet quiet .dequeue _ .dequeued]
  rfl

theorem settle_of_quiet (quiet : b.outages = []) (d : Delivery) (v : Verdict) (now : Instant) :
    b.settle d v now =
      (.answered ((b.store.settle d v now).map Store.Step.answer), b.served (.settle d v now)) := by
  unfold settle
  rw [call_of_quiet quiet v.operation _ fun _ => .settled]
  rfl

end Broker

end JobQueue
