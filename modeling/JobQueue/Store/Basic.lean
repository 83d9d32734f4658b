import JobQueue.Error
import JobQueue.Event.Basic

/-!
# The store of a broker

The records of all messages, and the messages that wait, in the order in which
they came.  A queue is what waits under its name.

Messages are handed out under a lease.  The first queue asked for that has a
message to hand out gives it, and of its messages the one that waits longest
goes first; those whose time has not come are passed over.  Only who shows the
lease settles the message.  Every operation gives the new store and what it has
to tell about the message; an operation that fails gives neither.

Identifiers, leases and times come from outside, so an operation is a function
of its arguments.
-/

namespace JobQueue

/-- A message that waits, and where. -/
structure Ticket where
  /-- The message. -/
  job : JobId
  /-- The queue. -/
  queue : String
deriving DecidableEq, Repr

/-- How a delivery is settled. -/
inductive Verdict where
  /-- The message is done. -/
  | ack
  /-- The message waits for another attempt. -/
  | retry (retryAt : Instant) (error : String)
  /-- The message is given up. -/
  | archive (error : String)
deriving DecidableEq, Repr

/-- The number of records for each status. -/
structure Stats where
  /-- Messages that wait for their time. -/
  scheduled : Nat := 0
  /-- Messages that wait for a worker. -/
  pending : Nat := 0
  /-- Messages that a worker holds. -/
  active : Nat := 0
  /-- Messages that wait for another attempt. -/
  retrying : Nat := 0
  /-- Messages that are done. -/
  completed : Nat := 0
  /-- Messages that were given up. -/
  archived : Nat := 0
deriving DecidableEq, Repr

/-- Count a status. -/
def Stats.count (s : Stats) : Status → Stats
  | .scheduled => { s with scheduled := s.scheduled + 1 }
  | .pending => { s with pending := s.pending + 1 }
  | .active => { s with active := s.active + 1 }
  | .retrying _ => { s with retrying := s.retrying + 1 }
  | .completed _ => { s with completed := s.completed + 1 }
  | .archived _ _ => { s with archived := s.archived + 1 }

/-- The records of a broker and what waits. -/
structure Store where
  /-- The records, in the order in which their messages came. -/
  records : List Record := []
  /-- The messages that wait, in the order in which they came. -/
  waiting : List Ticket := []
  /-- Whether the broker serves its clients. -/
  isOpen : Bool := true
deriving DecidableEq, Repr

namespace Store

/-- What an operation leads to. -/
structure Step (α : Type) where
  /-- The answer. -/
  answer : α
  /-- The store after it. -/
  store : Store
  /-- What there is to tell. -/
  event : Option Event

/-! ## Looking -/

/-- The record of a message. -/
def record? (s : Store) (id : JobId) : Option Record := s.records.find? fun r => r.id = id

/-- Where a message stands. -/
def status? (s : Store) (id : JobId) : Option Status := (s.record? id).map Record.status

/-- The messages that wait on a queue. -/
def queue (s : Store) (name : String) : List JobId :=
  (s.waiting.filter fun t => t.queue = name).map Ticket.job

/-- The number of records for each status. -/
def stats (s : Store) : Stats := s.records.foldl (fun n r => n.count r.status) {}

/-- Whether a record comes before another one by the time it was made. -/
def isOlder (a b : Record) : Bool := a.createdAt ≤ b.createdAt

/-- Put a record among records in the order of their times, behind those of its
own time. -/
def insertByAge (r : Record) : List Record → List Record
  | [] => [r]
  | p :: rest => if isOlder p r then p :: insertByAge r rest else r :: p :: rest

/-- The records of messages that were given up, the oldest first. -/
def archived (s : Store) : List Record :=
  (s.records.filter fun r => r.status matches .archived _ _).foldl (fun l r => insertByAge r l) []

/-- Whether a message may be handed out. -/
def isReady (s : Store) (now : Instant) (t : Ticket) : Bool :=
  match s.record? t.job with
  | some r => r.isDeliverable now
  | none => false

/-- The message to hand out next to who asks for these queues. -/
def next? (s : Store) (queues : List String) (now : Instant) : Option Ticket :=
  queues.findSome? fun q => s.waiting.find? fun t => t.queue = q && s.isReady now t

/-! ## Changing -/

/-- Change the record of a message. -/
def update (s : Store) (id : JobId) (change : Record → Record) : Store :=
  { s with records := s.records.map fun r => if r.id = id then change r else r }

/-- Fail if the broker does not serve its clients. -/
def whenOpen {α : Type} (s : Store) (go : Except QueueError α) : Except QueueError α :=
  if s.isOpen then go else .error .unavailable

/-- Take a new message. -/
def enqueue (s : Store) (id : JobId) (m : Message) (now : Instant) :
    Except QueueError (Step JobId) :=
  s.whenOpen <| .ok
    { answer := id
      store :=
        { s with
          records := s.records ++ [.ofMessage id m now]
          waiting := s.waiting ++ [{ job := id, queue := m.queue }] }
      event := some (.enqueued id m.queue m.type now) }

/-- Hand out a message of one of the queues. -/
def dequeue (s : Store) (queues : List String) (lease : LeaseToken) (now : Instant) :
    Except QueueError (Step (Option Delivery)) :=
  s.whenOpen <| .ok <|
    match (s.next? queues now).bind fun t => (s.record? t.job).map fun r => (t, r) with
    | none => { answer := none, store := s, event := none }
    | some (t, r) =>
      let held := r.start lease now
      { answer := some { job := held.id, message := held.message, attempt := held.attempt, lease }
        store := { s.update t.job fun _ => held with waiting := s.waiting.erase t }
        event := some (.leased held.id held.attempt now) }

/-- The record of a delivery, if the delivery is the current one. -/
def leased (s : Store) (d : Delivery) : Except QueueError Record :=
  match s.record? d.job with
  | none => .error (.jobNotFound d.job.text)
  | some r => if r.lease = some d.lease then .ok r else .error .invalidLease

/-- Settle a delivery. -/
def settle (s : Store) (d : Delivery) (verdict : Verdict) (now : Instant) :
    Except QueueError (Step Unit) :=
  s.whenOpen <|
    match s.leased d with
    | .error e => .error e
    | .ok r => .ok <|
      match verdict with
      | .ack =>
        { answer := ()
          store := s.update d.job fun _ => r.complete now
          event := some (.completed d.job now) }
      | .retry retryAt error =>
        { answer := ()
          store :=
            { s.update d.job fun _ => r.retry retryAt error now with
              waiting := s.waiting ++ [{ job := d.job, queue := r.message.queue }] }
          event := some (.retrying d.job retryAt error now) }
      | .archive error =>
        { answer := ()
          store := s.update d.job fun _ => r.archive error now
          event := some (.archived d.job error now) }

/-- Whether nothing follows for a record that did not change since a time. -/
def isOutdated (cutoff : Instant) (r : Record) : Bool :=
  r.status.isTerminal && r.updatedAt < cutoff

/-- Forget the records that are outdated: the store without them and their
number. -/
def prune (s : Store) (cutoff : Instant) : Store × Nat :=
  let kept := s.records.filter fun r => !isOutdated cutoff r
  ({ s with records := kept }, s.records.length - kept.length)

/-- Forget the records that did not change for a span; all stay where the span
reaches back beyond the first instant. -/
def reap (s : Store) (retention : Span) (now : Instant) : Store × Nat :=
  match now.before? retention with
  | some cutoff => s.prune cutoff
  | none => (s, 0)

/-- Serve clients no more. -/
def close (s : Store) : Store := { s with isOpen := false }

end Store

end JobQueue
