import JobQueue.Proofs.Store.Records

/-!
# Calls of a store

A client calls a store with a `Request` and gets a `Response`.  `Store.perform`
is the store at work: what it answers, the store after the call, and what there
is to tell.  Identifiers, leases and times are part of a request, since they come
from outside.

`Store.perform_effect` is the one place where the operations of a store are
opened.  It says everything that a call can do, as an `Effect` with a case for
each outcome; what every call preserves is proved by these cases.
-/

namespace JobQueue

/-- What a client asks of a store. -/
inductive Request where
  /-- To take a message. -/
  | enqueue (id : JobId) (m : Message) (now : Instant)
  /-- To hand out a message of one of the queues. -/
  | dequeue (queues : List String) (lease : LeaseToken) (now : Instant)
  /-- To settle a delivery. -/
  | settle (d : Delivery) (v : Verdict) (now : Instant)
  /-- To forget the records that are outdated. -/
  | prune (cutoff : Instant)
  /-- To serve clients no more. -/
  | close
deriving DecidableEq

/-- What a store answers. -/
inductive Response where
  /-- It has taken the message. -/
  | enqueued (id : JobId)
  /-- It hands out a message, or has none to hand out. -/
  | dequeued (d : Option Delivery)
  /-- The delivery is settled. -/
  | settled
  /-- So many records are forgotten. -/
  | pruned (removed : Nat)
  /-- It serves clients no more. -/
  | closed
  /-- It fails. -/
  | refused (e : QueueError)
deriving DecidableEq

/-- What is told of a verdict. -/
def Verdict.event (id : JobId) (now : Instant) : Verdict → Event
  | ack => .completed id now
  | retry retryAt error => .retrying id retryAt error now
  | archive error => .archived id error now

/-- Where a message waits after a verdict. -/
def Verdict.tickets (r : Record) : Verdict → List Ticket
  | retry _ _ => [r.ticket]
  | _ => []

namespace Store

/-- What a call leads to by the result of an operation: one that fails leaves the
store as it is. -/
def Step.ofResult {α : Type} (s : Store) (answer : α → Response) :
    Except QueueError (Step α) → Step Response
  | .ok t => { answer := answer t.answer, store := t.store, event := t.event }
  | .error e => { answer := .refused e, store := s, event := none }

/-- Answer a call. -/
def perform (s : Store) : Request → Step Response
  | .enqueue id m now => .ofResult s .enqueued (s.enqueue id m now)
  | .dequeue queues lease now => .ofResult s .dequeued (s.dequeue queues lease now)
  | .settle d v now => .ofResult s (fun _ => .settled) (s.settle d v now)
  | .prune cutoff =>
    { answer := .pruned (s.prune cutoff).2, store := (s.prune cutoff).1, event := none }
  | .close => { answer := .closed, store := s.close, event := none }

theorem perform_settle (s : Store) (d : Delivery) (v : Verdict) (now : Instant) :
    s.perform (.settle d v now) = .ofResult s (fun _ => .settled) (s.settle d v now) := rfl

theorem perform_dequeue (s : Store) (queues : List String) (lease : LeaseToken) (now : Instant) :
    s.perform (.dequeue queues lease now) =
      .ofResult s .dequeued (s.dequeue queues lease now) := rfl

/-! ## The stores after calls that succeed -/

/-- The store with a new message. -/
def enqueued (s : Store) (id : JobId) (m : Message) (now : Instant) : Store :=
  { s with
    records := s.records ++ [.ofMessage id m now]
    waiting := s.waiting ++ [{ job := id, queue := m.queue }] }

/-- The store after the message of a record was handed out. -/
def handedOut (s : Store) (t : Ticket) (r : Record) (lease : LeaseToken) (now : Instant) : Store :=
  { s.update t.job fun _ => r.start lease now with waiting := s.waiting.erase t }

/-- The store after a verdict on the message of a record. -/
def settled (s : Store) (r : Record) (v : Verdict) (now : Instant) : Store :=
  { s.update r.id fun _ => r.settle now v with waiting := s.waiting ++ v.tickets r }

variable {s : Store}

theorem record?_enqueued (id other : JobId) (m : Message) (now : Instant) :
    (s.enqueued id m now).record? other =
      (s.record? other).or (if id = other then some (.ofMessage id m now) else none) := by
  have hid : (Record.ofMessage id m now).id = id := rfl
  unfold enqueued record?
  rw [List.find?_append, List.find?_singleton, hid]
  simp only [decide_eq_true_eq]

theorem record?_handedOut {t : Ticket} {r : Record} (found : s.record? t.job = some r)
    (lease : LeaseToken) (now : Instant) (other : JobId) :
    (s.handedOut t r lease now).record? other =
      if other = t.job then some (r.start lease now) else s.record? other := by
  have hid : (r.start lease now).id = t.job := (r.start_id lease).trans (id_of_record? found)
  have h := s.record?_update t.job other hid
  rw [found] at h
  exact h

theorem record?_settled {id : JobId} {r : Record} (found : s.record? id = some r) (v : Verdict)
    (now : Instant) (other : JobId) :
    (s.settled r v now).record? other =
      if other = id then some (r.settle now v) else s.record? other := by
  have hid := id_of_record? found
  subst hid
  have same : (r.settle now v).id = r.id := r.settle_id v
  have h := s.record?_update r.id other same
  rw [found] at h
  exact h

theorem record?_close (id : JobId) : s.close.record? id = s.record? id := rfl

/-- A message is handed out only if it has a record that says that it may be. -/
theorem isReady_of_next? {queues : List String} {now : Instant} {t : Ticket}
    (h : s.next? queues now = some t) : t.queue ∈ queues ∧ t ∈ s.waiting ∧ s.isReady now t := by
  obtain ⟨q, hq, hf⟩ := List.exists_of_findSome?_eq_some h
  have hp := List.find?_some hf
  simp only [Bool.and_eq_true, decide_eq_true_eq] at hp
  exact ⟨hp.1 ▸ hq, List.mem_of_find?_eq_some hf, hp.2⟩

theorem isReady_iff {now : Instant} {t : Ticket} :
    s.isReady now t ↔ ∃ r, s.record? t.job = some r ∧ r.isDeliverable now := by
  unfold isReady
  cases s.record? t.job <;> simp

/-! ## What the operations give -/

theorem enqueue_of_isOpen (isOpen : s.isOpen) (id : JobId) (m : Message) (now : Instant) :
    s.enqueue id m now = .ok
      { answer := id, store := s.enqueued id m now
        event := some (.enqueued id m.queue m.type now) } := by
  unfold enqueue whenOpen
  rw [if_pos isOpen]
  rfl

theorem dequeue_of_next?_eq_none (isOpen : s.isOpen) {queues : List String} (lease : LeaseToken)
    {now : Instant} (h : s.next? queues now = none) :
    s.dequeue queues lease now = .ok { answer := none, store := s, event := none } := by
  unfold dequeue whenOpen
  rw [if_pos isOpen, h]
  rfl

theorem dequeue_of_next?_eq_some (isOpen : s.isOpen) {queues : List String} (lease : LeaseToken)
    {now : Instant} {t : Ticket} {r : Record} (h : s.next? queues now = some t)
    (hr : s.record? t.job = some r) :
    s.dequeue queues lease now = .ok
      { answer := some ((r.start lease now).delivery lease)
        store := s.handedOut t r lease now
        event := some (.leased r.id (r.attempt + 1) now) } := by
  unfold dequeue whenOpen
  rw [if_pos isOpen, h, Option.bind_some, hr]
  rfl

theorem settle_of_missing (isOpen : s.isOpen) {d : Delivery} (v : Verdict) (now : Instant)
    (h : s.record? d.job = none) : s.settle d v now = .error (.jobNotFound d.job.text) := by
  unfold settle whenOpen leased
  rw [if_pos isOpen, h]

theorem settle_of_stale (isOpen : s.isOpen) {d : Delivery} (v : Verdict) (now : Instant)
    {r : Record} (hr : s.record? d.job = some r) (h : r.lease ≠ some d.lease) :
    s.settle d v now = .error .invalidLease := by
  unfold settle whenOpen leased
  rw [if_pos isOpen, hr]
  simp only [if_neg h]

theorem settle_of_held (isOpen : s.isOpen) {d : Delivery} (v : Verdict) (now : Instant)
    {r : Record} (hr : s.record? d.job = some r) (h : r.lease = some d.lease) :
    s.settle d v now = .ok
      { answer := (), store := s.settled r v now, event := some (v.event d.job now) } := by
  have hid := id_of_record? hr
  unfold settle whenOpen leased
  rw [if_pos isOpen, hr]
  simp only [if_pos h]
  cases v with
  | ack =>
    simp only [settled, Record.settle, Verdict.tickets, Verdict.event, hid, List.append_nil]
    rfl
  | retry retryAt error =>
    simp only [settled, Record.settle, Verdict.tickets, Verdict.event, Record.ticket, hid]
  | archive error =>
    simp only [settled, Record.settle, Verdict.tickets, Verdict.event, hid, List.append_nil]
    rfl

/-! ## What a call does -/

/-- What a call does to a store. -/
inductive Effect (s : Store) : Request → Step Response → Prop where
  /-- It fails. -/
  | refused (q : Request) (e : QueueError) :
    Effect s q { answer := .refused e, store := s, event := none }
  /-- It adds a message. -/
  | enqueued (isOpen : s.isOpen) (id : JobId) (m : Message) (now : Instant) :
    Effect s (.enqueue id m now)
      { answer := .enqueued id, store := s.enqueued id m now
        event := some (.enqueued id m.queue m.type now) }
  /-- It finds no message to hand out. -/
  | nothing (isOpen : s.isOpen) {queues : List String} (lease : LeaseToken) {now : Instant}
    (next : s.next? queues now = none) :
    Effect s (.dequeue queues lease now) { answer := .dequeued none, store := s, event := none }
  /-- It hands out a message. -/
  | leased (isOpen : s.isOpen) {queues : List String} (lease : LeaseToken) {now : Instant}
    {t : Ticket} {r : Record} (next : s.next? queues now = some t)
    (found : s.record? t.job = some r) (ready : r.isDeliverable now) :
    Effect s (.dequeue queues lease now)
      { answer := .dequeued (some ((r.start lease now).delivery lease))
        store := s.handedOut t r lease now
        event := some (.leased r.id (r.attempt + 1) now) }
  /-- It settles a delivery. -/
  | settled (isOpen : s.isOpen) {d : Delivery} (v : Verdict) (now : Instant) {r : Record}
    (found : s.record? d.job = some r) (held : r.lease = some d.lease) :
    Effect s (.settle d v now)
      { answer := .settled, store := s.settled r v now, event := some (v.event d.job now) }
  /-- It forgets records. -/
  | pruned (cutoff : Instant) :
    Effect s (.prune cutoff)
      { answer := .pruned (s.prune cutoff).2, store := (s.prune cutoff).1, event := none }
  /-- It closes the store. -/
  | closed : Effect s .close { answer := .closed, store := s.close, event := none }

/-- Every call has one of these effects. -/
theorem perform_effect (s : Store) (q : Request) : Effect s q (s.perform q) := by
  by_cases isOpen : s.isOpen
  · cases q with
    | enqueue id m now =>
      simp only [perform, enqueue_of_isOpen isOpen]
      exact .enqueued isOpen id m now
    | dequeue queues lease now =>
      cases hn : s.next? queues now with
      | none =>
        simp only [perform, dequeue_of_next?_eq_none isOpen lease hn]
        exact .nothing isOpen lease hn
      | some t =>
        obtain ⟨r, hr, ready⟩ := isReady_iff.mp (isReady_of_next? hn).2.2
        simp only [perform, dequeue_of_next?_eq_some isOpen lease hn hr]
        exact .leased isOpen lease hn hr ready
    | settle d v now =>
      cases hr : s.record? d.job with
      | none =>
        simp only [perform, settle_of_missing isOpen v now hr]
        exact .refused _ _
      | some r =>
        by_cases held : r.lease = some d.lease
        · simp only [perform, settle_of_held isOpen v now hr held]
          exact .settled isOpen v now hr held
        · simp only [perform, settle_of_stale isOpen v now hr held]
          exact .refused _ _
    | prune cutoff => exact .pruned cutoff
    | close => exact .closed
  · have closed (α : Type) (go : Except QueueError α) : s.whenOpen go = .error .unavailable := by
      simp [whenOpen, isOpen]
    cases q with
    | enqueue id m now =>
      simp only [perform, enqueue, closed]
      exact .refused _ _
    | dequeue queues lease now =>
      simp only [perform, dequeue, closed]
      exact .refused _ _
    | settle d v now =>
      simp only [perform, settle, closed]
      exact .refused _ _
    | prune cutoff => exact .pruned cutoff
    | close => exact .closed

/-- A call that fails changes nothing and tells nothing. -/
theorem perform_of_refused {q : Request} {e : QueueError} (h : (s.perform q).answer = .refused e) :
    (s.perform q).store = s ∧ (s.perform q).event = none := by
  have effect := s.perform_effect q
  generalize s.perform q = step at effect h
  cases effect with
  | refused => exact ⟨rfl, rfl⟩
  | enqueued => cases h
  | nothing => cases h
  | leased => cases h
  | settled => cases h
  | pruned => cases h
  | closed => cases h

/-- A store serves its clients until it is closed. -/
theorem isOpen_perform {q : Request} (stays : q ≠ .close) :
    (s.perform q).store.isOpen = s.isOpen := by
  have effect := s.perform_effect q
  generalize s.perform q = step at effect ⊢
  cases effect with
  | closed => exact absurd rfl stays
  | _ => rfl

end Store

end JobQueue
