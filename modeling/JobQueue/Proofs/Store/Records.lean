import JobQueue.Store.Basic

/-!
# The records of a store

What the changes of a store do to the look-up of a record (`Store.record?`) and
to its queues (`Store.queue`).  Later modules argue by these laws and do not go
back to the lists behind them.

`Store.record?_prune` needs that no two records are of one message.  The other
laws hold of any store.
-/

namespace JobQueue

/-! ## Records and verdicts -/

/-- The record of a message after a verdict on its delivery. -/
def Record.settle (r : Record) (now : Instant) : Verdict → Record
  | .ack => r.complete now
  | .retry retryAt error => r.retry retryAt error now
  | .archive error => r.archive error now

/-- The delivery of a message that a worker holds under a lease. -/
def Record.delivery (r : Record) (lease : LeaseToken) : Delivery where
  job := r.id
  message := r.message
  attempt := r.attempt
  lease := lease

/-- Where a message of a record waits, if it does. -/
def Record.ticket (r : Record) : Ticket where
  job := r.id
  queue := r.message.queue

/-- Whether a message with this status waits on its queue. -/
def Status.isWaiting : Status → Bool
  | .scheduled | .pending | .retrying _ => true
  | _ => false

/-- A message for which nothing follows does not wait. -/
theorem Status.not_isWaiting_of_isTerminal {st : Status} (h : st.isTerminal) :
    ¬ st.isWaiting := by
  cases st with
  | completed => nofun
  | archived => nofun
  | _ => cases h

/-- Whether a message waits for a worker, or for a time that has come. -/
def Record.IsDue (r : Record) (now : Instant) : Prop :=
  r.status = .pending ∨ (r.status = .scheduled ∧ r.message.processAt ≤ now) ∨
    ∃ due, r.status = .retrying due ∧ due ≤ now

/-- Whether a message waits for a time that has not come. -/
def Record.IsEarly (r : Record) (now : Instant) : Prop :=
  (r.status = .scheduled ∧ now < r.message.processAt) ∨
    ∃ due, r.status = .retrying due ∧ now < due

namespace Record

variable {r : Record} {now : Instant}

@[simp] theorem settle_id (v : Verdict) : (r.settle now v).id = r.id := by cases v <;> rfl

@[simp] theorem settle_message (v : Verdict) : (r.settle now v).message = r.message := by
  cases v <;> rfl

@[simp] theorem settle_attempt (v : Verdict) : (r.settle now v).attempt = r.attempt := by
  cases v <;> rfl

@[simp] theorem settle_lease (v : Verdict) : (r.settle now v).lease = none := by cases v <;> rfl

@[simp] theorem start_id (lease : LeaseToken) : (r.start lease now).id = r.id := rfl

@[simp] theorem start_message (lease : LeaseToken) :
    (r.start lease now).message = r.message := rfl

theorem isDeliverable_iff : r.isDeliverable now ↔ r.IsDue now := by
  unfold isDeliverable Message.isDue IsDue
  cases r.status <;> simp

/-- A message that waits is due or early. -/
theorem isEarly_of_not_isDue (waits : r.status.isWaiting) (h : ¬ r.IsDue now) :
    r.IsEarly now := by
  unfold IsDue at h
  unfold IsEarly
  simp only [Instant.le_def, Instant.lt_def] at h ⊢
  cases hs : r.status <;> simp_all [Status.isWaiting]

/-- Only messages that wait are handed out. -/
theorem isWaiting_of_isDeliverable (h : r.isDeliverable now) : r.status.isWaiting := by
  unfold isDeliverable at h
  unfold Status.isWaiting
  cases hs : r.status <;> simp_all

end Record

namespace Store

variable {s : Store} {id : JobId} {r : Record}

/-! ## Looking records up -/

theorem id_of_record? (h : s.record? id = some r) : r.id = id := by
  simpa using List.find?_some h

theorem mem_of_record? (h : s.record? id = some r) : r ∈ s.records :=
  List.mem_of_find?_eq_some h

theorem record?_eq_none_iff : s.record? id = none ↔ id ∉ s.records.map Record.id := by
  simp [record?]

/-- Where no two records are of one message, every record is found under its own
identifier. -/
theorem record?_of_mem (nodup : (s.records.map Record.id).Nodup) (h : r ∈ s.records) :
    s.record? r.id = some r := by
  unfold record?
  generalize s.records = records at nodup h
  induction records with
  | nil => cases h
  | cons p rest ih =>
    rw [List.map_cons, List.nodup_cons] at nodup
    rcases List.mem_cons.mp h with rfl | h
    · simp
    · have hne : ¬ p.id = r.id := fun e => nodup.1 (e ▸ List.mem_map_of_mem h)
      rw [List.find?_cons_of_neg (by simpa using hne)]
      exact ih nodup.2 h

/-- Putting a record in the place of that of its message changes no other one. -/
theorem record?_update (s : Store) (id other : JobId) (h : r.id = id) :
    (s.update id fun _ => r).record? other =
      if other = id then (s.record? id).map fun _ => r else s.record? other := by
  unfold update record?
  induction s.records with
  | nil => simp
  | cons p rest ih =>
    simp only [List.map_cons, List.find?_cons]
    by_cases hp : p.id = id
    · by_cases ho : other = id
      · subst ho
        simp [hp, h]
      · have hi : ¬ id = other := fun e => ho e.symm
        simpa [hp, h, ho, hi] using ih
    · by_cases ho : p.id = other
      · have hi : ¬ other = id := fun e => hp (ho.trans e)
        simp [ho, hi]
      · simpa [hp, ho] using ih

/-- Putting a record in the place of that of its message keeps the identifiers. -/
theorem ids_update (s : Store) (h : r.id = id) :
    (s.update id fun _ => r).records.map Record.id = s.records.map Record.id := by
  simp only [update, List.map_map]
  apply List.map_congr_left
  intro p _
  simp only [Function.comp_apply]
  split
  · next hp => rw [h, hp]
  · rfl

/-- Leaving out records keeps the others. -/
theorem record?_filter (nodup : (s.records.map Record.id).Nodup) (kept : Record → Bool)
    (id : JobId) :
    { s with records := s.records.filter kept }.record? id = (s.record? id).filter kept := by
  unfold record?
  dsimp only
  generalize s.records = records at nodup
  induction records with
  | nil => rfl
  | cons p rest ih =>
    rw [List.map_cons, List.nodup_cons] at nodup
    have ih := ih nodup.2
    rw [List.filter_cons]
    by_cases hp : p.id = id
    · have hrest : rest.find? (fun q => q.id = id) = none := by
        rw [List.find?_eq_none]
        intro q hq e
        rw [decide_eq_true_eq] at e
        exact nodup.1 (hp ▸ e ▸ List.mem_map_of_mem hq)
      by_cases hk : kept p
      · rw [if_pos hk, List.find?_cons_of_pos (by simpa using hp),
          List.find?_cons_of_pos (by simpa using hp)]
        simp [Option.filter, hk]
      · rw [if_neg hk, ih, hrest, List.find?_cons_of_pos (by simpa using hp)]
        simp [Option.filter, hk]
    · rw [List.find?_cons_of_neg (by simpa using hp), ← ih]
      split
      · rw [List.find?_cons_of_neg (by simpa using hp)]
      · rfl

/-- Forgetting records keeps the others. -/
theorem record?_prune (nodup : (s.records.map Record.id).Nodup) (cutoff : Instant) (id : JobId) :
    (s.prune cutoff).1.record? id = (s.record? id).filter fun r => !isOutdated cutoff r :=
  record?_filter nodup _ id

/-! ## Queues -/

theorem mem_queue {q : String} : id ∈ s.queue q ↔ { job := id, queue := q } ∈ s.waiting := by
  simp only [queue, List.mem_map, List.mem_filter, decide_eq_true_eq]
  constructor
  · rintro ⟨t, ⟨ht, rfl⟩, rfl⟩
    exact ht
  · intro h
    exact ⟨_, ⟨h, rfl⟩, rfl⟩

theorem queue_ne_nil_iff {q : String} : s.queue q ≠ [] ↔ q ∈ s.waiting.map Ticket.queue := by
  simp [queue]

end Store

end JobQueue
