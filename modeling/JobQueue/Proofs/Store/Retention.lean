import JobQueue.Broker
import JobQueue.Proofs.Store.Run

/-!
# What is forgotten, and what is kept

A broker that forgets records leaves them out of its store and does nothing else
(`Broker.Forgets`): the others stay, whatever waits goes on waiting, and no listener hears
of it.  Pruning forgets the records of messages that are over and did not change since a
time; reaping does so for the time that is a span ago.

There may be no such time, as the span is too long for a shift or the calendar begins
later, and then reaping forgets nothing.  This is no exception: a record cannot have
changed before the calendar begins (`Instant.le_of_before?_eq_none`).  So in either case
the records that go are those that did not change for longer than the span, counted in
exact nanoseconds (`Broker.forgets_exactly`).
-/

namespace JobQueue

open History

/-! ## How long ago -/

namespace Instant

variable {t u c : Instant} {d : Span}

/-- Being before the instant that is a span ago. -/
theorem lt_of_before?_eq_some (before : t.before? d = some c) :
    u < c ↔ u.nanos + d.nanos < t.nanos := by
  have exactly := (before?_eq_some_iff.mp before).1
  rw [lt_def]
  omega

/-- Where no instant is a span ago, none is longer ago. -/
theorem le_of_before?_eq_none (nowhere : t.before? d = none) : t.nanos ≤ u.nanos + d.nanos := by
  cases ago : ofNanos? (t.nanos - d.nanos) with
  | none =>
    have earliest := u.earliest_le
    have latest := t.le_latest
    have out := ofNanos?_eq_none_iff.mp ago
    omega
  | some c =>
    obtain ⟨exactly, isLeap⟩ := ofNanos?_eq_some_iff.mp ago
    have before : t.before? d = some c := before?_eq_some_iff.mpr ⟨by omega, isLeap⟩
    exact absurd (nowhere.symm.trans before) (Option.some_ne_none c).symm

end Instant

/-- Whether nothing follows for a record that did not change for longer than a span. -/
def Record.isStale (retention : Span) (now : Instant) (r : Record) : Bool :=
  r.status.isTerminal && decide (r.updatedAt.nanos + retention.nanos < now.nanos)

/-! ## Forgetting -/

namespace Store

variable {s : Store}

/-- A store without some of its records. -/
def without (s : Store) (old : Record → Bool) : Store :=
  { s with records := s.records.filter fun r => !old r }

theorem without_without (s : Store) (old older : Record → Bool) :
    (s.without old).without older = s.without fun r => old r || older r := by
  simp only [without, List.filter_filter, Bool.not_or, Bool.and_comm]

theorem without_none (s : Store) : (s.without fun _ => false) = s := by
  have all : s.records.filter (fun _ => true) = s.records :=
    List.filter_eq_self.mpr fun _ _ => rfl
  simp only [without, Bool.not_false, all]

theorem length_without_add_countP (s : Store) (old : Record → Bool) :
    (s.without old).records.length + s.records.countP old = s.records.length := by
  rw [s.records.length_eq_countP_add_countP old, Nat.add_comm, without,
    ← List.countP_eq_length_filter]
  simp

theorem prune_eq (s : Store) (cutoff : Instant) :
    s.prune cutoff = (s.without (isOutdated cutoff), s.records.countP (isOutdated cutoff)) := by
  have count := s.length_without_add_countP (isOutdated cutoff)
  refine Prod.ext rfl ?_
  show s.records.length - (s.without (isOutdated cutoff)).records.length = _
  omega

/-- Reaping forgets the stale records, whether there is an instant to count from or not. -/
theorem reap_eq (s : Store) (retention : Span) (now : Instant) :
    s.reap retention now =
      (s.without (Record.isStale retention now),
        s.records.countP (Record.isStale retention now)) := by
  unfold reap
  cases before : now.before? retention with
  | some cutoff =>
    have same : isOutdated cutoff = Record.isStale retention now := by
      funext r
      rw [isOutdated, Record.isStale, decide_eq_decide.mpr (Instant.lt_of_before?_eq_some before)]
    simp only [prune_eq, same]
  | none =>
    have fresh : Record.isStale retention now = fun _ => false := by
      funext r
      have recent := Instant.le_of_before?_eq_none (u := r.updatedAt) before
      rw [Record.isStale, decide_eq_false (Int.not_lt.mpr recent), Bool.and_false]
    rw [fresh, without_none, List.countP_false]
    rfl

/-- What is outdated by the later of two times is outdated by one of them. -/
theorem isOutdated_max (c₁ c₂ : Instant) :
    isOutdated (max c₁ c₂) = fun r => isOutdated c₁ r || isOutdated c₂ r := by
  funext r
  simp only [isOutdated, Instant.lt_max_iff, Bool.decide_or, Bool.and_or_distrib_left]

/-- Pruning twice is pruning once by the later time. -/
theorem prune_prune (s : Store) (c₁ c₂ : Instant) :
    ((s.prune c₁).1.prune c₂).1 = (s.prune (max c₁ c₂)).1 ∧
      (s.prune c₁).2 + ((s.prune c₁).1.prune c₂).2 = (s.prune (max c₁ c₂)).2 := by
  have stores : ((s.prune c₁).1.prune c₂).1 = (s.prune (max c₁ c₂)).1 := by
    rw [prune_eq s, prune_eq, prune_eq, isOutdated_max]
    exact s.without_without _ _
  refine ⟨stores, ?_⟩
  -- each count is what the store has lost, so they add up as the losses do
  have first := s.length_without_add_countP (isOutdated c₁)
  have second := (s.without (isOutdated c₁)).length_without_add_countP (isOutdated c₂)
  have once := s.length_without_add_countP (isOutdated (max c₁ c₂))
  simp only [prune_eq] at stores ⊢
  rw [stores] at second
  omega

end Store

/-- Whether a broker forgets so many records, those that are old, and does nothing else. -/
structure Broker.Forgets (b : Broker) (old : Record → Bool) (removed : Nat) (b' : Broker) :
    Prop where
  records : b'.store.records = b.store.records.filter fun r => !old r
  record? : ∀ id, b'.store.record? id = (b.store.record? id).filter fun r => !old r
  removed : removed = b.store.records.countP old
  waiting : b'.store.waiting = b.store.waiting
  queue : ∀ name, b'.store.queue name = b.store.queue name
  isOpen : b'.store.isOpen = b.store.isOpen
  told : b'.told = b.told
  heard : ∀ listener, (b'.follow listener).1 = (b.follow listener).1
  outages : b'.outages = b.outages

namespace Broker

variable {h : History} {b : Broker}

theorem forgets_without (run : Run h b.store) (old : Record → Bool) :
    b.Forgets old (b.store.records.countP old) { b with store := b.store.without old } where
  records := rfl
  record? id := Store.record?_filter run.ids_records.1 _ id
  removed := rfl
  waiting := rfl
  queue _ := rfl
  isOpen := rfl
  told := rfl
  heard _ := rfl
  outages := rfl

/-- Reaping forgets exactly the records that are over and did not change for longer than a
span; pruning those that are over and did not change since a time; and to prune by two times
is to prune by the later one. -/
theorem forgets_exactly (run : Run h b.store) :
    (∀ retention now, b.Forgets (Record.isStale retention now)
      (b.reap retention now).1 (b.reap retention now).2) ∧
    (∀ cutoff, b.Forgets (Store.isOutdated cutoff) (b.prune cutoff).1 (b.prune cutoff).2) ∧
    ∀ c₁ c₂, ((b.prune c₁).2.prune c₂).2 = (b.prune (max c₁ c₂)).2 ∧
      (b.prune c₁).1 + ((b.prune c₁).2.prune c₂).1 = (b.prune (max c₁ c₂)).1 := by
  refine ⟨fun retention now => ?_, fun cutoff => ?_, fun c₁ c₂ => ?_⟩
  · simp only [reap, Store.reap_eq]
    exact forgets_without run _
  · simp only [prune, Store.prune_eq]
    exact forgets_without run _
  · obtain ⟨stores, counts⟩ := b.store.prune_prune c₁ c₂
    exact ⟨congrArg (fun store => { b with store }) stores, counts⟩

/-- One message was given up at the start of 1970 and one still waits: six nanoseconds later a
span of five forgets the first, and the longest span forgets nothing. -/
theorem forgets_exactly_of_example :
    ∃ h s, replay exampleRequests = some (h, s) ∧
      ((reap { store := s } (.ofNanos 5) (.nearest 6)).1 = 1 ∧
        ((reap { store := s } (.ofNanos 5) (.nearest 6)).2.store.record? ⟨"1"⟩) = none ∧
        ((reap { store := s } (.ofNanos 5) (.nearest 6)).2.store.queue "post") = [⟨"2"⟩]) ∧
      (reap { store := s } .longest .latest).1 = 0 ∧
      (prune { store := s } .epoch).1 +
        ((prune { store := s } .epoch).2.prune .latest).1 = 1 := by
  obtain ⟨⟨h, s⟩, eq⟩ : ∃ p, replay exampleRequests = some p := ⟨_, rfl⟩
  obtain ⟨reaps, -, twice⟩ := forgets_exactly (b := { store := s }) (Run.of_replay eq)
  have short := reaps (.ofNanos 5) (.nearest 6)
  have long := reaps .longest .latest
  have prunes := (twice .epoch .latest).2
  refine ⟨h, s, eq, ⟨?_, ?_, ?_⟩, ?_, ?_⟩
  · rw [short.removed]
    cases eq
    decide
  · rw [short.record?]
    cases eq
    decide
  · rw [short.queue]
    cases eq
    decide
  · rw [long.removed]
    cases eq
    decide
  · rw [prunes]
    cases eq
    decide

end Broker

end JobQueue
