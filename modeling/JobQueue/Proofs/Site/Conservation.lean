import JobQueue.Proofs.Site.Shared
import JobQueue.Proofs.Site.Leases
import JobQueue.Proofs.Store.Held
import JobQueue.Proofs.Store.OneWay
import JobQueue.Proofs.Store.Order
import Mathlib

/-!
# Work is conserved

A pull asks for the queues of a pool in the order of a round.  A round holds every queue
once, whatever is drawn, so a pull comes back with nothing exactly if no message of these
queues is due (`Broker.dequeue_round_eq_none_iff`); and a strict round is in order, so
what it finds is of the first queue that has something (`Broker.first_of_strict`).

Where nobody but slots pulls and settles, pulls come to an end.  A slot lets a message
wait for another attempt only if it has one left (`Site.Spares`), so a message is handed
out no more often than it has attempts, whether it can be handled or not
(`Life.within`).  When all messages are early, under a lease, or over, a pull that comes
back with nothing rules out what is due, and a lease has a slot that holds it; so with
all slots at rest and nothing early, all that is left is over
(`Site.Run.isTerminal_of_pull`).
-/

namespace JobQueue

open History

/-! ## Pulls -/

namespace Schedule

/-- A round holds the queues that have a weight, whatever is drawn. -/
theorem mem_round {w : Weights} {isStrict : Bool} {draw : Nat → Nat} {name : String} :
    name ∈ (ofWeights w isStrict).round draw ↔ name ∈ w.entries.map Prod.fst := by
  rw [((ofWeights w isStrict).round_perm draw).mem_iff, names, ofWeights,
    ((ranked_perm w.entries).map Prod.fst).mem_iff]

/-- In a strict round, a queue that is heavier, or as heavy with a lesser name, comes
first. -/
theorem mem_of_before {w : Weights} {draw : Nat → Nat} {before after : List String} {name : String}
    (round : (ofWeights w true).round draw = before ++ name :: after) :
    ∃ weight, (name, weight) ∈ w.entries ∧ ∀ q ∈ w.entries,
      weight < q.2 ∨ weight = q.2 ∧ q.1 < name → q.1 ∈ before := by
  have strict : (ranked w.entries).map Prod.fst = before ++ name :: after := by
    rw [← round, Schedule.round, isFixed, ofWeights, Bool.true_or, if_pos rfl, names]
  obtain ⟨front, back, split, rfl, rest⟩ := List.map_eq_append_iff.mp strict
  obtain ⟨⟨name, weight⟩, behind, rfl, rfl, rfl⟩ := List.map_eq_cons_iff.mp rest
  have sorted := pairwise_ranked w.entries
  have members : ∀ q, q ∈ w.entries ↔ q ∈ front ++ (name, weight) :: behind := by
    intro q
    rw [← split, (ranked_perm w.entries).mem_iff]
  rw [split, List.pairwise_append, List.pairwise_cons] at sorted
  refine ⟨weight, (members _).mpr (by simp), fun q mem first => List.mem_map_of_mem ?_⟩
  rcases List.mem_append.mp ((members q).mp mem) with ahead | other
  · exact ahead
  · exfalso
    simp only [UInt32.lt_iff_toNat_lt, ← UInt32.toNat_inj] at first
    rcases List.mem_cons.mp other with rfl | other
    · rcases first with more | ⟨-, less⟩
      · exact Nat.lt_irrefl _ more
      · exact String.lt_irrefl _ less
    · have ranks := sorted.2.1.1 q other
      rw [ranksBefore_iff] at ranks
      simp only [UInt32.lt_iff_toNat_lt, ← UInt32.toNat_inj] at ranks
      rcases first with more | ⟨same, less⟩
      · omega
      · rcases ranks with more | ⟨-, le⟩
        · omega
        · exact String.not_lt.mpr le less

end Schedule

namespace Broker

variable {h : History} {b : Broker} {w : Weights} {isStrict : Bool} {draw : Nat → Nat}
  {lease : LeaseToken} {now : Instant}

/-- What a client gets is what the store answers. -/
theorem dequeue_eq_iff (quiet : b.outages = []) (queues : List String) (d : Option Delivery) :
    (b.dequeue queues lease now).1 = .answered (.ok d) ↔
      (b.store.perform (.dequeue queues lease now)).answer = .dequeued d := by
  rw [dequeue_of_quiet quiet, Store.perform_dequeue]
  cases b.store.dequeue queues lease now with
  | ok step =>
    simp only [Except.map, Store.Step.ofResult, Reply.answered.injEq, Except.ok.injEq,
      Response.dequeued.injEq]
  | error e => simp [Except.map, Store.Step.ofResult]

/-- A pull comes back with nothing exactly if no message of its queues is due. -/
theorem dequeue_round_eq_none_iff (run : Run h b.store) (isOpen : b.store.isOpen)
    (quiet : b.outages = []) :
    (b.dequeue ((Schedule.ofWeights w isStrict).round draw) lease now).1 = .answered (.ok none) ↔
      ∀ r ∈ b.store.records, r.IsDue now → r.message.queue ∉ w.entries.map Prod.fst := by
  rw [dequeue_eq_iff quiet, (run.dequeue_in_order isOpen _ lease now).1]
  simp only [Schedule.mem_round]

/-- An open broker answers a pull. -/
theorem exists_dequeue_eq (run : Run h b.store) (isOpen : b.store.isOpen) (quiet : b.outages = [])
    (queues : List String) (lease : LeaseToken) (now : Instant) :
    ∃ d, (b.dequeue queues lease now).1 = .answered (.ok d) := by
  obtain ⟨-, -, some⟩ := run.dequeue_in_order isOpen queues lease now
  by_cases none : (b.store.perform (.dequeue queues lease now)).answer = .dequeued .none
  · exact ⟨_, (dequeue_eq_iff quiet _ _).mpr none⟩
  · obtain ⟨r, answer, -⟩ := some none
    exact ⟨_, (dequeue_eq_iff quiet _ _).mpr answer⟩

/-- A strict pull finds a message of the first queue that has one that is due. -/
theorem first_of_strict (run : Run h b.store) (isOpen : b.store.isOpen) (quiet : b.outages = [])
    {d : Delivery}
    (pull : (b.dequeue ((Schedule.ofWeights w true).round draw) lease now).1 =
      .answered (.ok (some d))) :
    ∃ weight, (d.message.queue, weight) ∈ w.entries ∧ ∀ q ∈ w.entries,
      weight < q.2 ∨ weight = q.2 ∧ q.1 < d.message.queue →
        ∀ r ∈ b.store.records, r.IsDue now → r.message.queue ≠ q.1 := by
  rw [dequeue_eq_iff quiet] at pull
  obtain ⟨-, -, some⟩ := run.dequeue_in_order isOpen
    ((Schedule.ofWeights w true).round draw) lease now
  obtain ⟨r, answer, handsOut⟩ := some (by rw [pull]; nofun)
  rw [pull] at answer
  cases answer
  obtain ⟨before, after, round, others⟩ := handsOut.first
  obtain ⟨weight, configured, first⟩ := Schedule.mem_of_before round
  refine ⟨weight, configured, fun q mem less r' hr' due same => ?_⟩
  exact others r' hr' due (same ▸ first q mem less)

end Broker

/-! ## Attempts that are left -/

/-- Whether a message was let wait only after deliveries that were not the last. -/
def Moment.Spare (ms : List Moment) : Prop :=
  ∀ d retryAt error now, .settled d (.retry retryAt error) now ∈ ms →
    ∀ d' ∈ ms.filterMap leased?, d'.lease = d.lease → ¬ d'.isLast

theorem Moment.Spare.left {ms rest : List Moment} (spare : Spare (ms ++ rest)) : Spare ms := by
  intro d retryAt error now mem d' mem' lease
  refine spare d retryAt error now (List.mem_append_left _ mem) d' ?_ lease
  rw [List.filterMap_append]
  exact List.mem_append_left _ mem'

/-- A message is handed out no more often than it has attempts, and while it waits it has
one left. -/
theorem Life.within {id : JobId} {m : Message} {born : Instant} {ms : List Moment} {r : Record}
    (life : Life id m born ms r) (spare : Moment.Spare ms) :
    r.attempt.toNat = (ms.filterMap Moment.leased?).length ∧
      r.attempt.toNat ≤ m.budget.toNat ∧
      (r.status.isWaiting → r.attempt.toNat < m.budget.toNat) := by
  induction life with
  | fresh => exact ⟨rfl, Nat.zero_le _, fun _ => m.budget_pos⟩
  | @leased ms r life lease now ready ih =>
    obtain ⟨count, -, left⟩ := ih spare.left
    have left := left (Record.isWaiting_of_isDeliverable ready)
    have bound : m.budget.toNat < UInt32.size := m.budget.toNat_lt
    have next : (r.attempt + 1).toNat = r.attempt.toNat + 1 := by
      rw [UInt32.toNat_add]
      exact Nat.mod_eq_of_lt (Nat.lt_of_le_of_lt left bound)
    refine ⟨?_, ?_, nofun⟩
    · rw [Record.start, next, count]
      simp [Moment.leased?]
    · rw [Record.start, next]
      exact left
  | @settled ms r life d v now held ih =>
    obtain ⟨count, le, -⟩ := ih spare.left
    simp only [List.filterMap_append, List.filterMap_cons, List.filterMap_nil, Moment.leased?,
      List.append_nil, Record.settle_attempt]
    refine ⟨count, le, fun waits => ?_⟩
    cases v with
    | ack => cases waits
    | archive error => cases waits
    | retry retryAt error =>
      obtain ⟨t, last⟩ := life.getLast?_of_lease held
      have given : r.delivery d.lease ∈
          (ms ++ [Moment.settled d (.retry retryAt error) now]).filterMap Moment.leased? :=
        List.mem_filterMap.mpr ⟨_, List.mem_append_left _ (List.mem_of_getLast? last), rfl⟩
      have more := spare d retryAt error now (by simp) _ given rfl
      have budget : (r.delivery d.lease).maxAttempts = m.budget :=
        congrArg Message.budget life.message_eq.1
      have le' : (r.delivery d.lease).attempt.toNat ≤ (r.delivery d.lease).maxAttempts.toNat := by
        rw [budget]
        exact le
      rw [Delivery.isLast_iff le', budget] at more
      exact Nat.lt_of_le_of_ne le more

/-! ## Slots spare what is left -/

theorem Pool.Turn.not_isLast {η : Type} {p : Pool η} {f : Phase} {m : Move} {d : Delivery}
    {outcome : Outcome} {retryAt : Instant} {error : String} {isCounted : Bool}
    {calls : List Invocation} {counters : Metrics}
    (turn : p.Turn f m (.settling d outcome (.retry retryAt error) isCounted) calls counters) :
    ¬ d.isLast := by
  generalize eq : Phase.settling d outcome (.retry retryAt error) isCounted = f' at turn
  cases turn with
  | checked =>
    split at eq <;> cases eq
  | retried t call ending now result retryable more =>
    cases eq
    exact more
  | _ => cases eq

namespace Site

variable {η : Type} {s s' : Site η}

/-- Whether messages are let wait only after deliveries that were not the last. -/
structure Spares (s : Site η) : Prop where
  /-- No slot is about to let a message wait that has no attempt left. -/
  slots : ∀ place d outcome retryAt error isCounted,
    s.phase? place = some (.settling d outcome (.retry retryAt error) isCounted) → ¬ d.isLast
  /-- No message was let wait that had no attempt left. -/
  verdicts : ∀ d retryAt error, (d, .retry retryAt error) ∈ verdicts s.history →
    d ∈ deliveries s.history ∧ ¬ d.isLast

/-- A call leaves it so that does not let a message wait that has no attempt left. -/
theorem Spares.served (spares : s.Spares) {q : Request}
    (more : ∀ d retryAt error now, q = .settle d (.retry retryAt error) now →
      d ∈ deliveries s.history ∧ ¬ d.isLast) : (s.served q).Spares where
  slots := spares.slots
  verdicts d retryAt error mem := by
    have old : d ∈ deliveries s.history ∧ ¬ d.isLast := by
      have mem : (d, Verdict.retry retryAt error) ∈ History.verdicts (s.history ++ [_]) := mem
      rw [verdicts_concat] at mem
      rcases List.mem_append.mp mem with mem | mem
      · exact spares.verdicts d retryAt error mem
      · obtain ⟨now, eq⟩ := Store.verdict?_exchange (Option.mem_toList.mp mem)
        exact more d retryAt error now eq
    exact ⟨mem_deliveries_append old.1 _, old.2⟩

theorem Spares.change (spares : s.Spares) (given : s.Given) (change : Change s s') :
    s'.Spares := by
  cases change with
  | opened w =>
    refine ⟨fun place d outcome retryAt error isCounted phase => ?_, spares.verdicts⟩
    exact spares.slots place d outcome retryAt error isCounted
      ((phase?_opened w ⟨d, rfl, rfl⟩).mp phase)
  | tuned found agrees =>
    refine ⟨fun place d outcome retryAt error isCounted phase => ?_, spares.verdicts⟩
    rw [phase?_put_of_eq found agrees.slots] at phase
    exact spares.slots place d outcome retryAt error isCounted phase
  | client fresh ofClient =>
    refine spares.served fun d retryAt error now eq => ?_
    subst eq
    cases ofClient
  | @pulled i p found slot old draw lease now fresh m f turn answer =>
    have served := spares.served (q := .dequeue (p.schedule.round draw) lease now)
      fun _ _ _ _ eq => nomatch eq
    refine ⟨fun place d outcome retryAt error isCounted phase => ?_, served.verdicts⟩
    have found' : (s.served (.dequeue (p.schedule.round draw) lease now)).pools[i]? = some p :=
      found
    rw [phase?_put found' old] at phase
    split at phase
    · cases phase
      exact turn.not_isLast
    · exact spares.slots place d outcome retryAt error isCounted phase
  | @settled i p found slot d' outcome' v isCounted' old now =>
    have held : s.phase? (i, slot) = some (.settling d' outcome' v isCounted') := by
      rw [phase?_at found, old]
    have served := spares.served (q := .settle d' v now) fun d retryAt error now eq => by
      cases eq
      exact ⟨given _ _ _ held rfl, spares.slots _ _ _ _ _ _ held⟩
    refine ⟨fun place d outcome retryAt error isCounted phase => ?_, served.verdicts⟩
    have found' : (s.served (.settle d' v now)).pools[i]? = some p := found
    rw [phase?_put found' old] at phase
    split at phase
    · cases phase
    · exact spares.slots place d outcome retryAt error isCounted phase
  | @moved i p found slot f₀ f₁ m calls counters old turn own =>
    refine ⟨fun place d outcome retryAt error isCounted phase => ?_, spares.verdicts⟩
    have phase : (s.put i (p.after slot f₁ calls counters)).phase? place = _ := phase
    rw [phase?_put found old] at phase
    split at phase
    · cases phase
      exact turn.not_isLast
    · exact spares.slots place d outcome retryAt error isCounted phase

theorem Run.spares (run : s.Run) : s.Spares := by
  induction run with
  | start =>
    refine ⟨fun place d outcome retryAt error isCounted phase => ?_, by simp [verdicts]⟩
    simp [phase?] at phase
  | step run step ih => exact ih.change run.shared.given (step.change run.sound.quiet)

/-- The moments of a message spare what is left. -/
theorem Spares.spare (spares : s.Spares) (run : JobQueue.Run s.history s.broker.store) (id : JobId) :
    Moment.Spare (momentsOf s.history id) := by
  intro d retryAt error now mem d' mem' lease
  have verdict : (d, Verdict.retry retryAt error) ∈ verdictsOf s.history id := by
    rw [verdictsOf_eq]
    exact List.mem_filterMap.mpr ⟨_, mem, rfl⟩
  rw [← deliveriesOf_eq] at mem'
  obtain ⟨given, more⟩ := spares.verdicts d retryAt error (List.mem_of_mem_filter verdict)
  rw [eq_of_lease_eq run.leases_nodup (List.mem_of_mem_filter mem') given lease]
  exact more

/-- A message is handed out no more often than it has attempts. -/
theorem Run.length_deliveriesOf_le (run : s.Run) {id : JobId} {m : Message} {born : Instant}
    (taken : (id, m, born) ∈ enqueued s.history) :
    (deliveriesOf s.history id).length ≤ m.budget.toNat := by
  obtain ⟨r, life, -⟩ := run.sound.run.life taken
  obtain ⟨count, le, -⟩ := life.within (run.spares.spare run.sound.run id)
  rw [deliveriesOf_eq, ← count]
  exact le

end Site

/-- What is listed under some keys is no more than what is listed under each of them. -/
theorem length_le_sum_filter {α β : Type} [DecidableEq β] (key : α → β) (keys : List β)
    {l : List α} (cover : ∀ x ∈ l, key x ∈ keys) :
    l.length ≤ (keys.map fun k => (l.filter fun x => key x = k).length).sum := by
  induction keys generalizing l with
  | nil =>
    cases l with
    | nil => exact Nat.le_refl 0
    | cons x l => cases cover x List.mem_cons_self
  | cons k keys ih =>
    have others := ih (l := l.filter fun x => key x ≠ k) fun x mem => by
      obtain ⟨mem, ne⟩ := List.mem_filter.mp mem
      exact (List.mem_cons.mp (cover x mem)).resolve_left (by simpa using ne)
    have fewer : (keys.map fun k' => ((l.filter fun x => key x ≠ k).filter
        fun x => key x = k').length).sum ≤
          (keys.map fun k' => (l.filter fun x => key x = k').length).sum :=
      List.sum_le_sum fun k' _ => ((List.filter_sublist (l := l)).filter _).length_le
    have split := List.length_eq_length_filter_add (l := l) fun x => key x = k
    simp only [decide_not] at others fewer
    rw [List.map_cons, List.sum_cons, split]
    exact Nat.add_le_add_left (Nat.le_trans others fewer) _

namespace Site

variable {η : Type} {s s' : Site η}

/-- All messages together are handed out no more often than they have attempts. -/
theorem Run.length_deliveries_le (run : s.Run) :
    (deliveries s.history).length ≤
      ((enqueued s.history).map fun x => x.2.1.budget.toNat).sum := by
  have cover : ∀ d ∈ deliveries s.history, d.job ∈ ids s.history := fun d =>
    run.sound.run.job_mem_ids
  refine Nat.le_trans (length_le_sum_filter Delivery.job _ cover) ?_
  rw [ids, List.map_map]
  refine List.sum_le_sum fun x mem => ?_
  exact run.length_deliveriesOf_le mem

/-! ## What is left -/

/-- A slot keeps the message that it has until it settles it. -/
theorem Change.keeps (change : Change s s') {place : Place} {f : Phase} {d : Delivery}
    (phase : s.phase? place = some f) (has : f.delivery? = some d) :
    (∃ f', s'.phase? place = some f' ∧ f'.delivery? = some d) ∨
      ∃ v now, s'.history = s.history ++ [s.broker.store.exchange (.settle d v now)] := by
  cases change with
  | opened w => exact .inl ⟨f, (phase?_opened w ⟨d, has, rfl⟩).mpr phase, has⟩
  | tuned found agrees => exact .inl ⟨f, by rw [phase?_put_of_eq found agrees.slots, phase], has⟩
  | client => exact .inl ⟨f, phase, has⟩
  | @pulled i p found slot old draw lease now fresh m f' turn answer =>
    have found' : (s.served (.dequeue (p.schedule.round draw) lease now)).pools[i]? = some p :=
      found
    have other : place ≠ (i, slot) := by
      -- the slot that pulls has no message
      rintro rfl
      cases old.symm.trans ((phase?_at found slot).symm.trans phase)
      cases has
    exact .inl ⟨f, by rw [phase?_put found' old, if_neg other]; exact phase, has⟩
  | @settled i p found slot d' outcome v isCounted old now =>
    have found' : (s.served (.settle d' v now)).pools[i]? = some p := found
    by_cases here : place = (i, slot)
    · subst here
      cases old.symm.trans ((phase?_at found slot).symm.trans phase)
      cases has
      exact .inr ⟨v, now, rfl⟩
    · exact .inl ⟨f, by rw [phase?_put found' old, if_neg here]; exact phase, has⟩
  | @moved i p found slot f₀ f₁ m calls counters old turn own =>
    have after : (s.turned i p (p.after slot f₁ calls counters)).phase? place = _ :=
      phase?_put found old calls counters
    by_cases here : place = (i, slot)
    · subst here
      cases old.symm.trans ((phase?_at found slot).symm.trans phase)
      exact .inl ⟨f₁, after.trans (if_pos rfl), (turn.delivery?_eq own).trans has⟩
    · exact .inl ⟨f, (after.trans (if_neg here)).trans phase, has⟩

/-- What is handed out goes to a slot. -/
theorem Change.exists_phase (change : Change s s') {d : Delivery}
    (mem : d ∈ deliveries s'.history) :
    d ∈ deliveries s.history ∨ ∃ place f, s'.phase? place = some f ∧ f.delivery? = some d := by
  cases change with
  | opened => exact .inl mem
  | tuned => exact .inl mem
  | moved => exact .inl mem
  | client fresh ofClient =>
    refine (mem_deliveries_concat.mp mem).imp_right fun given => ?_
    obtain ⟨_, _, _, _, rfl, -⟩ := Store.delivery?_exchange given
    cases ofClient
  | @pulled i p found slot old draw lease now fresh m f turn answer =>
    have found' : (s.served (.dequeue (p.schedule.round draw) lease now)).pools[i]? = some p :=
      found
    refine (mem_deliveries_concat.mp mem).imp_right fun given => ?_
    rw [Store.dequeued_of_delivery? given] at answer
    exact ⟨(i, slot), f, (phase?_put found' old _ _).trans (if_pos rfl), by rw [answer]; rfl⟩
  | settled =>
    refine (mem_deliveries_concat.mp mem).imp_right fun given => ?_
    obtain ⟨_, _, _, _, request, -⟩ := Store.delivery?_exchange given
    cases request

/-- Whether for everything that was handed out there is a verdict or a slot that has it. -/
def Kept (s : Site η) : Prop :=
  ∀ d ∈ deliveries s.history,
    IsAnswered s.history d ∨ ∃ place f, s.phase? place = some f ∧ f.delivery? = some d

theorem Kept.change (kept : s.Kept) (sound : s.Sound) (isOpen : s.broker.store.isOpen)
    (given : s.Given) (change : Change s s') : s'.Kept := by
  intro d mem
  rcases change.exists_phase mem with old | new
  · rcases kept d old with answered | ⟨place, f, phase, has⟩
    · obtain ⟨later, history⟩ := change.history
      exact .inl (history ▸ answered.append later)
    · rcases change.keeps phase has with ⟨f', phase', has'⟩ | ⟨v, now, history⟩
      · exact .inr ⟨place, f', phase', has'⟩
      · rw [history]
        exact .inl (sound.run.isAnswered_settle isOpen (given place f d phase has) v now)
  · exact .inr new

theorem Run.kept (run : s.Run) : s.Kept := by
  induction run with
  | start =>
    intro d mem
    cases mem
  | step run step ih =>
    exact ih.change run.sound run.isOpen run.shared.given (step.change run.sound.quiet)

/-- Whether no slot has a message. -/
def IsIdle (s : Site η) : Prop := ∀ place f, s.phase? place = some f → f.delivery? = none

/-- When no slot has a message, none is early, and a pull comes back with nothing, then all
messages of the queues of the pull are over. -/
theorem Run.isTerminal_of_pull (run : s.Run) (idle : s.IsIdle) {w : Weights} {isStrict : Bool}
    {draw : Nat → Nat} {lease : LeaseToken} {now : Instant}
    (pull : (s.broker.dequeue ((Schedule.ofWeights w isStrict).round draw) lease now).1 =
      .answered (.ok none))
    {r : Record} (mem : r ∈ s.broker.store.records)
    (configured : r.message.queue ∈ w.entries.map Prod.fst) (inTime : ¬ r.IsEarly now) :
    r.status.isTerminal := by
  have sound := run.sound
  rw [Broker.dequeue_round_eq_none_iff sound.run run.isOpen sound.quiet] at pull
  have notDue : ¬ r.IsDue now := fun due => pull r mem due configured
  have notWaiting : ¬ r.status.isWaiting := fun waits =>
    inTime (Record.isEarly_of_not_isDue waits notDue)
  have found := sound.run.record?_of_mem mem
  obtain ⟨m, born, -, life⟩ := sound.run.life_of_record? found
  cases status : r.status with
  | completed => rfl
  | archived => rfl
  | active =>
    obtain ⟨lease, held⟩ := Option.isSome_iff_exists.mp (life.lease_isSome_iff.mpr status)
    have given := sound.run.delivery_mem found held
    rcases run.kept _ given with answered | ⟨place, f, phase, has⟩
    · exact absurd held (sound.run.lease_ne_of_isAnswered given answered found)
    · rw [idle place f phase] at has
      cases has
  | _ => simp [status, Status.isWaiting] at notWaiting

/-- A pull at an open broker comes back with nothing exactly if no message of its queues is
due; and what a strict one brings is of the first queue that has a message that is due.
Where only slots pull and settle, all messages together are handed out no more often than
they have attempts; and when no slot has a message, none on the queues of a pool is early,
and a pull of this pool comes back with nothing, then all messages on its queues are over,
or were when they were forgotten. -/
theorem conserves_work (η : Type) :
    (∀ s : Site η, Shared s → s.broker.store.isOpen →
      ∀ (w : Weights) (isStrict : Bool) (draw : Nat → Nat) (lease : LeaseToken) (now : Instant),
        ∃ d, (s.broker.dequeue ((Schedule.ofWeights w isStrict).round draw) lease now).1 =
            .answered (.ok d) ∧
          (d = none ↔ ∀ r ∈ s.broker.store.records, r.IsDue now →
            r.message.queue ∉ w.entries.map Prod.fst) ∧
          ∀ given, d = some given → isStrict →
            ∃ weight, (given.message.queue, weight) ∈ w.entries ∧ ∀ q ∈ w.entries,
              weight < q.2 ∨ weight = q.2 ∧ q.1 < given.message.queue →
                ∀ r ∈ s.broker.store.records, r.IsDue now → r.message.queue ≠ q.1) ∧
      ∀ s : Site η, Run s →
        (deliveries s.history).length ≤
            ((enqueued s.history).map fun x => x.2.1.budget.toNat).sum ∧
          ∀ p ∈ s.pools, s.IsIdle → ∀ (draw : Nat → Nat) (lease : LeaseToken) (now : Instant),
            (s.broker.dequeue (p.schedule.round draw) lease now).1 = .answered (.ok none) →
            (∀ r ∈ s.broker.store.records, r.message.queue ∈ p.schedule.names →
              ¬ r.IsEarly now) →
            ∀ id m born, (id, m, born) ∈ enqueued s.history → m.queue ∈ p.schedule.names →
              (∃ r, s.broker.store.record? id = some r ∧ r.message = m ∧ r.status.isTerminal) ∨
                Forgot s.history id := by
  refine ⟨fun s shared isOpen w isStrict draw lease now => ?_, fun s run =>
    ⟨run.length_deliveries_le, fun p mem idle draw lease now pull inTime id m born taken on => ?_⟩⟩
  · have sound := shared.sound
    obtain ⟨d, pull⟩ := Broker.exists_dequeue_eq sound.run isOpen sound.quiet
      ((Schedule.ofWeights w isStrict).round draw) lease now
    refine ⟨d, pull, ?_, fun given same strict => ?_⟩
    · have none : (s.broker.dequeue ((Schedule.ofWeights w isStrict).round draw) lease now).1 =
          .answered (.ok none) ↔ _ :=
        Broker.dequeue_round_eq_none_iff sound.run isOpen sound.quiet
      rw [← none, pull, Reply.answered.injEq, Except.ok.injEq]
    · subst same strict
      exact Broker.first_of_strict sound.run isOpen sound.quiet pull
  · have sound := run.sound
    cases found : s.broker.store.record? id with
    | none =>
      exact .inr ((sound.run.record?_eq_none_iff (List.mem_map_of_mem taken)).mp found)
    | some r =>
      obtain ⟨r', life, knows⟩ := sound.run.life taken
      cases knows.eq_of_record? found
      have message := life.message_eq.1
      have configured : r.message.queue ∈ p.settings.queues.entries.map Prod.fst := by
        rw [message]
        exact ((Schedule.ranked_perm _).map Prod.fst).mem_iff.mp on
      have mem := Store.mem_of_record? found
      exact .inl ⟨r, rfl, message, run.isTerminal_of_pull idle pull mem configured
        (inTime r mem (message ▸ on))⟩

theorem conserves_work_of_example :
    ∃ (s s' : Site Unit) (d : Delivery) (r : Record), Shared s ∧ s'.Run ∧
      (s.broker.dequeue ((Schedule.ofWeights (.ofList [("default", 1), ("late", 2)]) true).round
        fun _ => 0) ⟨"x"⟩ .epoch).1 = .answered (.ok (some d)) ∧ d.message.queue = "default" ∧
      (∀ r ∈ s.broker.store.records, r.IsDue .epoch → r.message.queue ≠ "late") ∧
      (deliveries s'.history).length = 2 ∧ 2 ≤ exampleMessage.budget.toNat ∧
      s'.broker.store.record? ⟨"1"⟩ = some r ∧ r.status.isTerminal := by
  have run : Site.Run (η := Unit) _ := .step .start (.opened exampleWorker)
  have run := run.step (.enqueued ⟨"1"⟩ exampleMessage .epoch (by decide))
  have waiting := run.shared
  -- the message waits for a pull, and then for another one,
  have run := run.step (.moved (i := 0) rfl 0 .check rfl rfl)
  have run := run.step (.pulled (i := 0) rfl 0 (fun _ => 0) ⟨"x"⟩ .epoch (by decide) rfl)
  have run := run.step (.moved (i := 0) rfl 0 .look rfl rfl)
  have run := run.step (.moved (i := 0) rfl 0 .raise rfl rfl)
  have run := run.step (.moved (i := 0) rfl 0 .call rfl rfl)
  have run := run.step (.moved (i := 0) rfl 0 (.finish (.panicked none) .epoch) rfl rfl)
  have run := run.step (.settled (i := 0) rfl 0 rfl .epoch rfl)
  have run := run.step (.moved (i := 0) rfl 0 .check rfl rfl)
  have run := run.step (.pulled (i := 0) rfl 0 (fun _ => 0) ⟨"y"⟩ .epoch (by decide) rfl)
  have run := run.step (.moved (i := 0) rfl 0 .look rfl rfl)
  have run := run.step (.moved (i := 0) rfl 0 .raise rfl rfl)
  have run := run.step (.moved (i := 0) rfl 0 .call rfl rfl)
  have run := run.step (.moved (i := 0) rfl 0 (.finish (.returned (.ok ())) .epoch) rfl rfl)
  have run := run.step (.settled (i := 0) rfl 0 rfl .epoch rfl)
  -- and at last a pull finds nothing
  obtain ⟨pulls, runs⟩ := conserves_work Unit
  obtain ⟨d, pull, -, first⟩ := pulls _ waiting rfl (.ofList [("default", 1), ("late", 2)]) true
    (fun _ => 0) ⟨"x"⟩ .epoch
  cases pull
  obtain ⟨weight, mem, first⟩ := first _ rfl rfl
  obtain ⟨bound, rest⟩ := runs _ run
  have rest := rest _ List.mem_cons_self (by
    rintro ⟨i, slot⟩ f phase
    obtain ⟨p, found, phase⟩ := Option.bind_eq_some_iff.mp phase
    cases List.mem_singleton.mp (List.mem_of_getElem? found)
    cases List.mem_singleton.mp (List.mem_of_getElem? phase)
    rfl) (fun _ => 0) ⟨"z"⟩ .epoch rfl (by
    intro r mem _
    cases List.mem_singleton.mp mem
    rintro (⟨status, -⟩ | ⟨_, status, -⟩) <;> cases status)
  have lighter : weight < 2 := by
    rcases List.mem_cons.mp mem with same | other
    · cases same
      decide
    · have name : "default" = "late" := congrArg Prod.fst (List.mem_singleton.mp other)
      exact absurd name (by decide)
  rcases rest ⟨"1"⟩ exampleMessage .epoch (by decide) (by decide) with ⟨r, found, -, ended⟩ | gone
  · exact ⟨_, _, _, r, waiting, run, rfl, rfl, first ("late", 2) (by decide) (.inl lighter), rfl,
      bound, found, ended⟩
  · cases (run.sound.run.record?_eq_none_iff (by decide)).mpr gone

end Site

end JobQueue
