import JobQueue.Proofs.Pool.Messages
import Mathlib

/-!
# What the counters of a pool count

A counter goes up at one step of a handling, and what the broker sees of it happens at
another one.  In between the slot stands for the difference: a slot that is about to
tell the broker of an outcome has counted it already, one that has pulled a message has
not.  `Pool.Run.counter` is this argument once for all counters, with what a slot stands
for as the weight of its phase.

It gives the outcomes (`Pool.Run.count_eq`), the messages that were handled
(`Pool.Run.processed_eq`) and those that were dropped (`Pool.Run.dropped_eq`).  The
counters of the types add up to those of the pool (`Pool.Run.types_eq`).

Counters have 64 bits, so all this is about runs that pull fewer messages than they can
count.
-/

namespace JobQueue

variable {η : Type}

/-- The message that a slot has not looked at yet. -/
def Phase.held? : Phase → Option Delivery
  | holding d => some d
  | _ => none

/-- The message on which a slot has not ruled yet. -/
def Phase.pending? (f : Phase) : Option Delivery :=
  match f.ruling? with
  | some _ => none
  | none => f.delivery?

/-- The name of the event that is told of a verdict. -/
def Verdict.tells : Verdict → String
  | ack => "completed"
  | retry _ _ => "retrying"
  | archive _ => "archived"

/-- The name of the event that is told of an outcome. -/
def Outcome.tells : Outcome → String
  | succeeded => "completed"
  | retried => "retrying"
  | failed | dropped => "archived"

theorem Tally.count_record_eq (t : Tally) (o o' : Outcome) :
    (t.record o').count o = t.count o + .ofNat (decide (o' = o)).toNat := by
  rw [count_record]
  by_cases same : o' = o <;> simp [same]

namespace Pool

variable {w : Worker η} {deeds : List (Deed η)} {p : Pool η} {slot : Nat} {f f' : Phase}
  {m : Move} {calls : List Invocation} {counters : Metrics}

/-! ## Counters -/

theorem toNat_any {β : Type} (b : β → Bool) (o : Option β) :
    (o.any b).toNat = o.toList.countP b := by
  cases o with
  | none => rfl
  | some x => cases isSo : b x <;> simp [isSo]

/-- What stands for entries of a list one by one, all together. -/
theorem sum_any {α β : Type} (g : α → Option β) (b : β → Bool) (l : List α) :
    (l.map fun a => (((g a).any b).toNat : Int)).sum = (l.filterMap g).countP b := by
  induction l with
  | nil => rfl
  | cons a l ih =>
    rw [List.map_cons, List.sum_cons, ih]
    cases here : g a with
    | none => simp [here]
    | some x => cases isSo : b x <;> simp [here, isSo, Int.add_comm]

theorem length_pulled (run : Run w deeds p) :
    (pulled deeds).length = (ruled deeds).length + (p.slots.filterMap Phase.delivery?).length := by
  rw [run.pulled_perm.length_eq, List.length_append, List.length_map]

theorem length_pulled_lt {x : Deed η} {n : Nat} (few : (pulled (deeds ++ [x])).length < n) :
    (pulled deeds).length < n := by
  rw [pulled, List.filterMap_append, List.length_append] at few
  exact Nat.lt_of_le_of_lt (Nat.le_add_right _ _) few

/-- A counter counts what steps add to it, and what slots stand for. -/
theorem Run.counter (c : Metrics → UInt64) (adds : Deed η → Int) (weight : Phase → Int)
    (start : c {} = 0) (ready : weight .ready = 0)
    (turn : ∀ {deeds p slot f m f' calls counters}, Run w deeds p → p.slots[slot]? = some f →
      p.Turn f m f' calls counters → ∃ n : Nat, c counters = c p.metrics + .ofNat n ∧
        (n : Int) = adds ⟨p, slot, m, p.after slot f' calls counters⟩ + weight f' - weight f)
    (bound : ∀ {deeds p}, Run w deeds p →
      (deeds.map adds).sum + (p.slots.map weight).sum ≤ (pulled deeds).length)
    (run : Run w deeds p) (few : (pulled deeds).length < UInt64.size) :
    ((c p.metrics).toNat : Int) = (deeds.map adds).sum + (p.slots.map weight).sum := by
  induction run using Run.induction with
  | start =>
    have none : ((Pool.start w).1.slots.map weight).sum = 0 := by
      refine List.sum_eq_zero fun n mem => ?_
      obtain ⟨f, slot, rfl⟩ := List.mem_map.mp mem
      rw [eq_ready_of_mem_start slot, ready]
    rw [none]
    show ((c {}).toNat : Int) = _
    rw [start]
    rfl
  | @turned deeds p slot f m f' calls counters run found turned later ih =>
    obtain ⟨n, added, own⟩ := turn run found turned
    obtain ⟨rest, before, after⟩ := exists_rest found f'
    have below := bound later
    have fewer := length_pulled_lt few
    have old := ih fewer
    have weights : ((p.after slot f' calls counters).slots.map weight).sum = _ :=
      (after.map weight).sum_eq
    rw [(before.map weight).sum_eq, List.map_cons, List.sum_cons] at old
    rw [List.map_append, List.sum_append, weights] at below ⊢
    simp only [List.map_cons, List.map_nil, List.sum_cons, List.sum_nil] at below ⊢
    have fits : (c p.metrics).toNat + n < UInt64.size := by omega
    have exact : (c counters).toNat = (c p.metrics).toNat + n := by
      have small : (UInt64.ofNat n).toNat = n := UInt64.toNat_ofNat_of_lt (by omega)
      rw [added, UInt64.toNat_add, small]
      exact Nat.mod_eq_of_lt fits
    show ((c counters).toNat : Int) = _
    omega
  | tuned isStopping isOver run later ih => exact ih few

/-! ## Outcomes -/

/-- A turn counts an outcome when it comes to it, and tells it later. -/
theorem Turn.count (turn : p.Turn f m f' calls counters) (found : p.slots[slot]? = some f)
    (o : Outcome) (after : Pool η) :
    ∃ n : Nat, counters.total.count o = p.metrics.total.count o + .ofNat n ∧
      (n : Int) = ((Deed.mk p slot m after).ruling?.any (·.outcome = o)).toNat +
        (f'.ruling?.any (·.outcome = o)).toNat - (f.ruling?.any (·.outcome = o)).toNat := by
  have old : (Deed.mk p slot m after).old? = some f := found
  cases turn with
  | checked => exact ⟨0, (UInt64.add_zero _).symm, by split <;> rfl⟩
  | malformed | unknown | mismatched | succeeded | retried | untold | learned =>
    exact ⟨_, Tally.count_record_eq .., by simp [Phase.ruling?, Deed.ruling?]⟩
  | settled d outcome v isCounted =>
    refine ⟨0, ?_, by simp [Phase.ruling?, Deed.ruling?, old]⟩
    cases isCounted <;> exact (UInt64.add_zero _).symm
  | settleCrashed d outcome v isCounted =>
    refine ⟨0, ?_, by simp [Phase.ruling?, Deed.ruling?, old]⟩
    cases isCounted <;> exact (UInt64.add_zero _).symm
  | _ => exact ⟨0, (UInt64.add_zero _).symm, rfl⟩

/-- What slots are about to tell is no more than what they have. -/
theorem length_ruling?_le (slots : List Phase) :
    (slots.filterMap Phase.ruling?).length ≤ (slots.filterMap Phase.delivery?).length := by
  rw [List.length_filterMap_eq_countP, List.length_filterMap_eq_countP]
  refine List.countP_mono_left fun f _ about => ?_
  cases f <;> first | rfl | cases about

/-- An outcome was counted as often as slots told it or are about to. -/
theorem Run.count_eq (run : Run w deeds p) (few : (pulled deeds).length < UInt64.size)
    (o : Outcome) :
    (p.metrics.total.count o).toNat = (ruled deeds).countP (·.outcome = o) +
      (p.slots.filterMap Phase.ruling?).countP (·.outcome = o) := by
  have count := run.counter (fun m => m.total.count o)
    (fun x => (x.ruling?.any (·.outcome = o)).toNat)
    (fun f => (f.ruling?.any (·.outcome = o)).toNat) (by cases o <;> rfl) rfl
    (fun run found turn => turn.count found o _)
    (by
      intro deeds p run
      have told := List.countP_le_length (p := fun r : Ruling => r.outcome = o) (l := ruled deeds)
      have about := List.countP_le_length (p := fun r : Ruling => r.outcome = o)
        (l := p.slots.filterMap Phase.ruling?)
      have has := length_ruling?_le p.slots
      rw [sum_any, sum_any, length_pulled run, ruled]
      rw [ruled] at told
      omega)
    few
  rw [sum_any, sum_any] at count
  exact_mod_cast count

/-! ## Messages that are handled or dropped -/

/-- Whether a step counts the message that its slot has not decided about, if it is of a
kind, and decides about it; or counts nothing, and decides about none. -/
def CountsOnce (g : Phase → Option Delivery) (b : Delivery → Bool) (f f' : Phase) (x : Deed η)
    (old new : UInt64) : Prop :=
  (∃ d, g f = some d ∧ g f' = none ∧ x.pulled? = none ∧ new = old + .ofNat (b d).toNat) ∨
    new = old ∧ (g f').toList = (g f).toList ++ x.pulled?.toList

/-- A counter for a kind of messages counts those that were pulled, except for those that
no slot has decided about. -/
theorem Run.counted_once (c : Metrics → UInt64) (g : Phase → Option Delivery) (b : Delivery → Bool)
    (start : c {} = 0) (ready : g .ready = none)
    (turn : ∀ {deeds p slot f m f' calls counters}, Run w deeds p → p.slots[slot]? = some f →
      p.Turn f m f' calls counters → CountsOnce g b f f'
        ⟨p, slot, m, p.after slot f' calls counters⟩ (c p.metrics) (c counters))
    (run : Run w deeds p) (few : (pulled deeds).length < UInt64.size) :
    (c p.metrics).toNat + (p.slots.filterMap g).countP b = (pulled deeds).countP b := by
  have neg (l : List Phase) : (l.map fun f => -(((g f).any b).toNat : Int)).sum =
      -((l.filterMap g).countP b : Int) := by
    rw [← sum_any, List.sum_neg, List.map_map]
    rfl
  have count := run.counter c (fun x => (x.pulled?.any b).toNat)
    (fun f => -((g f).any b).toNat) start (by rw [ready]; rfl)
    (by
      intro deeds p slot f m f' calls counters run found turned
      rcases turn run found turned with ⟨d, before, after, none, added⟩ | ⟨same, keeps⟩
      · refine ⟨_, added, ?_⟩
        rw [before, after, none]
        simp
      · refine ⟨0, by rw [same]; exact (UInt64.add_zero _).symm, ?_⟩
        have kind := congrArg (List.countP b) keeps
        rw [List.countP_append, ← toNat_any, ← toNat_any, ← toNat_any] at kind
        omega)
    (by
      intro deeds p run
      have kind := List.countP_le_length (p := b) (l := pulled deeds)
      rw [sum_any, neg]
      rw [pulled] at kind ⊢
      omega)
    few
  rw [sum_any, neg] at count
  rw [pulled]
  omega

theorem Turn.processed (run : Run w deeds p) (turn : p.Turn f m f' calls counters)
    (slot : Nat) (after : Pool η) :
    CountsOnce Phase.held? w.routes f f' ⟨p, slot, m, after⟩ p.metrics.processed
      counters.processed := by
  cases turn with
  | checked => exact .inr ⟨rfl, by split <;> rfl⟩
  | @malformed d e unread =>
    refine .inl ⟨d, rfl, rfl, rfl, ?_⟩
    rw [(run.take_of_malformed unread).2]
    exact (UInt64.add_zero _).symm
  | @unknown d v read unresolved =>
    refine .inl ⟨d, rfl, rfl, rfl, ?_⟩
    rw [(run.take_of_unknown read unresolved).2]
    exact (UInt64.add_zero _).symm
  | @counted t suits =>
    refine .inl ⟨t.delivery, rfl, rfl, rfl, ?_⟩
    rw [run.routes_of_suits suits]
    rfl
  | settled d outcome v isCounted => cases isCounted <;> exact .inr ⟨rfl, rfl⟩
  | settleCrashed d outcome v isCounted => cases isCounted <;> exact .inr ⟨rfl, rfl⟩
  | _ => exact .inr ⟨rfl, rfl⟩

/-- The messages with a route were handled, except for those that no slot has looked at. -/
theorem Run.processed_eq (run : Run w deeds p) (few : (pulled deeds).length < UInt64.size) :
    p.metrics.processed.toNat + (p.slots.filterMap Phase.held?).countP w.routes =
      (pulled deeds).countP w.routes :=
  run.counted_once (fun m => m.processed) Phase.held? w.routes rfl rfl
    (fun run _ turn => turn.processed run _ _) few

/-- A slot that has found a fault drops its message, and one that handles it has found
none. -/
theorem Turn.dropped (run : Run w deeds p) (turn : p.Turn f m f' calls counters)
    (knows : p.Knows f) (slot : Nat) (after : Pool η) :
    CountsOnce Phase.pending? w.refuses f f' ⟨p, slot, m, after⟩ p.metrics.total.dropped
      counters.total.dropped := by
  have dropped : ∀ {d : Delivery} {e : QueueError}, w.take d.message = .error e →
      p.metrics.total.dropped + 1 = p.metrics.total.dropped + .ofNat (w.refuses d).toNat := by
    intro d e fault
    rw [Worker.refuses_of_take fault]
    rfl
  have handled : ∀ {t : Task}, p.Suits t ∧ (∃ job, t.envelope.toJob t.kind = .ok job) →
      p.metrics.total.dropped =
        p.metrics.total.dropped + .ofNat (w.refuses t.delivery).toNat := by
    rintro t ⟨suits, job, fits⟩
    rw [run.refuses_of_fits suits fits]
    exact (UInt64.add_zero _).symm
  cases turn with
  | checked => exact .inr ⟨rfl, by split <;> rfl⟩
  | malformed unread =>
    exact .inl ⟨_, rfl, rfl, rfl, dropped (run.take_of_malformed unread).1⟩
  | unknown read unresolved =>
    exact .inl ⟨_, rfl, rfl, rfl, dropped (run.take_of_unknown read unresolved).1⟩
  | mismatched unfit =>
    exact .inl ⟨_, rfl, rfl, rfl, dropped (run.take_of_mismatched knows unfit)⟩
  | succeeded | retried | untold | learned => exact .inl ⟨_, rfl, rfl, rfl, handled knows⟩
  | settled d outcome v isCounted => cases isCounted <;> exact .inr ⟨rfl, rfl⟩
  | settleCrashed d outcome v isCounted => cases isCounted <;> exact .inr ⟨rfl, rfl⟩
  | _ => exact .inr ⟨rfl, rfl⟩

/-- The messages with a fault were dropped, except for those on which no slot has ruled. -/
theorem Run.dropped_eq (run : Run w deeds p) (few : (pulled deeds).length < UInt64.size) :
    p.metrics.total.dropped.toNat + (p.slots.filterMap Phase.pending?).countP w.refuses =
      (pulled deeds).countP w.refuses :=
  run.counted_once (fun m => m.total.dropped) Phase.pending? w.refuses rfl rfl
    (fun run found turn => turn.dropped run (run.knows _ (List.mem_of_getElem? found)) _ _) few

/-! ## Types -/

theorem lookupNamed_eq_none {α : Type} {name : String} {l : List (String × α)}
    (beyond : ∀ f ∈ l, name < f.1) : lookupNamed name l = none := by
  induction l with
  | nil => rfl
  | cons f l ih =>
    have other : f.1 ≠ name := fun eq => String.lt_irrefl _ (eq ▸ beyond f List.mem_cons_self)
    rw [lookupNamed_cons, if_neg other]
    exact ih fun g mem => beyond g (List.mem_cons_of_mem _ mem)

/-- A value under a name counts in the place of the one that was there. -/
theorem sum_insertNamed {α : Type} (g : α → Nat) (name : String) (a : α)
    {l : List (String × α)} (ascending : Ascending l) :
    ((insertNamed name a l).map fun f => g f.2).sum + (lookupNamed name l).elim 0 g =
      (l.map fun f => g f.2).sum + g a := by
  induction l with
  | nil => simp [insertNamed_nil, lookupNamed_nil]
  | cons f l ih =>
    obtain ⟨n, u⟩ := f
    obtain ⟨first, ascending⟩ := List.pairwise_cons.mp ascending
    rw [insertNamed_cons]
    split
    · next lt =>
      have none : lookupNamed name ((n, u) :: l) = none := by
        refine lookupNamed_eq_none fun f mem => ?_
        rcases List.mem_cons.mp mem with rfl | mem
        · exact lt
        · exact String.lt_trans lt (first f mem)
      rw [none]
      simp only [List.map_cons, List.sum_cons, Option.elim_none]
      omega
    split
    · next eq =>
      rw [lookupNamed_cons, if_pos eq.symm]
      simp only [List.map_cons, List.sum_cons, Option.elim_some]
      omega
    · next ne =>
      have := ih ascending
      rw [lookupNamed_cons, if_neg (Ne.symm ne)]
      simp only [List.map_cons, List.sum_cons]
      omega

/-- A step counts an outcome for its type and in total, or counts none. -/
theorem Turn.types (turn : p.Turn f m f' calls counters) :
    (∃ type o, f.ruling? = none ∧ f.delivery?.isSome ∧
        counters.types = (p.metrics.record type o).types ∧
          counters.total = p.metrics.total.record o) ∨
      counters.types = p.metrics.types ∧ counters.total = p.metrics.total := by
  cases turn with
  | malformed | unknown | mismatched | succeeded | retried | untold | learned =>
    exact .inl ⟨_, _, rfl, rfl, rfl, rfl⟩
  | settled d outcome v isCounted => cases isCounted <;> exact .inr ⟨rfl, rfl⟩
  | settleCrashed d outcome v isCounted => cases isCounted <;> exact .inr ⟨rfl, rfl⟩
  | _ => exact .inr ⟨rfl, rfl⟩

/-- An outcome is counted by one, if there is room. -/
theorem toNat_count_record {t : Tally} {o : Outcome} (fits : (t.count o).toNat + 1 < UInt64.size)
    (o' : Outcome) :
    ((t.record o').count o).toNat = (t.count o).toNat + if o' = o then 1 else 0 := by
  rw [Tally.count_record]
  split
  · rw [UInt64.toNat_add]
    exact Nat.mod_eq_of_lt fits
  · rfl

/-- While a slot has not ruled on its message, an outcome can be counted once more. -/
theorem Run.count_lt (run : Run w deeds p) (few : (pulled deeds).length < UInt64.size)
    (found : p.slots[slot]? = some f) (silent : f.ruling? = none) (has : f.delivery?.isSome)
    (o : Outcome) : (p.metrics.total.count o).toNat + 1 < UInt64.size := by
  obtain ⟨rest, before, -⟩ := exists_rest found f
  have told := List.countP_le_length (p := fun r : Ruling => r.outcome = o) (l := ruled deeds)
  have about := List.countP_le_length (p := fun r : Ruling => r.outcome = o)
    (l := rest.filterMap Phase.ruling?)
  have less := length_ruling?_le rest
  obtain ⟨d, has⟩ := Option.isSome_iff_exists.mp has
  rw [run.count_eq few, (before.filterMap _).countP_eq, List.filterMap_cons, silent]
  rw [length_pulled run, (before.filterMap _).length_eq, List.filterMap_cons, has] at few
  simp only [List.length_cons] at few ⊢
  omega

/-- The counters of the types add up to those of the pool. -/
theorem Run.types_eq (run : Run w deeds p) (few : (pulled deeds).length < UInt64.size) :
    Ascending p.metrics.types ∧ ∀ o, (p.metrics.types.map fun t => (t.2.count o).toNat).sum =
      (p.metrics.total.count o).toNat := by
  induction run using Run.induction with
  | start => exact ⟨.nil, fun o => by cases o <;> rfl⟩
  | @turned deeds p slot f m f' calls counters run found turn later ih =>
    have fewer := length_pulled_lt few
    obtain ⟨ascending, sums⟩ := ih fewer
    show Ascending counters.types ∧ ∀ o, (counters.types.map _).sum = (counters.total.count o).toNat
    rcases turn.types with ⟨type, o', silent, has, types, total⟩ | ⟨types, total⟩
    · rw [types, total]
      refine ⟨pairwise_insertNamed ascending, fun o => ?_⟩
      have fits := run.count_lt fewer found silent has o
      have here : (lookupNamed type p.metrics.types).elim 0 (fun t => (t.count o).toNat) =
          ((p.metrics.tally type).count o).toNat := by
        rw [Metrics.tally]
        cases lookupNamed type p.metrics.types with
        | none => cases o <;> rfl
        | some t => rfl
      have old := sum_insertNamed (fun t => (t.count o).toNat) type {} ascending
      have new := sum_insertNamed (fun t => (t.count o).toNat) type
        ((p.metrics.tally type).record o') ascending
      have none : (Tally.count {} o).toNat = 0 := by cases o <;> rfl
      simp only [here, sums, none] at old new
      rw [toNat_count_record (by omega)] at new
      rw [toNat_count_record fits]
      show ((insertNamed type _ p.metrics.types).map _).sum = _
      omega
    · rw [types, total]
      exact ⟨ascending, sums⟩
  | tuned isStopping isOver run later ih => exact ih few

/-! ## Slots with empty hands -/

/-- What a slot tells the broker goes with the outcome that it has counted. -/
theorem Turn.tells (turn : p.Turn f m f' calls counters) {r : Ruling}
    (rules : f'.ruling? = some r) : r.verdict.tells = r.outcome.tells := by
  cases turn with
  | checked => split at rules <;> cases rules
  | malformed | unknown | mismatched | succeeded | retried | untold | learned =>
    cases rules
    rfl
  | _ => cases rules

theorem Run.tells (run : Run w deeds p) :
    (∀ f ∈ p.slots, ∀ r, f.ruling? = some r → r.verdict.tells = r.outcome.tells) ∧
      ∀ r ∈ ruled deeds, r.verdict.tells = r.outcome.tells := by
  induction run using Run.induction with
  | start =>
    constructor
    · intro f mem r rules
      rw [eq_ready_of_mem_start mem] at rules
      cases rules
    · intro r mem
      cases mem
  | @turned deeds p slot f m f' calls counters run found turn later ih =>
    constructor
    · intro g mem r rules
      rcases List.mem_or_eq_of_mem_set mem with mem | rfl
      · exact ih.1 g mem r rules
      · exact turn.tells rules
    · intro r mem
      obtain ⟨x, mem, rules⟩ := List.mem_filterMap.mp mem
      rcases List.mem_append.mp mem with mem | mem
      · exact ih.2 r (List.mem_filterMap.mpr ⟨x, mem, rules⟩)
      · obtain rfl := List.mem_singleton.mp mem
        unfold Deed.ruling? at rules
        split at rules
        · rw [Deed.old?, found] at rules
          exact ih.1 f (List.mem_of_getElem? found) r rules
        · cases rules
  | tuned isStopping isOver run later ih => exact ih

/-- Whether counters agree with the number of messages that were pulled, how often each
event was told, and the number of payloads that did not fit. -/
structure Balanced (m : Metrics) (pulled : Nat) (told : String → Nat) (mismatches : Nat) :
    Prop where
  /-- The successes are the messages that were told to be done. -/
  succeeded : m.total.succeeded.toNat = told "completed"
  /-- The retries are those that were told to be tried again. -/
  retried : m.total.retried.toNat = told "retrying"
  /-- The failures and the drops are those that were told to be given up. -/
  givenUp : m.total.failed.toNat + m.total.dropped.toNat = told "archived"
  /-- The outcomes are as many as the messages. -/
  pulled : m.total.succeeded.toNat + m.total.retried.toNat + m.total.failed.toNat +
    m.total.dropped.toNat = pulled
  /-- Of the drops only those with a payload that did not fit were counted as handled. -/
  processed : m.processed.toNat =
    m.total.succeeded.toNat + m.total.retried.toNat + m.total.failed.toNat + mismatches
  /-- The counters of the types add up to those of the pool. -/
  types : ∀ o, (m.types.map fun t => (t.2.count o).toNat).sum = (m.total.count o).toNat

/-- Every ruling has an outcome, and tells of it. -/
theorem countP_outcomes {l : List Ruling} (tells : ∀ r ∈ l, r.verdict.tells = r.outcome.tells) :
    l.countP (·.verdict.tells = "completed") = l.countP (·.outcome = .succeeded) ∧
      l.countP (·.verdict.tells = "retrying") = l.countP (·.outcome = .retried) ∧
      l.countP (·.verdict.tells = "archived") =
        l.countP (·.outcome = .failed) + l.countP (·.outcome = .dropped) ∧
      l.length = l.countP (·.outcome = .succeeded) + l.countP (·.outcome = .retried) +
        l.countP (·.outcome = .failed) + l.countP (·.outcome = .dropped) := by
  induction l with
  | nil => exact ⟨rfl, rfl, rfl, rfl⟩
  | cons r l ih =>
    obtain ⟨completed, retrying, archived, all⟩ :=
      ih fun r mem => tells r (List.mem_cons_of_mem _ mem)
    have here := tells r List.mem_cons_self
    simp only [List.countP_cons, List.length_cons, here, completed, retrying, archived, all]
    cases r.outcome <;> simp [Outcome.tells] <;> omega

/-- Messages with a route and messages with a fault are all messages, and those whose payload
does not fit are both. -/
theorem countP_routes (w : Worker η) (l : List Delivery) :
    l.countP w.routes + l.countP w.refuses = l.length + l.countP w.mismatches := by
  have one (b : Bool) : (if b = true then 1 else 0) = b.toNat := by cases b <;> rfl
  induction l with
  | nil => rfl
  | cons d l ih =>
    have here := w.routes_refuses d
    simp only [List.countP_cons, List.length_cons, one]
    omega

/-- When no slot has a message, the counters agree with what slots pulled and told. -/
theorem Run.balanced (run : Run w deeds p) (few : (pulled deeds).length < UInt64.size)
    (quiet : ∀ f ∈ p.slots, f.delivery? = none) :
    Balanced p.metrics (pulled deeds).length
      (fun name => (ruled deeds).countP (·.verdict.tells = name))
      ((pulled deeds).countP w.mismatches) := by
  have none {α : Type} (g : Phase → Option α)
      (sub : ∀ f, f.delivery? = Option.none → g f = Option.none) : p.slots.filterMap g = [] :=
    List.filterMap_eq_nil_iff.mpr fun f mem => sub f (quiet f mem)
  have held := none Phase.held? fun f empty => by cases f <;> first | rfl | cases empty
  have pending := none Phase.pending? fun f empty => by cases f <;> first | rfl | cases empty
  have ruling := none Phase.ruling? fun f empty => by cases f <;> first | rfl | cases empty
  have hands := none Phase.delivery? fun f empty => empty
  have count (o : Outcome) :
      (p.metrics.total.count o).toNat = (ruled deeds).countP (·.outcome = o) := by
    rw [run.count_eq few, ruling]
    rfl
  have succeeded := count .succeeded
  have retried := count .retried
  have failed := count .failed
  have dropped := count .dropped
  have processed := run.processed_eq few
  have refused := run.dropped_eq few
  have all := length_pulled run
  have routes := countP_routes w (pulled deeds)
  rw [held] at processed
  rw [pending] at refused
  rw [hands] at all
  obtain ⟨completed, retrying, archived, outcomes⟩ := countP_outcomes run.tells.2
  simp only [Tally.count, List.countP_nil, List.length_nil]
    at succeeded retried failed dropped processed refused all
  exact
    { succeeded := by omega
      retried := by omega
      givenUp := by omega
      pulled := by omega
      processed := by omega
      types := (run.types_eq few).2 }

end Pool

end JobQueue
