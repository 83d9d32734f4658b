import JobQueue.Proofs.Pool.Run

/-!
# Bounded concurrency

A pool has as many slots as its settings say, and whatever it does at a time some slot
does: an invocation that runs has a slot that waits for it, and a message that was
pulled and not settled is in the hands of a slot, or was in the hands of one that
crashed over it.  So the number of slots bounds them all.

A slot counts its message in two steps.  It first counts itself in, and learns how many
slots are in then; later it raises the peak to that number (`Phase.counted`).  Until
then the number is a level that the peak may have missed.  Hence a level so far is
either below the peak or below a number that some slot is about to raise it to
(`Pool.Covers`), and only where no slot is between the two steps the peak is the
highest of them.

`Pool.Run.bounded` collects what this comes to.
-/

namespace JobQueue

variable {η : Type}

/-- The number to which a slot is about to raise the peak. -/
def Phase.level? : Phase → Option Nat
  | counted _ current => some current
  | _ => none

/-- Whether a call of the broker crashed the slot. -/
def Phase.isCrashed : Phase → Bool
  | crashed => true
  | _ => false

namespace Deed

/-- The delivery that the slot settled: the broker has replied to its verdict. -/
def settled? (x : Deed η) : Option Delivery :=
  match x.move with
  | .settle (.answered _) => x.ruling?.map Ruling.delivery
  | _ => none

/-- The delivery over which the slot crashed. -/
def lost? (x : Deed η) : Option Delivery :=
  match x.move with
  | .settle .crashed => x.ruling?.map Ruling.delivery
  | _ => none

/-- Whether the slot is between counting its message and being done with it, given
whether it was before. -/
def isInside (x : Deed η) (was : Bool) : Bool :=
  match x.move with
  | .look => x.new?.any fun f => f.level?.isSome
  | .settle _ => false
  | _ => was

end Deed

namespace Pool

/-- The deliveries that slots settled. -/
def settled (deeds : List (Deed η)) : List Delivery := deeds.filterMap Deed.settled?

/-- The deliveries over which slots crashed. -/
def lost (deeds : List (Deed η)) : List Delivery := deeds.filterMap Deed.lost?

/-- Whether a slot is between counting a message and being done with it. -/
def isInside (deeds : List (Deed η)) (slot : Nat) : Bool :=
  deeds.foldl (fun was x => if x.slot = slot then x.isInside was else was) false

/-- How many messages were being handled, at first and after every step. -/
def levels (deeds : List (Deed η)) : List Nat := 0 :: deeds.map fun x => x.after.metrics.inFlight

/-- The invocations that have begun and not ended, by their numbers. -/
def running (p : Pool η) : List Nat :=
  (List.range p.invocations.length).filter fun n => p.invocations[n]?.any (·.ending.isNone)

/-- Whether a pool keeps to a number of slots, after what they did. -/
structure Bounded (K : Nat) (deeds : List (Deed η)) (p : Pool η) : Prop where
  /-- No more invocations run. -/
  running : p.running.length ≤ K
  /-- What was pulled is settled except for as many deliveries at most. -/
  unsettled : ∃ held, (pulled deeds).Perm (settled deeds ++ held) ∧ held.length ≤ K
  /-- The slots that are counted are those that have counted a message and are not done
  with it. -/
  inFlight : p.metrics.inFlight = ((List.range K).filter (isInside deeds)).length
  /-- A slot that is done with its message takes itself out of a count that it is in. -/
  leaves : ∀ x ∈ deeds, ∀ d outcome v, x.old? = some (.settling d outcome v true) →
    x.after.metrics.inFlight + 1 = x.before.metrics.inFlight
  /-- Where no slot has a message, none is counted. -/
  empty : (∀ f ∈ p.slots, f.delivery? = none) → p.metrics.inFlight = 0
  /-- No more were counted at the same time. -/
  peak_le : p.metrics.peak ≤ K
  /-- Where no slot is about to raise it, the peak is the most that were counted. -/
  peak : (∀ t current, .counted t current ∉ p.slots) →
    (levels deeds).max? = some p.metrics.peak

variable {w : Worker η} {deeds : List (Deed η)} {p : Pool η} {slot : Nat} {f f' : Phase}
  {m : Move} {calls : List Invocation} {counters : Metrics} {n : Nat}

/-! ## Slots that are counted -/

theorem isSome_of_isCounted (counted : f.isCounted) : f.delivery?.isSome := by
  cases f <;> first | rfl | cases counted

/-- A turn counts its slot in or out, or does neither. -/
theorem Turn.inFlight (turn : p.Turn f m f' calls counters) :
    counters.inFlight = p.metrics.inFlight + f'.isCounted.toNat - f.isCounted.toNat := by
  cases turn with
  | checked => split <;> rfl
  | settled d outcome v isCounted => cases isCounted <;> rfl
  | settleCrashed d outcome v isCounted => cases isCounted <;> rfl
  | _ => rfl

/-- The count is the number of slots that say so. -/
theorem Run.inFlight_eq (run : Run w deeds p) :
    p.metrics.inFlight = p.slots.countP Phase.isCounted := by
  induction run using Run.induction with
  | start =>
    refine (List.countP_eq_zero.mpr ?_).symm
    intro f mem
    rw [eq_ready_of_mem_start mem]
    nofun
  | @turned deeds p slot f m f' calls counters run found turn later ih =>
    obtain ⟨rest, before, after⟩ := exists_rest found f'
    rw [before.countP_eq, List.countP_cons] at ih
    show counters.inFlight = (p.slots.set slot f').countP _
    rw [after.countP_eq, List.countP_cons, turn.inFlight, ih]
    cases f.isCounted <;> cases f'.isCounted <;> simp
  | tuned isStopping isOver run later ih => exact ih

theorem Run.inFlight_le (run : Run w deeds p) :
    p.metrics.inFlight ≤ w.settings.concurrency.toNat := by
  rw [run.inFlight_eq, ← run.length_slots]
  exact List.countP_le_length

/-- Whether a slot is counted tells what it did. -/
theorem Turn.isCounted_eq (turn : p.Turn f m f' calls counters)
    (found : p.slots[slot]? = some f) :
    f'.isCounted = Deed.isInside ⟨p, slot, m, p.after slot f' calls counters⟩ f.isCounted := by
  have new : (Deed.mk p slot m (p.after slot f' calls counters)).new? = some f' :=
    after_self found
  cases turn with
  | checked => split <;> rfl
  | malformed => rw [Deed.isInside, new]; rfl
  | unknown => rw [Deed.isInside, new]; rfl
  | counted => rw [Deed.isInside, new]; rfl
  | _ => rfl

theorem Run.isInside_eq (run : Run w deeds p) (found : p.slots[slot]? = some f) :
    isInside deeds slot = f.isCounted := by
  induction run using Run.induction generalizing slot f with
  | start =>
    rw [eq_ready_of_mem_start (List.mem_of_getElem? found)]
    rfl
  | @turned deeds p slot' f₀ m f' calls counters run found₀ turn later ih =>
    rw [isInside, List.foldl_concat]
    by_cases here : slot' = slot
    · subst here
      rw [after_self found₀] at found
      cases found
      rw [if_pos rfl, turn.isCounted_eq found₀, ← ih found₀]
      rfl
    · rw [after_of_ne here] at found
      rw [if_neg here]
      exact ih found
  | tuned isStopping isOver run later ih => exact ih found

/-! ## Messages in the hands of slots -/

/-- The broker has replied to what a slot told it, or has crashed the slot. -/
theorem ruled_perm (deeds : List (Deed η)) :
    ((ruled deeds).map Ruling.delivery).Perm (settled deeds ++ lost deeds) := by
  have step (x : Deed η) : x.ruling?.toList.map Ruling.delivery =
      x.settled?.toList ++ x.lost?.toList := by
    cases move : x.move with
    | settle reply => cases reply <;> simp [Deed.settled?, Deed.lost?, move, Option.toList_map]
    | _ => simp [Deed.settled?, Deed.lost?, Deed.ruling?, move]
  refine List.perm_iff_count.mpr fun d => ?_
  simp only [ruled, settled, lost, List.filterMap_eq_flatMap_toList]
  induction deeds with
  | nil => rfl
  | cons x deeds ih =>
    have own := congrArg (List.count d) (step x)
    simp only [List.flatMap_cons, List.map_append, List.count_append] at own ih ⊢
    omega

/-- Only a slot that crashes loses its message, and it makes no more turns. -/
theorem Turn.isCrashed (turn : p.Turn f m f' calls counters) (slot : Nat) (after : Pool η) :
    f.isCrashed = false ∧
      (Deed.lost? ⟨p, slot, m, after⟩).toList.length ≤ f'.isCrashed.toNat := by
  cases turn with
  | settleCrashed =>
    refine ⟨rfl, ?_⟩
    cases Deed.lost? ⟨p, slot, .settle .crashed, after⟩ with
    | none => exact Nat.zero_le 1
    | some d => exact Nat.le_refl 1
  | _ => exact ⟨rfl, Nat.zero_le _⟩

theorem Run.length_lost_le (run : Run w deeds p) :
    (lost deeds).length ≤ p.slots.countP Phase.isCrashed := by
  induction run using Run.induction with
  | start => exact Nat.zero_le _
  | @turned deeds p slot f m f' calls counters run found turn later ih =>
    obtain ⟨rest, before, after⟩ := exists_rest found f'
    obtain ⟨alive, more⟩ := turn.isCrashed slot (p.after slot f' calls counters)
    rw [before.countP_eq, List.countP_cons, alive] at ih
    show _ ≤ (p.slots.set slot f').countP _
    rw [after.countP_eq, List.countP_cons]
    have one : (if f'.isCrashed = true then 1 else 0) = f'.isCrashed.toNat := by
      cases f'.isCrashed <;> rfl
    simp only [lost, List.filterMap_eq_flatMap_toList, List.flatMap_append, List.flatMap_cons,
      List.flatMap_nil, List.append_nil, List.length_append, Bool.false_eq_true, if_false,
      one] at ih ⊢
    omega
  | tuned isStopping isOver run later ih => exact ih

/-- What is in the hands of slots, and was in those of slots that crashed, is no more than
there are slots. -/
theorem Run.length_held_le (run : Run w deeds p) :
    (lost deeds ++ p.slots.filterMap Phase.delivery?).length ≤
      w.settings.concurrency.toNat := by
  have crashed : p.slots.countP Phase.isCrashed ≤
      p.slots.countP fun f => ¬ f.delivery?.isSome := by
    refine List.countP_mono_left fun f _ crashed => ?_
    cases f <;> cases crashed
    rfl
  have all := List.length_eq_countP_add_countP (l := p.slots) fun f => f.delivery?.isSome
  have lost := run.length_lost_le
  rw [List.length_append, List.length_filterMap_eq_countP, ← run.length_slots]
  omega

/-! ## Invocations that run -/

/-- What runs although one invocation has ended is another one. -/
theorem runs_of_modify {old : List Invocation} {call n : Nat} {ending : Ending} {i : Invocation}
    (new : (old.modify call (·.concluded ending))[n]? = some i) (runs : i.ending = none) :
    some call ≠ some n ∧ old[n]? = some i := by
  rw [List.getElem?_modify] at new
  obtain ⟨j, found, rfl⟩ := Option.map_eq_some_iff.mp new
  by_cases here : call = n
  · rw [if_pos here] at runs
    cases runs
  · exact ⟨fun eq => here (Option.some.inj eq), by rw [if_neg here, found]⟩

/-- What runs although one more invocation has begun is that one or an old one. -/
theorem runs_of_concat {old : List Invocation} {n : Nat} {i j : Invocation}
    (new : (old ++ [j])[n]? = some i) : some old.length = some n ∨ old[n]? = some i := by
  rcases Nat.lt_or_ge n old.length with lt | ge
  · exact .inr (by rwa [List.getElem?_append_left lt] at new)
  · have bound := (List.getElem?_eq_some_iff.mp new).1
    rw [List.length_append, List.length_singleton] at bound
    exact .inl (congrArg some (by omega))

/-- After a turn its slot waits for an invocation that runs, or it did not wait for it before
either. -/
theorem Turn.runs (turn : p.Turn f m f' calls counters) {n : Nat} {i : Invocation}
    (new : calls[n]? = some i) (runs : i.ending = none) :
    f'.call? = some n ∨ f.call? ≠ some n ∧ p.invocations[n]? = some i := by
  cases turn with
  | called => exact (runs_of_concat new).imp id fun old => ⟨nofun, old⟩
  | told => exact (runs_of_concat new).imp id fun old => ⟨nofun, old⟩
  | succeeded => exact .inr (runs_of_modify new runs)
  | retried => exact .inr (runs_of_modify new runs)
  | exhausted => exact .inr (runs_of_modify new runs)
  | learned => exact .inr (runs_of_modify new runs)
  | _ => exact .inr ⟨nofun, new⟩

/-- For every invocation that runs there is a slot that waits for it. -/
theorem Run.mem_call? (run : Run w deeds p) {n : Nat} {i : Invocation}
    (found : p.invocations[n]? = some i) (runs : i.ending = none) :
    n ∈ p.slots.filterMap Phase.call? := by
  induction run using Run.induction generalizing i with
  | start => cases found
  | @turned deeds p slot f m f' calls counters run here turn later ih =>
    obtain ⟨rest, before, after⟩ := exists_rest here f'
    refine (after.filterMap Phase.call?).mem_iff.mpr ?_
    rcases turn.runs found runs with waits | ⟨other, old⟩
    · exact List.mem_filterMap.mpr ⟨f', List.mem_cons_self, waits⟩
    · obtain ⟨g, mem, waits⟩ := List.mem_filterMap.mp (ih old runs)
      rcases List.mem_cons.mp (before.mem_iff.mp mem) with rfl | mem
      · exact absurd waits other
      · exact List.mem_filterMap.mpr ⟨g, List.mem_cons_of_mem _ mem, waits⟩
  | tuned isStopping isOver run later ih => exact ih found runs

theorem Run.length_running_le (run : Run w deeds p) :
    p.running.length ≤ w.settings.concurrency.toNat := by
  have sub : p.running ⊆ p.slots.filterMap Phase.call? := by
    intro n mem
    obtain ⟨-, runs⟩ := List.mem_filter.mp mem
    cases found : p.invocations[n]? with
    | none =>
      rw [found] at runs
      cases runs
    | some i =>
      rw [found] at runs
      exact run.mem_call? found (Option.isNone_iff_eq_none.mp runs)
  have nodup : p.running.Nodup := List.nodup_range.filter _
  rw [← run.length_slots]
  exact Nat.le_trans (List.subperm_of_subset nodup sub).length_le
    (List.length_filterMap_le _ _)

/-! ## The peak -/

/-- Whether a number is not above the peak, or not above what some slot is about to raise
the peak to. -/
def Covers (p : Pool η) (n : Nat) : Prop :=
  n ≤ p.metrics.peak ∨ ∃ f ∈ p.slots, ∃ current, f.level? = some current ∧ n ≤ current

/-- What a peak has to do with the levels so far. -/
structure Peaks (deeds : List (Deed η)) (p : Pool η) : Prop where
  /-- The present level is the last of them. -/
  inFlight : p.metrics.inFlight ∈ levels deeds
  /-- The peak was one of them. -/
  peak : p.metrics.peak ∈ levels deeds
  /-- What a slot is about to raise it to was one, too. -/
  level : ∀ f ∈ p.slots, ∀ current, f.level? = some current → current ∈ levels deeds
  /-- There was none above all these. -/
  covers : ∀ n ∈ levels deeds, p.Covers n

theorem Turn.peak_eq (turn : p.Turn f m f' calls counters) :
    counters.peak = max p.metrics.peak (f.level?.getD 0) := by
  cases turn with
  | raised => rfl
  | settled d outcome v isCounted => cases isCounted <;> exact (Nat.max_zero _).symm
  | settleCrashed d outcome v isCounted => cases isCounted <;> exact (Nat.max_zero _).symm
  | _ => exact (Nat.max_zero _).symm

theorem Turn.level_eq (turn : p.Turn f m f' calls counters) {current : Nat}
    (about : f'.level? = some current) : current = counters.inFlight := by
  cases turn with
  | checked => split at about <;> cases about
  | counted => exact (Option.some.inj about).symm
  | _ => cases about

theorem Turn.inFlight_le (turn : p.Turn f m f' calls counters) (about : f'.level? = none) :
    counters.inFlight ≤ p.metrics.inFlight := by
  cases turn with
  | counted => cases about
  | settled d outcome v isCounted =>
    cases isCounted with
    | false => exact Nat.le_refl _
    | true => exact Nat.sub_le _ _
  | settleCrashed d outcome v isCounted =>
    cases isCounted with
    | false => exact Nat.le_refl _
    | true => exact Nat.sub_le _ _
  | _ => exact Nat.le_refl _

theorem levels_concat (deeds : List (Deed η)) (x : Deed η) :
    levels (deeds ++ [x]) = levels deeds ++ [x.after.metrics.inFlight] := by
  rw [levels, List.map_append]
  rfl

/-- What is covered stays covered, since a slot raises the peak to its number before it
forgets it. -/
theorem Covers.after (covers : p.Covers n) (found : p.slots[slot]? = some f)
    (turn : p.Turn f m f' calls counters) : (p.after slot f' calls counters).Covers n := by
  obtain ⟨rest, before, after⟩ := exists_rest found f'
  have peak : (p.after slot f' calls counters).metrics.peak = _ := turn.peak_eq
  rcases covers with below | ⟨g, mem, current, about, le⟩
  · left
    rw [peak]
    omega
  rcases List.mem_cons.mp (before.mem_iff.mp mem) with rfl | mem
  · left
    rw [peak, about]
    exact Nat.le_trans le (Nat.le_max_right _ _)
  · exact .inr ⟨g, after.mem_iff.mpr (List.mem_cons_of_mem _ mem), current, about, le⟩

theorem Run.peaks (run : Run w deeds p) : Peaks deeds p := by
  induction run using Run.induction with
  | start =>
    refine ⟨List.mem_cons_self, List.mem_cons_self, ?_, ?_⟩
    · intro f mem current about
      rw [eq_ready_of_mem_start mem] at about
      cases about
    · intro n mem
      exact .inl (Nat.le_of_eq (List.mem_singleton.mp mem))
  | @turned deeds p slot f m f' calls counters run found turn later ih =>
    obtain ⟨rest, before, after⟩ := exists_rest found f'
    have old : ∀ {n}, n ∈ levels deeds →
        n ∈ levels (deeds ++ [⟨p, slot, m, p.after slot f' calls counters⟩]) := by
      intro n mem
      rw [levels_concat]
      exact List.mem_append_left _ mem
    have new : counters.inFlight ∈
        levels (deeds ++ [⟨p, slot, m, p.after slot f' calls counters⟩]) := by
      rw [levels_concat]
      exact List.mem_append_right _ List.mem_cons_self
    refine ⟨new, ?_, ?_, ?_⟩
    · show counters.peak ∈ _
      rw [turn.peak_eq]
      cases about : f.level? with
      | none =>
        rw [Option.getD_none, Nat.max_zero]
        exact old ih.peak
      | some current =>
        rcases Nat.le_total p.metrics.peak current with le | le
        · rw [Option.getD_some, Nat.max_eq_right le]
          exact old (ih.level f (List.mem_of_getElem? found) current about)
        · rw [Option.getD_some, Nat.max_eq_left le]
          exact old ih.peak
    · intro g mem current about
      rcases List.mem_cons.mp (after.mem_iff.mp mem) with rfl | mem
      · rw [turn.level_eq about]
        exact new
      · exact old (ih.level g (before.mem_iff.mpr (List.mem_cons_of_mem _ mem)) current about)
    · intro n mem
      rw [levels_concat] at mem
      rcases List.mem_append.mp mem with mem | mem
      · exact (ih.covers n mem).after found turn
      rw [List.mem_singleton.mp mem]
      cases about : f'.level? with
      | some current =>
        exact .inr ⟨f', after.mem_iff.mpr List.mem_cons_self, current, about,
          Nat.le_of_eq (turn.level_eq about).symm⟩
      | none =>
        -- the level has not risen, and what it was before is covered
        have le := turn.inFlight_le about
        rcases (ih.covers _ ih.inFlight).after found turn with below | ⟨g, mem, c, about, below⟩
        · exact .inl (Nat.le_trans le below)
        · exact .inr ⟨g, mem, c, about, Nat.le_trans le below⟩
  | tuned isStopping isOver run later ih => exact ⟨ih.inFlight, ih.peak, ih.level, ih.covers⟩

theorem Run.levels_le (run : Run w deeds p) :
    ∀ n ∈ levels deeds, n ≤ w.settings.concurrency.toNat := by
  induction run using Run.induction with
  | start =>
    intro n mem
    rw [List.mem_singleton.mp mem]
    exact Nat.zero_le _
  | turned run found turn later ih =>
    intro n mem
    rw [levels_concat] at mem
    rcases List.mem_append.mp mem with mem | mem
    · exact ih n mem
    · rw [List.mem_singleton.mp mem]
      exact later.inFlight_le
  | tuned isStopping isOver run later ih => exact ih

/-! ## The bounds -/

/-- A slot that is to take itself out of the count is in it. -/
theorem Run.leaves (run : Run w deeds p) : ∀ x ∈ deeds, ∀ d outcome v,
    x.old? = some (.settling d outcome v true) →
      x.after.metrics.inFlight + 1 = x.before.metrics.inFlight := by
  induction run using Run.induction with
  | start =>
    intro x mem
    cases mem
  | @turned deeds p slot f m f' calls counters run found turn later ih =>
    intro x mem d outcome v old
    rcases List.mem_append.mp mem with mem | mem
    · exact ih x mem d outcome v old
    obtain rfl := List.mem_singleton.mp mem
    rw [Deed.old?, found] at old
    cases old
    have counted : 0 < p.metrics.inFlight := by
      rw [run.inFlight_eq]
      exact List.countP_pos_iff.mpr ⟨_, List.mem_of_getElem? found, rfl⟩
    cases turn with
    | settled => exact Nat.sub_add_cancel counted
    | settleCrashed => exact Nat.sub_add_cancel counted
  | tuned isStopping isOver run later ih => exact ih

/-- The slots of a kind are as many as the numbers of such slots. -/
theorem length_filter_range {l : List Phase} {kind : Phase → Bool} {inside : Nat → Bool}
    (agree : ∀ {n f}, l[n]? = some f → inside n = kind f) :
    ((List.range l.length).filter inside).length = l.countP kind := by
  rw [← List.countP_eq_length_filter]
  induction l generalizing inside with
  | nil => rfl
  | cons f l ih =>
    have rest : (List.range l.length).countP (inside ∘ Nat.succ) = l.countP kind :=
      ih fun {n f} found => agree (n := n + 1) found
    rw [List.length_cons, List.range_succ_eq_map, List.countP_cons, List.countP_map, rest,
      agree (n := 0) rfl, List.countP_cons]

/-- However the slots of a pool take turns, and whatever the broker replies and the
handlers do, the pool keeps to its number of slots. -/
theorem Run.bounded (run : Run w deeds p) :
    Bounded w.settings.concurrency.toNat deeds p where
  running := run.length_running_le
  unsettled := by
    refine ⟨_, ?_, run.length_held_le⟩
    rw [← List.append_assoc]
    exact run.pulled_perm.trans ((ruled_perm deeds).append_right _)
  inFlight := by
    rw [run.inFlight_eq, ← run.length_slots]
    exact (length_filter_range fun found => run.isInside_eq found).symm
  leaves := run.leaves
  empty := by
    intro none
    rw [run.inFlight_eq]
    refine List.countP_eq_zero.mpr fun f mem counted => ?_
    have some := isSome_of_isCounted counted
    rw [none f mem] at some
    cases some
  peak_le := run.levels_le _ run.peaks.peak
  peak := by
    intro quiet
    refine List.max?_eq_some_iff.mpr ⟨run.peaks.peak, fun n mem => ?_⟩
    rcases run.peaks.covers n mem with below | ⟨f, mem, current, about, -⟩
    · exact below
    · cases f <;> cases about
      exact absurd mem (quiet _ _)

/-- A worker with two slots. -/
def exampleTwo : Worker Unit where
  settings := { Settings.default with concurrency := 2 }
  codec := .json
  registry := { routes := [(.keyed, ())] }

/-- A delivery that it can handle. -/
def exampleDelivery : Delivery where
  job := ⟨"1"⟩
  message :=
    { type := "bad:keys", queue := "default", maxRetries := 1, processAt := .epoch, timeout := none
      envelope := Codec.json.encode { type := "bad:keys", data := .obj [("pairs", .arr [])] } }
  attempt := 1
  lease := ⟨"x"⟩

theorem bounded_of_example :
    ∃ deeds p, Run exampleTwo deeds p ∧ p.metrics.peak = 2 ∧
      levels deeds = [0, 0, 0, 0, 0, 1, 2, 2, 2, 2, 1, 1] ∧ Bounded 2 deeds p := by
  have run : Run exampleTwo _ _ := .start
  have run := run.moved 0 .check rfl
  have run := run.moved 1 .check rfl
  have run := run.moved 0 (.pull (.answered (.ok (some exampleDelivery)))) rfl
  have run := run.moved 1 (.pull (.answered (.ok (some { exampleDelivery with job := ⟨"2"⟩ })))) rfl
  have run := run.moved 0 .look rfl
  have run := run.moved 1 .look rfl
  -- the slot that learned of the lower level raises the peak last
  have run := run.moved 1 .raise rfl
  have run := run.moved 1 .call rfl
  have run := run.moved 1 (.finish (.returned (.ok ())) .epoch) rfl
  have run := run.moved 1 (.settle (.answered (.error .unavailable))) rfl
  have run := run.moved 0 .raise rfl
  exact ⟨_, _, run, rfl, rfl, run.bounded⟩

end Pool

end JobQueue
