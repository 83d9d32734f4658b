import JobQueue.Schedule

/-!
# Rounds by any sampler

A round that needs draws takes them one after the other, each from the weights of the
queues that remain.  Here the draws are left to a *sampler*, of which only this much
matters: it refuses if all weights are zero, and else comes to a weight that is not zero,
any of them by some chance (`Sampler.IsProper`).

`Schedule.drawAll` is the loop of such a round.  Every draw leaves one queue less, so the
loop ends.  The sampler of `Schedule.round` is `lot`: it lays the weights end to end and
takes the one that holds a number, reduced to their total.
-/

namespace JobQueue

/-- What a draw from weights comes to by chance: the place of a weight, or a refusal. -/
abbrev Sampler (Ω : Type) := Ω → List Nat → Option Nat

/-- Whether a sampler refuses exactly weights that are all zero, and else may come to the
place of any weight that is not zero, and to no other place. -/
structure Sampler.IsProper {Ω : Type} (pick : Sampler Ω) : Prop where
  refuses : ∀ chance weights, pick chance weights = none ↔ ∀ w ∈ weights, w = 0
  weighs : ∀ chance weights i, pick chance weights = some i → ∃ w, weights[i]? = some w ∧ w ≠ 0
  reaches : ∀ weights i w, weights[i]? = some w → w ≠ 0 → ∃ chance, pick chance weights = some i

/-- There is some chance. -/
theorem Sampler.IsProper.nonempty {Ω : Type} {pick : Sampler Ω} (proper : pick.IsProper) :
    Nonempty Ω :=
  (proper.reaches [1] 0 1 rfl (by decide)).nonempty

namespace Schedule

/-- The weights of queues. -/
def weights (qs : List WeightedQueue) : List Nat := qs.map fun q => q.2.toNat

/-- Draw queue after queue and put each behind an order, until none remains or there is
nothing to draw from; what then remains comes last.  The chance of a draw goes by the number
of queues that it leaves.  None if a draw comes to a place where there is no queue. -/
def drawAll {Ω : Type} (pick : Sampler Ω) (chance : Nat → Ω) (remaining : List WeightedQueue)
    (order : List String) : Option (List String) :=
  if remaining = [] then some order
  else
    match pick (chance (remaining.length - 1)) (weights remaining) with
    | none => some (order ++ remaining.map Prod.fst)
    | some i =>
      if inside : i < remaining.length then
        drawAll pick chance (remaining.eraseIdx i) (order ++ [remaining[i].1])
      else none
termination_by remaining.length
decreasing_by
  rw [List.length_eraseIdx_of_lt inside]
  omega

/-- The order of a round by a sampler and the chances of its draws. -/
def roundBy {Ω : Type} (s : Schedule) (pick : Sampler Ω) (chance : Nat → Ω) :
    Option (List String) :=
  if s.isFixed then some s.names else drawAll pick chance s.queues []

/-! ## Drawing by lot -/

/-- The total of weights. -/
def total : List Nat → Nat
  | [] => 0
  | w :: rest => w + total rest

/-- The place of the weight that holds a number, with the weights laid end to end. -/
def placeOf : Nat → List Nat → Option Nat
  | _, [] => none
  | n, w :: rest => if n < w then some 0 else (placeOf (n - w) rest).map (· + 1)

/-- Draw by a number. -/
def lot : Sampler Nat := fun n weights => placeOf (n % total weights) weights

theorem placeOf_eq_none_iff {n : Nat} {weights : List Nat} :
    placeOf n weights = none ↔ total weights ≤ n := by
  induction weights generalizing n with
  | nil => simp [placeOf, total]
  | cons w rest ih =>
    rw [placeOf, total]
    split
    · simp only [reduceCtorEq, false_iff]
      omega
    · rw [Option.map_eq_none_iff, ih]
      omega

theorem weighs_of_placeOf {n i : Nat} {weights : List Nat} (h : placeOf n weights = some i) :
    ∃ w, weights[i]? = some w ∧ w ≠ 0 := by
  induction weights generalizing n i with
  | nil => cases h
  | cons w rest ih =>
    rw [placeOf] at h
    split at h
    · cases h
      exact ⟨w, rfl, by omega⟩
    · obtain ⟨j, there, rfl⟩ := Option.map_eq_some_iff.mp h
      exact ih there

theorem exists_placeOf {i w : Nat} {weights : List Nat} (there : weights[i]? = some w)
    (weighs : w ≠ 0) : ∃ n, placeOf n weights = some i := by
  induction weights generalizing i with
  | nil => cases there
  | cons v rest ih =>
    cases i with
    | zero =>
      cases there
      exact ⟨0, if_pos (Nat.pos_of_ne_zero weighs)⟩
    | succ i =>
      obtain ⟨n, place⟩ := ih there
      refine ⟨v + n, ?_⟩
      rw [placeOf, if_neg (by omega), Nat.add_sub_cancel_left, place]
      rfl

theorem total_eq_zero_iff {weights : List Nat} : total weights = 0 ↔ ∀ w ∈ weights, w = 0 := by
  induction weights with
  | nil => simp [total]
  | cons w rest ih => simp [total, ih]

/-- Drawing by lot is a proper way to draw. -/
theorem isProper_lot : lot.IsProper where
  refuses n weights := by
    rw [lot, placeOf_eq_none_iff, ← total_eq_zero_iff]
    constructor
    · intro le
      rcases Nat.eq_zero_or_pos (total weights) with zero | pos
      · exact zero
      · exact absurd (Nat.mod_lt n pos) (Nat.not_lt.mpr le)
    · intro zero
      rw [zero]
      exact Nat.zero_le _
  weighs _ _ _ h := weighs_of_placeOf h
  reaches weights i w there weighs := by
    obtain ⟨n, place⟩ := exists_placeOf there weighs
    have less : n < total weights := by
      refine Nat.lt_of_not_le fun le => ?_
      rw [placeOf_eq_none_iff.mpr le] at place
      cases place
    exact ⟨n, by rw [lot, Nat.mod_eq_of_lt less, place]⟩

end Schedule

end JobQueue
