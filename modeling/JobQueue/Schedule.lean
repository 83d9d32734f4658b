import JobQueue.Schedule.Urn
import JobQueue.Settings.Weights

/-!
# Schedules

In which order a slot looks through the queues of its pool.  A strict schedule
always puts heavier queues first.  A weighted one draws the queues one after the
other, each with a chance in proportion to its weight among those that are left;
queues without weight come last.

The draws are an argument of a round (`Schedule.round`), one number for each
queue drawn, taken modulo the weight that is left.  `Schedule.outcomes` lists the
orders that draws can give, each with its chance, and `Schedule.chances` has the
chance of each queue to be at a place, for which the orders are not listed.
-/

namespace JobQueue

/-- A queue with its weight. -/
abbrev WeightedQueue := String × UInt32

namespace Schedule

/-! ## The strict order -/

/-- Whether a queue comes before another one in the strict order: it is heavier,
or as heavy and of a lesser name. -/
def ranksBefore (a b : WeightedQueue) : Bool :=
  b.2 < a.2 || (a.2 = b.2 && a.1 ≤ b.1)

/-- Put a queue into its place among queues in the strict order. -/
def insertRanked (q : WeightedQueue) : List WeightedQueue → List WeightedQueue
  | [] => [q]
  | p :: rest => if ranksBefore q p then q :: p :: rest else p :: insertRanked q rest

/-- Queues in the strict order. -/
def ranked : List WeightedQueue → List WeightedQueue
  | [] => []
  | q :: rest => insertRanked q (ranked rest)

theorem insertRanked_perm (q : WeightedQueue) (qs : List WeightedQueue) :
    (insertRanked q qs).Perm (q :: qs) := by
  induction qs with
  | nil => exact .refl _
  | cons p rest ih =>
    simp only [insertRanked]
    split
    · exact .refl _
    · exact (ih.cons p).trans (.swap q p rest)

theorem ranked_perm (qs : List WeightedQueue) : (ranked qs).Perm qs := by
  induction qs with
  | nil => exact .refl _
  | cons q rest ih => exact (insertRanked_perm q _).trans (ih.cons q)

theorem ranksBefore_iff {a b : WeightedQueue} :
    ranksBefore a b ↔ b.2 < a.2 ∨ a.2 = b.2 ∧ a.1 ≤ b.1 := by
  simp [ranksBefore]

theorem ranksBefore_total (a b : WeightedQueue) : ranksBefore a b ∨ ranksBefore b a := by
  simp only [ranksBefore_iff, UInt32.lt_iff_toNat_lt, ← UInt32.toNat_inj]
  rcases Nat.lt_trichotomy a.2.toNat b.2.toNat with less | same | more
  · exact .inr (.inl less)
  · exact (String.le_total a.1 b.1).imp (fun le => .inr ⟨same, le⟩) (fun le => .inr ⟨same.symm, le⟩)
  · exact .inl (.inl more)

theorem ranksBefore_trans {a b c : WeightedQueue} (first : ranksBefore a b)
    (second : ranksBefore b c) : ranksBefore a c := by
  simp only [ranksBefore_iff, UInt32.lt_iff_toNat_lt, ← UInt32.toNat_inj] at first second ⊢
  rcases first with more | ⟨same, le⟩
  · exact .inl (by omega)
  · rcases second with more' | ⟨same', le'⟩
    · exact .inl (by omega)
    · exact .inr ⟨same.trans same', String.le_trans le le'⟩

theorem pairwise_insertRanked {q : WeightedQueue} {qs : List WeightedQueue}
    (sorted : qs.Pairwise fun a b => ranksBefore a b) :
    (insertRanked q qs).Pairwise fun a b => ranksBefore a b := by
  induction qs with
  | nil => exact .cons (by simp) .nil
  | cons p rest ih =>
    obtain ⟨first, others⟩ := List.pairwise_cons.mp sorted
    simp only [insertRanked]
    split
    · next before =>
      refine .cons (fun x mem => ?_) sorted
      rcases List.mem_cons.mp mem with rfl | mem
      · exact before
      · exact ranksBefore_trans before (first x mem)
    · next behind =>
      refine .cons (fun x mem => ?_) (ih others)
      rcases List.mem_cons.mp ((insertRanked_perm q rest).mem_iff.mp mem) with rfl | mem
      · exact (ranksBefore_total p x).resolve_right behind
      · exact first x mem

/-- The strict order is in order. -/
theorem pairwise_ranked (qs : List WeightedQueue) :
    (ranked qs).Pairwise fun a b => ranksBefore a b := by
  induction qs with
  | nil => exact .nil
  | cons q rest ih => exact pairwise_insertRanked ih

/-! ## Draws -/

/-- The weight of queues together. -/
def totalWeight : List WeightedQueue → Nat
  | [] => 0
  | q :: rest => q.2.toNat + totalWeight rest

/-- The queue at a point of the weights laid end to end, and the queues left. -/
def takeAt : Nat → List WeightedQueue → Option (String × List WeightedQueue)
  | _, [] => none
  | n, q :: rest =>
    if n < q.2.toNat then some (q.1, rest)
    else (takeAt (n - q.2.toNat) rest).map fun r => (r.1, q :: r.2)

/-- The order of queues by draws, of which the first argument is the source and
the second the number that is left. -/
def drawOrder (draw : Nat → Nat) : Nat → List WeightedQueue → List String
  | 0, qs => qs.map Prod.fst
  | n + 1, qs =>
    match takeAt (draw n % totalWeight qs) qs with
    | none => qs.map Prod.fst
    | some (name, rest) => name :: drawOrder draw n rest

theorem takeAt_perm {n : Nat} {qs rest : List WeightedQueue} {name : String}
    (h : takeAt n qs = some (name, rest)) :
    (qs.map Prod.fst).Perm (name :: rest.map Prod.fst) := by
  induction qs generalizing n name rest with
  | nil => simp [takeAt] at h
  | cons q qs ih =>
    simp only [takeAt] at h
    split at h
    · simp only [Option.some.injEq, Prod.mk.injEq] at h
      obtain ⟨rfl, rfl⟩ := h
      exact .refl _
    · obtain ⟨⟨x, l⟩, ht, heq⟩ := Option.map_eq_some_iff.mp h
      simp only [Prod.mk.injEq] at heq
      obtain ⟨rfl, rfl⟩ := heq
      simp only [List.map_cons]
      exact ((ih ht).cons q.1).trans (.swap x q.1 _)

theorem drawOrder_perm (draw : Nat → Nat) (n : Nat) (qs : List WeightedQueue) :
    (drawOrder draw n qs).Perm (qs.map Prod.fst) := by
  induction n generalizing qs with
  | zero => exact .refl _
  | succ n ih =>
    simp only [drawOrder]
    split
    · exact .refl _
    · next name rest h => exact ((ih rest).cons name).trans (takeAt_perm h).symm

/-! ## Chances -/

/-- The queues that can be drawn, each with the queues left. -/
def choices : List WeightedQueue → List (WeightedQueue × List WeightedQueue)
  | [] => []
  | q :: rest =>
    let later := (choices rest).map fun c => (c.1, q :: c.2)
    if q.2 = 0 then later else (q, rest) :: later

/-- The orders that so many draws can give, each with its chance. -/
def drawOutcomes : Nat → List WeightedQueue → List (List String × Rat)
  | 0, qs => [(qs.map Prod.fst, 1)]
  | n + 1, qs =>
    match choices qs with
    | [] => [(qs.map Prod.fst, 1)]
    | cs => cs.flatMap fun c =>
      (drawOutcomes n c.2).map fun o =>
        (c.1.1 :: o.1, (c.1.2.toNat : Rat) / (totalWeight qs : Rat) * o.2)

end Schedule

/-- In which order the queues of a pool are looked through. -/
structure Schedule where
  /-- The queues in the strict order. -/
  queues : List WeightedQueue
  /-- Whether every round is in the strict order. -/
  isStrict : Bool
deriving DecidableEq, Repr

namespace Schedule

/-- The schedule of weights. -/
def ofWeights (w : Weights) (isStrict : Bool) : Schedule where
  queues := ranked w.entries
  isStrict := isStrict

/-- The names of the queues in the strict order. -/
def names (s : Schedule) : List String := s.queues.map Prod.fst

/-- Whether a round needs no draws. -/
def isFixed (s : Schedule) : Bool := s.isStrict || s.queues.length = 1

/-- The order of a round by its draws. -/
def round (s : Schedule) (draw : Nat → Nat) : List String :=
  if s.isFixed then s.names else drawOrder draw s.queues.length s.queues

/-- The orders that a round can have, each with its chance. -/
def outcomes (s : Schedule) : List (List String × Rat) :=
  if s.isFixed then [(s.names, 1)] else drawOutcomes s.queues.length s.queues

/-- The chance of each queue, by name, to be at a place of a round.  Queues without
weight are not drawn: they are where the strict order has them. -/
def chances (s : Schedule) (place : Nat) : List (String × Rat) :=
  let weights := s.queues.map fun q => q.2.toNat
  let shares : List Rat :=
    if s.isFixed then weights.map fun _ => 0 else (Urn.ofWeights weights).shares place weights
  let chance (q : WeightedQueue) (share : Rat) : Rat :=
    if s.isFixed || q.2 = 0 then if s.names[place]? = some q.1 then 1 else 0 else share
  s.queues.zipWith (fun q share => (q.1, chance q share)) shares

/-- Every round holds every queue once. -/
theorem round_perm (s : Schedule) (draw : Nat → Nat) : (s.round draw).Perm s.names := by
  unfold round
  split
  · exact .refl _
  · exact drawOrder_perm draw _ _

end Schedule

end JobQueue
