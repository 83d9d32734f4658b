import JobQueue.Schedule.Draws

/-!
# The orders of rounds

A strict round has one order, in which heavier queues come first and, of those that are
as heavy, the one of the lesser name.  A weighted round may have any order of the queues
with weight, followed by those without in ascending order of their names
(`Schedule.IsOrderOf`); and it may have no other, however draws are made
(`Schedule.orders_of_rounds`).

Both directions go by the loop of draws.  A draw takes out a queue with weight and leaves
the others in their order, so those without weight still stand as they did when nothing is
left to draw from (`Schedule.weightless_eraseIdx`).  That shows what comes of draws
(`Schedule.drawAll_isOrderOf`).  And whatever queue is to come next, some chance draws it
(`Schedule.exists_drawAll`).
-/

namespace JobQueue

namespace Schedule

/-! ## Orders -/

/-- The names of the queues with weight. -/
def weighted (qs : List WeightedQueue) : List String :=
  (qs.filter fun q => q.2 ≠ 0).map Prod.fst

/-- The names of the queues without weight. -/
def weightless (qs : List WeightedQueue) : List String :=
  (qs.filter fun q => q.2 = 0).map Prod.fst

/-- Whether an order has the queues with weight in any order, and then those without as they
stand. -/
def IsOrderOf (qs : List WeightedQueue) (order : List String) : Prop :=
  ∃ front, front.Perm (weighted qs) ∧ order = front ++ weightless qs

variable {qs : List WeightedQueue} {q : WeightedQueue} {i : Nat} {order done : List String}

theorem split_of_getElem? (there : qs[i]? = some q) :
    ∃ before after, qs = before ++ q :: after ∧ qs.eraseIdx i = before ++ after := by
  obtain ⟨inside, rfl⟩ := List.getElem?_eq_some_iff.mp there
  exact ⟨qs.take i, qs.drop (i + 1), by simp, List.eraseIdx_eq_take_drop_succ ..⟩

theorem length_eraseIdx_add_one (there : qs[i]? = some q) :
    (qs.eraseIdx i).length + 1 = qs.length := by
  obtain ⟨before, after, rfl, rest⟩ := split_of_getElem? there
  simp [rest, Nat.add_assoc]

theorem weighted_perm_cons (there : qs[i]? = some q) (weighs : q.2 ≠ 0) :
    (weighted qs).Perm (q.1 :: weighted (qs.eraseIdx i)) := by
  obtain ⟨before, after, rfl, rest⟩ := split_of_getElem? there
  rw [rest, weighted, weighted, List.filter_append, List.filter_append,
    List.filter_cons_of_pos (by simpa using weighs), List.map_append, List.map_append,
    List.map_cons]
  exact List.perm_middle

/-- Taking out a queue with weight leaves those without as they stand. -/
theorem weightless_eraseIdx (there : qs[i]? = some q) (weighs : q.2 ≠ 0) :
    weightless (qs.eraseIdx i) = weightless qs := by
  obtain ⟨before, after, rfl, rest⟩ := split_of_getElem? there
  rw [rest, weightless, weightless, List.filter_append, List.filter_append,
    List.filter_cons_of_neg (by simpa using weighs)]

/-- Any queue with weight may come first. -/
theorem IsOrderOf.cons (there : qs[i]? = some q) (weighs : q.2 ≠ 0)
    (later : IsOrderOf (qs.eraseIdx i) order) : IsOrderOf qs (q.1 :: order) := by
  obtain ⟨front, perm, rfl⟩ := later
  refine ⟨q.1 :: front, (perm.cons q.1).trans (weighted_perm_cons there weighs).symm, ?_⟩
  rw [weightless_eraseIdx there weighs, List.cons_append]

/-- As long as there is a queue with weight, one comes first. -/
theorem IsOrderOf.exists_first (isOrder : IsOrderOf qs order) (any : ∃ q ∈ qs, q.2 ≠ 0) :
    ∃ i q later, qs[i]? = some q ∧ q.2 ≠ 0 ∧ order = q.1 :: later ∧
      IsOrderOf (qs.eraseIdx i) later := by
  obtain ⟨front, perm, rfl⟩ := isOrder
  cases front with
  | nil =>
    obtain ⟨q, mem, weighs⟩ := any
    have listed : q.1 ∈ weighted qs :=
      List.mem_map_of_mem (List.mem_filter.mpr ⟨mem, by simpa using weighs⟩)
    rw [perm.symm.eq_nil] at listed
    cases listed
  | cons name front =>
    obtain ⟨q, listed, rfl⟩ := List.mem_map.mp (perm.subset List.mem_cons_self)
    obtain ⟨mem, weighs⟩ := List.mem_filter.mp listed
    obtain ⟨i, there⟩ := List.mem_iff_getElem?.mp mem
    have weighs : q.2 ≠ 0 := by simpa using weighs
    refine ⟨i, q, front ++ weightless qs, there, weighs, rfl, front, ?_, ?_⟩
    · exact (perm.trans (weighted_perm_cons there weighs)).cons_inv
    · rw [weightless_eraseIdx there weighs]

/-- Queues without weight have the one order in which they stand. -/
theorem isOrderOf_iff_of_weightless (light : ∀ q ∈ qs, q.2 = 0) :
    IsOrderOf qs order ↔ order = qs.map Prod.fst := by
  have front : weighted qs = [] := by
    rw [weighted, List.filter_eq_nil_iff.mpr (by simpa using light), List.map_nil]
  have back : weightless qs = qs.map Prod.fst := by
    rw [weightless, List.filter_eq_self.mpr (by simpa using light)]
  simp [IsOrderOf, front, back]

theorem isOrderOf_singleton : IsOrderOf [q] order ↔ order = [q.1] := by
  by_cases zero : q.2 = 0
  · rw [isOrderOf_iff_of_weightless (by simpa using zero)]
    rfl
  · simp [IsOrderOf, weighted, weightless, zero]

/-- An order has every queue once. -/
theorem IsOrderOf.perm (isOrder : IsOrderOf qs order) : order.Perm (qs.map Prod.fst) := by
  obtain ⟨front, perm, rfl⟩ := isOrder
  have parts := (List.filter_append_perm (fun q : WeightedQueue => q.2 ≠ 0) qs).map Prod.fst
  rw [List.map_append] at parts
  refine (perm.append_right _).trans (.trans (.of_eq ?_) parts)
  simp [weighted, weightless]

/-! ## What comes of draws -/

section Draws

variable {Ω : Type} {pick : Sampler Ω} {chance chance' : Nat → Ω}

theorem weights_eq_zero_iff : (∀ w ∈ weights qs, w = 0) ↔ ∀ q ∈ qs, q.2 = 0 := by
  simp only [weights, List.forall_mem_map, ← UInt32.toNat_inj, UInt32.toNat_zero]

theorem getElem?_weights_iff {w : Nat} :
    (weights qs)[i]? = some w ↔ ∃ q, qs[i]? = some q ∧ q.2.toNat = w := by
  simp [weights]

theorem drawAll_of_weightless (proper : pick.IsProper) (light : ∀ q ∈ qs, q.2 = 0) :
    drawAll pick chance qs done = some (done ++ qs.map Prod.fst) := by
  rw [drawAll]
  split
  · next empty => simp [empty]
  · rw [(proper.refuses _ _).mpr (weights_eq_zero_iff.mpr light)]

theorem drawAll_of_drawn (drawn : pick (chance (qs.length - 1)) (weights qs) = some i)
    (there : qs[i]? = some q) :
    drawAll pick chance qs done = drawAll pick chance (qs.eraseIdx i) (done ++ [q.1]) := by
  obtain ⟨inside, rfl⟩ := List.getElem?_eq_some_iff.mp there
  have nonempty : qs ≠ [] := List.ne_nil_of_length_pos (Nat.zero_lt_of_lt inside)
  rw [drawAll, if_neg nonempty]
  simp only [drawn, dif_pos inside]

/-- A draw takes one of the queues with weight, if there is one. -/
theorem drawn_cases (proper : pick.IsProper) (c : Ω) (qs : List WeightedQueue) :
    (∀ q ∈ qs, q.2 = 0) ∨
      ∃ i q, pick c (weights qs) = some i ∧ qs[i]? = some q ∧ q.2 ≠ 0 := by
  cases drawn : pick c (weights qs) with
  | none => exact .inl (weights_eq_zero_iff.mp ((proper.refuses _ _).mp drawn))
  | some i =>
    obtain ⟨w, there, weighs⟩ := proper.weighs _ _ _ drawn
    obtain ⟨q, here, rfl⟩ := getElem?_weights_iff.mp there
    exact .inr ⟨i, q, rfl, here, fun zero => weighs (congrArg UInt32.toNat zero)⟩

/-- Draws come to an end, and put the queues that remain behind the others in some order. -/
theorem drawAll_isOrderOf (proper : pick.IsProper) (chance : Nat → Ω) (qs : List WeightedQueue)
    (done : List String) :
    ∃ order, drawAll pick chance qs done = some (done ++ order) ∧ IsOrderOf qs order := by
  induction size : qs.length generalizing qs done with
  | zero =>
    cases List.length_eq_zero_iff.mp size
    exact ⟨[], drawAll_of_weightless proper (by simp), [], .refl _, rfl⟩
  | succ n ih =>
    rcases drawn_cases proper (chance (qs.length - 1)) qs with light | ⟨i, q, drawn, there, weighs⟩
    · exact ⟨_, drawAll_of_weightless proper light, (isOrderOf_iff_of_weightless light).mpr rfl⟩
    · have left := length_eraseIdx_add_one there
      obtain ⟨order, ends, isOrder⟩ := ih (qs.eraseIdx i) (done ++ [q.1]) (by omega)
      refine ⟨q.1 :: order, ?_, isOrder.cons there weighs⟩
      rw [drawAll_of_drawn drawn there, ends, List.append_assoc, List.singleton_append]

/-- Only the chances of its own draws matter to a loop. -/
theorem drawAll_congr (same : ∀ n < qs.length, chance n = chance' n) (done : List String) :
    drawAll pick chance qs done = drawAll pick chance' qs done := by
  induction size : qs.length generalizing qs done with
  | zero =>
    cases List.length_eq_zero_iff.mp size
    rw [drawAll, drawAll, if_pos rfl, if_pos rfl]
  | succ n ih =>
    rw [drawAll, drawAll, same (qs.length - 1) (by omega)]
    split
    · rfl
    · split
      · rfl
      · next i _ =>
        split
        · next inside =>
          have left := length_eraseIdx_add_one (List.getElem?_eq_getElem inside)
          exact ih (fun m less => same m (by omega)) _ (by omega)
        · rfl

/-- The one order of queues without weight comes of any draws. -/
theorem exists_drawAll_of_weightless (proper : pick.IsProper) (light : ∀ q ∈ qs, q.2 = 0)
    (isOrder : IsOrderOf qs order) (done : List String) :
    ∃ chance, drawAll pick chance qs done = some (done ++ order) := by
  obtain ⟨c⟩ := proper.nonempty
  rw [isOrderOf_iff_of_weightless light] at isOrder
  exact ⟨fun _ => c, isOrder ▸ drawAll_of_weightless proper light⟩

/-- Every order comes of some draws. -/
theorem exists_drawAll (proper : pick.IsProper) (isOrder : IsOrderOf qs order)
    (done : List String) : ∃ chance, drawAll pick chance qs done = some (done ++ order) := by
  induction size : qs.length generalizing qs order done with
  | zero =>
    cases List.length_eq_zero_iff.mp size
    exact exists_drawAll_of_weightless proper (by simp) isOrder done
  | succ n ih =>
    by_cases light : ∀ q ∈ qs, q.2 = 0
    · exact exists_drawAll_of_weightless proper light isOrder done
    · obtain ⟨i, q, later, there, weighs, rfl, isLater⟩ :=
        isOrder.exists_first (by simpa using light)
      have left := length_eraseIdx_add_one there
      obtain ⟨c, drawn⟩ := proper.reaches (weights qs) i q.2.toNat
        (getElem?_weights_iff.mpr ⟨q, there, rfl⟩) fun zero => weighs (UInt32.toNat_inj.mp zero)
      obtain ⟨chance, ends⟩ := ih isLater (done ++ [q.1]) (by omega)
      -- the draws that follow leave fewer queues, so this one has a chance of its own
      refine ⟨fun m => if m = n then c else chance m, ?_⟩
      rw [drawAll_of_drawn (by rw [size, Nat.add_sub_cancel, if_pos rfl, drawn]) there,
        drawAll_congr (fun m less => if_neg (by omega)), ends, List.append_assoc,
        List.singleton_append]

end Draws

/-! ## Rounds by lot -/

theorem totalWeight_eq (qs : List WeightedQueue) : totalWeight qs = total (weights qs) := by
  induction qs with
  | nil => rfl
  | cons q rest ih => rw [totalWeight, ih, weights, weights, List.map_cons, total]

theorem takeAt_eq (n : Nat) (qs : List WeightedQueue) :
    takeAt n qs =
      (placeOf n (weights qs)).bind fun i => qs[i]?.map fun q => (q.1, qs.eraseIdx i) := by
  induction qs generalizing n with
  | nil => rfl
  | cons q rest ih =>
    rw [takeAt, weights, List.map_cons, placeOf]
    split
    · rfl
    · rw [ih, weights, Option.bind_map, Option.map_bind]
      congr 1
      funext i
      simp [Function.comp_def]

theorem drawAll_lot (draw : Nat → Nat) (qs : List WeightedQueue) (done : List String) :
    drawAll lot draw qs done = some (done ++ drawOrder draw qs.length qs) := by
  induction size : qs.length generalizing qs done with
  | zero =>
    cases List.length_eq_zero_iff.mp size
    exact drawAll_of_weightless isProper_lot (by simp)
  | succ n ih =>
    have first : qs.length - 1 = n := by omega
    rw [drawOrder, takeAt_eq, totalWeight_eq]
    rcases drawn_cases isProper_lot (draw n) qs with light | ⟨i, q, drawn, there, weighs⟩
    · have refused := (isProper_lot.refuses (draw n) _).mpr (weights_eq_zero_iff.mpr light)
      rw [lot] at refused
      rw [drawAll_of_weightless isProper_lot light, refused]
      rfl
    · have left := length_eraseIdx_add_one there
      rw [drawAll_of_drawn (first ▸ drawn) there, ih _ _ (by omega)]
      rw [lot] at drawn
      simp [drawn, there]

/-- A round is one by lot. -/
theorem roundBy_lot (s : Schedule) (draw : Nat → Nat) :
    s.roundBy lot draw = some (s.round draw) := by
  unfold roundBy round
  split
  · rfl
  · rw [drawAll_lot, List.nil_append]

/-! ## The orders that are listed -/

theorem mem_choices {c : WeightedQueue × List WeightedQueue} :
    c ∈ choices qs ↔ ∃ i, qs[i]? = some c.1 ∧ c.1.2 ≠ 0 ∧ c.2 = qs.eraseIdx i := by
  induction qs generalizing c with
  | nil => simp [choices]
  | cons q rest ih =>
    have later : (c ∈ (choices rest).map fun c => (c.1, q :: c.2)) ↔
        ∃ i, rest[i]? = some c.1 ∧ c.1.2 ≠ 0 ∧ c.2 = q :: rest.eraseIdx i := by
      rw [List.mem_map]
      constructor
      · rintro ⟨c, mem, rfl⟩
        obtain ⟨i, there, weighs, same⟩ := ih.mp mem
        exact ⟨i, there, weighs, congrArg _ same⟩
      · rintro ⟨i, there, weighs, same⟩
        exact ⟨(c.1, rest.eraseIdx i), ih.mpr ⟨i, there, weighs, rfl⟩, Prod.ext rfl same.symm⟩
    have first : (∃ i, (q :: rest)[i]? = some c.1 ∧ c.1.2 ≠ 0 ∧ c.2 = (q :: rest).eraseIdx i) ↔
        (q = c.1 ∧ c.1.2 ≠ 0 ∧ c.2 = rest) ∨
          ∃ i, rest[i]? = some c.1 ∧ c.1.2 ≠ 0 ∧ c.2 = q :: rest.eraseIdx i := by
      constructor
      · rintro ⟨_ | i, there, more⟩
        · exact .inl ⟨Option.some.inj there, more⟩
        · exact .inr ⟨i, there, more⟩
      · rintro (⟨rfl, more⟩ | ⟨i, there, more⟩)
        · exact ⟨0, rfl, more⟩
        · exact ⟨i + 1, there, more⟩
    rw [first, choices]
    split
    · next zero =>
      rw [later, or_iff_right]
      rintro ⟨rfl, weighs, -⟩
      exact weighs zero
    · next weighs =>
      rw [List.mem_cons, later]
      refine or_congr_left ⟨?_, ?_⟩
      · rintro rfl
        exact ⟨rfl, weighs, rfl⟩
      · rintro ⟨rfl, -, rfl⟩
        rfl

theorem choices_eq_nil_iff : choices qs = [] ↔ ∀ q ∈ qs, q.2 = 0 := by
  constructor
  · intro empty q mem
    refine Decidable.byContradiction fun weighs => ?_
    obtain ⟨i, there⟩ := List.mem_iff_getElem?.mp mem
    have choice : (q, qs.eraseIdx i) ∈ choices qs := mem_choices.mpr ⟨i, there, weighs, rfl⟩
    rw [empty] at choice
    cases choice
  · intro light
    refine List.eq_nil_iff_forall_not_mem.mpr fun c choice => ?_
    obtain ⟨i, there, weighs, -⟩ := mem_choices.mp choice
    exact weighs (light _ (List.mem_of_getElem? there))

/-- The orders that are listed are all the orders. -/
theorem mem_drawOutcomes :
    order ∈ (drawOutcomes qs.length qs).map Prod.fst ↔ IsOrderOf qs order := by
  induction size : qs.length generalizing qs order with
  | zero =>
    cases List.length_eq_zero_iff.mp size
    rw [isOrderOf_iff_of_weightless (by simp)]
    simp [drawOutcomes]
  | succ n ih =>
    by_cases light : ∀ q ∈ qs, q.2 = 0
    · rw [isOrderOf_iff_of_weightless light, drawOutcomes, choices_eq_nil_iff.mpr light]
      simp
    · have some_ : choices qs ≠ [] := fun empty => light (choices_eq_nil_iff.mp empty)
      have listed : order ∈ (drawOutcomes (n + 1) qs).map Prod.fst ↔
          ∃ c ∈ choices qs, ∃ later ∈ (drawOutcomes n c.2).map Prod.fst, order = c.1.1 :: later := by
        rw [drawOutcomes]
        split
        · next empty => exact absurd empty some_
        · rw [List.map_flatMap, List.mem_flatMap]
          refine exists_congr fun c => and_congr_right fun _ => ?_
          simp [List.mem_map, eq_comm]
      rw [listed]
      constructor
      · rintro ⟨c, choice, later, mem, rfl⟩
        obtain ⟨i, there, weighs, same⟩ := mem_choices.mp choice
        have left := length_eraseIdx_add_one there
        rw [same] at mem
        exact ((ih (by omega)).mp mem).cons there weighs
      · intro isOrder
        obtain ⟨i, q, later, there, weighs, rfl, isLater⟩ :=
          isOrder.exists_first (by simpa using light)
        have left : (qs.eraseIdx i).length = n := by
          have := length_eraseIdx_add_one there
          omega
        exact ⟨(q, qs.eraseIdx i), mem_choices.mpr ⟨i, there, weighs, rfl⟩, later,
          (ih left).mpr isLater, rfl⟩

/-! ## The strict order -/

/-- Whether a queue stands before another one in the strict order. -/
def Before (a b : WeightedQueue) : Prop := b.2 < a.2 ∨ a.2 = b.2 ∧ a.1 < b.1

theorem nodup_names (w : Weights) : (w.entries.map Prod.fst).Nodup := by
  refine List.pairwise_map.mpr (w.ascending.imp ?_)
  intro a b less same
  exact String.lt_irrefl _ (same ▸ less)

theorem pairwise_before_ranked (w : Weights) : (ranked w.entries).Pairwise Before := by
  have distinct : (ranked w.entries).Pairwise fun a b => a.1 ≠ b.1 := by
    have names := ((ranked_perm w.entries).map Prod.fst).nodup_iff.mpr (nodup_names w)
    exact List.pairwise_map.mp names
  refine ((pairwise_ranked w.entries).and distinct).imp ?_
  rintro a b ⟨ranks, ne⟩
  refine (ranksBefore_iff.mp ranks).imp id fun ⟨same, le⟩ => ⟨same, ?_⟩
  exact Std.lt_of_le_of_ne le ne

/-- Without weight, the strict order is that of the names. -/
theorem weightless_ranked (w : Weights) : weightless (ranked w.entries) = weightless w.entries := by
  have light : ∀ {l : List WeightedQueue} {q}, q ∈ l.filter (fun q => q.2 = 0) → q.2 = 0 :=
    fun mem => by simpa using (List.mem_filter.mp mem).2
  have byName : ((ranked w.entries).filter fun q => q.2 = 0).Pairwise fun a b => a.1 ≤ b.1 := by
    refine ((pairwise_before_ranked w).filter _).imp_of_mem fun {a b} memA memB before => ?_
    rcases before with heavier | ⟨-, less⟩
    · rw [light memA, light memB] at heavier
      exact absurd heavier (by decide)
    · exact Std.le_of_lt less
  refine congrArg (List.map Prod.fst) (List.Perm.eq_of_pairwise ?_ byName
    ((w.ascending.filter _).imp Std.le_of_lt) ((ranked_perm w.entries).filter _))
  intro a b memA memB le le'
  exact Prod.ext (Std.le_antisymm le le') ((light memA).trans (light memB).symm)

theorem isOrderOf_ranked (w : Weights) :
    IsOrderOf (ranked w.entries) order ↔ IsOrderOf w.entries order := by
  have front : (weighted (ranked w.entries)).Perm (weighted w.entries) :=
    ((ranked_perm w.entries).filter _).map Prod.fst
  simp only [IsOrderOf, weightless_ranked]
  exact exists_congr fun _ => and_congr_left fun _ => front.congr_right _

/-! ## Rounds -/

theorem isFixed_weighted {w : Weights} :
    (ofWeights w false).isFixed ↔ ∃ q, ranked w.entries = [q] := by
  rw [← List.length_eq_one_iff, isFixed, ofWeights, Bool.false_or, decide_eq_true_eq]

section Rounds

variable {Ω : Type} {pick : Sampler Ω} {w : Weights}

/-- A weighted round ends in an order of its queues. -/
theorem roundBy_isOrderOf (proper : pick.IsProper) (w : Weights) (chance : Nat → Ω) :
    ∃ order, (ofWeights w false).roundBy pick chance = some order ∧ IsOrderOf w.entries order := by
  simp only [← isOrderOf_ranked]
  unfold roundBy
  split
  · next fixed =>
    obtain ⟨q, single⟩ := isFixed_weighted.mp fixed
    refine ⟨_, rfl, ?_⟩
    rw [names, ofWeights, single, isOrderOf_singleton]
    rfl
  · exact drawAll_isOrderOf proper chance (ranked w.entries) []

/-- Every order of the queues is that of a weighted round. -/
theorem exists_roundBy (proper : pick.IsProper) (isOrder : IsOrderOf w.entries order) :
    ∃ chance, (ofWeights w false).roundBy pick chance = some order := by
  rw [← isOrderOf_ranked] at isOrder
  unfold roundBy
  split
  · next fixed =>
    obtain ⟨q, single⟩ := isFixed_weighted.mp fixed
    obtain ⟨c⟩ := proper.nonempty
    refine ⟨fun _ => c, ?_⟩
    rw [single, isOrderOf_singleton] at isOrder
    rw [names, ofWeights, single, isOrder]
    rfl
  · exact exists_drawAll proper isOrder []

theorem mem_outcomes :
    order ∈ (ofWeights w false).outcomes.map Prod.fst ↔ IsOrderOf w.entries order := by
  rw [← isOrderOf_ranked]
  unfold outcomes
  split
  · next fixed =>
    obtain ⟨q, single⟩ := isFixed_weighted.mp fixed
    rw [names, ofWeights, single, isOrderOf_singleton]
    simp
  · exact mem_drawOutcomes

/-- With any proper sampler, a strict round is in the strict order, and a weighted one may have
the queues with weight in any order, with those without behind them by their names, and has
them in no other order.  So every round ends, and has every queue once; rounds by lot are such
rounds, and the orders that are listed are theirs. -/
theorem orders_of_rounds (proper : pick.IsProper) (w : Weights) :
    (∃ qs : List WeightedQueue, qs.Perm w.entries ∧ qs.Pairwise Before ∧
      (∀ chance, (ofWeights w true).roundBy pick chance = some (qs.map Prod.fst)) ∧
      ∀ isStrict, (ofWeights w isStrict).names = qs.map Prod.fst) ∧
    (∀ order, (∃ chance, (ofWeights w false).roundBy pick chance = some order) ↔
      IsOrderOf w.entries order) ∧
    (weightless w.entries).Pairwise (· < ·) ∧
    (∀ isStrict chance, ∃ order, (ofWeights w isStrict).roundBy pick chance = some order ∧
      order.Perm (w.entries.map Prod.fst) ∧ order.Nodup) ∧
    (∀ isStrict draw, (ofWeights w isStrict).roundBy lot draw =
      some ((ofWeights w isStrict).round draw)) ∧
    ∀ order, order ∈ (ofWeights w false).outcomes.map Prod.fst ↔ IsOrderOf w.entries order := by
  have complete : ∀ {order : List String}, order.Perm (w.entries.map Prod.fst) → order.Nodup :=
    fun perm => perm.nodup_iff.mpr (nodup_names w)
  refine ⟨⟨ranked w.entries, ranked_perm w.entries, pairwise_before_ranked w, fun _ => rfl,
    fun _ => rfl⟩, fun order => ⟨?_, exists_roundBy proper⟩, ?_, fun isStrict chance => ?_,
    fun isStrict draw => roundBy_lot _ draw, fun order => mem_outcomes⟩
  · rintro ⟨chance, ends⟩
    obtain ⟨order', ends', isOrder⟩ := roundBy_isOrderOf proper w chance
    cases ends.symm.trans ends'
    exact isOrder
  · exact List.pairwise_map.mpr (w.ascending.filter _)
  · cases isStrict with
    | true =>
      have perm := (ranked_perm w.entries).map Prod.fst
      exact ⟨_, rfl, perm, complete perm⟩
    | false =>
      obtain ⟨order, ends, isOrder⟩ := roundBy_isOrderOf proper w chance
      exact ⟨order, ends, isOrder.perm, complete isOrder.perm⟩

/-- Two queues with weight, the lighter of which a round by lot may have first, and one without
that comes last although its name is the first. -/
theorem orders_of_rounds_of_example :
    let w : Weights := .ofList [("b", 4294967295), ("c", 1), ("a", 0)]
    lot.IsProper ∧
      (∃ draw, (ofWeights w false).roundBy lot draw = some ["c", "b", "a"]) ∧
      (∀ draw, (ofWeights w false).roundBy lot draw ≠ some ["a", "b", "c"]) ∧
      ∀ draw, (ofWeights w true).roundBy lot draw = some ["b", "c", "a"] := by
  intro w
  obtain ⟨⟨qs, -, -, strict, names⟩, orders, -⟩ := orders_of_rounds isProper_lot w
  refine ⟨isProper_lot, (orders _).mpr ⟨["c", "b"], by decide, rfl⟩, fun draw ends => ?_,
    fun draw => ?_⟩
  · obtain ⟨front, perm, eq⟩ := (orders _).mp ⟨draw, ends⟩
    have last : (front ++ ["a"]).getLast? = some "c" := congrArg List.getLast? eq.symm
    simp at last
  · rw [strict, ← names true]
    rfl

end Rounds

end Schedule

end JobQueue
