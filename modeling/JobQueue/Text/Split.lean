/-!
# Splitting texts

Splitting a text at every occurrence of a character, and cutting it at the first
occurrence of a mark.  The pieces of a text are the only ones that are free of
the character and give the text when it is put between them (`pieces_intercalate`,
`intercalate_pieces`, `not_mem_of_mem_pieces`).
-/

namespace JobQueue

/-- The pieces of a text between the occurrences of a character. -/
def pieces (mark : Char) : List Char → List (List Char)
  | [] => [[]]
  | c :: s =>
    if c = mark then [] :: pieces mark s
    else
      match pieces mark s with
      | [] => [[c]]
      | p :: rest => (c :: p) :: rest

/-- The texts before and after the first occurrence of a mark. -/
def cutAt (mark : List Char) : List Char → Option (List Char × List Char)
  | [] => if mark = [] then some ([], []) else none
  | c :: s =>
    if mark.isPrefixOf (c :: s) then some ([], (c :: s).drop mark.length)
    else (cutAt mark s).map fun r => (c :: r.1, r.2)

/-- The pieces of a text are those into which the library splits it. -/
theorem pieces_eq_splitOn (mark : Char) (s : List Char) : pieces mark s = s.splitOn mark := by
  induction s with
  | nil => rfl
  | cons c s ih =>
    rw [pieces, List.splitOn_cons_eq_if_modifyHead, ih]
    by_cases h : c = mark
    · simp [h]
    · obtain ⟨p, rest, hp⟩ := List.exists_cons_of_ne_nil (List.splitOn_ne_nil mark s)
      simp [h, hp]

theorem pieces_ne_nil (mark : Char) (s : List Char) : pieces mark s ≠ [] := by
  rw [pieces_eq_splitOn]
  exact List.splitOn_ne_nil mark s

/-- The pieces with the character between them are the text. -/
theorem intercalate_pieces (mark : Char) (s : List Char) :
    List.intercalate [mark] (pieces mark s) = s := by
  rw [pieces_eq_splitOn, List.intercalate_splitOn]

/-- Pieces that are free of the character come back from the text that they make. -/
theorem pieces_intercalate {mark : Char} {ps : List (List Char)} (apart : ∀ p ∈ ps, mark ∉ p)
    (nonempty : ps ≠ []) : pieces mark ([mark].intercalate ps) = ps := by
  rw [pieces_eq_splitOn, List.splitOn_intercalate mark apart nonempty]

theorem pieces_of_not_mem {mark : Char} {s : List Char} (h : mark ∉ s) : pieces mark s = [s] := by
  rw [pieces_eq_splitOn, List.splitOn_eq_singleton h]

theorem not_mem_of_mem_pieces {mark : Char} {s p : List Char} (h : p ∈ pieces mark s) :
    mark ∉ p := by
  induction s generalizing p with
  | nil => simp_all [pieces]
  | cons c s ih =>
    obtain ⟨q, rest, hq⟩ := List.exists_cons_of_ne_nil (pieces_ne_nil mark s)
    rw [hq] at ih
    simp only [pieces, hq] at h
    split at h
    · rcases List.mem_cons.mp h with rfl | h
      · exact List.not_mem_nil
      · exact ih h
    · next other =>
      rcases List.mem_cons.mp h with rfl | h
      · exact List.not_mem_cons_of_ne_of_not_mem (Ne.symm other) (ih List.mem_cons_self)
      · exact ih (List.mem_cons_of_mem _ h)

/-- The two sides of a cut with the mark between them are the text. -/
theorem append_of_cutAt {mark s a b : List Char} (h : cutAt mark s = some (a, b)) :
    a ++ mark ++ b = s := by
  induction s generalizing a b with
  | nil => simp only [cutAt] at h; split at h <;> simp_all
  | cons c s ih =>
    simp only [cutAt] at h
    split at h
    · next hp =>
      obtain ⟨t, ht⟩ := List.isPrefixOf_iff_prefix.mp hp
      simp only [Option.some.injEq, Prod.mk.injEq] at h
      obtain ⟨rfl, rfl⟩ := h
      rw [← ht]
      simp
    · obtain ⟨⟨x, y⟩, hr, heq⟩ := Option.map_eq_some_iff.mp h
      simp only [Prod.mk.injEq] at heq
      obtain ⟨rfl, rfl⟩ := heq
      simp [← ih hr]

/-- A text is cut at the first place of a character. -/
theorem cutAt_singleton_eq_some_iff {mark : Char} {s a b : List Char} :
    cutAt [mark] s = some (a, b) ↔ s = a ++ mark :: b ∧ mark ∉ a := by
  induction s generalizing a b with
  | nil => simp [cutAt]
  | cons c s ih =>
    by_cases h : mark = c
    · cases a with
      | nil => simp [cutAt, h]
      | cons d a => simp [cutAt, h]; grind
    · cases a with
      | nil => simp [cutAt, h, Ne.symm h]
      | cons d a => simp [cutAt, h, ih]; grind

end JobQueue
