/-!
# Blank characters

The characters of the Unicode property White_Space, and trimming by them.  A
trimmed text is the part of a text that has blanks before and after it and none
at its own ends (`trim_eq_iff`).
-/

namespace JobQueue

/-- Whether a character has the property White_Space. -/
def isBlank (c : Char) : Bool :=
  let n := c.toNat
  (9 ≤ n && n ≤ 13) || n = 0x20 || n = 0x85 || n = 0xA0 || n = 0x1680 ||
    (0x2000 ≤ n && n ≤ 0x200A) || n = 0x2028 || n = 0x2029 || n = 0x202F || n = 0x205F ||
    n = 0x3000

/-- A text without the blanks at its start. -/
def trimStart (s : List Char) : List Char := s.dropWhile isBlank

/-- A text without the blanks at its end. -/
def trimEnd (s : List Char) : List Char := (s.reverse.dropWhile isBlank).reverse

/-- A text without the blanks at either end. -/
def trim (s : List Char) : List Char := trimEnd (trimStart s)

/-- Whether a text has no blank at either end. -/
def Trimmed (s : List Char) : Prop :=
  (∀ c ∈ s.head?, isBlank c = false) ∧ ∀ c ∈ s.getLast?, isBlank c = false

instance (s : List Char) : Decidable (Trimmed s) :=
  decidable_of_iff (s.head?.all (!isBlank ·) ∧ s.getLast?.all (!isBlank ·)) <| by
    unfold Trimmed
    cases s.head? <;> cases s.getLast? <;> simp

theorem trimEnd_eq_reverse (s : List Char) : trimEnd s = (trimStart s.reverse).reverse := rfl

theorem trimStart_append {a : List Char} (blank : ∀ c ∈ a, isBlank c) (s : List Char) :
    trimStart (a ++ s) = trimStart s :=
  List.dropWhile_append_of_pos blank

theorem trimStart_of_head? {s : List Char} (filled : ∀ c ∈ s.head?, isBlank c = false) :
    trimStart s = s := by
  cases s with
  | nil => rfl
  | cons c s => exact List.dropWhile_cons_of_neg (by simpa using filled)

/-- What is taken from the start of a text is blank, and no blank is left there. -/
theorem exists_trimStart (s : List Char) :
    ∃ a, s = a ++ trimStart s ∧ (∀ c ∈ a, isBlank c) ∧
      ∀ c ∈ (trimStart s).head?, isBlank c = false := by
  refine ⟨s.takeWhile isBlank, (List.takeWhile_append_dropWhile).symm,
    fun c mem => ?_, fun c mem => ?_⟩
  · exact List.all_eq_true.mp List.all_takeWhile c mem
  · have filled := List.head?_dropWhile_not isBlank s
    rw [← trimStart, Option.mem_def.mp mem] at filled
    exact filled

/-- What is taken from the end of a text is blank, and no blank is left there. -/
theorem exists_trimEnd (s : List Char) :
    ∃ b, s = trimEnd s ++ b ∧ (∀ c ∈ b, isBlank c) ∧
      ∀ c ∈ (trimEnd s).getLast?, isBlank c = false := by
  obtain ⟨a, eq, blank, filled⟩ := exists_trimStart s.reverse
  refine ⟨a.reverse, ?_, fun c mem => blank c (List.mem_reverse.mp mem), ?_⟩
  · rw [trimEnd_eq_reverse, ← List.reverse_append, ← eq, List.reverse_reverse]
  · rwa [trimEnd_eq_reverse, List.getLast?_reverse]

/-- What is taken from both ends of a text is blank, and no blank is left at either. -/
theorem exists_trim (s : List Char) :
    ∃ a b, s = a ++ trim s ++ b ∧ (∀ c ∈ a, isBlank c) ∧ (∀ c ∈ b, isBlank c) ∧
      Trimmed (trim s) := by
  obtain ⟨a, before, blankBefore, first⟩ := exists_trimStart s
  obtain ⟨b, after, blankAfter, last⟩ := exists_trimEnd (trimStart s)
  refine ⟨a, b, ?_, blankBefore, blankAfter, ?_, last⟩
  · rw [trim, List.append_assoc, ← after, ← before]
  · intro c mem
    refine first c ?_
    have here : (trimEnd (trimStart s)).head? = some c := mem
    rw [after, List.head?_append, here]
    exact Option.mem_some_self c

/-- Trimming takes blanks from both ends of a text, and nothing else. -/
theorem trim_of_blank {a t b : List Char} (before : ∀ c ∈ a, isBlank c)
    (after : ∀ c ∈ b, isBlank c) (trimmed : Trimmed t) : trim (a ++ t ++ b) = t := by
  obtain ⟨first, last⟩ := trimmed
  rw [trim, List.append_assoc, trimStart_append before]
  cases t with
  | nil =>
    have nothing : trimStart b = [] := by
      rw [← List.append_nil b, trimStart_append after]
      rfl
    rw [List.nil_append, nothing]
    rfl
  | cons c t =>
    rw [trimStart_of_head? (by simpa using first), trimEnd_eq_reverse, List.reverse_append,
      trimStart_append (by simpa using after),
      trimStart_of_head? (by rwa [List.head?_reverse]), List.reverse_reverse]

/-- The trimmed text stands between blanks and has none at its ends. -/
theorem trim_eq_iff {s t : List Char} :
    trim s = t ↔
      ∃ a b, s = a ++ t ++ b ∧ (∀ c ∈ a, isBlank c) ∧ (∀ c ∈ b, isBlank c) ∧ Trimmed t := by
  constructor
  · rintro rfl
    exact exists_trim s
  · rintro ⟨a, b, rfl, before, after, trimmed⟩
    exact trim_of_blank before after trimmed

/-- Blanks at either end do not change what a text trims to. -/
theorem trim_between {a b : List Char} (before : ∀ c ∈ a, isBlank c) (after : ∀ c ∈ b, isBlank c)
    (s : List Char) : trim (a ++ s ++ b) = trim s := by
  obtain ⟨a', b', eq, before', after', trimmed⟩ := exists_trim s
  have whole : a ++ s ++ b = (a ++ a') ++ trim s ++ (b' ++ b) :=
    calc a ++ s ++ b
      _ = a ++ (a' ++ trim s ++ b') ++ b := by rw [← eq]
      _ = (a ++ a') ++ trim s ++ (b' ++ b) := by simp only [List.append_assoc]
  rw [whole]
  exact trim_of_blank (List.forall_mem_append.mpr ⟨before, before'⟩)
    (List.forall_mem_append.mpr ⟨after', after⟩) trimmed

theorem trim_of_trimmed {s : List Char} (h : Trimmed s) : trim s = s :=
  trim_eq_iff.mpr ⟨[], [], by simp, by simp, by simp, h⟩

theorem trimmed_trim (s : List Char) : Trimmed (trim s) := by
  obtain ⟨_, _, _, _, _, trimmed⟩ := exists_trim s
  exact trimmed

theorem trimmed_of_filled {s : List Char} (filled : ∀ c ∈ s, isBlank c = false) : Trimmed s :=
  ⟨fun c mem => filled c (List.mem_of_mem_head? mem),
    fun c mem => filled c (List.mem_of_getLast? mem)⟩

theorem mem_of_mem_trim {c : Char} {s : List Char} (h : c ∈ trim s) : c ∈ s := by
  obtain ⟨a, b, eq, _⟩ := exists_trim s
  rw [eq]
  exact List.mem_append_left b (List.mem_append_right a h)

theorem trim_eq_nil_iff {s : List Char} : trim s = [] ↔ ∀ c ∈ s, isBlank c := by
  constructor
  · intro h
    obtain ⟨a, b, rfl, before, after, _⟩ := trim_eq_iff.mp h
    simpa [or_imp, forall_and] using And.intro before after
  · exact fun blank => trim_eq_iff.mpr ⟨s, [], by simp, blank, by simp, by simp [Trimmed]⟩

theorem trim_trimStart (s : List Char) : trim (trimStart s) = trim s := by
  obtain ⟨a, eq, blank, -⟩ := exists_trimStart s
  have same := @trim_between a [] blank (by simp) (trimStart s)
  rwa [List.append_nil, ← eq, eq_comm] at same

theorem trim_trimEnd (s : List Char) : trim (trimEnd s) = trim s := by
  obtain ⟨b, eq, blank, -⟩ := exists_trimEnd s
  have same := @trim_between [] b (by simp) blank (trimEnd s)
  rwa [List.nil_append, ← eq, eq_comm] at same

/-- A character that is not blank parts the two ends of a text. -/
theorem trim_append_cons {c : Char} (filled : isBlank c = false) (s t : List Char) :
    trim (s ++ c :: t) = trimStart s ++ c :: trimEnd t := by
  obtain ⟨a, before, blankBefore, first⟩ := exists_trimStart s
  obtain ⟨b, after, blankAfter, last⟩ := exists_trimEnd t
  refine trim_eq_iff.mpr ⟨a, b, ?_, blankBefore, blankAfter, ?_, ?_⟩
  · simp only [List.append_assoc, List.cons_append, ← after]
    rw [← List.append_assoc, ← before]
  · intro d mem
    rw [List.head?_append, Option.mem_def, Option.or_eq_some_iff] at mem
    rcases mem with mem | ⟨-, mem⟩
    · exact first d mem
    · cases mem
      exact filled
  · intro d mem
    rw [List.getLast?_append, List.getLast?_cons, Option.some_or, Option.mem_some_iff] at mem
    cases ending : (trimEnd t).getLast? with
    | none =>
      rw [ending, Option.getD_none] at mem
      exact mem ▸ filled
    | some e =>
      rw [ending, Option.getD_some] at mem
      exact last d (mem ▸ ending)

end JobQueue
