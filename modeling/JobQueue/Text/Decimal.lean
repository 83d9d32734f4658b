/-!
# Decimal digits

Writing a number with a fixed count of digits, reading one digit, and reading
the text of an unsigned number.  `digitValue?_digit` says that a written digit
reads back, and `readUnsigned_eq_ok_iff` which texts are read as which number.
-/

namespace JobQueue

/-- The digit of a number below ten. -/
def digit (n : Nat) : Char := Char.ofNat (48 + n % 10)

/-- The value of a decimal digit. -/
def digitValue? (c : Char) : Option Nat :=
  if 48 ≤ c.toNat ∧ c.toNat ≤ 57 then some (c.toNat - 48) else none

/-- The last `width` decimal digits of a number, with zeros in front. -/
def digits : Nat → Nat → List Char
  | 0, _ => []
  | width + 1, n => digits width (n / 10) ++ [digit n]

theorem length_digits (width n : Nat) : (digits width n).length = width := by
  induction width generalizing n with
  | zero => rfl
  | succ w ih => simp [digits, ih]

theorem digitValue?_digit (n : Nat) : digitValue? (digit n) = some (n % 10) := by
  have h : n % 10 < 10 := Nat.mod_lt _ (by decide)
  revert h
  unfold digit
  generalize n % 10 = k
  intro h
  match k, h with
  | 0, _ | 1, _ | 2, _ | 3, _ | 4, _ | 5, _ | 6, _ | 7, _ | 8, _ | 9, _ => rfl

/-- Why the text of a number cannot be read. -/
inductive NumeralFault where
  /-- There is no text. -/
  | empty
  /-- A character is not a digit. -/
  | invalidDigit
  /-- The number is beyond the largest one wanted. -/
  | tooLarge
deriving DecidableEq, Repr

/-- The wording of a fault. -/
def NumeralFault.message : NumeralFault → String
  | .empty => "cannot parse integer from empty string"
  | .invalidDigit => "invalid digit found in string"
  | .tooLarge => "number too large to fit in target type"

/-- Read on from a number of which `n` are the digits so far. -/
def readDigits (most : Nat) : Nat → List Char → Except NumeralFault Nat
  | n, [] => .ok n
  | n, c :: s =>
    match digitValue? c with
    | none => .error .invalidDigit
    | some d => if n * 10 + d ≤ most then readDigits most (n * 10 + d) s else .error .tooLarge

/-- Read an unsigned number of at most `most`, with or without a plus sign. -/
def readUnsigned (most : Nat) : List Char → Except NumeralFault Nat
  | [] => .error .empty
  | [c] => if c = '+' then .error .invalidDigit else readDigits most 0 [c]
  | c :: s => if c = '+' then readDigits most 0 s else readDigits most 0 (c :: s)

/-- Whether a text is a number in decimal digits, with or without a plus sign. -/
def IsNumeral (s : List Char) (n : Nat) : Prop :=
  ∃ ds, ds ≠ [] ∧ (∀ c ∈ ds, c.isDigit) ∧ (s = ds ∨ s = '+' :: ds) ∧ Nat.ofDigitChars 10 ds 0 = n

theorem digitValue?_eq_some_iff {c : Char} {d : Nat} :
    digitValue? c = some d ↔ c.isDigit ∧ d = c.toNat - '0'.toNat := by
  rw [Char.isDigit_iff_toNat, digitValue?]
  split <;> grind

theorem le_ofDigitChars (ds : List Char) (n : Nat) : n ≤ Nat.ofDigitChars 10 ds n := by
  induction ds generalizing n with
  | nil => exact Nat.le_refl n
  | cons c ds ih =>
    rw [Nat.ofDigitChars_cons]
    exact Nat.le_trans (by omega) (ih _)

theorem readDigits_eq_ok_iff {most n m : Nat} {s : List Char} (small : n ≤ most) :
    readDigits most n s = .ok m ↔
      (∀ c ∈ s, c.isDigit) ∧ Nat.ofDigitChars 10 s n = m ∧ m ≤ most := by
  induction s generalizing n with
  | nil => simp [readDigits]; grind
  | cons c s ih =>
    simp only [readDigits]
    split
    · next no =>
      have : ¬ c.isDigit := fun digit => by
        simp [digitValue?_eq_some_iff.mpr ⟨digit, Eq.refl _⟩] at no
      simp [this]
    · next d yes =>
      obtain ⟨digit, rfl⟩ := digitValue?_eq_some_iff.mp yes
      rw [Nat.ofDigitChars_cons, Nat.mul_comm 10]
      split
      · next fits => rw [ih fits, List.forall_mem_cons, and_iff_right digit]
      · next beyond =>
        -- the digits to come do not make the number smaller
        have := le_ofDigitChars s (n * 10 + (c.toNat - '0'.toNat))
        simp only [reduceCtorEq, false_iff]
        omega

theorem not_isNumeral_nil (n : Nat) : ¬ IsNumeral [] n := by
  rintro ⟨ds, nonempty, _, empty | eq, _⟩
  · exact nonempty empty.symm
  · cases eq

theorem isNumeral_plus {s : List Char} {n : Nat} :
    IsNumeral ('+' :: s) n ↔ s ≠ [] ∧ (∀ c ∈ s, c.isDigit) ∧ Nat.ofDigitChars 10 s 0 = n := by
  constructor
  · rintro ⟨ds, nonempty, digits, rfl | eq, value⟩
    · exact absurd (digits '+' List.mem_cons_self) (by decide)
    · cases eq
      exact ⟨nonempty, digits, value⟩
  · exact fun ⟨nonempty, digits, value⟩ => ⟨s, nonempty, digits, .inr rfl, value⟩

theorem isNumeral_of_ne {c : Char} {s : List Char} {n : Nat} (h : c ≠ '+') :
    IsNumeral (c :: s) n ↔
      (∀ d ∈ c :: s, d.isDigit) ∧ Nat.ofDigitChars 10 (c :: s) 0 = n := by
  constructor
  · rintro ⟨ds, _, digits, rfl | eq, value⟩
    · exact ⟨digits, value⟩
    · cases eq
      exact absurd rfl h
  · exact fun ⟨digits, value⟩ => ⟨c :: s, List.cons_ne_nil c s, digits, .inl rfl, value⟩

theorem isDigit_of_mem_zeros {zeros n : Nat} {c : Char}
    (h : c ∈ List.replicate zeros '0' ++ Nat.toDigits 10 n) : c.isDigit := by
  rcases List.mem_append.mp h with mem | mem
  · rw [List.eq_of_mem_replicate mem]
    decide
  · exact Nat.isDigit_of_mem_toDigits (by decide) (by decide) mem

/-- Zeros in front of a number do not change it. -/
theorem isNumeral_zeros (zeros n : Nat) :
    IsNumeral (List.replicate zeros '0' ++ Nat.toDigits 10 n) n := by
  refine ⟨_, fun empty => ?_, fun c mem => isDigit_of_mem_zeros mem, .inl rfl, ?_⟩
  · exact Nat.toDigits_ne_nil (List.append_eq_nil_iff.mp empty).2
  · rw [Nat.ofDigitChars_append, Nat.ofDigitChars_replicate_zero, Nat.mul_zero,
      Nat.ofDigitChars_ten_toDigits]

/-- The texts that are read are the numbers of at most `most`, each as its value. -/
theorem readUnsigned_eq_ok_iff {most n : Nat} {s : List Char} :
    readUnsigned most s = .ok n ↔ IsNumeral s n ∧ n ≤ most := by
  have digits (ds : List Char) := @readDigits_eq_ok_iff most 0 n ds (Nat.zero_le most)
  unfold readUnsigned
  split
  · simp [not_isNumeral_nil]
  · next c =>
    split
    · next plus => simp [plus, isNumeral_plus]
    · next other => rw [digits, isNumeral_of_ne other, and_assoc]
  · next c s more =>
    have nonempty : s ≠ [] := fun empty => more empty
    split
    · next plus => rw [digits, plus, isNumeral_plus, and_iff_right nonempty, and_assoc]
    · next other => rw [digits, isNumeral_of_ne other, and_assoc]

end JobQueue
