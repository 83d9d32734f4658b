import JobQueue.Json.Numeral

/-!
# Whole numbers come back

The decimal digits of a whole number are gathered into that number again as long as
nothing follows that could go on with it (`Json.Stops`), so a number that fits into
64 bits, with or without a sign (`Json.Fits`), comes back whole
(`Json.number_written`).

Conversely no whole number beyond that range is ever read (`Json.number_sound`): the
significand is gathered under that bound, and every other way through a number ends
in a floating-point one.
-/

namespace JobQueue

namespace Json

/-- Whether a whole number is one of 64 bits, with or without a sign. -/
def Fits (n : Int) : Prop := -9223372036854775808 ≤ n ∧ n ≤ 18446744073709551615

instance (n : Int) : Decidable (Fits n) := inferInstanceAs (Decidable (_ ∧ _))

/-- Whether a text may follow a value: it ends, or goes on behind the value. -/
def Stops : Bytes → Prop
  | [] => True
  | b :: _ => b = 0x2C ∨ b = 0x5D ∨ b = 0x7D

@[simp] theorem stops_nil : Stops [] := trivial

@[simp] theorem stops_comma (s : Bytes) : Stops (0x2C :: s) := .inl rfl

@[simp] theorem stops_bracket (s : Bytes) : Stops (0x5D :: s) := .inr (.inl rfl)

@[simp] theorem stops_brace (s : Bytes) : Stops (0x7D :: s) := .inr (.inr rfl)

/-! ## Digits -/

@[simp] theorem asciiBytes_append (s t : List Char) :
    asciiBytes (s ++ t) = asciiBytes s ++ asciiBytes t := by simp [asciiBytes]

theorem asciiBytes_digit : ∀ d < 10, asciiBytes [d.digitChar] = [UInt8.ofNat (0x30 + d)] := by
  decide

theorem digitValue?_ofNat : ∀ d < 10, digitValue? (UInt8.ofNat (0x30 + d)) = some d := by decide

/-- The digits of a number start with a zero only where it is zero. -/
theorem digits_cases (m : Nat) : ∃ b t, asciiBytes (Nat.toDigits 10 m) = b :: t ∧ isDigit b ∧
    (b = 0x30 → m = 0 ∧ t = []) := by
  induction m using Nat.strongRecOn with
  | ind m ih =>
    rcases Nat.lt_or_ge m 10 with small | large
    · have first : ∀ d < 10, isDigit (UInt8.ofNat (0x30 + d)) ∧
          (UInt8.ofNat (0x30 + d) = 0x30 → d = 0) := by decide
      refine ⟨_, [], by rw [Nat.toDigits_of_lt_base small, asciiBytes_digit m small], ?_⟩
      exact ⟨(first m small).1, fun zero => ⟨(first m small).2 zero, rfl⟩⟩
    · obtain ⟨b, t, eq, digit, zero⟩ := ih (m / 10) (by omega)
      refine ⟨b, t ++ asciiBytes [(m % 10).digitChar], ?_, digit, ?_⟩
      · rw [Nat.toDigits_of_base_le (by decide) large, asciiBytes_append, eq, List.cons_append]
      · intro first
        have := (zero first).1
        omega

/-- Gathering the digits of a number ends in that number, and goes on from there. -/
theorem gather_digits {most : Nat} (m : Nat) (fits : m ≤ most) (s : Bytes) :
    ∃ count, gather most 0 (asciiBytes (Nat.toDigits 10 m) ++ s) =
      ((gather most m s).1, (gather most m s).2.1 + count, (gather most m s).2.2) := by
  have step : ∀ n d, d < 10 → n * 10 + d ≤ most → ∀ s,
      gather most n (UInt8.ofNat (0x30 + d) :: s) =
        ((gather most (n * 10 + d) s).1, (gather most (n * 10 + d) s).2.1 + 1,
          (gather most (n * 10 + d) s).2.2) := by
    intro n d digit fits s
    simp only [gather, digitValue?_ofNat d digit, if_pos fits]
  induction m using Nat.strongRecOn generalizing s with
  | ind m ih =>
    rcases Nat.lt_or_ge m 10 with small | large
    · refine ⟨1, ?_⟩
      have last := step 0 m small (by omega) s
      rw [Nat.toDigits_of_lt_base small, asciiBytes_digit m small, List.singleton_append, last,
        Nat.zero_mul, Nat.zero_add]
    · have digit : m % 10 < 10 := Nat.mod_lt m (by decide)
      have parts : m / 10 * 10 + m % 10 = m := by omega
      obtain ⟨count, front⟩ := ih (m / 10) (by omega) (by omega)
        (UInt8.ofNat (0x30 + m % 10) :: s)
      have last := step (m / 10) (m % 10) digit (by omega) s
      refine ⟨1 + count, ?_⟩
      rw [Nat.toDigits_of_base_le (by decide) large, asciiBytes_append, asciiBytes_digit _ digit,
        List.append_assoc, List.singleton_append, front, last, parts, Nat.add_assoc]

/-! ## What follows -/

theorem gather_stops {s : Bytes} (stops : Stops s) (most n : Nat) :
    gather most n s = (n, 0, s) := by
  cases s with
  | nil => rfl
  | cons b s =>
    rcases stops with rfl | rfl | rfl <;> simp [gather, digitValue?]

theorem startsWithDigit_stops {s : Bytes} (stops : Stops s) : startsWithDigit s = false := by
  cases s with
  | nil => rfl
  | cons b s => rcases stops with rfl | rfl | rfl <;> rfl

theorem afterInteger_stops {negative : Bool} {m : Nat} {n : Int} {s : Bytes} (stops : Stops s)
    (whole : intOf? negative m = some n) : afterInteger negative m s = .ok (.int n, s) := by
  cases s with
  | nil => simp only [afterInteger, whole]
  | cons b s => rcases stops with rfl | rfl | rfl <;> simp [afterInteger, whole]

/-- The digits of a number are read as its integer part. -/
theorem unsignedNumber_digits (negative : Bool) {m : Nat} (fits : m ≤ mostSignificand) {s : Bytes}
    (stops : Stops s) :
    unsignedNumber negative (asciiBytes (Nat.toDigits 10 m) ++ s) = afterInteger negative m s := by
  obtain ⟨b, t, eq, digit, zero⟩ := digits_cases m
  obtain ⟨count, gathered⟩ := gather_digits m fits s
  rw [gather_stops stops, eq, List.cons_append] at gathered
  rw [eq, List.cons_append]
  by_cases first : b = 0x30
  · obtain ⟨rfl, rfl⟩ := zero first
    simp [unsignedNumber, first, startsWithDigit_stops stops]
  · simp only [unsignedNumber, if_neg first, if_pos digit, gathered, startsWithDigit_stops stops]
    rfl

/-! ## Whole numbers -/

theorem intOf?_natAbs {n : Int} (fits : Fits n) : intOf? (decide (n < 0)) n.natAbs = some n := by
  obtain ⟨low, high⟩ := fits
  by_cases negative : n < 0
  · have inside : 0 < n.natAbs ∧ n.natAbs ≤ 9223372036854775808 := by omega
    simp only [intOf?, negative, decide_true, not_true_eq_false, if_false, if_pos inside]
    congr 1
    omega
  · simp only [intOf?, negative, decide_false, Bool.false_eq_true, not_false_eq_true, if_true]
    congr 1
    omega

/-- A whole number of 64 bits comes back from its digits. -/
theorem number_written {n : Int} (fits : Fits n) {s : Bytes} (stops : Stops s) :
    number (intBytes n ++ s) = .ok (.int n, s) := by
  have whole := intOf?_natAbs fits
  have small : n.natAbs ≤ mostSignificand := by
    obtain ⟨low, high⟩ := fits
    simp only [mostSignificand]
    omega
  by_cases negative : n < 0
  · rw [decide_eq_true negative] at whole
    simp only [intBytes, if_pos negative, List.cons_append, number, if_true]
    rw [unsignedNumber_digits true small stops, afterInteger_stops stops whole]
  · rw [decide_eq_false negative] at whole
    obtain ⟨b, t, eq, digit, -⟩ := digits_cases n.natAbs
    have noSign : ¬ b = 0x2D := by rintro rfl; simp [isDigit, digitValue?] at digit
    have read := unsignedNumber_digits false small stops
    rw [afterInteger_stops stops whole, eq, List.cons_append] at read
    simp only [intBytes, if_neg negative, eq, List.cons_append, number, if_neg noSign, read]

/-- The first byte of a whole number is a sign or a digit. -/
theorem intBytes_cases (n : Int) :
    ∃ b t, intBytes n = b :: t ∧ (b = 0x2D ∨ isDigit b) := by
  obtain ⟨b, t, eq, digit, -⟩ := digits_cases n.natAbs
  unfold intBytes
  split
  · exact ⟨_, _, rfl, .inl rfl⟩
  · exact ⟨b, t, eq, .inr digit⟩

/-! ## What is read as a number -/

/-- Whether a value may come of reading a number: a floating-point number, or a
whole one of 64 bits. -/
def IsNumber : Json → Prop
  | float _ => True
  | int n => Fits n
  | _ => False

theorem gather_le {most n : Nat} (fits : n ≤ most) (s : Bytes) : (gather most n s).1 ≤ most := by
  induction s generalizing n with
  | nil => exact fits
  | cons b s ih =>
    simp only [gather]
    split
    · exact fits
    · split
      next inside => exact ih inside
      next => exact fits

theorem floatOf_sound {negative : Bool} {m : Nat} {e : Int} {s rest : Bytes} {v : Json}
    (read : floatOf negative m e s = .ok (v, rest)) : IsNumber v := by
  simp only [floatOf] at read
  repeat' split at read
  all_goals first
    | (cases read; trivial)
    | cases read

theorem exponentPart_sound {negative : Bool} {m : Nat} {e : Int} {s rest : Bytes} {v : Json}
    (read : exponentPart negative m e s = .ok (v, rest)) : IsNumber v := by
  simp only [exponentPart] at read
  repeat' split at read
  all_goals first
    | exact floatOf_sound read
    | cases read

theorem afterDigits_sound {negative : Bool} {m : Nat} {e : Int} {s rest : Bytes} {v : Json}
    (read : afterDigits negative m e s = .ok (v, rest)) : IsNumber v := by
  simp only [afterDigits] at read
  repeat' split at read
  · exact floatOf_sound read
  · exact exponentPart_sound read
  · exact floatOf_sound read

theorem fractionPart_sound {negative : Bool} {m : Nat} {e : Int} {s rest : Bytes} {v : Json}
    (read : fractionPart negative m e s = .ok (v, rest)) : IsNumber v := by
  simp only [fractionPart] at read
  split at read
  · exact afterDigits_sound read
  · split at read
    · cases read
    · exact afterDigits_sound read

theorem intOf?_fits {negative : Bool} {m : Nat} (fits : m ≤ mostSignificand) {n : Int}
    (whole : intOf? negative m = some n) : Fits n := by
  simp only [mostSignificand] at fits
  simp only [intOf?] at whole
  repeat' split at whole
  · cases whole
    constructor <;> omega
  · cases whole
    constructor <;> omega
  · cases whole

theorem afterInteger_sound {negative : Bool} {m : Nat} (fits : m ≤ mostSignificand)
    {s rest : Bytes} {v : Json} (read : afterInteger negative m s = .ok (v, rest)) :
    IsNumber v := by
  have whole : ∀ {n t}, intOf? negative m = some n →
      Except.ok (Json.int n, t) = (.ok (v, rest) : Except Fault _) → IsNumber v := by
    rintro n t found ⟨⟩
    exact intOf?_fits fits found
  simp only [afterInteger] at read
  repeat' split at read
  · exact fractionPart_sound read
  · exact exponentPart_sound read
  · next found => exact whole found read
  · exact floatOf_sound read
  · next found => exact whole found read
  · exact floatOf_sound read

theorem unsignedNumber_sound {negative : Bool} {s rest : Bytes} {v : Json}
    (read : unsignedNumber negative s = .ok (v, rest)) : IsNumber v := by
  cases s with
  | nil => cases read
  | cons b s =>
    have fits := gather_le (Nat.zero_le mostSignificand) (b :: s)
    simp only [unsignedNumber] at read
    repeat' split at read
    · cases read
    · exact afterInteger_sound (Nat.zero_le _) read
    · exact fractionPart_sound read
    · exact afterDigits_sound read
    · exact afterDigits_sound read
    · exact afterInteger_sound fits read
    · cases read

/-- No whole number beyond 64 bits is read. -/
theorem number_sound {s rest : Bytes} {v : Json} (read : number s = .ok (v, rest)) :
    IsNumber v := by
  simp only [number] at read
  repeat' split at read
  all_goals exact unsignedNumber_sound read

end Json

end JobQueue
