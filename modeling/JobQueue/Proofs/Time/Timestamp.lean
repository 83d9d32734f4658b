import JobQueue.Proofs.Time.Calendar
import JobQueue.Time.Timestamp

/-!
# Instants come back

The timestamp of an instant is read as that instant (`Instant.ofTimestamp_timestamp`), over
the whole time line and in leap seconds too.

A timestamp has no blanks, and each of its numbers ends at a character that is no digit, or
has all the digits that are taken.  So every reader takes its part whole and leaves the rest.
The parts make up the instant again because days and dates go back and forth.
-/

namespace JobQueue

namespace Timestamp

/-- Whether no digit comes next. -/
def NoDigit (s : List Char) : Prop := ∀ c ∈ s.head?, digitValue? c = none

/-! ## Numbers -/

theorem isBlank_digit (n : Nat) : isBlank (digit n) = false := by
  have inside : n % 10 < 10 := Nat.mod_lt n (by decide)
  have all : ∀ k < 10, isBlank (Char.ofNat (48 + k)) = false := by decide
  exact all _ inside

/-- Digits start with a digit. -/
theorem digits_succ (width n : Nat) : ∃ k t, digits (width + 1) n = digit k :: t := by
  induction width generalizing n with
  | zero => exact ⟨n, [], rfl⟩
  | succ width ih =>
    obtain ⟨k, t, eq⟩ := ih (n / 10)
    exact ⟨k, t ++ [digit n], by rw [digits, eq, List.cons_append]⟩

theorem trimStart_digits (width n : Nat) (s : List Char) :
    trimStart (digits (width + 1) n ++ s) = digits (width + 1) n ++ s := by
  obtain ⟨k, t, eq⟩ := digits_succ width n
  rw [eq, List.cons_append, trimStart, List.dropWhile_cons_of_neg (by simp [isBlank_digit])]

/-- Digits are taken from the left, so the last one is added to ten times what is before it. -/
theorem moreDigits_digits {most width : Nat} (enough : width ≤ most) {n acc : Nat}
    (fits : acc * tenTo width + n % tenTo width ≤ mostNumber) (s : List Char) :
    moreDigits most acc (digits width n ++ s) =
      moreDigits (most - width) (acc * tenTo width + n % tenTo width) s := by
  induction width generalizing n s with
  | zero => simp [digits, tenTo, Nat.mod_one]
  | succ width ih =>
    have parts : n % (tenTo width * 10) = n / 10 % tenTo width * 10 + n % 10 := by
      rw [Nat.mul_comm, Nat.mod_mul]
      omega
    rw [tenTo_succ, parts, ← Nat.mul_assoc, ← Nat.add_assoc, ← Nat.add_mul] at fits ⊢
    rw [digits, List.append_assoc, List.singleton_append, ih (Nat.le_of_succ_le enough) (by omega)]
    obtain ⟨left, eq⟩ : ∃ left, most - width = left + 1 := ⟨most - width - 1, by omega⟩
    have rest : most - (width + 1) = left := by omega
    rw [eq, rest, moreDigits, digitValue?_digit]
    exact if_pos fits

theorem moreDigits_stops {left : Nat} {s : List Char} (stops : left = 0 ∨ NoDigit s) (n : Nat) :
    moreDigits left n s = .ok (n, s) := by
  cases left with
  | zero => rfl
  | succ left =>
    cases s with
    | nil => rfl
    | cons c s =>
      have none : digitValue? c = none := stops.resolve_left (by simp) c rfl
      rw [moreDigits, none]

/-- The digits of a number are read as that number. -/
theorem number_digits {most width : Nat} (enough : width + 1 ≤ most) {n : Nat}
    (fits : n < tenTo (width + 1)) (small : n ≤ mostNumber) {s : List Char}
    (stops : width + 1 = most ∨ NoDigit s) :
    number most (digits (width + 1) n ++ s) = .ok (n, s) := by
  have small' : 0 * tenTo (width + 1) + n % tenTo (width + 1) ≤ mostNumber := by
    rwa [Nat.zero_mul, Nat.zero_add, Nat.mod_eq_of_lt fits]
  have read := moreDigits_digits enough small' s
  rw [Nat.zero_mul, Nat.zero_add, Nat.mod_eq_of_lt fits,
    moreDigits_stops (stops.imp (by omega) id)] at read
  obtain ⟨k, t, eq⟩ := digits_succ width n
  rw [eq, List.cons_append] at read ⊢
  rw [number, digitValue?_digit]
  exact read

/-- Two digits within their bounds are taken. -/
theorem within_digits {lo hi n : Nat} (bounds : lo ≤ n ∧ n ≤ hi) (small : n < 100)
    (s : List Char) : within lo hi (digits 2 n ++ s) = .ok (n, s) := by
  have read := number_digits (Nat.le_refl 2) (n := n) small (by simp only [mostNumber]; omega)
    (s := s) (.inl rfl)
  rw [within, trimStart_digits, read]
  exact if_pos bounds

theorem mark_written {c : Char} (filled : isBlank c = false) (s : List Char) :
    mark c (c :: s) = .ok s := by
  rw [mark, trimStart, List.dropWhile_cons_of_neg (by simp [filled])]
  exact if_pos rfl

/-! ## Years -/

/-- The digits of a year are as many as it takes. -/
theorem exists_width (n : Nat) (small : n < 1000000) :
    ∃ width, (if n < 10000 then 4 else if n < 100000 then 5 else 6) = width + 1 ∧
      n < tenTo (width + 1) := by
  split
  · next few => exact ⟨3, rfl, few⟩
  · split
    · next few => exact ⟨4, rfl, few⟩
    · exact ⟨5, rfl, small⟩

theorem digit_ne_minus (n : Nat) : digit n ≠ '-' := fun eq => by
  have value := digitValue?_digit n
  rw [eq] at value
  cases value

theorem digit_ne_plus (n : Nat) : digit n ≠ '+' := fun eq => by
  have value := digitValue?_digit n
  rw [eq] at value
  cases value

/-- The digits behind a sign are read up to where they end. -/
theorem number_signed {n width : Nat} (fits : n < tenTo (width + 1)) (small : n < 1000000)
    {s : List Char} (stops : NoDigit s) :
    number (digits (width + 1) n ++ s).length (digits (width + 1) n ++ s) = .ok (n, s) := by
  refine number_digits ?_ fits (by simp only [mostNumber]; omega) (.inr stops)
  rw [List.length_append, length_digits]
  exact Nat.le_add_right ..

/-- A year is read as far as its digits go, behind its sign or without one. -/
theorem year_written {y : Int} (small : y.natAbs < 1000000) {s : List Char} (stops : NoDigit s) :
    year (yearText y ++ s) = .ok (y, s) := by
  have inside : -2147483648 ≤ y ∧ y ≤ 2147483647 := by omega
  by_cases plain : 0 ≤ y ∧ y < 10000
  · have four : tenTo 4 = 10000 := rfl
    have read := number_digits (Nat.le_refl 4) (n := y.natAbs) (by rw [four]; omega)
      (by simp only [mostNumber]; omega) (s := s) (.inl rfl)
    have whole : (y.natAbs : Int) = y := by omega
    obtain ⟨k, t, eq⟩ := digits_succ 3 y.natAbs
    rw [yearText, if_pos plain, year, trimStart_digits]
    split
    · next sign => cases digit_ne_minus k (by rw [eq] at sign; injection sign)
    · next sign => cases digit_ne_plus k (by rw [eq] at sign; injection sign)
    · simp only [read, bind, Except.bind, pure, Except.pure, whole]
      exact if_pos inside
  · obtain ⟨width, eq, fits⟩ := exists_width y.natAbs small
    have read := number_signed fits small stops
    rw [yearText, if_neg plain, eq]
    by_cases negative : y < 0
    · have whole : -(y.natAbs : Int) = y := by omega
      rw [if_pos negative, List.cons_append, year, trimStart,
        List.dropWhile_cons_of_neg (by decide)]
      simp only [read, bind, Except.bind, pure, Except.pure, whole]
      exact if_pos inside
    · have whole : (y.natAbs : Int) = y := by omega
      rw [if_neg negative, List.cons_append, year, trimStart,
        List.dropWhile_cons_of_neg (by decide)]
      simp only [read, bind, Except.bind, pure, Except.pure, whole]
      exact if_pos inside

/-! ## Decimals and zones -/

/-- Decimals are read as what they are of a second. -/
theorem decimals_digits {width n nanos : Nat} (few : width + 1 ≤ 9) (fits : n < tenTo (width + 1))
    (whole : n * tenTo (9 - (width + 1)) = nanos) {s : List Char} (stops : NoDigit s) :
    decimals ('.' :: (digits (width + 1) n ++ s)) = .ok (nanos, s) := by
  have most : tenTo (width + 1) ≤ tenTo 9 := Nat.pow_le_pow_right (by decide) few
  have nine : tenTo 9 = 1000000000 := rfl
  have small : n ≤ mostNumber := by
    simp only [mostNumber]
    omega
  have taken : (digits (width + 1) n ++ s).length - s.length = width + 1 := by
    rw [List.length_append, length_digits, Nat.add_sub_cancel]
  have rest : (s.dropWhile fun c => (digitValue? c).isSome) = s := by
    cases s with
    | nil => rfl
    | cons c s => exact List.dropWhile_cons_of_neg (by simp [stops c rfl])
  rw [decimals, number_digits few fits small (.inr stops)]
  simp only [bind, Except.bind, taken, rest, whole]

/-- Whatever number of decimals is written, they are read as the same part of a second. -/
theorem decimals_written {nanos : Nat} (small : nanos < secondNanos) {s : List Char}
    (stops : NoDigit s) (ends : '.' ∉ s.head?) :
    decimals (decimalsText nanos ++ s) = .ok (nanos, s) := by
  have one : tenTo 0 = 1 := rfl
  have three : tenTo 3 = 1000 := rfl
  have six : tenTo 6 = 1000000 := rfl
  have nine : tenTo 9 = 1000000000 := rfl
  simp only [secondNanos] at small
  unfold decimalsText
  split
  · next none =>
    rw [none, List.nil_append]
    unfold decimals
    split
    · simp at ends
    · rfl
  · split
    · next millis =>
      exact decimals_digits (by decide) (by rw [three]; omega) (by rw [six]; omega) stops
    · split
      · next micros =>
        exact decimals_digits (by decide) (by rw [six]; omega) (by rw [three]; omega) stops
      · exact decimals_digits (by decide) (by rw [nine]; omega) (by rw [one]; omega) stops

end Timestamp

/-! ## Instants -/

namespace Instant

open Timestamp

/-- The time line is made of days of which each has a year with a timestamp. -/
theorem year_bounds (t : Instant) :
    -262143 ≤ (Date.ofDay (t.seconds / 86400)).year ∧
      (Date.ofDay (t.seconds / 86400)).year ≤ 262142 := by
  have first := t.earliest_le
  have last := t.le_latest
  simp only [earliestNanos, latestNanos] at first last
  apply Date.year_ofDay_bounds <;> (simp only [seconds, secondNanos]; omega)

/-- An instant is its seconds and what is left of one. -/
theorem nanos_eq (t : Instant) : t.seconds * secondNanos + t.fraction = t.nanos := by
  simp only [seconds, fraction, secondNanos]
  omega

theorem fraction_lt (t : Instant) : t.fraction < secondNanos := by
  simp only [fraction, secondNanos]
  omega

/-- The count of seconds and what is shown of the last minute make up an instant; in a leap
second both are one ahead. -/
theorem ofParts {t : Instant} {ahead shown : Nat} (leap : (if t.isLeap then 1 else 0) = ahead)
    (minute : shown = (t.seconds % 60).toNat + ahead) {seconds : Int}
    (eq : seconds = t.seconds + ahead) :
    (if shown = 60 then ofLeapNanos? ((seconds - 1) * secondNanos + t.fraction)
      else ofNanos? (seconds * secondNanos + t.fraction)) = some t := by
  have inside : earliestNanos ≤ t.nanos ∧ t.nanos ≤ latestNanos := ⟨t.earliest_le, t.le_latest⟩
  cases marked : t.isLeap with
  | false =>
    obtain rfl : 0 = ahead := by rwa [marked, if_neg Bool.false_ne_true] at leap
    rw [if_neg (by omega), eq, Int.natCast_zero, Int.add_zero, t.nanos_eq, ofNanos?,
      dif_pos inside]
    exact congrArg some (Instant.ext rfl marked.symm)
  | true =>
    have last : t.seconds % 60 = 59 := t.second_of_isLeap marked
    obtain rfl : 1 = ahead := by rwa [marked, if_pos rfl] at leap
    rw [if_pos (by omega), eq, Int.natCast_one, Int.add_sub_cancel, t.nanos_eq, ofLeapNanos?,
      dif_pos ⟨inside, last⟩]
    exact congrArg some (Instant.ext rfl marked.symm)

/-- A timestamp is read as its instant. -/
theorem ofTimestamp_timestamp (t : Instant) : ofTimestamp t.timestamp = .ok t := by
  have years := t.year_bounds
  have valid := Date.isValid_ofDay (t.seconds / 86400)
  have count := Date.toDay_ofDay (t.seconds / 86400)
  obtain ⟨months, days⟩ := Date.bounds_of_isValid valid
  rw [timestamp]
  generalize Date.ofDay (t.seconds / 86400) = date at *
  generalize time : (t.seconds % 86400).toNat = second
  generalize leap : (if t.isLeap then 1 else 0) = ahead
  have ahead_le : ahead ≤ 1 := by
    split at leap <;> omega
  have hours : 0 ≤ second / 3600 ∧ second / 3600 ≤ 23 := by omega
  have minutes : 0 ≤ second / 60 % 60 ∧ second / 60 % 60 ≤ 59 := by omega
  have seconds : 0 ≤ second % 60 + ahead ∧ second % 60 + ahead ≤ 60 := by omega
  have shown : second % 60 + ahead = (t.seconds % 60).toNat + ahead := by omega
  have counted : t.seconds / 86400 * 86400 + (second / 3600 : Nat) * 3600 +
      (second / 60 % 60 : Nat) * 60 + (second % 60 + ahead : Nat) - 0 = t.seconds + ahead := by
    omega
  have whole := ofParts leap shown counted
  have dash : ∀ s, NoDigit ('-' :: s) := fun s c mem => by cases mem; rfl
  have zulu : NoDigit ['Z'] := fun c mem => by cases mem; rfl
  have parts : (⟨date.year, date.month, date.day⟩ : Date) = date := rfl
  have ends : zone (trimStart ['Z']) = .ok (0, []) := rfl
  simp only [List.append_assoc, List.cons_append, ofTimestamp, bind, Except.bind,
    year_written (y := date.year) (by omega) (dash _), mark_written (c := '-') (by decide),
    mark_written (c := ':') (by decide), within_digits months (by omega),
    within_digits days (by omega), within_digits hours (by omega), within_digits minutes (by omega),
    within_digits seconds (by omega), decimals_written t.fraction_lt zulu (by simp), parts, valid,
    count, ends, true_or, if_true, whole, years]
  rfl

end Instant

end JobQueue
