import JobQueue.Json.Skip
import JobQueue.Proofs.Json.Value

/-!
# Numbers that are skipped

A number that is read is skipped up to the same place (`Json.unsignedNumber_skipped`).
The reader gathers digits while they fit and drops the others; the skipper takes all
digits in one go, so what is to be shown is that gathering and dropping come to that.

What is skipped does not depend on what stands behind it.  Where a text goes on
behind its end with something that may follow a value, the same part of it is
skipped (`Json.Extends`).
-/

namespace JobQueue

namespace Json

/-! ## Numbers that are read -/

theorem dropWhile_gather (most n : Nat) (s : Bytes) :
    (gather most n s).2.2.dropWhile isDigit = s.dropWhile isDigit := by
  induction s generalizing n with
  | nil => rfl
  | cons b s ih =>
    simp only [gather]
    cases digit : digitValue? b with
    | none => rfl
    | some d =>
      have more : isDigit b := by simp [isDigit, digit]
      dsimp only
      split
      · rw [List.dropWhile_cons_of_pos more, ih]
      · rfl

theorem dropWhile_digits {s : Bytes} (stop : startsWithDigit s = false) :
    s.dropWhile isDigit = s := by
  cases s with
  | nil => rfl
  | cons b s => exact List.dropWhile_cons_of_neg (by simpa [startsWithDigit] using stop)

/-- Gathering ends behind all digits unless it leaves one that does not fit. -/
theorem gather_rest {most n : Nat} {s : Bytes}
    (stop : startsWithDigit (gather most n s).2.2 = false) :
    (gather most n s).2.2 = s.dropWhile isDigit := by
  rw [← dropWhile_gather most n, dropWhile_digits stop]

theorem floatOf_rest {negative : Bool} {m : Nat} {e : Int} {s rest : Bytes} {v : Json}
    (read : floatOf negative m e s = .ok (v, rest)) : rest = s := by
  simp only [floatOf] at read
  repeat' split at read
  all_goals first
    | (cases read; rfl)
    | cases read

/-- An exponent is read as far as its digits go. -/
theorem exponentPart_rest {negative : Bool} {m : Nat} {e : Int} {s rest : Bytes} {v : Json}
    (read : exponentPart negative m e s = .ok (v, rest)) :
    ∃ b t, isDigit b ∧ rest = t.dropWhile isDigit ∧
      (s = b :: t ∨ s = 0x2B :: b :: t ∨ s = 0x2D :: b :: t) := by
  simp only [exponentPart] at read
  split at read
  · cases read
  next b t signless =>
    split at read
    next digit =>
      refine ⟨b, t, digit, ?_, ?_⟩
      · have behind := dropWhile_gather mostExponent 0 (b :: t)
        rw [List.dropWhile_cons_of_pos digit] at behind
        rw [← behind]
        split at read
        next all => rw [all, floatOf_rest read]; rfl
        next c u all =>
          split at read
          next more =>
            rw [all, List.dropWhile_cons_of_pos more]
            repeat' split at read
            all_goals first
              | exact floatOf_rest read
              | cases read
          next more => rw [all, floatOf_rest read, List.dropWhile_cons_of_neg more]
      · cases s with
        | nil => cases signless
        | cons c u =>
          dsimp only at signless
          repeat' split at signless
          all_goals simp_all
    · cases read

theorem exponentPart_skipped {negative : Bool} {m : Nat} {e : Int} {s rest : Bytes} {v : Json}
    (read : exponentPart negative m e s = .ok (v, rest)) : skipExponent s = .ok rest := by
  obtain ⟨b, t, digit, rfl, rfl | rfl | rfl⟩ := exponentPart_rest read
  · have noSign : ¬ (b = 0x2B ∨ b = 0x2D) := by rintro (rfl | rfl) <;> cases digit
    simp [skipExponent, noSign, digit]
  · simp [skipExponent, digit]
  · simp [skipExponent, digit]

theorem gather_of_not_digit {s : Bytes} (stop : startsWithDigit s = false) (most n : Nat) :
    gather most n s = (n, 0, s) := by
  cases s with
  | nil => rfl
  | cons b s =>
    have none : digitValue? b = none := by simpa [startsWithDigit, isDigit] using stop
    simp only [gather, none]

/-- What follows the digits of a number is an exponent or stands behind the number. -/
theorem afterDigits_cases {negative : Bool} {m : Nat} {e : Int} {s rest : Bytes} {v : Json}
    (read : afterDigits negative m e s = .ok (v, rest)) :
    (∃ c t, s = c :: t ∧ (c = 0x65 ∨ c = 0x45) ∧ skipExponent t = .ok rest) ∨
      (rest = s ∧ ∀ c t, s = c :: t → ¬ (c = 0x65 ∨ c = 0x45)) := by
  simp only [afterDigits] at read
  split at read
  · exact .inr ⟨floatOf_rest read, fun _ _ eq => by cases eq⟩
  next c t =>
    split at read
    next letter => exact .inl ⟨c, t, rfl, letter, exponentPart_skipped read⟩
    next letter =>
      refine .inr ⟨floatOf_rest read, fun _ _ eq => ?_⟩
      cases eq
      exact letter

theorem fractionPart_skipped {negative : Bool} {m : Nat} {e : Int} {s rest : Bytes} {v : Json}
    (read : fractionPart negative m e s = .ok (v, rest)) :
    skipAfterInteger (0x2E :: s) = .ok rest := by
  have digit : startsWithDigit s = true := by
    by_contra noDigit
    rw [Bool.not_eq_true] at noDigit
    simp [fractionPart, gather_of_not_digit noDigit, noDigit] at read
  have behind : ∃ n e, afterDigits negative n e (s.dropWhile isDigit) = .ok (v, rest) := by
    simp only [fractionPart] at read
    split at read
    · rw [dropWhile_gather] at read
      exact ⟨_, _, read⟩
    next stop =>
      split at read
      · cases read
      · rw [gather_rest (by simpa using stop)] at read
        exact ⟨_, _, read⟩
  obtain ⟨n, e, read⟩ := behind
  simp only [skipAfterInteger, if_true, digit]
  rcases afterDigits_cases read with ⟨c, t, eq, letter, skip⟩ | ⟨rfl, noLetter⟩
  · simp only [eq, if_pos letter, skip]
  · split
    next c t eq => simp only [if_neg (noLetter c t eq), eq]
    next eq => rw [eq]

theorem afterDigits_skipped {negative : Bool} {m : Nat} {e : Int} {s rest : Bytes} {v : Json}
    (noPoint : s.head? ≠ some 0x2E) (read : afterDigits negative m e s = .ok (v, rest)) :
    skipAfterInteger s = .ok rest := by
  rcases afterDigits_cases read with ⟨c, t, rfl, letter, skip⟩ | ⟨rfl, noLetter⟩
  · have point : c ≠ 0x2E := by simpa using noPoint
    simp only [skipAfterInteger, if_neg point, if_pos letter, skip]
  · cases rest with
    | nil => rfl
    | cons c t =>
      have point : c ≠ 0x2E := by simpa using noPoint
      simp only [skipAfterInteger, if_neg point, if_neg (noLetter c t rfl)]

theorem afterInteger_skipped {negative : Bool} {m : Nat} {s rest : Bytes} {v : Json}
    (read : afterInteger negative m s = .ok (v, rest)) : skipAfterInteger s = .ok rest := by
  cases s with
  | nil =>
    simp only [afterInteger] at read
    split at read
    · cases read
      rfl
    · rw [floatOf_rest read]
      rfl
  | cons b t =>
    simp only [afterInteger] at read
    split at read
    next point =>
      rw [point]
      exact fractionPart_skipped read
    next point =>
      split at read
      next letter =>
        simp only [skipAfterInteger, if_neg point, if_pos letter, exponentPart_skipped read]
      next letter =>
        have all : rest = b :: t := by
          split at read
          · cases read
            rfl
          · exact floatOf_rest read
        simp only [skipAfterInteger, if_neg point, if_neg letter, all]

theorem unsignedNumber_skipped {negative : Bool} {s rest : Bytes} {v : Json}
    (read : unsignedNumber negative s = .ok (v, rest)) : skipUnsigned s = .ok rest := by
  cases s with
  | nil => cases read
  | cons b t =>
    simp only [unsignedNumber] at read
    simp only [skipUnsigned]
    split at read
    next zero =>
      split at read
      · cases read
      next stop => simp only [if_pos zero, if_neg stop, afterInteger_skipped read]
    next zero =>
      split at read
      next digit =>
        have behind := dropWhile_gather mostSignificand 0 (b :: t)
        rw [List.dropWhile_cons_of_pos digit] at behind
        simp only [if_neg zero, if_pos digit, ← behind]
        split at read
        · split at read
          next c u eq =>
            rw [eq]
            split at read
            next point =>
              rw [point]
              exact fractionPart_skipped read
            next point => exact afterDigits_skipped (by simpa using point) read
          next eq =>
            rw [eq]
            exact afterDigits_skipped (by simp) read
        next stop =>
          rw [dropWhile_digits (by simpa using stop)]
          exact afterInteger_skipped read
      · cases read

/-! ## What stands behind -/

/-- Whether a skipper leaves a part of its text, and more of it where the text goes on
behind its end. -/
def Extends (skip : Bytes → Except Fault Bytes) : Prop :=
  ∀ {s rest}, skip s = .ok rest →
    rest.length ≤ s.length ∧ ∀ t, Stops t → skip (s ++ t) = .ok (rest ++ t)

theorem startsWithDigit_append {t : Bytes} (stops : Stops t) (s : Bytes) :
    startsWithDigit (s ++ t) = startsWithDigit s := by
  cases s with
  | nil => exact startsWithDigit_stops stops
  | cons b s => rfl

theorem dropWhile_digits_append {t : Bytes} (stops : Stops t) (s : Bytes) :
    (s ++ t).dropWhile isDigit = s.dropWhile isDigit ++ t := by
  induction s with
  | nil => exact dropWhile_digits (startsWithDigit_stops stops)
  | cons b s ih =>
    cases digit : isDigit b <;> simp [digit, ih]

theorem dropWhile_digits_length (s : Bytes) : (s.dropWhile isDigit).length ≤ s.length :=
  (List.dropWhile_suffix _).length_le

theorem skipExponent_extends : Extends skipExponent := by
  have digits : ∀ {b : UInt8} {u rest : Bytes},
      (if isDigit b then .ok (u.dropWhile isDigit) else .error (.here .invalidNumber u)) =
        (.ok rest : Except Fault Bytes) → isDigit b ∧ rest = u.dropWhile isDigit := by
    intro b u rest skip
    split at skip
    next digit =>
      cases skip
      exact ⟨digit, rfl⟩
    next => cases skip
  intro s rest skip
  cases s with
  | nil => cases skip
  | cons b s =>
    by_cases sign : b = 0x2B ∨ b = 0x2D
    · simp only [skipExponent, if_pos sign] at skip
      cases s with
      | nil => cases skip
      | cons c u =>
        obtain ⟨digit, rfl⟩ := digits skip
        have short := dropWhile_digits_length u
        refine ⟨by simp only [List.length_cons]; omega, fun t stops => ?_⟩
        simp only [List.cons_append, skipExponent, if_pos sign, if_pos digit,
          dropWhile_digits_append stops]
    · simp only [skipExponent, if_neg sign] at skip
      obtain ⟨digit, rfl⟩ := digits skip
      have short := dropWhile_digits_length s
      refine ⟨Nat.le_succ_of_le short, fun t stops => ?_⟩
      simp only [List.cons_append, skipExponent, if_neg sign, if_pos digit,
        dropWhile_digits_append stops]

theorem skipAfterInteger_stops {t : Bytes} (stops : Stops t) : skipAfterInteger t = .ok t := by
  cases t with
  | nil => rfl
  | cons b t => rcases stops with rfl | rfl | rfl <;> rfl

theorem skipAfterInteger_extends : Extends skipAfterInteger := by
  intro s rest skip
  cases s with
  | nil =>
    cases skip
    exact ⟨Nat.le_refl _, fun t stops => skipAfterInteger_stops stops⟩
  | cons b s =>
    simp only [skipAfterInteger] at skip
    split at skip
    next point =>
      split at skip
      next digit =>
        have short := dropWhile_digits_length s
        cases eq : s.dropWhile isDigit with
        | nil =>
          rw [eq] at skip
          cases skip
          refine ⟨Nat.zero_le _, fun t stops => ?_⟩
          simp only [List.cons_append, skipAfterInteger, if_pos point,
            startsWithDigit_append stops, if_pos digit, dropWhile_digits_append stops, eq,
            List.nil_append]
          cases t with
          | nil => rfl
          | cons c t => rcases stops with rfl | rfl | rfl <;> rfl
        | cons c u =>
          simp only [eq] at skip
          rw [eq, List.length_cons] at short
          have same : ∀ t, Stops t → skipAfterInteger (b :: (s ++ t)) =
              if c = 0x65 ∨ c = 0x45 then skipExponent (u ++ t) else .ok (c :: (u ++ t)) := by
            intro t stops
            simp only [skipAfterInteger, if_pos point, startsWithDigit_append stops,
              if_pos digit, dropWhile_digits_append stops, eq, List.cons_append]
          split at skip
          next letter =>
            obtain ⟨shorter, more⟩ := skipExponent_extends skip
            refine ⟨by rw [List.length_cons]; omega, fun t stops => ?_⟩
            rw [List.cons_append, same t stops, if_pos letter, more t stops]
          next letter =>
            cases skip
            refine ⟨Nat.le_succ_of_le short, fun t stops => ?_⟩
            rw [List.cons_append, same t stops, if_neg letter, List.cons_append]
      next => cases skip
    next point =>
      split at skip
      next letter =>
        obtain ⟨shorter, more⟩ := skipExponent_extends skip
        refine ⟨Nat.le_succ_of_le shorter, fun t stops => ?_⟩
        simp only [List.cons_append, skipAfterInteger, if_neg point, if_pos letter, more t stops]
      next letter =>
        cases skip
        refine ⟨Nat.le_refl _, fun t stops => ?_⟩
        simp only [List.cons_append, skipAfterInteger, if_neg point, if_neg letter]

theorem skipUnsigned_extends (b : UInt8) : Extends fun s => skipUnsigned (b :: s) := by
  intro s rest skip
  simp only [skipUnsigned] at skip
  split at skip
  next zero =>
    split at skip
    next => cases skip
    next stop =>
      obtain ⟨shorter, more⟩ := skipAfterInteger_extends skip
      refine ⟨shorter, fun t stops => ?_⟩
      simp only [skipUnsigned, if_pos zero, startsWithDigit_append stops, if_neg stop,
        more t stops]
  next zero =>
    split at skip
    next digit =>
      have short := dropWhile_digits_length s
      obtain ⟨shorter, more⟩ := skipAfterInteger_extends skip
      refine ⟨Nat.le_trans shorter short, fun t stops => ?_⟩
      simp only [skipUnsigned, if_neg zero, if_pos digit, dropWhile_digits_append stops,
        more t stops]
    next => cases skip

end Json

end JobQueue
