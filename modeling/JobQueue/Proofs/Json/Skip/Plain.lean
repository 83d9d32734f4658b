import JobQueue.Proofs.Json.Skip.Numeral

/-!
# Plain values that are skipped

A value without brackets that is read is skipped up to the same place
(`Json.scalar_skipped`), whatever may follow (`Json.skipScalar_extends`).  Texts are
read and skipped alike but for escapes: a pair of surrogates is one escape to the
reader and two to the skipper.
-/

namespace JobQueue

namespace Json

/-! ## Texts -/

theorem hexFour_length {s rest : Bytes} {n : Nat} (read : hexFour s = .ok (n, rest)) :
    rest.length < s.length := by
  unfold hexFour at read
  split at read
  · split at read
    · cases read
      simp only [List.length_cons]
      omega
    · cases read
  · cases read

theorem skipEscape_length {s rest : Bytes} (skip : skipEscape s = .ok rest) :
    rest.length < s.length := by
  cases s with
  | nil => cases skip
  | cons b s =>
    simp only [skipEscape] at skip
    split at skip
    · cases skip
      exact Nat.lt_succ_self _
    · split at skip
      · obtain ⟨⟨n, t⟩, digits, rfl⟩ := map_eq_ok skip
        exact Nat.lt_succ_of_lt (hexFour_length digits)
      · cases skip

theorem skipText_length {n : Nat} {s rest : Bytes} (skip : skipText n s = .ok rest) :
    rest.length < s.length := by
  induction n generalizing s with
  | zero => cases skip
  | succ n ih =>
    cases s with
    | nil => cases skip
    | cons b s =>
      simp only [skipText] at skip
      split at skip
      · cases skip
        exact Nat.lt_succ_self _
      · split at skip
        · split at skip
          · cases skip
          next escaped =>
            have first := skipEscape_length escaped
            have later := ih skip
            rw [List.length_cons]
            omega
        · split at skip
          · cases skip
          · exact Nat.lt_succ_of_lt (ih skip)

theorem skipEscape_digits {n : Nat} {s rest : Bytes} (read : hexFour s = .ok (n, rest)) :
    skipEscape (0x75 :: s) = .ok rest := by
  simp [skipEscape, quoteByte, backslashByte, read, Except.map]

/-- The second half of a pair of surrogates is an escape of its own. -/
theorem lowSurrogate_skipped {high : Nat} {s piece rest : Bytes}
    (read : lowSurrogate high s = .ok (piece, rest)) :
    ∃ t, s = backslashByte :: t ∧ skipEscape t = .ok rest := by
  unfold lowSurrogate at read
  split at read
  · cases read
  · split at read
    · cases read
    next backslash =>
      split at read
      · cases read
      · split at read
        · cases read
        next letter =>
          split at read
          · cases read
          next digits =>
            split at read
            · rw [Except.ok.injEq, Prod.mk.injEq] at read
              obtain ⟨-, rfl⟩ := read
              rw [Decidable.not_not] at backslash letter
              exact ⟨_, by rw [backslash], by rw [letter, skipEscape_digits digits]⟩
            · cases read

/-- An escape is skipped as it is read; a pair of surrogates is skipped as two. -/
theorem escape_skipped {s piece rest : Bytes} (read : escape s = .ok (piece, rest)) :
    skipEscape s = .ok rest ∨
      ∃ t, skipEscape s = .ok (backslashByte :: t) ∧ skipEscape t = .ok rest := by
  cases s with
  | nil => cases read
  | cons b s =>
    by_cases short : b = quoteByte ∨ b = backslashByte ∨ b = 0x2F ∨ b = 0x62 ∨ b = 0x66 ∨
        b = 0x6E ∨ b = 0x72 ∨ b = 0x74
    · have behind : ∃ p, escape (b :: s) = .ok (p, s) := by
        rcases short with rfl | rfl | rfl | rfl | rfl | rfl | rfl | rfl <;> exact ⟨_, rfl⟩
      obtain ⟨p, eq⟩ := behind
      rw [eq] at read
      cases read
      exact .inl (if_pos short)
    · simp only [not_or] at short
      obtain ⟨quote, backslash, slash, b', f, n, r, t⟩ := short
      simp only [escape, quote, backslash, slash, b', f, n, r, t, or_self, if_false] at read
      split at read
      next letter =>
        rw [letter]
        split at read
        · cases read
        next digits =>
          have first := skipEscape_digits digits
          split at read
          · cases read
          · split at read
            · obtain ⟨u, rfl, second⟩ := lowSurrogate_skipped read
              exact .inr ⟨u, first, second⟩
            · cases read
              exact .inl first
      · cases read

/-- A text that is read is skipped. -/
theorem textBody_skipped {n m : Nat} {s b rest : Bytes} (read : textBody n s = .ok (b, rest))
    (room : s.length ≤ m) : skipText m s = .ok rest := by
  induction n generalizing m s b with
  | zero => cases read
  | succ n ih =>
    cases s with
    | nil => cases read
    | cons c s =>
      obtain ⟨m, rfl⟩ := Nat.exists_eq_add_one_of_ne_zero (Nat.ne_zero_of_lt room)
      replace room : s.length ≤ m := Nat.le_of_succ_le_succ room
      simp only [textBody] at read
      simp only [skipText]
      split at read
      next quote =>
        cases read
        rw [if_pos quote]
      next quote =>
        rw [if_neg quote]
        split at read
        next backslash =>
          rw [if_pos backslash]
          split at read
          · cases read
          next escaped =>
            split at read
            · cases read
            next more =>
              cases read
              rcases escape_skipped escaped with skip | ⟨t, first, second⟩
              · have shorter := skipEscape_length skip
                simp only [skip]
                exact ih more (by omega)
              · have shorter := skipEscape_length first
                have shorter' := skipEscape_length second
                rw [List.length_cons] at shorter
                obtain ⟨m, rfl⟩ := Nat.exists_eq_add_one_of_ne_zero (show m ≠ 0 by omega)
                have noQuote : backslashByte ≠ quoteByte := by decide
                simp only [first, skipText, if_neg noQuote, if_true, second]
                exact ih more (by omega)
        next backslash =>
          rw [if_neg backslash]
          split at read
          · cases read
          next control =>
            rw [if_neg control]
            split at read
            · cases read
            next more =>
              cases read
              exact ih more room

theorem textTail_skipped {s rest : Bytes} {t : String} (read : textTail s = .ok (t, rest)) :
    skipText s.length s = .ok rest := by
  simp only [textTail] at read
  split at read
  · cases read
  next body =>
    split at read
    · cases read
      exact textBody_skipped body (Nat.le_refl _)
    · cases read

/-! ### What stands behind -/

theorem hexFour_append {s rest : Bytes} {n : Nat} (read : hexFour s = .ok (n, rest)) (t : Bytes) :
    hexFour (s ++ t) = .ok (n, rest ++ t) := by
  unfold hexFour at read
  split at read
  next =>
    simp only [List.cons_append, hexFour]
    split at read
    next =>
      cases read
      simp only [*]
    next => cases read
  next => cases read

theorem skipEscape_append {s rest : Bytes} (skip : skipEscape s = .ok rest) (t : Bytes) :
    skipEscape (s ++ t) = .ok (rest ++ t) := by
  cases s with
  | nil => cases skip
  | cons b s =>
    simp only [skipEscape] at skip
    simp only [List.cons_append, skipEscape]
    split at skip
    next short =>
      cases skip
      rw [if_pos short]
    next short =>
      rw [if_neg short]
      split at skip
      next letter =>
        obtain ⟨r, digits, rfl⟩ := map_eq_ok skip
        rw [if_pos letter, hexFour_append digits]
        rfl
      next => cases skip

/-- A text is skipped as far whatever follows it, and however many steps there are to spare. -/
theorem skipText_append {n m : Nat} {s rest : Bytes} (skip : skipText n s = .ok rest)
    (room : n ≤ m) (t : Bytes) : skipText m (s ++ t) = .ok (rest ++ t) := by
  induction n generalizing m s with
  | zero => cases skip
  | succ n ih =>
    obtain ⟨m, rfl⟩ := Nat.exists_eq_add_one_of_ne_zero (Nat.ne_zero_of_lt room)
    replace room : n ≤ m := Nat.le_of_succ_le_succ room
    cases s with
    | nil => cases skip
    | cons b s =>
      simp only [skipText] at skip
      simp only [List.cons_append, skipText]
      split at skip
      next quote =>
        cases skip
        rw [if_pos quote]
      next quote =>
        rw [if_neg quote]
        split at skip
        next backslash =>
          rw [if_pos backslash]
          split at skip
          next => cases skip
          next escaped =>
            simp only [skipEscape_append escaped]
            exact ih skip room
        next backslash =>
          rw [if_neg backslash]
          split at skip
          next => cases skip
          next control =>
            rw [if_neg control]
            exact ih skip room

/-! ## Plain values -/

theorem literal_extends (word : Bytes) : Extends (literal word) := by
  induction word with
  | nil =>
    rintro s rest ⟨⟩
    exact ⟨Nat.le_refl _, fun t _ => rfl⟩
  | cons w word ih =>
    intro s rest skip
    cases s with
    | nil => cases skip
    | cons b s =>
      simp only [literal] at skip
      split at skip
      next eq =>
        obtain ⟨shorter, more⟩ := ih skip
        refine ⟨Nat.le_succ_of_le shorter, fun t stops => ?_⟩
        simp only [List.cons_append, literal, if_pos eq, more t stops]
      next => cases skip

/-- A value without brackets that is read is skipped. -/
theorem scalar_skipped {b : UInt8} {s rest : Bytes} {v : Json} (read : scalar b s = .ok (v, rest)) :
    skipScalar b s = .ok rest := by
  simp only [scalar] at read
  simp only [skipScalar]
  split at read
  next n =>
    obtain ⟨t, skip, ⟨⟩⟩ := map_eq_ok read
    simp only [if_pos n, skip]
  next n =>
    split at read
    next t =>
      obtain ⟨u, skip, ⟨⟩⟩ := map_eq_ok read
      simp only [if_neg n, if_pos t, skip]
    next t =>
      split at read
      next f =>
        obtain ⟨u, skip, ⟨⟩⟩ := map_eq_ok read
        simp only [if_neg n, if_neg t, if_pos f, skip]
      next f =>
        split at read
        next sign =>
          simp only [if_neg n, if_neg t, if_neg f]
          simp only [number] at read
          split at read
          next minus => rw [if_pos minus, unsignedNumber_skipped read]
          next minus =>
            rw [if_neg minus, if_pos (sign.resolve_left minus), unsignedNumber_skipped read]
        next sign =>
          obtain ⟨minus, digit⟩ := not_or.mp sign
          split at read
          next quote =>
            obtain ⟨r, text, ⟨⟩⟩ := map_eq_ok read
            simp only [if_neg n, if_neg t, if_neg f, if_neg minus, if_neg digit, if_pos quote,
              textTail_skipped text]
          next => cases read

theorem skipScalar_extends (b : UInt8) : Extends (skipScalar b) := by
  intro s rest skip
  simp only [skipScalar] at skip ⊢
  split at skip
  next n =>
    simp only [if_pos n]
    exact literal_extends _ skip
  next n =>
    simp only [if_neg n]
    split at skip
    next t =>
      simp only [if_pos t]
      exact literal_extends _ skip
    next t =>
      simp only [if_neg t]
      split at skip
      next f =>
        simp only [if_pos f]
        exact literal_extends _ skip
      next f =>
        simp only [if_neg f]
        split at skip
        next minus =>
          simp only [if_pos minus]
          cases s with
          | nil => cases skip
          | cons c s =>
            obtain ⟨shorter, more⟩ := skipUnsigned_extends c skip
            exact ⟨Nat.le_succ_of_le shorter, more⟩
        next minus =>
          simp only [if_neg minus]
          split at skip
          next digit =>
            simp only [if_pos digit]
            exact skipUnsigned_extends b skip
          next digit =>
            simp only [if_neg digit]
            split at skip
            next quote =>
              simp only [if_pos quote]
              refine ⟨Nat.le_of_lt (skipText_length skip), fun t _ => skipText_append skip ?_ t⟩
              rw [List.length_append]
              exact Nat.le_add_right _ _
            next => cases skip

end Json

end JobQueue
