import JobQueue.Json.Scan

/-!
# Texts come back

What is written of a text is read back as that text (`Json.textTail_written`).  Text
and reader work on bytes and do not see where a character ends: the writer escapes
bytes one by one, and the reader gives each of them back (`Json.textBody_escaped`).
So there is nothing to show of UTF-8 but that a text comes back from its bytes.
-/

namespace JobQueue

namespace Json

/-! ## Escapes -/

theorem hexValue?_hexByte : ∀ n < 16, hexValue? (hexByte n) = some n := by decide

/-- The digits of a byte in an escape are those of its number. -/
theorem hexFour_of_byte (b : UInt8) (s : Bytes) :
    hexFour (0x30 :: 0x30 :: hexByte (b.toNat / 16) :: hexByte (b.toNat % 16) :: s) =
      .ok (b.toNat, s) := by
  have bound := b.toNat_lt
  have zero : hexValue? 0x30 = some 0 := by decide
  have high := hexValue?_hexByte (b.toNat / 16) (by omega)
  have low := hexValue?_hexByte (b.toNat % 16) (by omega)
  simp only [hexFour, zero, high, low]
  congr 2
  omega

/-- A character below U+0080 is one byte. -/
theorem codePointBytes_of_lt {b : UInt8} (small : b < 0x80) : codePointBytes b.toNat = [b] := by
  have bound : b.toNat < 128 := UInt8.lt_iff_toNat_lt.mp small
  have valid : b.toNat.isValidChar := .inl (by omega)
  have val : (Char.ofNat b.toNat).val.toNat = b.toNat := by
    rw [Char.ofNat, dif_pos valid]
    rfl
  unfold codePointBytes String.utf8EncodeChar
  simp only [val]
  rw [if_pos (by omega), UInt8.ofNat_toNat]

/-- Four digits of a byte below U+0080 stand for that byte. -/
theorem escape_digits {b : UInt8} (small : b < 0x80) (s : Bytes) :
    escape (0x75 :: 0x30 :: 0x30 :: hexByte (b.toNat / 16) :: hexByte (b.toNat % 16) :: s) =
      .ok ([b], s) := by
  have bound : b.toNat < 128 := UInt8.lt_iff_toNat_lt.mp small
  have digits := hexFour_of_byte b s
  have alone := codePointBytes_of_lt small
  have noLow : ¬ (0xDC00 ≤ b.toNat ∧ b.toNat ≤ 0xDFFF) := by omega
  have noHigh : ¬ (0xD800 ≤ b.toNat ∧ b.toNat ≤ 0xDBFF) := by omega
  simp [escape, quoteByte, backslashByte, digits, alone, noLow, noHigh]

/-- What is written of a byte is a backslash with an escape for it, or the byte
itself, which then ends no text and starts no escape. -/
theorem escapedByte_cases (b : UInt8) :
    (∃ t, escapedByte b = backslashByte :: t ∧ ∀ s, escape (t ++ s) = .ok ([b], s)) ∨
      (escapedByte b = [b] ∧ b ≠ quoteByte ∧ b ≠ backslashByte ∧ ¬ b < 0x20) := by
  unfold escapedByte
  split
  next quote => exact .inl ⟨_, rfl, fun s => by simp [escape, quote]⟩
  next noQuote =>
    split
    next backslash => exact .inl ⟨_, rfl, fun s => by simp [escape, backslash]⟩
    next noBackslash =>
      split
      next printable => exact .inr ⟨rfl, noQuote, noBackslash, by simpa using printable⟩
      next control =>
        have small : b.toNat < 32 := UInt8.lt_iff_toNat_lt.mp (by simpa using control)
        have narrow : b < 0x80 := UInt8.lt_iff_toNat_lt.mpr (show b.toNat < 128 by omega)
        left
        -- the five letters, then the digits
        repeat' split
        case isFalse => exact ⟨_, rfl, escape_digits narrow⟩
        all_goals
          next eq => exact ⟨_, rfl, fun s => by simp [escape, quoteByte, backslashByte, eq]⟩

/-- What is written of a byte stands for that byte. -/
theorem textBody_escaped (n : Nat) (b : UInt8) (s : Bytes) :
    textBody (n + 1) (escapedByte b ++ s) =
      (textBody n s).map fun r => (b :: r.1, r.2) := by
  rcases escapedByte_cases b with ⟨t, eq, read⟩ | ⟨eq, noQuote, noBackslash, noControl⟩
  · have notQuote : ¬ backslashByte = quoteByte := by decide
    simp only [eq, List.cons_append, textBody, if_neg notQuote, read]
    cases textBody n s <;> rfl
  · simp only [eq, List.singleton_append, textBody, if_neg noQuote, if_neg noBackslash,
      if_neg noControl]
    cases textBody n s <;> rfl

theorem length_escapedByte (b : UInt8) : 0 < (escapedByte b).length := by
  rcases escapedByte_cases b with ⟨t, eq, -⟩ | ⟨eq, -⟩ <;> simp [eq]

/-! ## Texts -/

/-- The bytes of a text come back, with what follows its closing quote. -/
theorem textBody_written (bs rest : Bytes) (n : Nat) :
    textBody (n + bs.length + 1) (bs.flatMap escapedByte ++ quoteByte :: rest) =
      .ok (bs, rest) := by
  induction bs with
  | nil => simp [textBody]
  | cons b bs ih =>
    rw [List.flatMap_cons, List.append_assoc, textBody_escaped, List.length_cons,
      ← Nat.add_assoc, ih]
    rfl

theorem length_le_escaped (bs : Bytes) : bs.length ≤ (bs.flatMap escapedByte).length := by
  induction bs with
  | nil => simp
  | cons b bs ih =>
    have := length_escapedByte b
    simp only [List.flatMap_cons, List.length_append, List.length_cons]
    omega

/-- A text comes back from what is written of it after its opening quote. -/
@[simp] theorem textTail_written (s : String) (rest : Bytes) :
    textTail ((Bytes.ofText s).flatMap escapedByte ++ quoteByte :: rest) = .ok (s, rest) := by
  have fits : (Bytes.ofText s).length + 1 ≤
      ((Bytes.ofText s).flatMap escapedByte ++ quoteByte :: rest).length := by
    rw [List.length_append, List.length_cons]
    exact Nat.add_le_add (length_le_escaped _) (Nat.le_add_left 1 _)
  obtain ⟨n, long⟩ := Nat.exists_eq_add_of_le' fits
  simp only [textTail, long, ← Nat.add_assoc, textBody_written, Bytes.text?_ofText]

/-! ## Control characters -/

/-- Nothing that is written of a byte is a control character. -/
theorem printable_escapedByte {b c : UInt8} (mem : c ∈ escapedByte b) : 0x20 ≤ c := by
  have digit : ∀ n < 16, (0x20 : UInt8) ≤ hexByte n := by decide
  have bound := b.toNat_lt
  have high := digit (b.toNat / 16) (by omega)
  have low := digit (b.toNat % 16) (by omega)
  unfold escapedByte at mem
  repeat' split at mem
  all_goals
    simp only [List.mem_cons, List.not_mem_nil, or_false] at mem
    rcases mem with rfl | rfl | rfl | rfl | rfl | rfl <;> first | assumption | decide

end Json

end JobQueue
