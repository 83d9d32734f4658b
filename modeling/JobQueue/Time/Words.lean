import JobQueue.Time.Span

/-!
# Spans in words

A span is kept in two machine words: whole seconds in one of 64 bits, and the
nanoseconds left over in one of 32.  A multiple is taken word by word.  The
nanoseconds are multiplied in a word of 64 bits, which they do not overflow because
they make up no second (`Words.toNat_mul_nanos`); what they then make up in seconds
carries.  The seconds may overflow twice, in the product and with the carry.

For all that a multiple is exact up to the longest span (`Span.nanos_scaled`).
-/

namespace JobQueue

/-- The nanoseconds that are left over, in a word of 32 bits. -/
theorem toNat_mod_secondNanos (total : UInt64) :
    (total % 1000000000).toUInt32.toNat = total.toNat % secondNanos := by
  have rest : total.toNat % secondNanos < secondNanos := Nat.mod_lt _ (by decide)
  rw [UInt64.toNat_toUInt32, UInt64.toNat_mod]
  exact Nat.mod_eq_of_lt (Nat.lt_trans rest (by decide))

/-- A span as it is kept. -/
structure Span.Words where
  /-- The whole seconds. -/
  seconds : UInt64
  /-- The nanoseconds left over. -/
  nanos : UInt32
  /-- They make up no second. -/
  nanos_lt : nanos.toNat < secondNanos := by decide
deriving DecidableEq, Repr

namespace Span

namespace Words

/-- A number, if it fits a word of 64 bits. -/
def word? (n : Nat) : Option UInt64 := if n < UInt64.size then some (.ofNat n) else none

/-- A multiple, if its seconds fit. -/
def times? (n : UInt32) (w : Words) : Option Words :=
  let total := w.nanos.toUInt64 * n.toUInt64
  (word? (w.seconds.toNat * n.toNat)).bind fun seconds =>
    (word? (seconds.toNat + (total / 1000000000).toNat)).map fun seconds =>
      { seconds, nanos := (total % 1000000000).toUInt32
        nanos_lt := toNat_mod_secondNanos total ▸ Nat.mod_lt _ (by decide) }

/-- The length in nanoseconds. -/
def length (w : Words) : Nat := w.seconds.toNat * secondNanos + w.nanos.toNat

theorem word?_eq_some_iff {n : Nat} {v : UInt64} : word? n = some v ↔ v.toNat = n := by
  unfold word?
  split
  · next fits =>
    rw [Option.some.injEq, ← UInt64.toNat_inj, UInt64.toNat_ofNat_of_lt' fits, eq_comm]
  · next large =>
    have := v.toNat_lt_size
    simp only [reduceCtorEq, false_iff]
    omega

theorem word?_eq_none_iff {n : Nat} : word? n = none ↔ UInt64.size ≤ n := by
  unfold word?
  split <;> simp <;> omega

theorem length_lt (w : Words) : w.length < spanLimit := by
  have seconds := w.seconds.toNat_lt
  have nanos := w.nanos_lt
  simp only [length, secondNanos, spanLimit] at nanos ⊢
  omega

section Multiple

variable {n : UInt32} {w p : Words}

/-- The multiple of the nanoseconds does not overflow. -/
theorem toNat_mul_nanos (n : UInt32) (w : Words) :
    (w.nanos.toUInt64 * n.toUInt64).toNat = w.nanos.toNat * n.toNat := by
  have few : w.nanos.toNat * n.toNat < secondNanos * UInt32.size :=
    Nat.mul_lt_mul'' w.nanos_lt n.toNat_lt_size
  rw [UInt64.toNat_mul, UInt32.toNat_toUInt64, UInt32.toNat_toUInt64, Nat.mod_eq_of_lt]
  exact Nat.lt_trans few (by decide)

theorem mul_length (n : Nat) (w : Words) :
    n * w.length =
      (w.seconds.toNat * n + w.nanos.toNat * n / secondNanos) * secondNanos +
        w.nanos.toNat * n % secondNanos := by
  rw [Nat.add_mul, Nat.add_assoc, Nat.div_add_mod', length, Nat.mul_add, Nat.mul_comm n,
    Nat.mul_comm n, Nat.mul_right_comm]

/-- A multiple is exact. -/
theorem length_of_times? (multiple : w.times? n = some p) : p.length = n.toNat * w.length := by
  obtain ⟨seconds, first, more⟩ := Option.bind_eq_some_iff.mp multiple
  obtain ⟨carried, second, rfl⟩ := Option.map_eq_some_iff.mp more
  rw [word?_eq_some_iff] at first second
  rw [UInt64.toNat_div, toNat_mul_nanos, first] at second
  rw [mul_length, length, toNat_mod_secondNanos, toNat_mul_nanos, second]
  rfl

/-- There is no multiple only where it is too long for a span. -/
theorem le_of_times?_eq_none (none : w.times? n = none) : spanLimit ≤ n.toNat * w.length := by
  have limit : spanLimit = UInt64.size * secondNanos := rfl
  rw [mul_length, limit]
  refine Nat.le_trans (Nat.mul_le_mul_right secondNanos ?_) (Nat.le_add_right _ _)
  cases first : word? (w.seconds.toNat * n.toNat) with
  | none => exact Nat.le_trans (word?_eq_none_iff.mp first) (Nat.le_add_right _ _)
  | some seconds =>
    simp only [times?, first, Option.bind_some, Option.map_eq_none_iff] at none
    rw [word?_eq_none_iff, UInt64.toNat_div, toNat_mul_nanos, word?_eq_some_iff.mp first] at none
    exact none

end Multiple

end Words

/-- The words of a span. -/
def words (d : Span) : Words where
  seconds := .ofNat (d.nanos / secondNanos)
  nanos := .ofNat (d.nanos % secondNanos)
  nanos_lt := Nat.lt_of_le_of_lt (Nat.mod_le _ _) (Nat.mod_lt _ (by decide))

/-- The span of words. -/
def ofWords (w : Words) : Span where
  nanos := w.length
  nanos_lt := w.length_lt

/-- A multiple of a span by its words, or the longest span where they do not hold it. -/
def scaled (n : UInt32) (d : Span) : Span := .ofWords ((d.words.times? n).getD longest.words)

theorem length_words (d : Span) : d.words.length = d.nanos := by
  have seconds : d.nanos / secondNanos < UInt64.size := Nat.div_lt_of_lt_mul d.nanos_lt
  have nanos : d.nanos % secondNanos < UInt32.size :=
    Nat.lt_trans (Nat.mod_lt _ (by decide)) (by decide)
  rw [Words.length, words, UInt64.toNat_ofNat_of_lt' seconds, UInt32.toNat_ofNat_of_lt' nanos,
    Nat.div_add_mod']

/-- A multiple by words is exact up to the longest span. -/
theorem nanos_scaled (n : UInt32) (d : Span) :
    (scaled n d).nanos = min (n.toNat * d.nanos) longest.nanos := by
  show ((d.words.times? n).getD longest.words).length = _
  cases multiple : d.words.times? n with
  | none =>
    have long := Words.le_of_times?_eq_none multiple
    rw [length_words] at long
    rw [Option.getD_none, length_words]
    exact (Nat.min_eq_right (Nat.le_trans (Nat.le_of_lt longest.nanos_lt) long)).symm
  | some w =>
    have exactly := Words.length_of_times? multiple
    rw [length_words] at exactly
    have fits : n.toNat * d.nanos ≤ longest.nanos := exactly ▸ Nat.le_pred_of_lt w.length_lt
    rw [Option.getD_some, exactly, Nat.min_eq_left fits]

end Span

end JobQueue
