/-!
# Spans of time

A *span* is a length of time: a whole number of nanoseconds that makes up fewer
than `2 ^ 64` whole seconds.  Arithmetic on spans saturates at the longest span
`Span.longest` and never wraps, so a sum or a multiple of spans is the exact
result or the longest span, whichever is less (`Span.nanos_times`).

A span is written in two parts, whole seconds and the nanoseconds left over.
`Span.ofParts?` accepts parts whose nanoseconds carry into the seconds and
refuses those whose carried seconds do not fit.
-/

namespace JobQueue

/-- The nanoseconds in a second. -/
abbrev secondNanos : Nat := 1000000000

/-- The nanoseconds in a millisecond. -/
abbrev milliNanos : Nat := 1000000

/-- The first length, in nanoseconds, that is too long for a span. -/
abbrev spanLimit : Nat := 18446744073709551616000000000

/-- A length of time of fewer than `2 ^ 64` whole seconds. -/
structure Span where
  /-- The length in nanoseconds. -/
  nanos : Nat
  /-- The length is below the limit. -/
  nanos_lt : nanos < spanLimit := by decide
deriving DecidableEq, Repr

namespace Span

/-- No time at all. -/
def zero : Span where
  nanos := 0

/-- The longest span. -/
def longest : Span where
  nanos := 18446744073709551615999999999

instance : Inhabited Span := ⟨zero⟩

/-- The span of `n` nanoseconds, or the longest span where `n` is too long. -/
def ofNanos (n : Nat) : Span :=
  if h : n < spanLimit then ⟨n, h⟩ else longest

/-- A whole number of seconds. -/
def ofSeconds (s : UInt64) : Span where
  nanos := s.toNat * secondNanos
  nanos_lt := by have := s.toNat_lt; simp only [secondNanos, spanLimit]; omega

/-- A whole number of milliseconds. -/
def ofMillis (ms : UInt64) : Span where
  nanos := ms.toNat * milliNanos
  nanos_lt := by have := ms.toNat_lt; simp only [milliNanos, spanLimit]; omega

/-- A span from whole seconds and nanoseconds, where a second's worth of
nanoseconds carries.  None if the seconds no longer fit. -/
def ofParts? (secs nanos : Nat) : Option Span :=
  let n := secs * secondNanos + nanos
  if h : n < spanLimit then some ⟨n, h⟩ else none

/-- The whole seconds of a span. -/
def seconds (d : Span) : Nat := d.nanos / secondNanos

/-- The nanoseconds of a span beyond its whole seconds. -/
def subsecond (d : Span) : Nat := d.nanos % secondNanos

/-- The whole milliseconds of a span. -/
def millis (d : Span) : Nat := d.nanos / milliNanos

/-- The milliseconds that cover a span: its milliseconds, rounded up. -/
def millisUp (d : Span) : Nat := (d.nanos + (milliNanos - 1)) / milliNanos

/-- `n` times a span, or the longest span where that is too long. -/
def times (n : Nat) (d : Span) : Span := ofNanos (n * d.nanos)

instance : LE Span := ⟨fun a b => a.nanos ≤ b.nanos⟩

instance (a b : Span) : Decidable (a ≤ b) := inferInstanceAs (Decidable (a.nanos ≤ b.nanos))

theorem le_def {a b : Span} : a ≤ b ↔ a.nanos ≤ b.nanos := Iff.rfl

/-- The longest time that anything waits in one go: thirty years. -/
def longestWait : Span := ofSeconds 946080000

/-- How long something waits that is to wait for a span. -/
def asWait (d : Span) : Span := if d ≤ longestWait then d else longestWait

@[ext] theorem ext {a b : Span} (h : a.nanos = b.nanos) : a = b := by
  cases a; cases b; simp_all

/-- A length that is too long becomes the longest span. -/
theorem nanos_ofNanos (n : Nat) : (ofNanos n).nanos = min n longest.nanos := by
  have hl : longest.nanos = 18446744073709551615999999999 := rfl
  unfold ofNanos
  split
  · next h => have : n < 18446744073709551616000000000 := h; simp only [hl]; omega
  · next h => have : ¬ n < 18446744073709551616000000000 := h; simp only [hl]; omega

/-- A multiple is exact up to the longest span. -/
theorem nanos_times (n : Nat) (d : Span) : (times n d).nanos = min (n * d.nanos) longest.nanos :=
  nanos_ofNanos _

/-- Every span is its two parts. -/
theorem ofParts?_parts (d : Span) : ofParts? d.seconds d.subsecond = some d := by
  have h : d.nanos / secondNanos * secondNanos + d.nanos % secondNanos = d.nanos :=
    Nat.div_add_mod' d.nanos secondNanos
  simp only [ofParts?, seconds, subsecond, h, d.nanos_lt, dite_true]

end Span

end JobQueue
