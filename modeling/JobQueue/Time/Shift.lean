import JobQueue.Time.Span

/-!
# Shifts

A *shift* is a length of time with a direction, by which an instant can be moved.  It
is at most `2 ^ 63 - 1` milliseconds long either way, which is far less than the
longest span and far more than the calendar has (`Shift.ofSpan?_eq_none_iff`).
-/

namespace JobQueue

/-- The nanoseconds of the longest shift. -/
abbrev shiftLimit : Int := 9223372036854775807000000

/-- A length of time with a direction. -/
structure Shift where
  /-- The length in nanoseconds, negative for the way back. -/
  nanos : Int
  /-- A shift back is not longer than the longest one. -/
  limit_le : -shiftLimit ≤ nanos := by decide
  /-- Nor is a shift forward. -/
  le_limit : nanos ≤ shiftLimit := by decide
deriving DecidableEq, Repr

namespace Shift

/-- The shift forward by a span, if the span is not too long for one. -/
def ofSpan? (d : Span) : Option Shift :=
  if h : (d.nanos : Int) ≤ shiftLimit then
    some { nanos := d.nanos, limit_le := by simp only [shiftLimit]; omega, le_limit := h }
  else none

theorem nanos_of_ofSpan? {d : Span} {f : Shift} (h : ofSpan? d = some f) : f.nanos = d.nanos := by
  unfold ofSpan? at h
  split at h
  · cases h
    rfl
  · cases h

theorem ofSpan?_eq_none_iff {d : Span} : ofSpan? d = none ↔ shiftLimit < d.nanos := by
  unfold ofSpan?
  split <;> simp only [reduceCtorEq, true_iff, false_iff] <;> omega

end Shift

end JobQueue
