import JobQueue.Time.Instant
import JobQueue.Time.Words

/-!
# Backoff

How long a failed job waits for its next attempt: the base once after the first
attempt, twice after the second, and so on, up to the longest span.
-/

namespace JobQueue

/-- The wait after an attempt failed; attempts count from 1. -/
def retryDelay (base : Span) (attempt : UInt32) : Span := .scaled (max attempt 1) base

theorem toNat_max_one (attempt : UInt32) : (max attempt 1).toNat = max attempt.toNat 1 := by
  show (if attempt ≤ 1 then 1 else attempt).toNat = _
  have one : (1 : UInt32).toNat = 1 := rfl
  split
  · next le => rw [UInt32.le_iff_toNat_le, one] at le; omega
  · next gt => rw [UInt32.le_iff_toNat_le, one] at gt; omega

theorem nanos_retryDelay (base : Span) (attempt : UInt32) :
    (retryDelay base attempt).nanos =
      min (max attempt.toNat 1 * base.nanos) Span.longest.nanos := by
  rw [retryDelay, Span.nanos_scaled, toNat_max_one]

end JobQueue
