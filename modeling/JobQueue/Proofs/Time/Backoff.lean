import JobQueue.Time.Backoff

/-!
# When a failed job is tried again

The wait after a failure is a multiple of its base, which stops at the longest span; its
end is a sum, which stops at the latest instant.  In between there are other limits: those
of the words of a span, and that of a shift.  The end of a wait does not show them, as each
lies beyond the end of the calendar from wherever a wait starts.  So it is the exact time or
the latest instant (`Instant.retry_time_exact`), and all that is needed to compare two waits
is the exact time.
-/

namespace JobQueue

/-- The words of a wait are those of its exact length, or of the longest span. -/
theorem retryDelay_eq_ofWords (base : Span) (attempt : UInt32) :
    retryDelay base attempt =
      .ofWords ((base.words.times? (max attempt 1)).getD Span.longest.words) := rfl

namespace Instant

/-- From any instant the longest span leads beyond the calendar. -/
theorem latestNanos_lt_add_longest (t : Instant) :
    latestNanos < t.nanos + Span.longest.nanos := by
  have earliest := t.earliest_le
  have longest : Span.longest.nanos = 18446744073709551615999999999 := rfl
  rw [longest]
  unfold earliestNanos at earliest
  unfold latestNanos
  omega

/-- A wait ends at the exact time, up to the latest instant. -/
theorem nanos_after_retryDelay (now : Instant) (base : Span) (attempt : UInt32) :
    (now.after (retryDelay base attempt)).nanos =
      min (now.nanos + (base.nanos * max attempt.toNat 1 : Nat)) latestNanos := by
  have beyond := now.latestNanos_lt_add_longest
  rw [nanos_after, nanos_retryDelay, Nat.mul_comm]
  omega

/-- A wait does not end earlier if it starts later, has a longer base, or comes after more
attempts. -/
theorem after_retryDelay_mono {now now' : Instant} {base base' : Span} {attempt attempt' : UInt32}
    (later : now ≤ now') (longer : base ≤ base') (more : attempt ≤ attempt') :
    now.after (retryDelay base attempt) ≤ now'.after (retryDelay base' attempt') := by
  have wait : base.nanos * max attempt.toNat 1 ≤ base'.nanos * max attempt'.toNat 1 := by
    have times : max attempt.toNat 1 ≤ max attempt'.toNat 1 := by
      have := UInt32.le_iff_toNat_le.mp more
      omega
    exact Nat.mul_le_mul longer times
  rw [le_def] at later ⊢
  rw [nanos_after_retryDelay, nanos_after_retryDelay]
  omega

/-- A failed job waits the exact multiple of the base, or the longest span if that is
shorter, and is tried again at the exact time, or at the latest instant if that is earlier:
never before the failure, and no sooner for a later failure, a longer base or more
attempts. -/
theorem retry_time_exact (now : Instant) (base : Span) (attempt : UInt32) :
    let wait := retryDelay base attempt
    let words := (base.words.times? (max attempt 1)).getD Span.longest.words
    (wait.nanos = min (base.nanos * max attempt.toNat 1) Span.longest.nanos ∧
      wait = .ofWords words ∧ words.nanos.toNat < secondNanos) ∧
    (∀ d, (now.after d).nanos = min (now.nanos + d.nanos) latest.nanos ∧
      (now.after d).isLeap = false) ∧
    (now.after wait).nanos =
      min (now.nanos + (base.nanos * max attempt.toNat 1 : Nat)) latest.nanos ∧
    now ≤ now.after wait ∧
    ∀ now' base' attempt', now ≤ now' → base ≤ base' → attempt ≤ attempt' →
      now.after wait ≤ now'.after (retryDelay base' attempt') := by
  intro wait words
  refine ⟨⟨?_, retryDelay_eq_ofWords base attempt, words.nanos_lt⟩,
    fun d => ⟨now.nanos_after d, now.isLeap_after d⟩, now.nanos_after_retryDelay base attempt,
    now.le_after wait, fun _ _ _ later longer more => after_retryDelay_mono later longer more⟩
  rw [Nat.mul_comm]
  exact nanos_retryDelay base attempt

/-- A base of almost the longest span, after the most attempts of all and just before the end
of the calendar: the seconds of the wait overflow, and so do its end and that of a wait that
starts three nanoseconds later. -/
theorem retry_time_exact_of_example :
    let base : Span := .ofNanos (Span.longest.nanos - 1)
    let now : Instant := .nearest (latestNanos - 4)
    let now' : Instant := .nearest (latestNanos - 1)
    let attempt : UInt32 := 4294967294
    now ≤ now' ∧ base ≤ .longest ∧ attempt ≤ 4294967295 ∧
      base.words.times? (max attempt 1) = none ∧ retryDelay base attempt = .longest ∧
      (now.after (retryDelay base attempt)).nanos = latest.nanos ∧
      now.after (retryDelay base attempt) ≤ now'.after (retryDelay .longest 4294967295) := by
  intro base now now' attempt
  have ordered : now ≤ now' ∧ base ≤ .longest ∧ attempt ≤ 4294967295 := by decide
  obtain ⟨-, -, due, -, mono⟩ := now.retry_time_exact base attempt
  exact ⟨ordered.1, ordered.2.1, ordered.2.2, by decide, by decide, due.trans (by decide),
    mono now' .longest 4294967295 ordered.1 ordered.2.1 ordered.2.2⟩

end Instant
end JobQueue
