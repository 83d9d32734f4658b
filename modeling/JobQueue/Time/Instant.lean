import JobQueue.Time.Shift

/-!
# Instants

An *instant* is a moment on the time line, counted in nanoseconds from the start
of 1970 and kept between the first and the last nanosecond that the calendar
can write (`Instant.earliest` and `Instant.latest`).

An instant is moved by a shift, as far as the calendar goes.  Going forward by a span
saturates, both where the span is too long for a shift and where the calendar ends; the
calendar is so much shorter that `t.after d` is the exact sum or the latest instant all
the same, whichever comes first (`Instant.nanos_after`).  Going back does not: there is
no instant before the earliest one, and `t.before? d` is none there.

A minute may end in a *leap second*, its sixtieth.  The count does not know it:
an instant of it counts like the one a second earlier, and only keeps a mark.
Computed instants have no mark.
-/

namespace JobQueue

/-- The first instant the calendar can write, in nanoseconds from the start of 1970. -/
abbrev earliestNanos : Int := -8334601228800000000000

/-- The last instant the calendar can write. -/
abbrev latestNanos : Int := 8210266876799999999999

/-- A moment in time. -/
structure Instant where
  /-- The nanoseconds from the start of 1970, negative before it. -/
  nanos : Int
  /-- No instant is before the earliest. -/
  earliest_le : earliestNanos ≤ nanos := by decide
  /-- No instant is after the latest. -/
  le_latest : nanos ≤ latestNanos := by decide
  /-- Whether the instant is of a leap second. -/
  isLeap : Bool := false
  /-- A leap second counts as the last second of a minute. -/
  second_of_isLeap : isLeap = true → nanos / secondNanos % 60 = 59 := by nofun
deriving DecidableEq, Repr

namespace Instant

/-- The first instant. -/
def earliest : Instant where
  nanos := earliestNanos

/-- The last instant. -/
def latest : Instant where
  nanos := latestNanos

/-- The start of 1970. -/
def epoch : Instant where
  nanos := 0

instance : Inhabited Instant := ⟨epoch⟩

/-- The instant `n` nanoseconds from the start of 1970, if the calendar reaches it. -/
def ofNanos? (n : Int) : Option Instant :=
  if h : earliestNanos ≤ n ∧ n ≤ latestNanos then
    some { nanos := n, earliest_le := h.1, le_latest := h.2 }
  else none

/-- The instant of a leap second that counts `n` nanoseconds from the start of 1970. -/
def ofLeapNanos? (n : Int) : Option Instant :=
  if h : (earliestNanos ≤ n ∧ n ≤ latestNanos) ∧ n / secondNanos % 60 = 59 then
    some
      { nanos := n, earliest_le := h.1.1, le_latest := h.1.2, isLeap := true,
        second_of_isLeap := fun _ => h.2 }
  else none

/-- The instant nearest to `n` nanoseconds from the start of 1970. -/
def nearest (n : Int) : Instant :=
  if h : earliestNanos ≤ n ∧ n ≤ latestNanos then
    { nanos := n, earliest_le := h.1, le_latest := h.2 }
  else if n < earliestNanos then earliest else latest

/-- The whole seconds from the start of 1970, rounded down. -/
def seconds (t : Instant) : Int := t.nanos / secondNanos

/-- The nanoseconds since the last whole second. -/
def fraction (t : Instant) : Nat := (t.nanos % secondNanos).toNat

/-- The nanoseconds since the start of `seconds`, a second and more in a leap second. -/
def subsecond (t : Instant) : Nat := t.fraction + if t.isLeap then secondNanos else 0

/-- The instant that a shift leads to, if the calendar reaches it. -/
def plus? (t : Instant) (f : Shift) : Option Instant := ofNanos? (t.nanos + f.nanos)

/-- The instant that a shift leads from, if the calendar reaches it. -/
def minus? (t : Instant) (f : Shift) : Option Instant := ofNanos? (t.nanos - f.nanos)

/-- The instant a span later, or the latest one where no shift leads there. -/
def after (t : Instant) (d : Span) : Instant := ((Shift.ofSpan? d).bind t.plus?).getD latest

/-- The instant a span earlier, if a shift leads from there. -/
def before? (t : Instant) (d : Span) : Option Instant := (Shift.ofSpan? d).bind t.minus?

instance : LE Instant := ⟨fun a b => a.nanos ≤ b.nanos⟩

instance : LT Instant := ⟨fun a b => a.nanos < b.nanos⟩

instance (a b : Instant) : Decidable (a ≤ b) := inferInstanceAs (Decidable (a.nanos ≤ b.nanos))

instance (a b : Instant) : Decidable (a < b) := inferInstanceAs (Decidable (a.nanos < b.nanos))

instance : Max Instant := maxOfLe

theorem le_def {a b : Instant} : a ≤ b ↔ a.nanos ≤ b.nanos := Iff.rfl

theorem lt_def {a b : Instant} : a < b ↔ a.nanos < b.nanos := Iff.rfl

theorem lt_max_iff {t a b : Instant} : t < max a b ↔ t < a ∨ t < b := by
  show t < (if a ≤ b then b else a) ↔ _
  simp only [lt_def, le_def]
  split <;> omega

@[ext] theorem ext {a b : Instant} (nanos : a.nanos = b.nanos) (isLeap : a.isLeap = b.isLeap) :
    a = b := by
  cases a; cases b; simp_all

theorem ofNanos?_eq_some_iff {n : Int} {t : Instant} :
    ofNanos? n = some t ↔ t.nanos = n ∧ t.isLeap = false := by
  have he := t.earliest_le
  have hl := t.le_latest
  unfold ofNanos?
  split
  · simp only [Option.some.injEq, Instant.ext_iff]
    exact ⟨fun ⟨hn, hm⟩ => ⟨hn.symm, hm.symm⟩, fun ⟨hn, hm⟩ => ⟨hn.symm, hm.symm⟩⟩
  · simp only [reduceCtorEq, false_iff]
    omega

theorem ofNanos?_eq_none_iff {n : Int} :
    ofNanos? n = none ↔ n < earliestNanos ∨ latestNanos < n := by
  unfold ofNanos?
  split <;> simp only [reduceCtorEq, true_iff, false_iff] <;> omega

/-- The calendar is shorter than the longest shift. -/
theorem calendar_lt_shiftLimit : latestNanos - earliestNanos < shiftLimit := by decide

/-- Going forward is exact up to the latest instant. -/
theorem nanos_after (t : Instant) (d : Span) :
    (t.after d).nanos = min (t.nanos + d.nanos) latestNanos := by
  have earliest := t.earliest_le
  unfold after
  cases shift : Shift.ofSpan? d with
  | none =>
    -- what is too long for a shift leads beyond the calendar from wherever it starts
    have long := Shift.ofSpan?_eq_none_iff.mp shift
    have shorter := calendar_lt_shiftLimit
    show latestNanos = _
    omega
  | some f =>
    have same := Shift.nanos_of_ofSpan? shift
    rw [Option.bind_some, plus?, same]
    cases moved : ofNanos? (t.nanos + d.nanos) with
    | none =>
      have outside := ofNanos?_eq_none_iff.mp moved
      show latestNanos = _
      omega
    | some u =>
      have exactly := (ofNanos?_eq_some_iff.mp moved).1
      have latest := u.le_latest
      show u.nanos = _
      omega

/-- What is reached by going forward is no leap second. -/
theorem isLeap_after (t : Instant) (d : Span) : (t.after d).isLeap = false := by
  unfold after
  cases moved : (Shift.ofSpan? d).bind t.plus? with
  | none => rfl
  | some u =>
    obtain ⟨f, -, reached⟩ := Option.bind_eq_some_iff.mp moved
    exact (ofNanos?_eq_some_iff.mp reached).2

/-- Going forward never goes back. -/
theorem le_after (t : Instant) (d : Span) : t ≤ t.after d := by
  have h := t.le_latest
  rw [le_def, nanos_after]
  omega

/-- Going back is exact where it is possible. -/
theorem before?_eq_some_iff {t c : Instant} {d : Span} :
    t.before? d = some c ↔ c.nanos + d.nanos = t.nanos ∧ c.isLeap = false := by
  have earliest := c.earliest_le
  have latest := t.le_latest
  have shorter := calendar_lt_shiftLimit
  unfold before?
  cases shift : Shift.ofSpan? d with
  | none =>
    have long := Shift.ofSpan?_eq_none_iff.mp shift
    simp only [Option.bind_none, reduceCtorEq, false_iff]
    omega
  | some f =>
    have same := Shift.nanos_of_ofSpan? shift
    rw [Option.bind_some, minus?, ofNanos?_eq_some_iff, same]
    exact and_congr_left fun _ => by omega

end Instant

end JobQueue
