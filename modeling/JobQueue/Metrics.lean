import JobQueue.Number.Binary64
import JobQueue.Text.Named

/-!
# Metrics

The counters of a pool: how many messages it handled, how they ended, in total
and for each type of job, and how many are being handled now and were at most.
-/

namespace JobQueue

/-- How the handling of a message ended. -/
inductive Outcome where
  /-- Its handler succeeded. -/
  | succeeded
  /-- Its handler failed, and it is tried again. -/
  | retried
  /-- Its handler failed for good. -/
  | failed
  /-- It could not be handled. -/
  | dropped
deriving DecidableEq, Repr

/-- How often each outcome came. -/
structure Tally where
  /-- Successes. -/
  succeeded : UInt64 := 0
  /-- Failures that are tried again. -/
  retried : UInt64 := 0
  /-- Failures for good. -/
  failed : UInt64 := 0
  /-- Messages that could not be handled. -/
  dropped : UInt64 := 0
deriving DecidableEq, Repr

namespace Tally

/-- How often an outcome came. -/
def count (t : Tally) : Outcome → UInt64
  | .succeeded => t.succeeded
  | .retried => t.retried
  | .failed => t.failed
  | .dropped => t.dropped

/-- Count an outcome. -/
def record (t : Tally) : Outcome → Tally
  | .succeeded => { t with succeeded := t.succeeded + 1 }
  | .retried => { t with retried := t.retried + 1 }
  | .failed => { t with failed := t.failed + 1 }
  | .dropped => { t with dropped := t.dropped + 1 }

theorem count_record (t : Tally) (o p : Outcome) :
    (t.record o).count p = if o = p then t.count p + 1 else t.count p := by
  cases o <;> cases p <;> rfl

/-- The messages that are done with. -/
def finished (t : Tally) : UInt64 := t.succeeded + t.failed + t.dropped

/-- The share of successes in the messages that are done with, in percent; all
of none. -/
def successRate (t : Tally) : Binary64 :=
  if t.finished = 0 then .ofNat 100
  else .mul (.div (.ofNat t.succeeded.toNat) (.ofNat t.finished.toNat)) (.ofNat 100)

end Tally

/-- The counters of a pool. -/
structure Metrics where
  /-- The messages whose handling began. -/
  processed : UInt64 := 0
  /-- The outcomes of all messages. -/
  total : Tally := {}
  /-- The messages that are being handled. -/
  inFlight : Nat := 0
  /-- The most messages that were handled at the same time. -/
  peak : Nat := 0
  /-- The outcomes for each type. -/
  types : List (String × Tally) := []
deriving DecidableEq, Repr

namespace Metrics

/-- Count a message whose handling begins. -/
def enter (m : Metrics) : Metrics :=
  { m with processed := m.processed + 1, inFlight := m.inFlight + 1 }

/-- Raise the peak to a number of messages. -/
def raise (m : Metrics) (current : Nat) : Metrics := { m with peak := max m.peak current }

/-- Count a message whose handling is over. -/
def leave (m : Metrics) : Metrics := { m with inFlight := m.inFlight - 1 }

/-- The outcomes of a type. -/
def tally (m : Metrics) (type : String) : Tally := (lookupNamed type m.types).getD {}

/-- Count an outcome for a type. -/
def record (m : Metrics) (type : String) (o : Outcome) : Metrics :=
  { m with
    total := m.total.record o
    types := insertNamed type ((m.tally type).record o) m.types }

/-- An outcome counts for its own type only. -/
theorem tally_record (m : Metrics) (type other : String) (o : Outcome) :
    (m.record type o).tally other =
      if type = other then (m.tally type).record o else m.tally other := by
  unfold record tally
  rw [lookup_insertNamed]
  split <;> rfl

end Metrics

end JobQueue
