import JobQueue.Job.Basic
import JobQueue.Settings.Weights

/-!
# Settings of a pool

What a pool of workers runs with.  Every setting has a default, and the
variables of the environment are laid over the defaults one by one: a variable
that is unset, or that cannot be read, leaves its own setting alone and touches
no other one.
-/

namespace JobQueue

/-- What a pool of workers runs with. -/
structure Settings where
  /-- The number of slots, each of which handles one message at a time. -/
  concurrency : UInt64
  /-- The queues to pull from. -/
  queues : Weights
  /-- Whether heavier queues always come first. -/
  strictPriority : Bool
  /-- How long a stop waits for the slots. -/
  shutdownTimeout : Span
  /-- How long a slot waits when it finds nothing. -/
  pollInterval : Span
  /-- The delay before the second attempt. -/
  retryBackoff : Span
  /-- How long an attempt may take where its message does not say. -/
  defaultTimeout : Option Span
deriving DecidableEq, Repr

/-- The variables of an environment. -/
abbrev Environment := String → Option String

namespace Settings

/-- The default settings. -/
def default : Settings where
  concurrency := 10
  queues := .ofList [(defaultQueue, 1)]
  strictPriority := false
  shutdownTimeout := .ofSeconds 8
  pollInterval := .ofSeconds 1
  retryBackoff := .ofSeconds 1
  defaultTimeout := none

instance : Inhabited Settings := ⟨default⟩

/-! ## The environment -/

/-- A variable that holds a whole number of 64 bits. -/
def numberOf (env : Environment) (name : String) : Option UInt64 :=
  (env name).bind fun s =>
    match readUnsigned 18446744073709551615 (trim s.toList) with
    | .ok n => some (UInt64.ofNat n)
    | .error _ => none

/-- A variable that holds a truth value. -/
def flagOf (env : Environment) (name : String) : Option Bool :=
  (env name).bind fun s =>
    match String.ofList (trim s.toList) with
    | "true" => some true
    | "false" => some false
    | _ => none

/-- A variable that holds weights. -/
def weightsOf (env : Environment) (name : String) : Option Weights :=
  (env name).bind fun s => (Weights.ofText s.toList).toOption

/-- The default settings with those of an environment laid over them. -/
def ofEnvironment (env : Environment) : Settings where
  concurrency := (numberOf env "QUEUE_CONCURRENCY").getD default.concurrency
  queues := (weightsOf env "QUEUE_QUEUES").getD default.queues
  strictPriority := (flagOf env "QUEUE_STRICT_PRIORITY").getD default.strictPriority
  shutdownTimeout :=
    ((numberOf env "QUEUE_SHUTDOWN_TIMEOUT_SECS").map .ofSeconds).getD default.shutdownTimeout
  pollInterval :=
    ((numberOf env "QUEUE_POLL_INTERVAL_MS").map .ofMillis).getD default.pollInterval
  retryBackoff :=
    ((numberOf env "QUEUE_RETRY_BACKOFF_MS").map .ofMillis).getD default.retryBackoff
  defaultTimeout :=
    ((numberOf env "QUEUE_DEFAULT_TIMEOUT_SECS").map .ofSeconds).or default.defaultTimeout

/-! ## Validity -/

/-- What keeps a pool from running with the settings. -/
def fault? (s : Settings) : Option QueueError :=
  if s.concurrency = 0 then some (.invalidConfig "concurrency must be greater than 0")
  else if s.queues.entries = [] then some (.invalidConfig "at least one queue is required")
  else
    match s.queues.entries.find? fun e => e.2 = 0 with
    | some (name, _) => some (.invalidConfig s!"queue '{name}' must have a positive weight")
    | none =>
      if s.queues.entries.any fun e => e.1 = "" then
        some (.invalidConfig "queue names must not be empty")
      else none

/-- A pool can run with settings that have a slot and a queue, and whose queues
all have a name and a weight. -/
theorem fault?_eq_none_iff {s : Settings} :
    s.fault? = none ↔
      s.concurrency ≠ 0 ∧ s.queues.entries ≠ [] ∧
        ∀ e ∈ s.queues.entries, e.2 ≠ 0 ∧ e.1 ≠ "" := by
  unfold fault?
  split
  · next h => simp [h]
  · next hc =>
    split
    · next h => simp [h]
    · next hq =>
      split
      · next name w h =>
        have hm := List.mem_of_find?_eq_some h
        have hw := List.find?_some h
        simp only [decide_eq_true_eq] at hw
        simp only [reduceCtorEq, false_iff, not_and]
        exact fun _ _ ha => (ha (name, w) hm).1 hw
      · next h =>
        have hw : ∀ e ∈ s.queues.entries, e.2 ≠ 0 := by
          intro e he hz
          have := List.find?_eq_none.mp h e he
          simp [hz] at this
        split
        · next ha =>
          obtain ⟨e, he, hn⟩ := List.any_eq_true.mp ha
          simp only [decide_eq_true_eq] at hn
          simp only [reduceCtorEq, false_iff, not_and]
          exact fun _ _ ha => (ha e he).2 hn
        · next ha =>
          have hn : ∀ e ∈ s.queues.entries, e.1 ≠ "" := by
            intro e he hz
            exact ha (List.any_eq_true.mpr ⟨e, he, by simpa using hz⟩)
          simp only [true_iff]
          exact ⟨hc, hq, fun e he => ⟨hw e he, hn e he⟩⟩

end Settings

end JobQueue
