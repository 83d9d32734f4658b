import JobQueue.Job.Payload
import JobQueue.Settings.Basic

/-!
# The text of settings

Settings as JSON values, and the reader that takes them from a text.  A setting
that is not there keeps its default, in an object and in an array alike.
-/

namespace JobQueue

open Json (TextLayout)

/-- Weights as an object. -/
def Weights.json (w : Weights) : Json := .obj (w.entries.map fun e => (e.1, .int e.2.toNat))

/-- Read weights. -/
def Weights.reader (levels : Nat) : Reader Weights := fun s =>
  (Json.mapValue (fun _ => Json.wordValue) levels s).map fun r => (.ofList r.1, r.2)

namespace Settings

/-- Settings as a value. -/
def json (s : Settings) : Json :=
  .obj
    [("concurrency", .int s.concurrency.toNat), ("queues", s.queues.json),
     ("strict_priority", .bool s.strictPriority), ("shutdown_timeout", s.shutdownTimeout.json),
     ("poll_interval", s.pollInterval.json), ("retry_backoff", s.retryBackoff.json),
     ("default_timeout", .ofOption Span.json s.defaultTimeout)]

/-- The settings that are gathered so far. -/
structure Draft where
  /-- The number of slots. -/
  concurrency : Option UInt64 := none
  /-- The queues. -/
  queues : Option Weights := none
  /-- Whether heavier queues always come first. -/
  strictPriority : Option Bool := none
  /-- How long a stop waits. -/
  shutdownTimeout : Option Span := none
  /-- How long a slot waits. -/
  pollInterval : Option Span := none
  /-- The delay before the second attempt. -/
  retryBackoff : Option Span := none
  /-- How long an attempt may take. -/
  defaultTimeout : Option (Option Span) := none

/-- The gathered settings laid over the defaults. -/
def Draft.finish (d : Draft) : Settings where
  concurrency := d.concurrency.getD default.concurrency
  queues := d.queues.getD default.queues
  strictPriority := d.strictPriority.getD default.strictPriority
  shutdownTimeout := d.shutdownTimeout.getD default.shutdownTimeout
  pollInterval := d.pollInterval.getD default.pollInterval
  retryBackoff := d.retryBackoff.getD default.retryBackoff
  defaultTimeout := d.defaultTimeout.getD default.defaultTimeout

/-- The layout of settings. -/
def layout : TextLayout Draft Settings where
  title := "struct WorkerConfig"
  lengthTitle := "struct WorkerConfig with 7 elements"
  fields :=
    [.scanned "concurrency" (·.concurrency.isSome) (fun _ => Json.longValue "usize")
      (fun v d => { d with concurrency := some v }) true,
     .scanned "queues" (·.queues.isSome) Weights.reader
      (fun v d => { d with queues := some v }) true,
     .scanned "strict_priority" (·.strictPriority.isSome) (fun _ => Json.boolValue)
      (fun v d => { d with strictPriority := some v }) true,
     .scanned "shutdown_timeout" (·.shutdownTimeout.isSome) Span.reader
      (fun v d => { d with shutdownTimeout := some v }) true,
     .scanned "poll_interval" (·.pollInterval.isSome) Span.reader
      (fun v d => { d with pollInterval := some v }) true,
     .scanned "retry_backoff" (·.retryBackoff.isSome) Span.reader
      (fun v d => { d with retryBackoff := some v }) true,
     .scanned "default_timeout" (·.defaultTimeout.isSome)
      (fun levels => Json.optionValue (Span.reader levels))
      (fun v d => { d with defaultTimeout := some v }) true]
  start := {}
  finish d := .ok d.finish

/-- Read settings. -/
def reader : Nat → Reader Settings := Json.recordValue layout

end Settings

end JobQueue
