import JobQueue.Event.Basic
import JobQueue.Record.Text

/-!
# The text of events

An event is written as an object with its kind as the only key, and read back
from such a text.  All kinds share the fields that are gathered; each kind has
its own list of those that it needs.
-/

namespace JobQueue

open Json (TextLayout Field required)

namespace Event

/-- An event as a value. -/
def json : Event → Json
  | enqueued job queue type t =>
    .obj [("Enqueued", .obj
      [("job_id", job.json), ("queue", .str queue), ("job_type", .str type), ("at", t.json)])]
  | leased job attempt t =>
    .obj [("Leased", .obj
      [("job_id", job.json), ("attempt", .int attempt.toNat), ("at", t.json)])]
  | retrying job retryAt error t =>
    .obj [("Retrying", .obj
      [("job_id", job.json), ("retry_at", retryAt.json), ("error", .str error), ("at", t.json)])]
  | completed job t => .obj [("Completed", .obj [("job_id", job.json), ("at", t.json)])]
  | archived job error t =>
    .obj [("Archived", .obj [("job_id", job.json), ("error", .str error), ("at", t.json)])]

/-- The fields of an event that are gathered so far. -/
structure Draft where
  /-- The message. -/
  job : Option JobId := none
  /-- Its queue. -/
  queue : Option String := none
  /-- Its tag. -/
  type : Option String := none
  /-- The number of the attempt. -/
  attempt : Option UInt32 := none
  /-- When another attempt may be made. -/
  retryAt : Option Instant := none
  /-- What went wrong. -/
  error : Option String := none
  /-- When the event happened. -/
  time : Option Instant := none

/-- A field of an event. -/
abbrev Part := Field Draft (Nat → Reader (Draft → Draft))

/-- The message. -/
def jobPart : Part :=
  .scanned "job_id" (·.job.isSome) (fun _ => JobId.reader) fun v d => { d with job := some v }

/-- What went wrong. -/
def errorPart : Part :=
  .scanned "error" (·.error.isSome) (fun _ => Json.textValue) fun v d => { d with error := some v }

/-- When the event happened. -/
def timePart : Part :=
  .scanned "at" (·.time.isSome) (fun _ => Json.instantValue) fun v d => { d with time := some v }

/-- The layout of enqueued messages. -/
def enqueuedLayout : TextLayout Draft Event where
  title := "struct variant JobEvent::Enqueued"
  lengthTitle := "struct variant JobEvent::Enqueued with 4 elements"
  fields :=
    [jobPart,
     .scanned "queue" (·.queue.isSome) (fun _ => Json.textValue)
      fun v d => { d with queue := some v },
     .scanned "job_type" (·.type.isSome) (fun _ => Json.textValue)
      fun v d => { d with type := some v },
     timePart]
  start := {}
  finish d := do
    let job ← required "job_id" d.job
    let queue ← required "queue" d.queue
    let type ← required "job_type" d.type
    let time ← required "at" d.time
    .ok (.enqueued job queue type time)

/-- The layout of messages that were handed out. -/
def leasedLayout : TextLayout Draft Event where
  title := "struct variant JobEvent::Leased"
  lengthTitle := "struct variant JobEvent::Leased with 3 elements"
  fields :=
    [jobPart,
     .scanned "attempt" (·.attempt.isSome) (fun _ => Json.wordValue)
      fun v d => { d with attempt := some v },
     timePart]
  start := {}
  finish d := do
    let job ← required "job_id" d.job
    let attempt ← required "attempt" d.attempt
    let time ← required "at" d.time
    .ok (.leased job attempt time)

/-- The layout of messages that wait for another attempt. -/
def retryingLayout : TextLayout Draft Event where
  title := "struct variant JobEvent::Retrying"
  lengthTitle := "struct variant JobEvent::Retrying with 4 elements"
  fields :=
    [jobPart,
     .scanned "retry_at" (·.retryAt.isSome) (fun _ => Json.instantValue)
      fun v d => { d with retryAt := some v },
     errorPart, timePart]
  start := {}
  finish d := do
    let job ← required "job_id" d.job
    let retryAt ← required "retry_at" d.retryAt
    let error ← required "error" d.error
    let time ← required "at" d.time
    .ok (.retrying job retryAt error time)

/-- The layout of messages that are done. -/
def completedLayout : TextLayout Draft Event where
  title := "struct variant JobEvent::Completed"
  lengthTitle := "struct variant JobEvent::Completed with 2 elements"
  fields := [jobPart, timePart]
  start := {}
  finish d := do
    let job ← required "job_id" d.job
    let time ← required "at" d.time
    .ok (.completed job time)

/-- The layout of messages that were given up. -/
def archivedLayout : TextLayout Draft Event where
  title := "struct variant JobEvent::Archived"
  lengthTitle := "struct variant JobEvent::Archived with 3 elements"
  fields := [jobPart, errorPart, timePart]
  start := {}
  finish d := do
    let job ← required "job_id" d.job
    let error ← required "error" d.error
    let time ← required "at" d.time
    .ok (.archived job error time)

/-- Read an event. -/
def reader : Nat → Reader Event :=
  Json.variantValue
    [("Enqueued", .record (Json.recordValue enqueuedLayout)),
     ("Leased", .record (Json.recordValue leasedLayout)),
     ("Retrying", .record (Json.recordValue retryingLayout)),
     ("Completed", .record (Json.recordValue completedLayout)),
     ("Archived", .record (Json.recordValue archivedLayout))]

end Event

end JobQueue
