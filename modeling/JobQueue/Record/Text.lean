import JobQueue.Job.Payload
import JobQueue.Json.Clock
import JobQueue.Record.Basic

/-!
# The text of records

Identifiers, messages, statuses and records as JSON values, and the readers that
take them from a text.  A status that holds nothing is written as its bare name,
any other one as an object with the name as its only key.
-/

namespace JobQueue

open Json (TextLayout required)

/-! ## Identifiers -/

/-- An identifier as a value. -/
def JobId.json (id : JobId) : Json := .str id.text

/-- Read an identifier. -/
def JobId.reader : Reader JobId := fun s => (Json.textValue s).map fun r => (⟨r.1⟩, r.2)

/-- A token as a value. -/
def LeaseToken.json (t : LeaseToken) : Json := .str t.text

/-- Read a token. -/
def LeaseToken.reader : Reader LeaseToken := fun s => (Json.textValue s).map fun r => (⟨r.1⟩, r.2)

/-! ## Messages -/

namespace Message

/-- A message as a value. -/
def json (m : Message) : Json :=
  .obj
    [("job_type", .str m.type), ("queue", .str m.queue),
     ("envelope", .arr (m.envelope.map fun b => .int b.toNat)),
     ("max_retries", .int m.maxRetries.toNat), ("process_at", m.processAt.json),
     ("timeout", .ofOption Span.json m.timeout)]

/-- The fields of a message that are gathered so far. -/
structure Draft where
  /-- The tag. -/
  type : Option String := none
  /-- The queue. -/
  queue : Option String := none
  /-- The bytes of the envelope. -/
  envelope : Option Bytes := none
  /-- The attempts. -/
  maxRetries : Option UInt32 := none
  /-- When the message may be delivered. -/
  processAt : Option Instant := none
  /-- How long an attempt may take. -/
  timeout : Option (Option Span) := none

/-- The layout of messages. -/
def layout : TextLayout Draft Message where
  title := "struct TaskMessage"
  lengthTitle := "struct TaskMessage with 6 elements"
  fields :=
    [.scanned "job_type" (·.type.isSome) (fun _ => Json.textValue)
      fun v d => { d with type := some v },
     .scanned "queue" (·.queue.isSome) (fun _ => Json.textValue)
      fun v d => { d with queue := some v },
     .scanned "envelope" (·.envelope.isSome) (Json.listValue fun _ => Json.byteValue)
      fun v d => { d with envelope := some v },
     .scanned "max_retries" (·.maxRetries.isSome) (fun _ => Json.wordValue)
      fun v d => { d with maxRetries := some v },
     .scanned "process_at" (·.processAt.isSome) (fun _ => Json.instantValue)
      fun v d => { d with processAt := some v },
     .scanned "timeout" (·.timeout.isSome) (fun levels => Json.optionValue (Span.reader levels))
      fun v d => { d with timeout := some v }]
  start := {}
  finish d := do
    let type ← required "job_type" d.type
    let queue ← required "queue" d.queue
    let envelope ← required "envelope" d.envelope
    let maxRetries ← required "max_retries" d.maxRetries
    let processAt ← required "process_at" d.processAt
    .ok { type, queue, envelope, maxRetries, processAt, timeout := d.timeout.getD none }

/-- Read a message. -/
def reader : Nat → Reader Message := Json.recordValue layout

end Message

/-! ## Statuses -/

namespace Status

/-- A status as a value. -/
def json : Status → Json
  | scheduled => .str "Scheduled"
  | pending => .str "Pending"
  | active => .str "Active"
  | retrying t => .obj [("Retrying", .obj [("retry_at", t.json)])]
  | completed t => .obj [("Completed", .obj [("completed_at", t.json)])]
  | archived t error => .obj [("Archived", .obj [("archived_at", t.json), ("error", .str error)])]

/-- The layout of what a status with an instant holds. -/
def instantLayout (title field : String) (make : Instant → Status) :
    TextLayout (Option Instant) Status where
  title := title
  lengthTitle := title ++ " with 1 element"
  fields := [.scanned field (·.isSome) (fun _ => Json.instantValue) fun v _ => some v]
  start := none
  finish t := (required field t).map make

/-- The fields of an archived status that are gathered so far. -/
structure ArchivedDraft where
  /-- When the message was given up. -/
  archivedAt : Option Instant := none
  /-- Why. -/
  error : Option String := none

/-- The layout of what an archived status holds. -/
def archivedLayout : TextLayout ArchivedDraft Status where
  title := "struct variant JobStatus::Archived"
  lengthTitle := "struct variant JobStatus::Archived with 2 elements"
  fields :=
    [.scanned "archived_at" (·.archivedAt.isSome) (fun _ => Json.instantValue)
      fun v d => { d with archivedAt := some v },
     .scanned "error" (·.error.isSome) (fun _ => Json.textValue)
      fun v d => { d with error := some v }]
  start := {}
  finish d := do
    let archivedAt ← required "archived_at" d.archivedAt
    let error ← required "error" d.error
    .ok (.archived archivedAt error)

/-- Read a status. -/
def reader : Nat → Reader Status :=
  Json.variantValue
    [("Scheduled", .unit .scheduled), ("Pending", .unit .pending), ("Active", .unit .active),
     ("Retrying", .record <| Json.recordValue <|
      instantLayout "struct variant JobStatus::Retrying" "retry_at" .retrying),
     ("Completed", .record <| Json.recordValue <|
      instantLayout "struct variant JobStatus::Completed" "completed_at" .completed),
     ("Archived", .record (Json.recordValue archivedLayout))]

end Status

/-! ## Records -/

namespace Record

/-- A record as a value. -/
def json (r : Record) : Json :=
  .obj
    [("job_id", r.id.json), ("message", r.message.json), ("status", r.status.json),
     ("attempt", .int r.attempt.toNat), ("created_at", r.createdAt.json),
     ("updated_at", r.updatedAt.json), ("last_error", .ofOption .str r.lastError),
     ("lease_token", .ofOption LeaseToken.json r.lease)]

/-- The fields of a record that are gathered so far. -/
structure Draft where
  /-- The identifier. -/
  id : Option JobId := none
  /-- The message. -/
  message : Option Message := none
  /-- Where the message stands. -/
  status : Option Status := none
  /-- How often it was handed out. -/
  attempt : Option UInt32 := none
  /-- When it was enqueued. -/
  createdAt : Option Instant := none
  /-- When the record changed last. -/
  updatedAt : Option Instant := none
  /-- How the last attempt failed. -/
  lastError : Option (Option String) := none
  /-- The lease. -/
  lease : Option (Option LeaseToken) := none

/-- The layout of records. -/
def layout : TextLayout Draft Record where
  title := "struct JobRecord"
  lengthTitle := "struct JobRecord with 8 elements"
  fields :=
    [.scanned "job_id" (·.id.isSome) (fun _ => JobId.reader) fun v d => { d with id := some v },
     .scanned "message" (·.message.isSome) Message.reader fun v d => { d with message := some v },
     .scanned "status" (·.status.isSome) Status.reader fun v d => { d with status := some v },
     .scanned "attempt" (·.attempt.isSome) (fun _ => Json.wordValue)
      fun v d => { d with attempt := some v },
     .scanned "created_at" (·.createdAt.isSome) (fun _ => Json.instantValue)
      fun v d => { d with createdAt := some v },
     .scanned "updated_at" (·.updatedAt.isSome) (fun _ => Json.instantValue)
      fun v d => { d with updatedAt := some v },
     .scanned "last_error" (·.lastError.isSome) (fun _ => Json.optionValue Json.textValue)
      fun v d => { d with lastError := some v },
     .scanned "lease_token" (·.lease.isSome) (fun _ => Json.optionValue LeaseToken.reader)
      fun v d => { d with lease := some v }]
  start := {}
  finish d := do
    let id ← required "job_id" d.id
    let message ← required "message" d.message
    let status ← required "status" d.status
    let attempt ← required "attempt" d.attempt
    let createdAt ← required "created_at" d.createdAt
    let updatedAt ← required "updated_at" d.updatedAt
    .ok
      { id, message, status, attempt, createdAt, updatedAt, lastError := d.lastError.getD none,
        lease := d.lease.getD none }

/-- Read a record. -/
def reader : Nat → Reader Record := Json.recordValue layout

end Record

end JobQueue
