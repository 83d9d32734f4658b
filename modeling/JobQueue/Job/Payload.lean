import JobQueue.Job.Basic
import JobQueue.Json.Clock

/-!
# Payloads of jobs

The payload of a job as a JSON value, and the job of a value.  `Job.payload`
has the fields in the order of their declaration; the data of an envelope is
`Job.data`, the same value with the fields in ascending order.

Fields that may be nothing are written as `null` and may be missing; unknown
fields are ignored.
-/

namespace JobQueue

open Json (ValueLayout required)

/-- An optional part of a payload. -/
def Json.ofOption {α : Type} (f : α → Json) : Option α → Json
  | some v => f v
  | none => .null

/-! ## Log entries -/

/-- A log entry as a value. -/
def CreateLog.json (p : CreateLog) : Json :=
  .obj [("loggable_id", .int p.loggableId.toInt), ("action", .str p.action)]

/-- The fields of a log entry that are gathered so far. -/
structure CreateLog.Draft where
  /-- The number of the record. -/
  loggableId : Option Int64 := none
  /-- What was done to it. -/
  action : Option String := none

/-- The layout of log entries. -/
def CreateLog.layout : ValueLayout CreateLog.Draft CreateLog where
  title := "struct CreateLog"
  lengthTitle := "struct CreateLog with 2 elements"
  fields :=
    [.decoded "loggable_id" (·.loggableId.isSome) Json.asInt64
      fun v d => { d with loggableId := some v },
     .decoded "action" (·.action.isSome) Json.asText fun v d => { d with action := some v }]
  start := {}
  finish d := do
    let loggableId ← required "loggable_id" d.loggableId
    let action ← required "action" d.action
    .ok { loggableId, action }

/-! ## Imports of accounts -/

/-- An import as a value. -/
def ImportAccounts.json (p : ImportAccounts) : Json :=
  .obj [("file_path", .str p.filePath), ("company_id", .int p.companyId.toNat)]

/-- The fields of an import that are gathered so far. -/
structure ImportAccounts.Draft where
  /-- Where the file is. -/
  filePath : Option String := none
  /-- The company. -/
  companyId : Option UInt64 := none

/-- The layout of imports. -/
def ImportAccounts.layout : ValueLayout ImportAccounts.Draft ImportAccounts where
  title := "struct ImportAccounts"
  lengthTitle := "struct ImportAccounts with 2 elements"
  fields :=
    [.decoded "file_path" (·.filePath.isSome) Json.asText fun v d => { d with filePath := some v },
     .decoded "company_id" (·.companyId.isSome) Json.asUInt64
      fun v d => { d with companyId := some v }]
  start := {}
  finish d := do
    let filePath ← required "file_path" d.filePath
    let companyId ← required "company_id" d.companyId
    .ok { filePath, companyId }

/-! ## Batches of data -/

/-- A batch as a value. -/
def ProcessData.json (p : ProcessData) : Json :=
  .obj
    [("batch", .int p.batch.toNat), ("tags", .arr (p.tags.map .str)),
     ("note", .ofOption .str p.note), ("dry_run", .bool p.dryRun)]

/-- The fields of a batch that are gathered so far. -/
structure ProcessData.Draft where
  /-- The number of the batch. -/
  batch : Option UInt32 := none
  /-- The tags. -/
  tags : Option (List String) := none
  /-- The remark. -/
  note : Option (Option String) := none
  /-- Whether nothing is to be changed. -/
  dryRun : Option Bool := none

/-- The layout of batches. -/
def ProcessData.layout : ValueLayout ProcessData.Draft ProcessData where
  title := "struct ProcessData"
  lengthTitle := "struct ProcessData with 4 elements"
  fields :=
    [.decoded "batch" (·.batch.isSome) Json.asUInt32 fun v d => { d with batch := some v },
     .decoded "tags" (·.tags.isSome) (Json.asList Json.asText) fun v d => { d with tags := some v },
     .decoded "note" (·.note.isSome) (Json.asOption Json.asText)
      fun v d => { d with note := some v },
     .decoded "dry_run" (·.dryRun.isSome) Json.asBool (fun v d => { d with dryRun := some v }) true]
  start := {}
  finish d := do
    let batch ← required "batch" d.batch
    let tags ← required "tags" d.tags
    .ok { batch, tags, note := d.note.getD none, dryRun := d.dryRun.getD false }

/-! ## Jobs that choose for themselves -/

/-- A job that chooses for itself as a value. -/
def MyJob.json (p : MyJob) : Json :=
  .obj
    [("q", .ofOption .str p.q), ("retries", .ofOption (fun n => .int n.toNat) p.retries),
     ("delay", .ofOption Span.json p.delay)]

/-- The fields of such a job that are gathered so far. -/
structure MyJob.Draft where
  /-- The queue. -/
  q : Option (Option String) := none
  /-- The attempts. -/
  retries : Option (Option UInt32) := none
  /-- The delay. -/
  delay : Option (Option Span) := none

/-- The layout of such jobs. -/
def MyJob.layout : ValueLayout MyJob.Draft MyJob where
  title := "struct MyJob"
  lengthTitle := "struct MyJob with 3 elements"
  fields :=
    [.decoded "q" (·.q.isSome) (Json.asOption Json.asText) fun v d => { d with q := some v },
     .decoded "retries" (·.retries.isSome) (Json.asOption Json.asUInt32)
      fun v d => { d with retries := some v },
     .decoded "delay" (·.delay.isSome) (Json.asOption Span.ofJson)
      fun v d => { d with delay := some v }]
  start := {}
  finish d := .ok { q := d.q.getD none, retries := d.retries.getD none, delay := d.delay.getD none }

/-! ## Jobs with pairs as keys -/

/-- Why a job with pairs as keys has no JSON text. -/
abbrev keyFault : String := "key must be a string"

/-- A job with pairs as keys as a value, if it has none. -/
def KeyedJob.json? (p : KeyedJob) : Except String Json :=
  match p.pairs with
  | [] => .ok (.obj [("pairs", .obj [])])
  | _ :: _ => .error keyFault

/-- The layout of such jobs. -/
def KeyedJob.layout : ValueLayout (Option (List (Int64 × Int64))) KeyedJob where
  title := "struct KeyedJob"
  lengthTitle := "struct KeyedJob with 1 element"
  fields :=
    [.decoded "pairs" (·.isSome) (Json.asList (Json.asPair Json.asInt64 Json.asInt64))
      fun v _ => some v]
  start := none
  finish pairs := (required "pairs" pairs).map fun pairs => { pairs }

/-! ## All jobs -/

namespace Job

/-- The payload of a job, with its fields in the order of their declaration, or
why there is none. -/
def payload : Job → Except String Json
  | createLog p => .ok p.json
  | importAccounts p => .ok p.json
  | processData p => .ok p.json
  | mine p => .ok p.json
  | keyed p => p.json?

/-- The payload of a job with its fields in ascending order. -/
def data (j : Job) : Except String Json := j.payload.map Json.sorted

/-- The text of the payload, or why there is none. -/
def payloadText (j : Job) : String :=
  match j.payload with
  | .ok v => v.text
  | .error reason => reason

end Job

/-- Decode a job of a kind. -/
def JobKind.decode : JobKind → Decoder Job
  | .createLog => fun v => (Json.asRecord CreateLog.layout v).map .createLog
  | .importAccounts => fun v => (Json.asRecord ImportAccounts.layout v).map .importAccounts
  | .processData => fun v => (Json.asRecord ProcessData.layout v).map .processData
  | .mine => fun v => (Json.asRecord MyJob.layout v).map .mine
  | .keyed => fun v => (Json.asRecord KeyedJob.layout v).map .keyed

/-- A decoded job is of the kind that was decoded. -/
theorem JobKind.kind_of_decode {k : JobKind} {v : Json} {j : Job} (h : k.decode v = .ok j) :
    j.kind = k := by
  cases k <;> simp only [decode] at h <;>
    exact (by
      revert h
      cases Json.asRecord _ v <;> intro h <;> cases h
      rfl)

end JobQueue
