import JobQueue.Error
import JobQueue.Job.Posting
import JobQueue.Json.Record

/-!
# Envelopes

An envelope is what travels through the broker for a job: the tag of the job and
its payload as a JSON value.  It is taken apart in two steps.  Its bytes are
read first (`Envelope.ofBytes`), so that the tag can be looked at; then a job of
a chosen kind is decoded from the data (`Envelope.toJob`).

A `Codec` says how the bytes of an envelope are arranged.
-/

namespace JobQueue

/-- A tag with a payload. -/
structure Envelope where
  /-- The tag of the job. -/
  type : String
  /-- The payload of the job. -/
  data : Json

namespace Envelope

/-- Put a posting into an envelope. -/
def ofPosting (p : Posting) : Except QueueError Envelope :=
  match p.data with
  | .ok data => .ok { type := p.tag, data }
  | .error reason => .error (.unserializable reason)

theorem ofPosting_of_ok {p : Posting} {data : Json} (h : p.data = .ok data) :
    ofPosting p = .ok { type := p.tag, data } := by rw [ofPosting, h]

theorem ofPosting_of_error {p : Posting} {reason : String} (h : p.data = .error reason) :
    ofPosting p = .error (.unserializable reason) := by rw [ofPosting, h]

/-- Put a job into an envelope. -/
def ofJob (j : Job) : Except QueueError Envelope := ofPosting j.posting

/-- Take a job of a kind out of an envelope, whatever its tag. -/
def toJob (e : Envelope) (kind : JobKind) : Except QueueError Job :=
  match kind.decode e.data with
  | .ok j => .ok j
  | .error m => .error (.payloadMismatch e.type m.message)

/-- An envelope as a value. -/
def json (e : Envelope) : Json := .obj [("type", .str e.type), ("data", e.data)]

/-- The bytes of an envelope. -/
def bytes (e : Envelope) : Bytes := e.json.bytes

/-- The parts of an envelope that are gathered so far. -/
structure Draft where
  /-- The tag. -/
  type : Option String := none
  /-- The payload. -/
  data : Option Json := none

/-- The layout of envelopes. -/
def layout : Json.TextLayout Draft Envelope where
  title := "struct Envelope"
  lengthTitle := "struct Envelope with 2 elements"
  fields :=
    [.scanned "type" (·.type.isSome) (fun _ => Json.textValue) fun v d => { d with type := some v },
     .scanned "data" (·.data.isSome) Json.value fun v d => { d with data := some v }]
  start := {}
  finish d := do
    let type ← Json.required "type" d.type
    let data ← Json.required "data" d.data
    .ok { type, data }

/-- Read an envelope from a text. -/
def reader : Nat → Reader Envelope := Json.recordValue layout

/-- The envelope of its bytes. -/
def ofBytes (b : Bytes) : Except QueueError Envelope :=
  match Json.whole (reader Json.nestingLimit) b with
  | .ok e => .ok e
  | .error f => .error (.envelopeMalformed (f.message b))

/-- Only malformed bytes are refused. -/
theorem isTerminal_of_ofBytes {b : Bytes} {e : QueueError} (h : ofBytes b = .error e) :
    e.isTerminal := by
  unfold ofBytes at h
  split at h <;> cases h
  rfl

/-- Only a payload of another shape is refused. -/
theorem isTerminal_of_toJob {v : Envelope} {k : JobKind} {e : QueueError}
    (h : v.toJob k = .error e) : e.isTerminal := by
  unfold toJob at h
  split at h <;> cases h
  rfl

end Envelope

/-- How the bytes of an envelope are arranged. -/
inductive Codec where
  /-- JSON. -/
  | json
  /-- JSON from its last byte to its first. -/
  | reversed
deriving DecidableEq, Repr

namespace Codec

/-- The name of a codec. -/
def name : Codec → String
  | json => "json"
  | reversed => "reversed"

/-- The bytes of an envelope. -/
def encode : Codec → Envelope → Bytes
  | json, e => e.bytes
  | reversed, e => e.bytes.reverse

/-- The envelope of its bytes. -/
def decode : Codec → Bytes → Except QueueError Envelope
  | json, b => Envelope.ofBytes b
  | reversed, b => Envelope.ofBytes b.reverse

/-- The bytes of a job in its envelope. -/
def encodeJob (c : Codec) (j : Job) : Except QueueError Bytes :=
  (Envelope.ofJob j).map c.encode

/-- The job of a kind in the envelope of the bytes. -/
def decodeJob (c : Codec) (kind : JobKind) (b : Bytes) : Except QueueError Job :=
  (c.decode b).bind fun e => e.toJob kind

end Codec

end JobQueue
