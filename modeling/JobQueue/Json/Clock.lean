import JobQueue.Json.Decode
import JobQueue.Json.Record

/-!
# Times in JSON

A span is written as a record of whole seconds and nanoseconds, an instant as
the text of its timestamp.  Of a span no other fields may be there; nanoseconds
of a second and more carry, and a span whose seconds no longer fit is refused.
-/

namespace JobQueue

/-- A span as a value, with its seconds in front. -/
def Span.json (d : Span) : Json :=
  .obj [("secs", .int d.seconds), ("nanos", .int d.subsecond)]

/-- An instant as a value. -/
def Instant.json (t : Instant) : Json := .str (String.ofList t.timestamp)

namespace Span

/-- The parts of a span that are gathered so far. -/
structure Draft where
  /-- The whole seconds. -/
  secs : Option UInt64 := none
  /-- The nanoseconds. -/
  nanos : Option UInt32 := none

/-- The span of the gathered parts. -/
def Draft.finish (d : Draft) : Except Mismatch Span := do
  let secs ← Json.required "secs" d.secs
  let nanos ← Json.required "nanos" d.nanos
  match ofParts? secs.toNat nanos.toNat with
  | some span => .ok span
  | none => .error .spanOverflow

/-- The layout of a span, from its two fields. -/
def layout {ρ : Type} (secs nanos : Json.Field Draft ρ) : Json.Layout Draft ρ Span where
  title := "struct Duration"
  fields := [secs, nanos]
  start := {}
  finish := Draft.finish
  isClosed := true

/-- Decode a span. -/
def ofJson : Decoder Span :=
  Json.asRecord <| layout
    (.decoded "secs" (·.secs.isSome) Json.asUInt64 fun v d => { d with secs := some v })
    (.decoded "nanos" (·.nanos.isSome) Json.asUInt32 fun v d => { d with nanos := some v })

/-- Read a span from a text. -/
def reader : Nat → Reader Span :=
  Json.recordValue <| layout
    (.scanned "secs" (·.secs.isSome) (fun _ => Json.longValue "u64")
      fun v d => { d with secs := some v })
    (.scanned "nanos" (·.nanos.isSome) (fun _ => Json.wordValue)
      fun v d => { d with nanos := some v })

end Span

end JobQueue
