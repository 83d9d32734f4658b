import JobQueue.Json.Layout
import JobQueue.Json.Value

/-!
# Records from values

Decoders of typed values from a value that was read before: texts, truth values,
numbers within a range, values that may be `null`, lists, pairs and records.

A record is an object with its fields by name or an array with its fields in the
order of their declaration.  The fields of an object come in ascending order of
their names, so that of two mismatches the one in the lesser name is met first;
a missing field is noticed after all that are there.
-/

namespace JobQueue

/-- A decoder of values of type `α`. -/
abbrev Decoder (α : Type) := Json → Except Mismatch α

namespace Json

/-- What a value is, in a message about another that was wanted. -/
def found : Json → Found
  | null => .null
  | bool b => .bool b
  | int n => .int n
  | float x => .float x
  | str s => .str s
  | arr _ => .sequence
  | obj _ => .map

/-- The mismatch of a value of the wrong kind. -/
def notA {α : Type} (wanted : String) (v : Json) : Except Mismatch α :=
  .error (.kind v.found wanted)

/-- Decode a text. -/
def asText : Decoder String
  | str s => .ok s
  | v => notA "a string" v

/-- Decode a truth value. -/
def asBool : Decoder Bool
  | bool b => .ok b
  | v => notA "a boolean" v

/-- Decode a whole number from `least` to `most`. -/
def asInt (least most : Int) (wanted : String) : Decoder Int
  | int n => if least ≤ n ∧ n ≤ most then .ok n else .error (.range n wanted)
  | v => notA wanted v

/-- Decode a signed number of 64 bits. -/
def asInt64 (v : Json) : Except Mismatch Int64 :=
  (asInt (-9223372036854775808) 9223372036854775807 "i64" v).map Int64.ofInt

/-- Decode an unsigned number of 64 bits. -/
def asUInt64 (v : Json) : Except Mismatch UInt64 :=
  (asInt 0 18446744073709551615 "u64" v).map fun n => UInt64.ofNat n.toNat

/-- Decode an unsigned number of 32 bits. -/
def asUInt32 (v : Json) : Except Mismatch UInt32 :=
  (asInt 0 4294967295 "u32" v).map fun n => UInt32.ofNat n.toNat

/-- Decode a value, or nothing from `null`. -/
def asOption {α : Type} (decode : Decoder α) : Decoder (Option α)
  | null => .ok none
  | v => (decode v).map some

/-- Decode a list. -/
def asList {α : Type} (decode : Decoder α) : Decoder (List α)
  | arr items => items.mapM decode
  | v => notA "a sequence" v

/-- Decode a pair. -/
def asPair {α β : Type} (first : Decoder α) (second : Decoder β) : Decoder (α × β)
  | arr [] => .error (.length 0 "a tuple of size 2")
  | arr [v] => do
    let _ ← first v
    .error (.length 1 "a tuple of size 2")
  | arr (v :: w :: rest) => do
    let a ← first v
    let b ← second w
    if rest = [] then .ok (a, b) else .error (.length (rest.length + 2) "fewer elements in array")
  | v => notA "a tuple of size 2" v

/-- The layout of a record that is decoded from a value. -/
abbrev ValueLayout (σ α : Type) := Layout σ (Decoder (σ → σ)) α

/-- A field that is decoded from a value and put into what is gathered. -/
def Field.decoded {σ α : Type} (name : String) (isThere : σ → Bool) (decode : Decoder α)
    (put : α → σ → σ) (mayLack : Bool := false) : Field σ (Decoder (σ → σ)) where
  name := name
  isThere := isThere
  read v := (decode v).map put
  mayLack := mayLack

/-- Gather the fields of an object. -/
def gatherNamed {σ α : Type} (l : ValueLayout σ α) :
    σ → List (String × Json) → Except Mismatch σ
  | got, [] => .ok got
  | got, (name, v) :: rest =>
    match l.field? name with
    | some field => do
      let put ← field.read v
      gatherNamed l (put got) rest
    | none =>
      if l.isClosed then .error (.unknownField name l.names) else gatherNamed l got rest

/-- Gather the items of an array, of which `count` are gathered: what is gathered
and the number of items left over. -/
def gatherListed {σ α : Type} (l : ValueLayout σ α) :
    Nat → σ → List (Field σ (Decoder (σ → σ))) → List Json → Except Mismatch (σ × Nat)
  | _, got, [], rest => .ok (got, rest.length)
  | count, got, field :: fields, [] =>
    if field.mayLack then gatherListed l (count + 1) got fields []
    else .error (.length count l.lengthTitle)
  | count, got, field :: fields, v :: rest => do
    let put ← field.read v
    gatherListed l (count + 1) (put got) fields rest

/-- Decode a record. -/
def asRecord {σ α : Type} (l : ValueLayout σ α) : Decoder α
  | obj fields => do
    let got ← gatherNamed l l.start fields
    l.finish got
  | arr items => do
    let (got, left) ← gatherListed l 0 l.start l.fields items
    let v ← l.finish got
    if left = 0 then .ok v else .error (.length items.length "fewer elements in array")
  | v => notA l.title v

end Json

end JobQueue
