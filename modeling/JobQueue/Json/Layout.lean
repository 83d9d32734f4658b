import JobQueue.Json.Fault

/-!
# Layouts of records

A layout says which fields a record has, in the order of their declaration, and
how the record comes from them.  What is gathered while the fields come in is a
value of a type `σ` of the record's own; `ρ` is what reads one field, from a
text or from a value.
-/

namespace JobQueue

namespace Json

/-- A field of a record. -/
structure Field (σ ρ : Type) where
  /-- The name. -/
  name : String
  /-- Whether the field is gathered already. -/
  isThere : σ → Bool
  /-- What reads the field. -/
  read : ρ
  /-- Whether an array may end before the field. -/
  mayLack : Bool := false

/-- The layout of a record of type `α`. -/
structure Layout (σ ρ α : Type) where
  /-- What messages call the record. -/
  title : String
  /-- What messages call it where its length is wrong. -/
  lengthTitle : String := title
  /-- The fields in the order of their declaration. -/
  fields : List (Field σ ρ)
  /-- What is gathered before the first field. -/
  start : σ
  /-- The record from what is gathered. -/
  finish : σ → Except Mismatch α
  /-- Whether a field of another name is a mismatch. -/
  isClosed : Bool := false

namespace Layout

/-- The field of a name. -/
def field? {σ ρ α : Type} (l : Layout σ ρ α) (name : String) : Option (Field σ ρ) :=
  l.fields.find? fun f => f.name = name

/-- The names of the fields. -/
def names {σ ρ α : Type} (l : Layout σ ρ α) : List String := l.fields.map Field.name

end Layout

/-- A gathered field, or the mismatch that it is missing. -/
def required {α : Type} (name : String) : Option α → Except Mismatch α
  | some v => .ok v
  | none => .error (.missingField name)

end Json

end JobQueue
