import JobQueue.Number.Binary64
import JobQueue.Text.Named

/-!
# JSON values

A value keeps whole numbers apart from floating-point ones, and the fields of an
object in a list.  A value that was read, or that a job was turned into, has the
fields of each object in ascending order of their names, without repetition;
`insertNamed` keeps that order and lets the last field of a name win.
`Json.sorted` brings a value with fields in any order into that form.
-/

namespace JobQueue

/-- A JSON value. -/
inductive Json where
  /-- The literal `null`. -/
  | null
  /-- A truth value. -/
  | bool (b : Bool)
  /-- A whole number. -/
  | int (n : Int)
  /-- A floating-point number. -/
  | float (x : Binary64)
  /-- A text. -/
  | str (s : String)
  /-- An array. -/
  | arr (items : List Json)
  /-- An object, as its fields. -/
  | obj (fields : List (String × Json))

namespace Json

instance : Inhabited Json := ⟨null⟩

mutual

/-- The value with the fields of every object in ascending order. -/
def sorted : Json → Json
  | arr items => arr (sortedItems items)
  | obj fields => obj (sortNamed (sortedFields fields))
  | v => v

/-- The items of an array, each with its fields in order. -/
def sortedItems : List Json → List Json
  | [] => []
  | v :: rest => sorted v :: sortedItems rest

/-- The fields of an object, the value of each with its fields in order. -/
def sortedFields : List (String × Json) → List (String × Json)
  | [] => []
  | (n, v) :: rest => (n, sorted v) :: sortedFields rest

end

/-- The value of a field of an object. -/
def field? (v : Json) (name : String) : Option Json :=
  match v with
  | obj fields => (fields.find? fun f => f.1 = name).map Prod.snd
  | _ => none

end Json

end JobQueue
