import JobQueue.Json.Numeral

/-!
# Reading values

`Json.value` reads one value of any shape.  Its first argument is the number of
brackets that may still be opened inside each other, and the recursion is on it;
the loops over items and fields are bounded by the text that is left.
`Json.parse` reads a whole text as one value.
-/

namespace JobQueue

namespace Json

/-- How deep brackets may nest. -/
abbrev nestingLimit : Nat := 127

/-- Read items up to the closing bracket, which is left in place. -/
def items {α : Type} (item : Reader α) : Nat → Bool → Reader (List α)
  | 0, _, _ => .error (.here .endInList [])
  | bound + 1, first, s =>
    match nextItem first s with
    | .error f => .error f
    | .ok (false, s) => .ok ([], s)
    | .ok (true, s) =>
      match item s with
      | .error f => .error f
      | .ok (v, s) =>
        match items item bound false s with
        | .error f => .error f
        | .ok (rest, s) => .ok (v :: rest, s)

@[simp] theorem items_end {α : Type} (item : Reader α) (n : Nat) (first : Bool) (s : Bytes) :
    items item (n + 1) first (0x5D :: s) = .ok ([], 0x5D :: s) := by
  simp [items]

/-- Read fields up to the closing brace, which is left in place. -/
def fields {α : Type} (value : Reader α) : Nat → Bool → Reader (List (String × α))
  | 0, _, _ => .error (.here .endInObject [])
  | bound + 1, first, s =>
    match nextKey first s with
    | .error f => .error f
    | .ok (false, s) => .ok ([], s)
    | .ok (true, s) =>
      match textTail s with
      | .error f => .error f
      | .ok (name, s) =>
        match colon s with
        | .error f => .error f
        | .ok s =>
          match value s with
          | .error f => .error f
          | .ok (v, s) =>
            match fields value bound false s with
            | .error f => .error f
            | .ok (rest, s) => .ok ((name, v) :: rest, s)

@[simp] theorem fields_end {α : Type} (value : Reader α) (n : Nat) (first : Bool) (s : Bytes) :
    fields value (n + 1) first (0x7D :: s) = .ok ([], 0x7D :: s) := by
  simp [fields]

/-- After a comma, fields are read as at the start of an object. -/
theorem fields_comma {α : Type} (value : Reader α) (n : Nat) (s : Bytes) :
    fields value n false (0x2C :: quoteByte :: s) = fields value n true (quoteByte :: s) := by
  cases n with
  | zero => rfl
  | succ n => simp only [fields, nextKey_comma, nextKey_first]

/-- Read the items of an array after its opening bracket, and its end. -/
def list {α : Type} (item : Reader α) : Reader (List α) := fun s =>
  match items item (s.length + 1) true s with
  | .error f => .error (f.place closeList)
  | .ok (vs, s) =>
    match endList s with
    | .error f => .error f
    | .ok s => .ok (vs, s)

/-- Read the fields of an object after its opening brace, and its end. -/
def object {α : Type} (value : Reader α) : Reader (List (String × α)) := fun s =>
  match fields value (s.length + 1) true s with
  | .error f => .error (f.place closeObject)
  | .ok (fs, s) =>
    match endObject s with
    | .error f => .error f
    | .ok s => .ok (fs, s)

/-- Read a value without brackets, of which `b` is the first byte. -/
def scalar (b : UInt8) (s : Bytes) : Except Fault (Json × Bytes) :=
  if b = 0x6E then (literal nullTail s).map fun s => (.null, s)
  else if b = 0x74 then (literal trueTail s).map fun s => (.bool true, s)
  else if b = 0x66 then (literal falseTail s).map fun s => (.bool false, s)
  else if b = 0x2D ∨ isDigit b then number (b :: s)
  else if b = quoteByte then (textTail s).map fun r => (.str r.1, r.2)
  else .error (.ahead .wantedValue (b :: s))

/-- Read a value in which at most `levels` brackets nest. -/
def value : Nat → Reader Json
  | 0, s =>
    match skipGap s with
    | [] => .error (.ahead .endInValue [])
    | b :: t =>
      if b = 0x5B ∨ b = 0x7B then .error (.ahead .nesting (b :: t)) else scalar b t
  | levels + 1, s =>
    match skipGap s with
    | [] => .error (.ahead .endInValue [])
    | b :: t =>
      if b = 0x5B then (list (value levels) t).map fun r => (.arr r.1, r.2)
      else if b = 0x7B then (object (value levels) t).map fun r => (.obj (sortNamed r.1), r.2)
      else scalar b t

/-- Read a whole text with a reader. -/
def whole {α : Type} (reader : Reader α) (s : Bytes) : Except Fault α :=
  match reader s with
  | .error f => .error f
  | .ok (v, s) => (endText s).map fun _ => v

/-- Read a whole text as one value. -/
def parse (s : Bytes) : Except Fault Json := whole (value nestingLimit) s

end Json

end JobQueue
