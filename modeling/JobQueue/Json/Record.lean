import JobQueue.Json.Layout
import JobQueue.Json.Parser
import JobQueue.Json.Skip

/-!
# Reading records from a text

Readers of typed values: texts, truth values, numbers within a range, values
that may be `null`, lists, maps, records and variants.

A record is an object with its fields by name, in any order, or an array with
its fields in the order of their declaration.  Each field known by name may be
there once; other fields are skipped.  A mismatch of the record as a whole (a
missing or repeated field, a wrong length) is noticed where the record ends, so
its position is behind the closing bracket if that comes next.
-/

namespace JobQueue

namespace Json

/-! ## Mismatches in a text -/

/-- Read a scalar that is of the wrong kind, for the message about it. -/
def wrongKind (wanted : String) (b : UInt8) (s : Bytes) : Fault :=
  let found (f : Found) (rest : Bytes) : Fault := .here (.mismatch (.kind f wanted)) rest
  if b = 0x5B then found .sequence (b :: s)
  else if b = 0x7B then found .map (b :: s)
  else
    match scalar b s with
    | .error f => f
    | .ok (.null, rest) => found .null rest
    | .ok (.bool x, rest) => found (.bool x) rest
    | .ok (.int n, rest) => found (.int n) rest
    | .ok (.float x, rest) => found (.float x) rest
    | .ok (.str t, rest) => found (.str t) rest
    | .ok (.arr _, rest) => found .sequence rest
    | .ok (.obj _, rest) => found .map rest

/-- Go on with the first byte of a value. -/
def startValue {α : Type} (read : UInt8 → Reader α) : Reader α := fun s =>
  match skipGap s with
  | [] => .error (.ahead .endInValue [])
  | b :: t => read b t

/-! ## Plain values -/

/-- Read a text. -/
def textValue : Reader String := startValue fun b s =>
  if b = quoteByte then textTail s else .error (wrongKind "a string" b s)

/-- Read a truth value. -/
def boolValue : Reader Bool := startValue fun b s =>
  if b = 0x74 then (literal trueTail s).map fun s => (true, s)
  else if b = 0x66 then (literal falseTail s).map fun s => (false, s)
  else .error (wrongKind "a boolean" b s)

/-- Read a whole number from 0 to `most`. -/
def natValue (most : Nat) (wanted : String) : Reader Nat := startValue fun b s =>
  if b = 0x2D ∨ isDigit b then
    match number (b :: s) with
    | .error f => .error f
    | .ok (.int n, rest) =>
      if 0 ≤ n ∧ n ≤ most then .ok (n.toNat, rest)
      else .error (.here (.mismatch (.range n wanted)) rest)
    | .ok (.float x, rest) => .error (.here (.mismatch (.kind (.float x) wanted)) rest)
    | .ok (_, rest) => .error (.here (.mismatch (.kind .null wanted)) rest)
  else .error (wrongKind wanted b s)

/-- Read a number of 8 bits. -/
def byteValue : Reader UInt8 := fun s =>
  (natValue 255 "u8" s).map fun r => (UInt8.ofNat r.1, r.2)

/-- Read a number of 32 bits. -/
def wordValue : Reader UInt32 := fun s =>
  (natValue 4294967295 "u32" s).map fun r => (UInt32.ofNat r.1, r.2)

/-- Read a number of 64 bits. -/
def longValue (wanted : String) : Reader UInt64 := fun s =>
  (natValue 18446744073709551615 wanted s).map fun r => (UInt64.ofNat r.1, r.2)

/-- Read a value, or nothing from `null`. -/
def optionValue {α : Type} (read : Reader α) : Reader (Option α) := fun s =>
  match skipGap s with
  | b :: t =>
    if b = 0x6E then (literal nullTail t).map fun s => (none, s)
    else (read (b :: t)).map fun r => (some r.1, r.2)
  | [] => (read []).map fun r => (some r.1, r.2)

/-- Read nothing, from `null`. -/
def unitValue : Reader Unit := startValue fun b s =>
  if b = 0x6E then (literal nullTail s).map fun s => ((), s)
  else .error (wrongKind "unit" b s)

/-- Read an instant. -/
def instantValue : Reader Instant := startValue fun b s =>
  if b = quoteByte then
    match textTail s with
    | .error f => .error f
    | .ok (t, rest) =>
      match Instant.ofTimestamp t.toList with
      | .ok i => .ok (i, rest)
      | .error f => .error (.here (.mismatch (.time f)) rest)
  else .error (wrongKind "an RFC 3339 formatted date and time string" b s)

/-! ## Values with brackets

The first argument of these readers is the number of brackets that may still be
opened. -/

/-- Read a list. -/
def listValue {α : Type} (item : Nat → Reader α) (levels : Nat) : Reader (List α) :=
  startValue fun b s =>
    if b = 0x5B then
      match levels with
      | 0 => .error (.ahead .nesting (b :: s))
      | levels + 1 => list (item levels) s
    else .error (wrongKind "a sequence" b s)

/-- Read a map from texts, as its entries in the order of the text. -/
def mapValue {α : Type} (value : Nat → Reader α) (levels : Nat) : Reader (List (String × α)) :=
  startValue fun b s =>
    if b = 0x7B then
      match levels with
      | 0 => .error (.ahead .nesting (b :: s))
      | levels + 1 => object (value levels) s
    else .error (wrongKind "a map" b s)

/-- The layout of a record that is read from a text. -/
abbrev TextLayout (σ α : Type) := Layout σ (Nat → Reader (σ → σ)) α

/-- A field that is read from a text and put into what is gathered. -/
def Field.scanned {σ α : Type} (name : String) (isThere : σ → Bool) (scan : Nat → Reader α)
    (put : α → σ → σ) (mayLack : Bool := false) : Field σ (Nat → Reader (σ → σ)) where
  name := name
  isThere := isThere
  read levels s := (scan levels s).map fun r => (put r.1, r.2)
  mayLack := mayLack

/-- Read the fields of a record by name, up to the closing brace. -/
def namedFields {σ α : Type} (r : TextLayout σ α) (levels : Nat) : Nat → Bool → σ → Reader σ
  | 0, _, _, _ => .error (.here .endInObject [])
  | bound + 1, first, got, s =>
    match nextKey first s with
    | .error f => .error f
    | .ok (false, s) => .ok (got, s)
    | .ok (true, s) =>
      match textTail s with
      | .error f => .error f
      | .ok (name, s) =>
        match r.field? name with
        | some field =>
          if field.isThere got then .error (.loose (.duplicateField name) s)
          else
            match colon s with
            | .error f => .error f
            | .ok s =>
              match field.read levels s with
              | .error f => .error f
              | .ok (put, s) => namedFields r levels bound false (put got) s
        | none =>
          if r.isClosed then .error (.loose (.unknownField name r.names) s)
          else
            match colon s with
            | .error f => .error f
            | .ok s =>
              match skipValue s with
              | .error f => .error f
              | .ok s => namedFields r levels bound false got s

@[simp] theorem namedFields_end {σ α : Type} (r : TextLayout σ α) (levels n : Nat) (first : Bool)
    (got : σ) (s : Bytes) :
    namedFields r levels (n + 1) first got (0x7D :: s) = .ok (got, 0x7D :: s) := by
  simp [namedFields]

/-- After a comma, fields are gathered as at the start of an object. -/
theorem namedFields_comma {σ α : Type} (r : TextLayout σ α) (levels n : Nat) (got : σ) (s : Bytes) :
    namedFields r levels n false got (0x2C :: quoteByte :: s) =
      namedFields r levels n true got (quoteByte :: s) := by
  cases n with
  | zero => rfl
  | succ n => simp only [namedFields, nextKey_comma, nextKey_first]

/-- Read the fields of a record by position, of which `count` are passed. -/
def listedFields {σ α : Type} (r : TextLayout σ α) (levels : Nat) :
    List (Field σ (Nat → Reader (σ → σ))) → Nat → Bool → σ → Reader σ
  | [], _, _, got, s => .ok (got, s)
  | field :: rest, count, first, got, s =>
    match nextItem first s with
    | .error f => .error f
    | .ok (false, s) =>
      if field.mayLack then listedFields r levels rest (count + 1) first got s
      else .error (.loose (.length count r.lengthTitle) s)
    | .ok (true, s) =>
      match field.read levels s with
      | .error f => .error f
      | .ok (put, s) => listedFields r levels rest (count + 1) false (put got) s

/-- The record from what is gathered, with the text left. -/
def concluded {σ α : Type} (r : TextLayout σ α) (got : σ) (s : Bytes) :
    Except Fault (α × Bytes) :=
  match r.finish got with
  | .ok v => .ok (v, s)
  | .error m => .error (.loose m s)

/-- Read what a bracket holds, and its end; a loose fault is placed behind it. -/
def bracketed {α : Type} (read : Reader α) (close : Bytes → Bytes)
    (finish : Bytes → Except Fault Bytes) : Reader α := fun s =>
  match read s with
  | .error f => .error (f.place close)
  | .ok (v, s) => (finish s).map fun s => (v, s)

/-- Read a record. -/
def recordValue {σ α : Type} (r : TextLayout σ α) (levels : Nat) : Reader α := startValue fun b s =>
  if b = 0x5B then
    match levels with
    | 0 => .error (.ahead .nesting (b :: s))
    | levels + 1 =>
      bracketed (fun s =>
        match listedFields r levels r.fields 0 true r.start s with
        | .error f => .error f
        | .ok (got, s) => concluded r got s) closeList endList s
  else if b = 0x7B then
    match levels with
    | 0 => .error (.ahead .nesting (b :: s))
    | levels + 1 =>
      bracketed (fun s =>
        match namedFields r levels (s.length + 1) true r.start s with
        | .error f => .error f
        | .ok (got, s) => concluded r got s) closeObject endObject s
  else .error (wrongKind r.title b s)

/-! ## Variants -/

/-- What a variant of a type holds. -/
inductive Variant (α : Type) where
  /-- Nothing. -/
  | unit (v : α)
  /-- A record. -/
  | record (read : Nat → Reader α)

/-- Read the name of a variant after its opening quote, and find the variant. -/
def variantName {α : Type} (variants : List (String × Variant α)) : Reader (Variant α) := fun s =>
  match textTail s with
  | .error f => .error f
  | .ok (name, s) =>
    match variants.lookup name with
    | some v => .ok (v, s)
    | none => .error (.here (.mismatch (.unknownVariant name (variants.map Prod.fst))) s)

/-- Read the only key of an object after its opening brace, as the name of a
variant. -/
def variantKey {α : Type} (variants : List (String × Variant α)) : Reader (Variant α) := fun s =>
  match skipGap s with
  | [] => .error (.ahead .endInObject [])
  | b :: t =>
    if b = quoteByte then variantName variants t
    else .error (.ahead (if b = 0x7D then .wantedValue else .wantedKey) (b :: t))

/-- Read a value of a type with variants: the bare name of one that holds
nothing, or an object with the name as its only key. -/
def variantValue {α : Type} (variants : List (String × Variant α)) (levels : Nat) : Reader α :=
  startValue fun b s =>
    if b = 0x7B then
      match levels with
      | 0 => .error (.ahead .nesting (b :: s))
      | levels + 1 =>
        match variantKey variants s with
        | .error f => .error f
        | .ok (variant, s) =>
          match colon s with
          | .error f => .error f
          | .ok s =>
            let body : Except Fault (α × Bytes) := match variant with
              | .unit v => (unitValue s).map fun r => (v, r.2)
              | .record read => read levels s
            match body with
            | .error f => .error f
            | .ok (v, s) =>
              match skipGap s with
              | [] => .error (.here .endInObject [])
              | c :: t => if c = 0x7D then .ok (v, t) else .error (.here .wantedValue (c :: t))
    else if b = quoteByte then
      match variantName variants s with
      | .error f => .error f
      | .ok (.unit v, s) => .ok (v, s)
      | .ok (.record _, s) => .error (.loose (.kind .unitVariant "struct variant") s)
    else .error (.ahead .wantedValue (b :: s))

end Json

end JobQueue
