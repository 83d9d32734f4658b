import JobQueue.Number.Shortest
import JobQueue.Text.Bytes
import JobQueue.Text.Quoted
import JobQueue.Time.Timestamp

/-!
# What goes wrong in reading

A *mismatch* is a well-formed value that is not of the wanted shape.  A *fault*
is what ends the reading of a text: a violation of the JSON grammar or a
mismatch.

A placed fault names its position by the bytes after it, so that reading needs
no count of the bytes before.  A loose fault is a mismatch of a record as a
whole, still without a position; it carries the text at which it was noticed,
and the record that it ends in places it (`Fault.place`).
-/

namespace JobQueue

/-! ## Mismatches -/

/-- What is there in place of the wanted kind of value. -/
inductive Found where
  /-- The literal `null`. -/
  | null
  /-- A truth value. -/
  | bool (b : Bool)
  /-- A whole number. -/
  | int (n : Int)
  /-- A floating-point number. -/
  | float (x : Binary64)
  /-- A text. -/
  | str (s : String)
  /-- An array. -/
  | sequence
  /-- An object. -/
  | map
  /-- The bare name of a variant. -/
  | unitVariant
deriving DecidableEq, Repr

/-- How a message shows what is there. -/
def Found.message : Found → String
  | .null => "null"
  | .bool b => s!"boolean `{b}`"
  | .int n => s!"integer `{n}`"
  | .float x => s!"floating point `{String.ofList x.text}`"
  | .str s => s!"string {quoted s}"
  | .sequence => "sequence"
  | .map => "map"
  | .unitVariant => "unit variant"

/-- Why a well-formed value is not of the wanted shape. -/
inductive Mismatch where
  /-- It is of another kind. -/
  | kind (found : Found) (wanted : String)
  /-- It is a number outside the wanted range. -/
  | range (n : Int) (wanted : String)
  /-- It is an array of another length. -/
  | length (n : Nat) (wanted : String)
  /-- A field is missing. -/
  | missingField (name : String)
  /-- A field is there twice. -/
  | duplicateField (name : String)
  /-- A field is none of the fields of its record. -/
  | unknownField (name : String) (known : List String)
  /-- A variant is none of the variants of its type. -/
  | unknownVariant (name : String) (known : List String)
  /-- A text is no timestamp. -/
  | time (fault : TimeFault)
  /-- The parts of a span are too long together. -/
  | spanOverflow
deriving DecidableEq, Repr

/-- Names, each in backquotes, as a message lists the ones that are known. -/
def knownNames : List String → String
  | [a] => s!"`{a}`"
  | [a, b] => s!"`{a}` or `{b}`"
  | names => "one of " ++ String.intercalate ", " (names.map fun n => s!"`{n}`")

/-- The wording of a mismatch. -/
def Mismatch.message : Mismatch → String
  | .kind found wanted => s!"invalid type: {found.message}, expected {wanted}"
  | .range n wanted => s!"invalid value: integer `{n}`, expected {wanted}"
  | .length n wanted => s!"invalid length {n}, expected {wanted}"
  | .missingField name => s!"missing field `{name}`"
  | .duplicateField name => s!"duplicate field `{name}`"
  | .unknownField name known => s!"unknown field `{name}`, expected {knownNames known}"
  | .unknownVariant name known => s!"unknown variant `{name}`, expected {knownNames known}"
  | .time fault => fault.message
  | .spanOverflow => "overflow deserializing Duration"

/-! ## Faults -/

/-- Why a text is no JSON text of the wanted shape. -/
inductive Cause where
  /-- The text ends where a value is wanted, or in a number or a literal. -/
  | endInValue
  /-- The text ends in an array. -/
  | endInList
  /-- The text ends in an object. -/
  | endInObject
  /-- The text ends in a text. -/
  | endInText
  /-- No value starts with this byte. -/
  | wantedValue
  /-- A literal is misspelled. -/
  | wantedLiteral
  /-- A number is misspelled. -/
  | invalidNumber
  /-- A number is beyond the largest floating-point one. -/
  | numberOutOfRange
  /-- Neither a comma nor the end follows an item. -/
  | wantedCommaOrBracket
  /-- Neither a comma nor the end follows a field. -/
  | wantedCommaOrBrace
  /-- No colon follows a key. -/
  | wantedColon
  /-- A key does not start with a quote. -/
  | wantedKey
  /-- The end follows a comma. -/
  | trailingComma
  /-- The text goes on after the value. -/
  | trailingCharacters
  /-- A backslash is not followed by an escape. -/
  | invalidEscape
  /-- A surrogate stands alone. -/
  | loneSurrogate
  /-- A high surrogate is not followed by an escape. -/
  | unfinishedEscape
  /-- A text holds a control character. -/
  | controlCharacter
  /-- A text is not UTF-8. -/
  | invalidText
  /-- Brackets nest too deep. -/
  | nesting
  /-- The value is not of the wanted shape. -/
  | mismatch (m : Mismatch)
deriving DecidableEq, Repr

/-- The wording of a cause. -/
def Cause.message : Cause → String
  | .endInValue => "EOF while parsing a value"
  | .endInList => "EOF while parsing a list"
  | .endInObject => "EOF while parsing an object"
  | .endInText => "EOF while parsing a string"
  | .wantedValue => "expected value"
  | .wantedLiteral => "expected ident"
  | .invalidNumber => "invalid number"
  | .numberOutOfRange => "number out of range"
  | .wantedCommaOrBracket => "expected `,` or `]`"
  | .wantedCommaOrBrace => "expected `,` or `\x7d`"
  | .wantedColon => "expected `:`"
  | .wantedKey => "key must be a string"
  | .trailingComma => "trailing comma"
  | .trailingCharacters => "trailing characters"
  | .invalidEscape => "invalid escape"
  | .loneSurrogate => "lone leading surrogate in hex escape"
  | .unfinishedEscape => "unexpected end of hex escape"
  | .controlCharacter => "control character (\\u0000-\\u001F) found while parsing a string"
  | .invalidText => "invalid unicode code point"
  | .nesting => "recursion limit exceeded"
  | .mismatch m => m.message

/-- What ends the reading of a text. -/
inductive Fault where
  /-- A fault with `left` bytes of the text after its position. -/
  | placed (cause : Cause) (left : Nat)
  /-- A mismatch without a position, noticed with `rest` still to read. -/
  | loose (mismatch : Mismatch) (rest : Bytes)
deriving DecidableEq, Repr

namespace Fault

/-- A fault placed after the bytes read so far. -/
def here (cause : Cause) (rest : Bytes) : Fault := placed cause rest.length

/-- A fault placed after the next byte, or at the end where there is none. -/
def ahead (cause : Cause) (rest : Bytes) : Fault := placed cause (rest.length - 1)

/-- Place a loose fault after the bytes that `close` skips. -/
def place (close : Bytes → Bytes) : Fault → Fault
  | loose m rest => here (.mismatch m) (close rest)
  | f => f

/-- The line of a position, counted from 1, and the bytes before it on that line. -/
def lineAndColumn (before : Bytes) : Nat × Nat :=
  (1 + before.count 0x0A, (before.reverse.takeWhile (· ≠ 0x0A)).length)

/-- The wording of a fault in reading a text. -/
def message (input : Bytes) : Fault → String
  | placed cause left =>
    let (line, column) := lineAndColumn (input.take (input.length - left))
    s!"{cause.message} at line {line} column {column}"
  | loose m _ => m.message

end Fault

end JobQueue
