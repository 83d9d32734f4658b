import JobQueue.Json.Numeral

/-!
# Skipping values

The value of a key that a record does not know is skipped.  Skipping checks the
grammar and nothing else: surrogates need no partners, texts need not be UTF-8,
numbers may be of any size, and brackets may nest to any depth.  After a comma
it wants a value or a key and does not tell a closing bracket apart.

The brackets that are open are kept in a list, innermost first.
-/

namespace JobQueue

namespace Json

/-- A bracket that is open. -/
inductive Bracket where
  /-- A square bracket, of an array. -/
  | square
  /-- A curly bracket, of an object. -/
  | curly
deriving DecidableEq, Repr

/-- The fault of a text that ends inside a bracket. -/
def Bracket.endCause : Bracket → Cause
  | .square => .endInList
  | .curly => .endInObject

/-- The fault of a bracket in which neither a comma nor the end follows. -/
def Bracket.commaCause : Bracket → Cause
  | .square => .wantedCommaOrBracket
  | .curly => .wantedCommaOrBrace

/-- The byte that closes a bracket. -/
def Bracket.closing : Bracket → UInt8
  | .square => 0x5D
  | .curly => 0x7D

/-- Skip an escape after its backslash. -/
def skipEscape : Bytes → Except Fault Bytes
  | [] => .error (.here .endInText [])
  | b :: s =>
    if b = quoteByte ∨ b = backslashByte ∨ b = 0x2F ∨ b = 0x62 ∨ b = 0x66 ∨ b = 0x6E ∨ b = 0x72 ∨
        b = 0x74 then .ok s
    else if b = 0x75 then (hexFour s).map Prod.snd
    else .error (.here .invalidEscape s)

/-- Skip a text after its opening quote. -/
def skipText : Nat → Bytes → Except Fault Bytes
  | 0, _ => .error (.here .endInText [])
  | _ + 1, [] => .error (.here .endInText [])
  | bound + 1, b :: s =>
    if b = quoteByte then .ok s
    else if b = backslashByte then
      match skipEscape s with
      | .error f => .error f
      | .ok s => skipText bound s
    else if b < 0x20 then .error (.here .controlCharacter (b :: s))
    else skipText bound s

/-- Skip an exponent after its letter. -/
def skipExponent (s : Bytes) : Except Fault Bytes :=
  let s := match s with
    | b :: t => if b = 0x2B ∨ b = 0x2D then t else b :: t
    | [] => []
  match s with
  | [] => .error (.here .invalidNumber [])
  | b :: t => if isDigit b then .ok (t.dropWhile isDigit) else .error (.here .invalidNumber t)

/-- Skip what follows the integer part of a number. -/
def skipAfterInteger : Bytes → Except Fault Bytes
  | [] => .ok []
  | b :: s =>
    if b = 0x2E then
      if startsWithDigit s then
        match s.dropWhile isDigit with
        | c :: t => if c = 0x65 ∨ c = 0x45 then skipExponent t else .ok (c :: t)
        | [] => .ok []
      else .error (.ahead .invalidNumber s)
    else if b = 0x65 ∨ b = 0x45 then skipExponent s
    else .ok (b :: s)

/-- Skip a number after its sign. -/
def skipUnsigned : Bytes → Except Fault Bytes
  | [] => .error (.here .invalidNumber [])
  | b :: s =>
    if b = 0x30 then
      if startsWithDigit s then .error (.ahead .invalidNumber s) else skipAfterInteger s
    else if isDigit b then skipAfterInteger (s.dropWhile isDigit)
    else .error (.here .invalidNumber s)

/-- Skip a value without brackets, of which `b` is the first byte. -/
def skipScalar (b : UInt8) (s : Bytes) : Except Fault Bytes :=
  if b = 0x6E then literal nullTail s
  else if b = 0x74 then literal trueTail s
  else if b = 0x66 then literal falseTail s
  else if b = 0x2D then skipUnsigned s
  else if isDigit b then skipUnsigned (b :: s)
  else if b = quoteByte then skipText s.length s
  else .error (.ahead .wantedValue (b :: s))

/-- Skip a key with its colon. -/
def skipKey (s : Bytes) : Except Fault Bytes :=
  match skipGap s with
  | [] => .error (.ahead .endInObject [])
  | b :: t =>
    if b = quoteByte then
      match skipText t.length t with
      | .error f => .error f
      | .ok t => colon t
    else .error (.ahead .wantedKey (b :: t))

mutual

/-- Skip a value and all that is left of the open brackets. -/
def skipIn : Nat → List Bracket → Bytes → Except Fault Bytes
  | 0, _, _ => .error (.here .endInValue [])
  | bound + 1, opened, s =>
    match skipGap s with
    | [] => .error (.ahead .endInValue [])
    | b :: t =>
      if b = 0x5B then skipRest bound false (.square :: opened) t
      else if b = 0x7B then skipRest bound false (.curly :: opened) t
      else
        match skipScalar b t with
        | .error f => .error f
        | .ok t => skipRest bound true opened t

/-- Skip all that is left of the open brackets, after an item or at the start of
the innermost one. -/
def skipRest : Nat → Bool → List Bracket → Bytes → Except Fault Bytes
  | 0, _, _, _ => .error (.here .endInValue [])
  | _ + 1, _, [], s => .ok s
  | bound + 1, afterItem, bracket :: opened, s =>
    match skipGap s with
    | [] => .error (.ahead bracket.endCause [])
    | b :: t =>
      if b = bracket.closing then skipRest bound true opened t
      else if afterItem ∧ b ≠ 0x2C then .error (.ahead bracket.commaCause (b :: t))
      else
        let s := if afterItem then t else b :: t
        match bracket with
        | .square => skipIn bound (bracket :: opened) s
        | .curly =>
          match skipKey s with
          | .error f => .error f
          | .ok s => skipIn bound (bracket :: opened) s

end

/-- Skip a value. -/
def skipValue (s : Bytes) : Except Fault Bytes := skipIn (2 * s.length + 2) [] s

end Json

end JobQueue
