import JobQueue.Json.Fault
import JobQueue.Json.Printer

/-!
# Reading the pieces of a JSON text

A reader takes the text that is left and gives what it read with the text left
after it, or the fault that ends the reading.  Here are the readers of blanks,
literals and texts, and of what stands between the items of an array and the
fields of an object.

The loop over the bytes of a text is bounded by their number: each turn takes at
least one byte, so the bound is used up only where no byte is left.
-/

namespace JobQueue

/-- A reader of values of type `α`. -/
abbrev Reader (α : Type) := Bytes → Except Fault (α × Bytes)

namespace Json

/-! ## Blanks and literals -/

/-- Whether a byte is a blank between tokens. -/
def isGap (b : UInt8) : Bool := b = 0x20 || b = 0x0A || b = 0x0D || b = 0x09

/-- The text without the blanks at its start. -/
def skipGap (s : Bytes) : Bytes := s.dropWhile isGap

theorem skipGap_cons {b : UInt8} {s : Bytes} (h : isGap b = false) : skipGap (b :: s) = b :: s := by
  simp [skipGap, h]

/-- Read the rest of a literal. -/
def literal : Bytes → Bytes → Except Fault Bytes
  | [], s => .ok s
  | _ :: _, [] => .error (.here .endInValue [])
  | w :: word, b :: s => if b = w then literal word s else .error (.here .wantedLiteral s)

/-- The literal `null` after its first byte. -/
abbrev nullTail : Bytes := [0x75, 0x6C, 0x6C]

/-- The literal `true` after its first byte. -/
abbrev trueTail : Bytes := [0x72, 0x75, 0x65]

/-- The literal `false` after its first byte. -/
abbrev falseTail : Bytes := [0x61, 0x6C, 0x73, 0x65]

/-! ## Texts -/

/-- The value of a hexadecimal digit. -/
def hexValue? (b : UInt8) : Option Nat :=
  let n := b.toNat
  if 0x30 ≤ n ∧ n ≤ 0x39 then some (n - 0x30)
  else if 0x41 ≤ n ∧ n ≤ 0x46 then some (n - 0x37)
  else if 0x61 ≤ n ∧ n ≤ 0x66 then some (n - 0x57)
  else none

/-- Read four hexadecimal digits. -/
def hexFour : Reader Nat
  | a :: b :: c :: d :: s =>
    match hexValue? a, hexValue? b, hexValue? c, hexValue? d with
    | some a, some b, some c, some d => .ok (((a * 16 + b) * 16 + c) * 16 + d, s)
    | _, _, _, _ => .error (.here .invalidEscape s)
  | _ => .error (.here .endInText [])

/-- The UTF-8 bytes of a code point. -/
def codePointBytes (n : Nat) : Bytes := String.utf8EncodeChar (Char.ofNat n)

/-- Read the second half of a pair of surrogates, of which `high` is the first. -/
def lowSurrogate (high : Nat) : Reader Bytes
  | [] => .error (.here .endInText [])
  | b :: s =>
    if b ≠ backslashByte then .error (.here .unfinishedEscape s)
    else
      match s with
      | [] => .error (.here .endInText [])
      | u :: s =>
        if u ≠ 0x75 then .error (.here .unfinishedEscape s)
        else
          match hexFour s with
          | .error f => .error f
          | .ok (low, s) =>
            if 0xDC00 ≤ low ∧ low ≤ 0xDFFF then
              .ok (codePointBytes ((high - 0xD800) * 1024 + (low - 0xDC00) + 0x10000), s)
            else .error (.here .loneSurrogate s)

/-- Read an escape after its backslash, as the bytes that it stands for. -/
def escape : Reader Bytes
  | [] => .error (.here .endInText [])
  | b :: s =>
    if b = quoteByte ∨ b = backslashByte ∨ b = 0x2F then .ok ([b], s)
    else if b = 0x62 then .ok ([0x08], s)
    else if b = 0x66 then .ok ([0x0C], s)
    else if b = 0x6E then .ok ([0x0A], s)
    else if b = 0x72 then .ok ([0x0D], s)
    else if b = 0x74 then .ok ([0x09], s)
    else if b = 0x75 then
      match hexFour s with
      | .error f => .error f
      | .ok (n, s) =>
        if 0xDC00 ≤ n ∧ n ≤ 0xDFFF then .error (.here .loneSurrogate s)
        else if 0xD800 ≤ n ∧ n ≤ 0xDBFF then lowSurrogate n s
        else .ok (codePointBytes n, s)
    else .error (.here .invalidEscape s)

/-- Read the bytes of a text up to and with its closing quote. -/
def textBody : Nat → Reader Bytes
  | 0, _ => .error (.here .endInText [])
  | _ + 1, [] => .error (.here .endInText [])
  | bound + 1, b :: s =>
    if b = quoteByte then .ok ([], s)
    else if b = backslashByte then
      match escape s with
      | .error f => .error f
      | .ok (piece, s) =>
        match textBody bound s with
        | .error f => .error f
        | .ok (more, s) => .ok (piece ++ more, s)
    else if b < 0x20 then .error (.here .controlCharacter s)
    else
      match textBody bound s with
      | .error f => .error f
      | .ok (more, s) => .ok (b :: more, s)

/-- Read a text after its opening quote.  A text that is not UTF-8 is a fault, as
far before its end as its bytes from the first sequence on that is not are many,
an escape being as long as what it stands for. -/
def textTail : Reader String := fun s =>
  match textBody s.length s with
  | .error f => .error f
  | .ok (b, rest) =>
    match Bytes.text? b with
    | some t => .ok (t, rest)
    | none => .error (.placed .invalidText (rest.length + (b.length - Bytes.textLength b)))

/-! ## Between items and fields -/

/-- Whether an array has a further item: the text at the item, or none at the
closing bracket. -/
def nextItem (first : Bool) : Bytes → Except Fault (Bool × Bytes) := fun s =>
  match skipGap s with
  | [] => .error (.ahead .endInList [])
  | b :: t =>
    if b = 0x5D then .ok (false, b :: t)
    else if first then .ok (true, b :: t)
    else if b = 0x2C then
      match skipGap t with
      | [] => .error (.ahead .endInValue [])
      | c :: u => if c = 0x5D then .error (.ahead .trailingComma (c :: u)) else .ok (true, c :: u)
    else .error (.ahead .wantedCommaOrBracket (b :: t))

@[simp] theorem nextItem_end (first : Bool) (s : Bytes) :
    nextItem first (0x5D :: s) = .ok (false, 0x5D :: s) := by
  have bracket : skipGap (0x5D :: s) = 0x5D :: s := skipGap_cons (by decide)
  simp [nextItem, bracket]

/-- Whether an object has a further field: the text after the opening quote of
its key, or none at the closing brace. -/
def nextKey (first : Bool) : Bytes → Except Fault (Bool × Bytes) := fun s =>
  match skipGap s with
  | [] => .error (.ahead .endInObject [])
  | b :: t =>
    if b = 0x7D then .ok (false, b :: t)
    else if first then
      if b = quoteByte then .ok (true, t) else .error (.ahead .wantedKey (b :: t))
    else if b = 0x2C then
      match skipGap t with
      | [] => .error (.ahead .endInValue [])
      | c :: u =>
        if c = quoteByte then .ok (true, u)
        else .error (.ahead (if c = 0x7D then .trailingComma else .wantedKey) (c :: u))
    else .error (.ahead .wantedCommaOrBrace (b :: t))

@[simp] theorem nextKey_first (s : Bytes) : nextKey true (quoteByte :: s) = .ok (true, s) := by
  have quote : skipGap (quoteByte :: s) = quoteByte :: s := skipGap_cons (by decide)
  simp [nextKey, quoteByte, quote]

@[simp] theorem nextKey_comma (s : Bytes) :
    nextKey false (0x2C :: quoteByte :: s) = .ok (true, s) := by
  have comma : skipGap (0x2C :: quoteByte :: s) = 0x2C :: quoteByte :: s :=
    skipGap_cons (by decide)
  have quote : skipGap (quoteByte :: s) = quoteByte :: s := skipGap_cons (by decide)
  simp [nextKey, comma, quote]

@[simp] theorem nextKey_end (first : Bool) (s : Bytes) :
    nextKey first (0x7D :: s) = .ok (false, 0x7D :: s) := by
  have brace : skipGap (0x7D :: s) = 0x7D :: s := skipGap_cons (by decide)
  simp [nextKey, brace]

/-- Read the colon after a key. -/
def colon (s : Bytes) : Except Fault Bytes :=
  match skipGap s with
  | [] => .error (.ahead .endInObject [])
  | b :: t => if b = 0x3A then .ok t else .error (.ahead .wantedColon (b :: t))

@[simp] theorem colon_written (s : Bytes) : colon (0x3A :: s) = .ok s := by
  have gap : skipGap (0x3A :: s) = 0x3A :: s := skipGap_cons (by decide)
  simp [colon, gap]

/-- What a failed array skips before its fault is placed: its closing bracket, or
a comma with the blanks after it. -/
def closeList (s : Bytes) : Bytes :=
  match skipGap s with
  | [] => []
  | b :: t => if b = 0x5D then t else if b = 0x2C then skipGap t else b :: t

/-- What a failed object skips before its fault is placed: its closing brace. -/
def closeObject (s : Bytes) : Bytes :=
  match skipGap s with
  | [] => []
  | b :: t => if b = 0x7D then t else b :: t

/-- Read the end of an array. -/
def endList (s : Bytes) : Except Fault Bytes :=
  match skipGap s with
  | [] => .error (.ahead .endInList [])
  | b :: t =>
    if b = 0x5D then .ok t
    else if b = 0x2C then
      match skipGap t with
      | [] => .error (.ahead .trailingCharacters [])
      | c :: u =>
        .error (.ahead (if c = 0x5D then .trailingComma else .trailingCharacters) (c :: u))
    else .error (.ahead .trailingCharacters (b :: t))

@[simp] theorem endList_written (s : Bytes) : endList (0x5D :: s) = .ok s := by
  have bracket : skipGap (0x5D :: s) = 0x5D :: s := skipGap_cons (by decide)
  simp [endList, bracket]

/-- Read the end of an object. -/
def endObject (s : Bytes) : Except Fault Bytes :=
  match skipGap s with
  | [] => .error (.ahead .endInObject [])
  | b :: t =>
    if b = 0x7D then .ok t
    else .error (.ahead (if b = 0x2C then .trailingComma else .trailingCharacters) (b :: t))

@[simp] theorem endObject_written (s : Bytes) : endObject (0x7D :: s) = .ok s := by
  have brace : skipGap (0x7D :: s) = 0x7D :: s := skipGap_cons (by decide)
  simp [endObject, brace]

/-- Read the end of the text. -/
def endText (s : Bytes) : Except Fault Unit :=
  match skipGap s with
  | [] => .ok ()
  | b :: t => .error (.ahead .trailingCharacters (b :: t))

end Json

end JobQueue
