import JobQueue.Json.Value
import JobQueue.Number.Shortest
import JobQueue.Text.Bytes

/-!
# Writing JSON

The compact text of a value: no blanks, object fields in the order of the value.
In a text, quotes and backslashes get a backslash in front, five control
characters have letters, the other ones below U+0020 are spelled `\u00xx` in
small letters, and everything else is written as it is.
-/

namespace JobQueue

namespace Json

/-- The double quote. -/
abbrev quoteByte : UInt8 := 0x22

/-- The backslash. -/
abbrev backslashByte : UInt8 := 0x5C

/-- The small hexadecimal digit of a number below 16. -/
def hexByte (n : Nat) : UInt8 := UInt8.ofNat (if n < 10 then 0x30 + n else 0x57 + n)

/-- One byte of a text, escaped where it has to be. -/
def escapedByte (b : UInt8) : Bytes :=
  if b = quoteByte then [backslashByte, quoteByte]
  else if b = backslashByte then [backslashByte, backslashByte]
  else if 0x20 ≤ b then [b]
  else if b = 0x08 then [backslashByte, 0x62]
  else if b = 0x0C then [backslashByte, 0x66]
  else if b = 0x0A then [backslashByte, 0x6E]
  else if b = 0x0D then [backslashByte, 0x72]
  else if b = 0x09 then [backslashByte, 0x74]
  else [backslashByte, 0x75, 0x30, 0x30, hexByte (b.toNat / 16), hexByte (b.toNat % 16)]

/-- The bytes of a text between quotes. -/
def textBytes (s : String) : Bytes :=
  quoteByte :: (Bytes.ofText s).flatMap escapedByte ++ [quoteByte]

/-- The bytes of ASCII characters. -/
def asciiBytes (s : List Char) : Bytes := s.map fun c => UInt8.ofNat c.toNat

/-- The decimal digits of a whole number, after a minus sign where it is negative. -/
def intBytes (n : Int) : Bytes :=
  let ds := asciiBytes (Nat.toDigits 10 n.natAbs)
  if n < 0 then 0x2D :: ds else ds

mutual

/-- The compact text of a value. -/
def bytes : Json → Bytes
  | null => asciiBytes ['n', 'u', 'l', 'l']
  | bool true => asciiBytes ['t', 'r', 'u', 'e']
  | bool false => asciiBytes ['f', 'a', 'l', 's', 'e']
  | int n => intBytes n
  | float x => asciiBytes x.text
  | str s => textBytes s
  | arr items => 0x5B :: itemBytes items ++ [0x5D]
  | obj fields => 0x7B :: fieldBytes fields ++ [0x7D]

/-- The items of an array with commas between them. -/
def itemBytes : List Json → Bytes
  | [] => []
  | [v] => bytes v
  | v :: w :: rest => bytes v ++ 0x2C :: itemBytes (w :: rest)

/-- The fields of an object with commas between them. -/
def fieldBytes : List (String × Json) → Bytes
  | [] => []
  | [(n, v)] => textBytes n ++ 0x3A :: bytes v
  | (n, v) :: f :: rest => textBytes n ++ 0x3A :: bytes v ++ 0x2C :: fieldBytes (f :: rest)

end

theorem bytes_arr (items : List Json) :
    (arr items).bytes = 0x5B :: itemBytes items ++ [0x5D] := rfl

theorem bytes_obj (fields : List (String × Json)) :
    (obj fields).bytes = 0x7B :: fieldBytes fields ++ [0x7D] := rfl

theorem itemBytes_singleton (v : Json) : itemBytes [v] = v.bytes := rfl

theorem itemBytes_cons_cons (v w : Json) (rest : List Json) :
    itemBytes (v :: w :: rest) = v.bytes ++ 0x2C :: itemBytes (w :: rest) := rfl

theorem fieldBytes_singleton (f : String × Json) :
    fieldBytes [f] = textBytes f.1 ++ 0x3A :: f.2.bytes := rfl

theorem fieldBytes_cons_cons (f g : String × Json) (rest : List (String × Json)) :
    fieldBytes (f :: g :: rest) =
      textBytes f.1 ++ 0x3A :: f.2.bytes ++ 0x2C :: fieldBytes (g :: rest) := rfl

/-- The compact text of a value as a text. -/
def text (v : Json) : String := (Bytes.text? v.bytes).getD ""

end Json

end JobQueue
