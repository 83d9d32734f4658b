import JobQueue.Text.Unwritten

/-!
# Quoted text

A text in double quotes, as messages show a text that was found where something
else was wanted.  Quotes and backslashes get a backslash in front, four control
characters have letters, and every other character that does not show is spelled
by number.
-/

namespace JobQueue

/-- The digits of a number in base 16, in small letters. -/
def hexText (n : Nat) : String := String.ofList (Nat.toDigits 16 n)

/-- One character of a quoted text. -/
def quotedChar (c : Char) : String :=
  match c with
  | '"' => "\\\""
  | '\\' => "\\\\"
  | '\n' => "\\n"
  | '\r' => "\\r"
  | '\t' => "\\t"
  | '\x00' => "\\0"
  | _ => if isUnwritten c then "\\u\x7b" ++ hexText c.toNat ++ "\x7d" else c.toString

/-- A text in double quotes. -/
def quoted (s : String) : String :=
  "\"" ++ String.join (s.toList.map quotedChar) ++ "\""

end JobQueue
