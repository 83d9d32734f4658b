import JobQueue.Time.Instant
import JobQueue.Time.Calendar
import JobQueue.Text.Blank
import JobQueue.Text.Decimal
import JobQueue.Number.Power

/-!
# Timestamps

The text of an instant: date, time of day and `Z`, as RFC 3339 lays it down, for
instance `2026-01-01T00:00:00.500Z`.

* `Instant.timestamp` writes 0, 3, 6 or 9 decimals of a second, as few as keep
  the instant, and years outside 0 to 9999 with a sign.
* `Instant.ofTimestamp` reads more than is written: blanks before a number,
  before a dash or a colon and before the zone, a blank or a small letter for
  `T`, any zone, and more decimals than nine (cut off).

The sixtieth second of a minute is a leap second, in every minute.
-/

namespace JobQueue

/-! ## Writing -/

/-- A year, with a sign and at least four digits outside the four-digit years. -/
def yearText (y : Int) : List Char :=
  let n := y.natAbs
  let width := if n < 10000 then 4 else if n < 100000 then 5 else 6
  if 0 ≤ y ∧ y < 10000 then digits 4 n
  else (if y < 0 then '-' else '+') :: digits width n

/-- The decimals of a second: none, three, six or nine. -/
def decimalsText (nanos : Nat) : List Char :=
  if nanos = 0 then []
  else if nanos % 1000000 = 0 then '.' :: digits 3 (nanos / 1000000)
  else if nanos % 1000 = 0 then '.' :: digits 6 (nanos / 1000)
  else '.' :: digits 9 nanos

/-- The text of an instant. -/
def Instant.timestamp (t : Instant) : List Char :=
  let date := Date.ofDay (t.seconds / 86400)
  let second := (t.seconds % 86400).toNat
  let leap := if t.isLeap then 1 else 0
  yearText date.year ++ '-' :: digits 2 date.month ++ '-' :: digits 2 date.day ++
    'T' :: digits 2 (second / 3600) ++ ':' :: digits 2 (second / 60 % 60) ++
    ':' :: digits 2 (second % 60 + leap) ++ decimalsText t.fraction ++ ['Z']

/-! ## Reading -/

/-- Why a text is no timestamp. -/
inductive TimeFault where
  /-- A number is outside its range, or the calendar does not have the date. -/
  | outOfRange
  /-- The instant is outside the time line. -/
  | impossible
  /-- A character is not the one wanted. -/
  | invalid
  /-- The text ends too early. -/
  | tooShort
  /-- The text goes on after the timestamp. -/
  | tooLong
deriving DecidableEq, Repr

/-- The wording of a fault. -/
def TimeFault.message : TimeFault → String
  | .outOfRange => "input is out of range"
  | .impossible => "no possible date and time matching input"
  | .invalid => "input contains invalid characters"
  | .tooShort => "premature end of input"
  | .tooLong => "trailing input"

namespace Timestamp

/-- The largest number that is read. -/
abbrev mostNumber : Nat := 9223372036854775807

/-- Read on from a number of which `n` are the digits so far, `most` digits at most. -/
def moreDigits : Nat → Nat → List Char → Except TimeFault (Nat × List Char)
  | 0, n, s => .ok (n, s)
  | _ + 1, n, [] => .ok (n, [])
  | most + 1, n, c :: s =>
    match digitValue? c with
    | none => .ok (n, c :: s)
    | some d =>
      if n * 10 + d ≤ mostNumber then moreDigits most (n * 10 + d) s else .error .outOfRange

/-- Read a number of one to `most` digits. -/
def number (most : Nat) : List Char → Except TimeFault (Nat × List Char)
  | [] => .error .tooShort
  | c :: s => if (digitValue? c).isNone then .error .invalid else moreDigits most 0 (c :: s)

/-- Read a number of one or two digits within bounds, after blanks. -/
def within (lo hi : Nat) (s : List Char) : Except TimeFault (Nat × List Char) := do
  let (n, s) ← number 2 (trimStart s)
  if lo ≤ n ∧ n ≤ hi then .ok (n, s) else .error .outOfRange

/-- Read one wanted character, after blanks. -/
def mark (c : Char) (s : List Char) : Except TimeFault (List Char) :=
  match trimStart s with
  | [] => .error .tooShort
  | d :: rest => if d = c then .ok rest else .error .invalid

/-- Read a year: four digits at most, or any number of digits after a sign. -/
def year (s : List Char) : Except TimeFault (Int × List Char) := do
  let (y, rest) ← match trimStart s with
    | '-' :: rest => do
      let (n, rest) ← number rest.length rest
      pure (-(n : Int), rest)
    | '+' :: rest => do
      let (n, rest) ← number rest.length rest
      pure ((n : Int), rest)
    | rest => do
      let (n, rest) ← number 4 rest
      pure ((n : Int), rest)
  if -2147483648 ≤ y ∧ y ≤ 2147483647 then .ok (y, rest) else .error .outOfRange

/-- Read the decimals of a second as nanoseconds; decimals after the ninth are skipped. -/
def decimals : List Char → Except TimeFault (Nat × List Char)
  | '.' :: s => do
    let (n, rest) ← number 9 s
    let taken := s.length - rest.length
    .ok (n * tenTo (9 - taken), rest.dropWhile fun c => (digitValue? c).isSome)
  | s => .ok (0, s)

/-- Read two digits, of which the first is at most `most`. -/
def twoDigits (most : Nat) : List Char → Except TimeFault (Nat × List Char)
  | [] => .error .tooShort
  | [c] => .error (if c.utf8Size < 2 then .tooShort else .invalid)
  | c :: d :: s =>
    match digitValue? c, digitValue? d with
    | some a, some b => if a ≤ most then .ok (a * 10 + b, s) else .error .outOfRange
    | _, _ => .error .invalid

/-- Read hours and minutes of a zone's offset, in seconds. -/
def offsetSeconds (s : List Char) : Except TimeFault (Nat × List Char) := do
  let (hours, s) ← twoDigits 9 s
  let (minutes, s) ← twoDigits 5 (s.dropWhile fun c => c = ':' || isBlank c)
  .ok (hours * 3600 + minutes * 60, s)

/-- Read a zone as its offset in seconds: `Z`, `UTC` or a signed offset. -/
def zone : List Char → Except TimeFault (Int × List Char)
  | [] => .error .tooShort
  | c :: s =>
    if c = 'Z' ∨ c = 'z' then .ok (0, s)
    else if (c :: s.take 2).map Char.toUpper = ['U', 'T', 'C'] then .ok (0, s.drop 2)
    else if c = '+' then do
      let (n, s) ← offsetSeconds s
      .ok (n, s)
    else if c = '-' ∨ c = Char.ofNat 0x2212 then do
      let (n, s) ← offsetSeconds s
      .ok (-(n : Int), s)
    else .error .invalid

end Timestamp

open Timestamp in
/-- Read the text of an instant. -/
def Instant.ofTimestamp (s : List Char) : Except TimeFault Instant := do
  let (y, s) ← year s
  let s ← mark '-' s
  let (month, s) ← within 1 12 s
  let s ← mark '-' s
  let (day, s) ← within 1 31 s
  let s ← match s with
    | [] => .error .tooShort
    | c :: s => if c = 'T' ∨ c = 't' ∨ c = ' ' then .ok s else .error .invalid
  let (hour, s) ← within 0 23 s
  let s ← mark ':' s
  let (minute, s) ← within 0 59 s
  let s ← mark ':' s
  let (second, s) ← within 0 60 s
  let (nanos, s) ← decimals s
  let (offset, s) ← zone (trimStart s)
  if trimStart s ≠ [] then .error .tooLong
  else if ¬ Date.isValid ⟨y, month, day⟩ then .error .outOfRange
  else if ¬ (-262143 ≤ y ∧ y ≤ 262142) then .error .outOfRange
  else if ¬ (-86400 < offset ∧ offset < 86400) then .error .outOfRange
  else
    let seconds := Date.toDay ⟨y, month, day⟩ * 86400 + hour * 3600 + minute * 60 + second - offset
    match if second = 60 then ofLeapNanos? ((seconds - 1) * secondNanos + nanos)
      else ofNanos? (seconds * secondNanos + nanos) with
    | some t => .ok t
    | none => .error .impossible

end JobQueue
