import JobQueue.Json.Scan

/-!
# Reading numbers

Digits are gathered into a *significand* as long as it stays below `2 ^ 64`.  An
integer literal that fits, and negative ones down to `-2 ^ 63`, stay whole.
Every other number becomes a floating-point one: the significand, rounded, times
or divided by a power of ten, rounded again.  Digits that the significand does
not hold only count towards the exponent, or are dropped after a point.
-/

namespace JobQueue

namespace Json

/-- The largest significand. -/
abbrev mostSignificand : Nat := 18446744073709551615

/-- The largest exponent that is written out. -/
abbrev mostExponent : Nat := 2147483647

/-- The value of a decimal digit. -/
def digitValue? (b : UInt8) : Option Nat :=
  if 0x30 ≤ b ∧ b ≤ 0x39 then some (b.toNat - 0x30) else none

/-- Whether a byte is a decimal digit. -/
def isDigit (b : UInt8) : Bool := (digitValue? b).isSome

/-- Whether the text goes on with a digit. -/
def startsWithDigit : Bytes → Bool
  | [] => false
  | b :: _ => isDigit b

/-- Gather digits into a significand while it fits: the significand, the number
of digits taken, and the text after them. -/
def gather (most : Nat) : Nat → Bytes → Nat × Nat × Bytes
  | n, [] => (n, 0, [])
  | n, b :: s =>
    match digitValue? b with
    | none => (n, 0, b :: s)
    | some d =>
      if n * 10 + d ≤ most then
        let (m, count, rest) := gather most (n * 10 + d) s
        (m, count + 1, rest)
      else (n, 0, b :: s)

/-- Divide a floating-point number by a power of ten, by `10 ^ 308` at a time. -/
def divideByTens (x : Binary64) (e : Nat) : Binary64 :=
  if e ≤ 308 then x.div (.ofNat (tenTo e))
  else if e ≤ 616 then (x.div (.ofNat (tenTo 308))).div (.ofNat (tenTo (e - 308)))
  else .ofNat 0

/-- The floating-point number of a significand and an exponent of ten. -/
def floatOf (negative : Bool) (significand : Nat) (exponent : Int) (rest : Bytes) :
    Except Fault (Json × Bytes) :=
  let signed (x : Binary64) : Json := .float (if negative then x.negate else x)
  let x := Binary64.ofNat significand
  if exponent < 0 then .ok (signed (divideByTens x exponent.natAbs), rest)
  else if x.isZero then .ok (signed x, rest)
  else if 308 < exponent then .error (.here .numberOutOfRange rest)
  else
    let y := x.mul (.ofNat (tenTo exponent.toNat))
    if y.isFinite then .ok (signed y, rest) else .error (.here .numberOutOfRange rest)

/-- Read an exponent after its letter. -/
def exponentPart (negative : Bool) (significand : Nat) (exponent : Int) (s : Bytes) :
    Except Fault (Json × Bytes) :=
  let (down, s) := match s with
    | b :: t => if b = 0x2B then (false, t) else if b = 0x2D then (true, t) else (false, b :: t)
    | [] => (false, [])
  match s with
  | [] => .error (.here .endInValue [])
  | b :: t =>
    if isDigit b then
      let (e, _, rest) := gather mostExponent 0 (b :: t)
      match rest with
      | [] => floatOf negative significand (if down then exponent - e else exponent + e) []
      | c :: u =>
        if isDigit c then
          if significand ≠ 0 ∧ ¬ down then .error (.here .numberOutOfRange u)
          else floatOf negative 0 0 (u.dropWhile isDigit)
        else
          floatOf negative significand (if down then exponent - e else exponent + e) (c :: u)
    else .error (.here .invalidNumber t)

/-- Go on after the digits of a floating-point number: an exponent or its end. -/
def afterDigits (negative : Bool) (significand : Nat) (exponent : Int) (s : Bytes) :
    Except Fault (Json × Bytes) :=
  match s with
  | [] => floatOf negative significand exponent []
  | b :: t =>
    if b = 0x65 ∨ b = 0x45 then exponentPart negative significand exponent t
    else floatOf negative significand exponent (b :: t)

/-- Read the digits after a point. -/
def fractionPart (negative : Bool) (significand : Nat) (exponent : Int) (s : Bytes) :
    Except Fault (Json × Bytes) :=
  let (n, count, rest) := gather mostSignificand significand s
  if startsWithDigit rest then
    afterDigits negative n (exponent - count) (rest.dropWhile isDigit)
  else if count = 0 then
    .error (.ahead (if rest = [] then .endInValue else .invalidNumber) rest)
  else afterDigits negative n (exponent - count) rest

/-- The whole number of a sign and a significand, if it stays whole. -/
def intOf? (negative : Bool) (significand : Nat) : Option Int :=
  if ¬ negative then some significand
  else if 0 < significand ∧ significand ≤ 9223372036854775808 then some (-(significand : Int))
  else none

/-- Go on after the integer part of a number. -/
def afterInteger (negative : Bool) (significand : Nat) (s : Bytes) : Except Fault (Json × Bytes) :=
  match s with
  | b :: t =>
    if b = 0x2E then fractionPart negative significand 0 t
    else if b = 0x65 ∨ b = 0x45 then exponentPart negative significand 0 t
    else match intOf? negative significand with
      | some n => .ok (.int n, b :: t)
      | none => floatOf negative significand 0 (b :: t)
  | [] => match intOf? negative significand with
    | some n => .ok (.int n, [])
    | none => floatOf negative significand 0 []

/-- Read a number after its sign. -/
def unsignedNumber (negative : Bool) : Reader Json
  | [] => .error (.here .endInValue [])
  | b :: s =>
    if b = 0x30 then
      if startsWithDigit s then .error (.ahead .invalidNumber s) else afterInteger negative 0 s
    else if isDigit b then
      let (n, _, rest) := gather mostSignificand 0 (b :: s)
      if startsWithDigit rest then
        let skipped := (rest.takeWhile isDigit).length
        match rest.dropWhile isDigit with
        | c :: t =>
          if c = 0x2E then fractionPart negative n skipped t
          else afterDigits negative n skipped (c :: t)
        | [] => afterDigits negative n skipped []
      else afterInteger negative n rest
    else .error (.here .invalidNumber s)

/-- Read a number. -/
def number : Reader Json
  | b :: s => if b = 0x2D then unsignedNumber true s else unsignedNumber false (b :: s)
  | [] => unsignedNumber false []

end Json

end JobQueue
