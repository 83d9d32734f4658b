import JobQueue.Number.Binary64

/-!
# Shortest decimals

The fewest decimal digits that name a binary64 number, and the text made of
them.

The reals that round to a number form an interval, to which its ends belong if
and only if the significand is even.  For 1, 2, up to 17 digits, the two
neighbours of the number on the grid of decimals with that many digits are
tested against the interval, in whole numbers throughout.  The first grid with a
hit wins; of two hits the nearer one is taken, and the even one in a tie.
-/

namespace JobQueue

/-! ## Decimal magnitudes -/

/-- A decimal magnitude: digits, the first of which stands for `10 ^ exponent`. -/
structure Decimal where
  /-- The digits, the first one first. -/
  digits : List Char
  /-- The power of ten of the first digit. -/
  exponent : Int
deriving DecidableEq, Repr

/-- The text of a decimal magnitude: digits around a point from `10 ^ -5` up to
`10 ^ 16`, and an exponent with its sign outside that range. -/
def Decimal.text (d : Decimal) : List Char :=
  if d.exponent < -5 ∨ 16 ≤ d.exponent then
    let fraction := if d.digits.length ≤ 1 then [] else '.' :: d.digits.drop 1
    d.digits.take 1 ++ fraction ++ 'e' :: (if d.exponent < 0 then '-' else '+') ::
      Nat.toDigits 10 d.exponent.natAbs
  else if d.exponent < 0 then
    '0' :: '.' :: List.replicate (d.exponent.natAbs - 1) '0' ++ d.digits
  else
    let whole := d.exponent.toNat + 1
    if d.digits.length ≤ whole then
      d.digits ++ List.replicate (whole - d.digits.length) '0' ++ ['.', '0']
    else d.digits.take whole ++ '.' :: d.digits.drop whole

namespace Binary64

/-! ## The digits of a number -/

/-- Four times the numerator of the magnitude between the ends of the interval
of reals that round to it, all over `2 ^ 1076`. -/
def interval (x : Binary64) : Nat × Nat × Nat :=
  let unit := twoTo x.scale
  let v := 4 * x.numerator
  let below := if x.significand = twoTo 52 ∧ 0 < x.scale then unit else 2 * unit
  (v - below, v, v + 2 * unit)

/-- How often `n` is multiplied by ten until it reaches `whole`, at most `fuel`
times. -/
def tensBelow (whole : Nat) : Nat → Nat → Nat
  | 0, _ => 0
  | fuel + 1, n => if whole ≤ n then 0 else tensBelow whole fuel (n * 10) + 1

/-- The power of ten of the first digit of `n / whole`. -/
def leadingExponent (n whole : Nat) : Int :=
  if whole ≤ n then ((Nat.toDigits 10 (n / whole)).length : Int) - 1
  else -(tensBelow whole 400 n : Int)

/-- The hit on the grid of decimals with `count` digits, the first of which
stands for `10 ^ exponent`. -/
def hit? (x : Binary64) (exponent : Int) (count : Nat) : Option Nat :=
  let (lo, v, hi) := x.interval
  let step : Int := exponent + 1 - count
  let up := tenTo (-step).toNat
  let grid := twoTo 1076 * tenTo step.toNat
  let inside (c : Nat) : Bool :=
    if x.significand % 2 = 0 then lo * up ≤ c * grid && c * grid ≤ hi * up
    else lo * up < c * grid && c * grid < hi * up
  let c := v * up / grid
  let left := v * up - c * grid
  let right := (c + 1) * grid - v * up
  if inside c then
    if inside (c + 1) && (right < left || (right = left && c % 2 = 1)) then some (c + 1)
    else some c
  else if inside (c + 1) then some (c + 1) else none

/-- The shortest decimal that rounds to the magnitude of a finite number other
than zero. -/
def shortest (x : Binary64) : Decimal :=
  let exponent := leadingExponent (4 * x.numerator) (twoTo 1076)
  match (List.range 17).findSome? fun k => (x.hit? exponent (k + 1)).map fun c => (k + 1, c) with
  | none => ⟨[], 0⟩
  | some (count, c) =>
    let ds := Nat.toDigits 10 c
    ⟨(ds.reverse.dropWhile (· = '0')).reverse, exponent + ds.length - count⟩

/-- The text of a finite number. -/
def text (x : Binary64) : List Char :=
  let magnitude := if x.isZero then ['0', '.', '0'] else x.shortest.text
  if x.isNegative then '-' :: magnitude else magnitude

example : (ofRatio false 1 10).text = "0.1".toList := by decide +kernel
example : (ofRatio true 3 2).text = "-1.5".toList := by decide +kernel
example : (ofNat (tenTo 15)).text = "1000000000000000.0".toList := by decide +kernel
example : (ofNat (tenTo 16)).text = "1e+16".toList := by decide +kernel
example : (ofRatio false 1 100000).text = "0.00001".toList := by decide +kernel
example : (ofRatio false 15 (tenTo 7)).text = "1.5e-6".toList := by decide +kernel
example : (⟨1⟩ : Binary64).text = "5e-324".toList := by decide +kernel
example : (⟨0x7FEFFFFFFFFFFFFF⟩ : Binary64).text = "1.7976931348623157e+308".toList := by
  decide +kernel

end Binary64

end JobQueue
