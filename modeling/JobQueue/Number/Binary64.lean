import JobQueue.Number.Power

/-!
# Binary64 numbers

The 64-bit floating-point numbers as words, with their exact values.

A finite number is a sign and a magnitude `m * 2 ^ k / 2 ^ 1074`, where `m` is
below `2 ^ 53` (`Binary64.significand` and `Binary64.scale`).  Every operation
computes the exact result as a quotient of natural numbers and rounds once, to
the nearest number and in a tie to the even one (`Binary64.ofRatio`); a result
that is too large becomes infinite.
-/

namespace JobQueue

/-- A quotient rounded to the nearest natural number, a tie to the even one. -/
def roundedQuotient (num den : Nat) : Nat :=
  let q := num / den
  let r := num % den
  if 2 * r > den ∨ (2 * r = den ∧ q % 2 = 1) then q + 1 else q

/-- A 64-bit floating-point number. -/
structure Binary64 where
  /-- Sign, exponent and fraction, from the highest bit to the lowest. -/
  bits : UInt64
deriving DecidableEq, Repr

namespace Binary64

/-- The magnitude bits of infinity. -/
abbrev infiniteBits : Nat := 2047 * twoTo 52

/-- A number from its sign and the bits of its magnitude. -/
def ofMagnitude (negative : Bool) (magnitude : Nat) : Binary64 :=
  ⟨UInt64.ofNat (if negative then twoTo 63 + magnitude else magnitude)⟩

instance : Inhabited Binary64 := ⟨⟨0⟩⟩

/-- Whether the sign is a minus; zero has both signs. -/
def isNegative (x : Binary64) : Bool := twoTo 63 ≤ x.bits.toNat

/-- The bits without the sign. -/
def magnitude (x : Binary64) : Nat := x.bits.toNat % twoTo 63

/-- Whether the number is zero, of either sign. -/
def isZero (x : Binary64) : Bool := x.magnitude = 0

/-- Whether the number is neither infinite nor a NaN. -/
def isFinite (x : Binary64) : Bool := x.magnitude < infiniteBits

/-- The whole number `m` of a magnitude `m * 2 ^ k / 2 ^ 1074`. -/
def significand (x : Binary64) : Nat :=
  if x.magnitude < twoTo 52 then x.magnitude else x.magnitude % twoTo 52 + twoTo 52

/-- The exponent `k` of a magnitude `m * 2 ^ k / 2 ^ 1074`. -/
def scale (x : Binary64) : Nat := x.magnitude / twoTo 52 - 1

/-- The numerator of the magnitude over `2 ^ 1074`. -/
def numerator (x : Binary64) : Nat := x.significand * twoTo x.scale

/-- The number nearest to `num / den`, with a sign. -/
def ofRatio (negative : Bool) (num den : Nat) : Binary64 :=
  let n := num * twoTo 1074
  let whole := n / den
  let k := if whole = 0 then 0 else Nat.log2 whole + 1 - 53
  let m := roundedQuotient n (den * twoTo k)
  ofMagnitude negative (min (k * twoTo 52 + m) infiniteBits)

/-- The number nearest to a natural number. -/
def ofNat (n : Nat) : Binary64 := ofRatio false n 1

/-- The same magnitude with the other sign. -/
def negate (x : Binary64) : Binary64 := ofMagnitude (!x.isNegative) x.magnitude

/-- The product of two finite numbers, rounded. -/
def mul (x y : Binary64) : Binary64 :=
  ofRatio (x.isNegative != y.isNegative) (x.numerator * y.numerator) (twoTo 2148)

/-- The quotient of two finite numbers, rounded; the divisor is not zero. -/
def div (x y : Binary64) : Binary64 :=
  ofRatio (x.isNegative != y.isNegative) x.numerator y.numerator

/-- The bits as sixteen digits in base 16. -/
def hex (x : Binary64) : String :=
  let ds := Nat.toDigits 16 x.bits.toNat
  String.ofList (List.replicate (16 - ds.length) '0' ++ ds)

example : (ofNat 100).hex = "4059000000000000" := by decide +kernel
example : (div (ofNat 1) (ofNat 3)).hex = "3fd5555555555555" := by decide +kernel
example : ofRatio false 1 (twoTo 1075) = ⟨0⟩ := by decide +kernel
example : ofRatio false 3 (twoTo 1075) = ⟨2⟩ := by decide +kernel

end Binary64

end JobQueue
