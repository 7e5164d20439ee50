/-!
# Binary64 numbers

A `Binary64` is the word of 64 bits of a floating point number: a sign, eleven bits of
exponent and fifty-two bits of fraction.  A finite number is its sign times
`significand * 2 ^ exponent`, both of which are exact here, so that every operation is
stated and computed in whole numbers.  `nearest` is the number closest to a ratio of
natural numbers, ties going to the even significand.
-/

namespace MongoQuery

/-- A power of two. -/
def twoTo (n : Nat) : Nat := Nat.pow 2 n

/-- A floating point number of 64 bits, as its word. -/
structure Binary64 where
  bits : UInt64
deriving DecidableEq, Repr, Inhabited

namespace Binary64

/-! ### Reading the word -/

/-- The value of the sign bit in the word. -/
def signUnit : Nat := 0x8000000000000000

/-- The value of the lowest exponent bit in the word, which is that of the bit which the
significand of all but the smallest numbers has beyond its fraction. -/
def exponentUnit : Nat := 0x10000000000000

/-- Whether the sign bit is set. -/
def isNegative (x : Binary64) : Bool :=
  signUnit ≤ x.bits.toNat

/-- The eleven bits of exponent. -/
def exponentField (x : Binary64) : Nat :=
  x.bits.toNat / exponentUnit % 2048

/-- The fifty-two bits of fraction. -/
def fractionField (x : Binary64) : Nat :=
  x.bits.toNat % exponentUnit

/-- Neither infinite nor a NaN. -/
def isFinite (x : Binary64) : Bool :=
  x.exponentField < 2047

/-- Not a number. -/
def isNaN (x : Binary64) : Bool :=
  x.exponentField = 2047 && x.fractionField ≠ 0

/-- One of the two zeros. -/
def isZero (x : Binary64) : Bool :=
  x.bits.toNat % signUnit = 0

/-- Greater than zero, infinity included. -/
def isPositive (x : Binary64) : Bool :=
  0 < x.bits.toNat && x.bits.toNat ≤ 2047 * exponentUnit

/-- The whole number that a power of two scales in a finite number. -/
def significand (x : Binary64) : Nat :=
  if x.exponentField = 0 then x.fractionField else exponentUnit + x.fractionField

/-- The power of two that scales the significand of a finite number. -/
def exponent (x : Binary64) : Int :=
  (max 1 x.exponentField : Nat) - 1075

/-- The numerator of the magnitude of a finite number. -/
def numerator (x : Binary64) : Nat :=
  x.significand * twoTo x.exponent.toNat

/-- The denominator of the magnitude of a finite number. -/
def denominator (x : Binary64) : Nat :=
  twoTo (-x.exponent).toNat

/-! ### Special numbers -/

/-- The positive zero. -/
def zero : Binary64 := ⟨0⟩

/-- The positive infinity. -/
def infinity : Binary64 := ⟨0x7ff0000000000000⟩

/-- The NaN with the sign and the payload clear. -/
def nan : Binary64 := ⟨0x7ff8000000000000⟩

/-- The number with the sign bit flipped. -/
def neg (x : Binary64) : Binary64 :=
  ⟨x.bits ^^^ 0x8000000000000000⟩

/-- The number, negated where the flag says so. -/
def signed (negative : Bool) (x : Binary64) : Binary64 :=
  if negative then x.neg else x

/-! ### Comparison -/

/-- Numerical equality: the zeros are equal and a NaN equals nothing. -/
def equal (x y : Binary64) : Bool :=
  !x.isNaN && !y.isNaN && (x.bits == y.bits || x.isZero && y.isZero)

/-! ### Rounding -/

/-- The whole number closest to a ratio, a half going to the even neighbour. -/
def divNearest (num den : Nat) : Nat :=
  let quotient := num / den
  let twice := 2 * (num % den)
  if twice < den then quotient
  else if den < twice then quotient + 1
  else quotient + quotient % 2

/-- The greatest `k` with `2 ^ k * den ≤ num`, of positive numbers. -/
def binaryOrder (num den : Nat) : Int :=
  let guess : Int := (Nat.log2 num : Int) - Nat.log2 den
  if num * twoTo (-guess).toNat < den * twoTo guess.toNat then guess - 1 else guess

/-- The nonnegative number closest to a ratio; what rounds past the greatest finite
number is infinity. -/
def nearest (num den : Nat) : Binary64 :=
  if num = 0 then zero
  else
    let scale := max (binaryOrder num den - 52) (-1074)
    let units := divNearest (num * twoTo (-scale).toNat) (den * twoTo scale.toNat)
    let word := (scale + 1074).toNat * exponentUnit + units
    if word < 2047 * exponentUnit then ⟨UInt64.ofNat word⟩ else infinity

/-- The number closest to an integer. -/
def ofInt (n : Int) : Binary64 :=
  signed (n < 0) (nearest n.natAbs 1)

/-- The product of two nonnegative finite numbers, rounded. -/
def product (x y : Binary64) : Binary64 :=
  nearest (x.numerator * y.numerator) (x.denominator * y.denominator)

/-- The quotient of two nonnegative finite numbers, rounded. -/
def quotient (x y : Binary64) : Binary64 :=
  nearest (x.numerator * y.denominator) (x.denominator * y.numerator)

/-! ### Integers -/

/-- The integer that a number is equal to, where it is one. -/
def toInt? (x : Binary64) : Option Int :=
  if x.isFinite && x.numerator % x.denominator = 0 then
    let magnitude : Int := (x.numerator / x.denominator : Nat)
    some (if x.isNegative then -magnitude else magnitude)
  else none

end Binary64

end MongoQuery
