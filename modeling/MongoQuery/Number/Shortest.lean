import MongoQuery.Number.Binary64
import MongoQuery.Number.Digit

/-!
# Shortest decimals

The numbers that round to a positive finite binary number form an interval around it,
the ends included exactly when its significand is even.  `shortest` is the decimal of
fewest digits in that interval, and of those the one nearest to the number; the tie rule
decides between two that are equally near.  For each count of digits only the two
neighbours of the number on the grid of decimals with that many digits can qualify.
-/

namespace MongoQuery

/-- The number `coefficient * 10 ^ exponent`. -/
structure Decimal where
  coefficient : Nat
  exponent : Int
deriving DecidableEq, Repr

namespace Decimal

/-- Which of two equally near decimals of the same length is taken. -/
inductive Tie where
  | toEven
  | up
deriving DecidableEq, Repr

/-- The greatest `k` with `10 ^ k * den ≤ num`, of positive numbers. -/
def decimalOrder (num den : Nat) : Int :=
  if den ≤ num then (Digit.ofNat (num / den)).length - 1
  else
    let places := (Digit.ofNat (den / num)).length - 1
    if den ≤ num * tenTo places then -places else -(places + 1)

/-- The positive numbers between two ends with a common denominator. -/
structure Interval where
  lower : Nat
  upper : Nat
  denominator : Nat
  closed : Bool

/-- Whether the ratio `num / den` lies in the interval. -/
def Interval.contains (i : Interval) (num den : Nat) : Bool :=
  let scaled := num * i.denominator
  if i.closed then i.lower * den ≤ scaled && scaled ≤ i.upper * den
  else i.lower * den < scaled && scaled < i.upper * den

/-- The numbers that round to a positive finite number. -/
def roundingInterval (x : Binary64) : Interval :=
  let unit := twoTo x.exponent.toNat
  let middle := 4 * x.significand * unit
  let below := if x.fractionField = 0 && 1 < x.exponentField then unit else 2 * unit
  { lower := middle - below, upper := middle + 2 * unit,
    denominator := 4 * x.denominator, closed := x.significand % 2 = 0 }

/-- The multiple of `10 ^ exponent` that `interval` contains and that is nearest to
`num / den`, if there is one. -/
def nearestOnGrid (tie : Tie) (interval : Interval) (num den : Nat) (exponent : Int) :
    Option Decimal :=
  let up := tenTo exponent.toNat
  let down := tenTo (-exponent).toNat
  let scaledNum := num * down
  let scaledDen := den * up
  let floor := scaledNum / scaledDen
  let twice := 2 * (scaledNum % scaledDen)
  let hits (c : Nat) : Bool := interval.contains (c * up) down
  let lowFirst : Bool :=
    if twice = scaledDen then
      match tie with
      | .toEven => floor % 2 = 0
      | .up => false
    else twice < scaledDen
  let near := if lowFirst then floor else floor + 1
  let far := if lowFirst then floor + 1 else floor
  if hits near then some ⟨near, exponent⟩
  else if hits far then some ⟨far, exponent⟩
  else none

/-- The decimal with no zero at the end of its coefficient. -/
def trimZeros (d : Decimal) : Decimal :=
  if d.coefficient ≠ 0 ∧ d.coefficient % 10 = 0 then
    trimZeros ⟨d.coefficient / 10, d.exponent + 1⟩
  else d
termination_by d.coefficient
decreasing_by omega

private def search (tie : Tie) (interval : Interval) (num den : Nat) (order : Int) :
    Nat → Nat → Decimal
  | 0, _ => ⟨0, 0⟩
  | fuel + 1, count =>
    match nearestOnGrid tie interval num den (order + 1 - count) with
    | some found => found.trimZeros
    | none => search tie interval num den order fuel (count + 1)

/-- The decimal of fewest digits that rounds to a positive finite number; seventeen
digits always suffice. -/
def shortest (tie : Tie) (x : Binary64) : Decimal :=
  let order := decimalOrder x.numerator x.denominator
  search tie (roundingInterval x) x.numerator x.denominator order 17 1

end Decimal

end MongoQuery
