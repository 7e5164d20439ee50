import MongoQuery.Number.Shortest

/-!
# Numerals

A numeral is the written form of a number: a sign, the digits before and after the
point, and a power of ten.  Two readings of a numeral as a binary number live here, the
exact one, which rounds once, and the one that scales a whole number of 64 bits by a
power of ten and so may round twice.  Two ways of writing a binary number as a numeral
share the shortest digits and differ in when a power of ten is written.
-/

namespace MongoQuery

/-- A number in decimal writing. -/
structure Numeral where
  negative : Bool
  whole : List Digit
  fraction : List Digit
  exponent : Option Int
deriving DecidableEq, Repr

namespace Numeral

/-! ### Writing -/

private def exponentText (n : Int) : List Char :=
  'e' :: (if n < 0 then '-' else '+') :: Digit.ofNatText n.natAbs

/-- The characters of a numeral; the point is written when digits follow it, and the
power of ten always has a sign. -/
def text (n : Numeral) : List Char :=
  (if n.negative then ['-'] else [])
    ++ Digit.text n.whole
    ++ (if n.fraction.isEmpty then [] else '.' :: Digit.text n.fraction)
    ++ (match n.exponent with
        | some e => exponentText e
        | none => [])

private theorem mem_exponentText {n : Int} {c : Char} (h : c ∈ exponentText n) :
  c ∈ ['-', '+', '.', 'e'] ∨ ∃ d : Digit, c = d.toChar
  := by
  rw [exponentText, List.mem_cons, List.mem_cons] at h
  rcases h with rfl | h | h
  · exact .inl (by decide)
  · left
    rw [h]
    split <;> decide
  · obtain ⟨d, -, rfl⟩ := List.mem_map.mp h
    exact .inr ⟨d, rfl⟩

/-- A numeral is written with digits, signs, a point and the mark of a power. -/
theorem mem_text {n : Numeral} {c : Char} (h : c ∈ n.text) :
  c ∈ ['-', '+', '.', 'e'] ∨ ∃ d : Digit, c = d.toChar
  := by
  have hdigits : ∀ {digits : List Digit}, c ∈ Digit.text digits → ∃ d : Digit, c = d.toChar := by
    intro digits hmem
    obtain ⟨d, -, rfl⟩ := List.mem_map.mp hmem
    exact ⟨d, rfl⟩
  rw [text, List.mem_append, List.mem_append, List.mem_append] at h
  rcases h with ((h | h) | h) | h
  · split at h
    · rw [List.mem_singleton] at h
      rw [h]
      exact .inl (by decide)
    · cases h
  · exact .inr (hdigits h)
  · split at h
    · cases h
    · rcases List.mem_cons.mp h with rfl | h
      · exact .inl (by decide)
      · exact .inr (hdigits h)
  · split at h
    · exact mem_exponentText h
    · cases h

/-- The numeral of an integer. -/
def ofInt (n : Int) : Numeral :=
  ⟨n < 0, Digit.ofNat n.natAbs, [], none⟩

/-- A positive decimal written out without a power of ten: at least one digit before the
point, and after it no more than the decimal needs. -/
def positional (negative : Bool) (d : Decimal) : Numeral :=
  let digits := Digit.ofNat d.coefficient
  let places := (-d.exponent).toNat
  if places = 0 then ⟨negative, digits ++ List.replicate d.exponent.toNat 0, [], none⟩
  else if digits.length ≤ places then
    ⟨negative, [0], List.replicate (places - digits.length) 0 ++ digits, none⟩
  else
    ⟨negative, digits.take (digits.length - places), digits.drop (digits.length - places), none⟩

/-- A positive decimal written with one digit before the point and a power of ten. -/
def scientific (negative : Bool) (d : Decimal) : Numeral :=
  let digits := Digit.ofNat d.coefficient
  ⟨negative, digits.take 1, digits.drop 1, some (d.exponent + digits.length - 1)⟩

/-- A finite number written without a power of ten and, if it is whole, without a point.
Of two shortest decimals that are equally near, the one of greater magnitude is written. -/
def plain (x : Binary64) : Numeral :=
  if x.isZero then ⟨x.isNegative, [0], [], none⟩
  else positional x.isNegative (Decimal.shortest .up x)

/-- A finite number written so that it reads as a fractional number: with a point, whose
fraction may be a single zero, from a hundred-thousandth up to below ten quadrillion, and
with a power of ten outside that range.  Of two shortest decimals that are equally near,
the one with an even last digit is written. -/
def fractional (x : Binary64) : Numeral :=
  if x.isZero then ⟨x.isNegative, [0], [0], none⟩
  else
    let d := Decimal.shortest .toEven x
    let order := d.exponent + (Digit.ofNat d.coefficient).length - 1
    if -5 ≤ order ∧ order < 16 then
      let n := positional x.isNegative d
      if n.fraction.isEmpty then { n with fraction := [0] } else n
    else scientific x.isNegative d

/-! ### Exact reading -/

/-- The number nearest to a numeral.  A magnitude of `10 ^ 310` or more is infinite and
one below `10 ^ -330` is zero, which spares writing such powers out. -/
def toBinary64 (n : Numeral) : Binary64 :=
  let digits := n.whole ++ n.fraction
  let coefficient := Digit.value digits
  let power : Int := n.exponent.getD 0 - n.fraction.length
  let order : Int := (Digit.ofNat coefficient).length + power
  Binary64.signed n.negative <|
    if coefficient = 0 ∨ order < -330 then .zero
    else if 310 < order then .infinity
    else Binary64.nearest (coefficient * tenTo power.toNat) (tenTo (-power).toNat)

/-! ### Reading within a word -/

/-- What a numeral stands for once it is read into a word of 64 bits. -/
inductive Reading where
  | natural (n : UInt64)
  | negative (n : Int64)
  | real (x : Binary64)
deriving DecidableEq, Repr

/-- Digits taken into a whole number for as long as it stays below `2 ^ 64`, with the
count of those taken. -/
private def take (limit : Nat) : Nat → List Digit → Nat × Nat
  | n, [] => (n, 0)
  | n, d :: rest =>
    if 10 * n + d.val < limit then
      let (m, count) := take limit (10 * n + d.val) rest
      (m, count + 1)
    else (n, 0)

private def divideByPower (x : Binary64) (power : Nat) : Binary64 :=
  if power ≤ 308 then x.quotient (.nearest (tenTo power) 1)
  else if x.isZero then x
  else divideByPower (x.quotient (.nearest (tenTo 308) 1)) (power - 308)
termination_by power

/-- A nonnegative number times a power of ten, each operation rounded; nothing if the
product is past the greatest finite number. -/
def scaleByPower? (x : Binary64) (power : Int) : Option Binary64 :=
  if power < 0 then some (divideByPower x (-power).toNat)
  else if x.isZero then some x
  else if power ≤ 308 then
    let scaled := x.product (.nearest (tenTo power.toNat) 1)
    if scaled.isFinite then some scaled else none
  else none

/-- The number a numeral stands for when only the leading digits that fit a word of 64
bits are kept and then scaled: a digit that is left out before the point still counts as
a place, one after the point does not. -/
def scaled? (n : Numeral) : Option Binary64 :=
  let (whole, kept) := take UInt64.size 0 n.whole
  let (coefficient, places) := take UInt64.size whole n.fraction
  let power : Int := n.exponent.getD 0 + (n.whole.length - kept : Nat) - places
  (scaleByPower? (Binary64.ofInt coefficient) power).map (Binary64.signed n.negative)

/-- A numeral without point and power is an integer where it fits a word, and all other
numerals are fractional; a minus sign makes a signed word, and of zero a negative zero.
There is no reading past the greatest finite number. -/
def reading? (n : Numeral) : Option Reading :=
  if n.fraction.isEmpty ∧ n.exponent.isNone then
    let magnitude := Digit.value n.whole
    if n.negative = false ∧ magnitude < UInt64.size then some (.natural (UInt64.ofNat magnitude))
    else if n.negative ∧ 0 < magnitude ∧ magnitude ≤ Int64.maxValue.toInt + 1 then
      some (.negative (Int64.ofInt (-(magnitude : Int))))
    else n.scaled?.map .real
  else n.scaled?.map .real

end Numeral

end MongoQuery
