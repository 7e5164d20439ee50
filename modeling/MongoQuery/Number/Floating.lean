import MongoQuery.Number.Integer
import MongoQuery.Number.Numeral

/-!
# Floating point numbers as text

The written form that is read here is free: a sign of either kind, digits with a point
that may stand at their beginning or end, a power of ten after `e`, or one of the words
for infinity and NaN in any letter case.  The number read is the nearest one.
-/

namespace MongoQuery.Floating

private def exponent? : List Char → Option (Option Int)
  | [] => some none
  | c :: cs => if c = 'e' ∨ c = 'E' then (Integer.ofChars? cs).map some else none

/-- The numeral that a run of characters without a sign writes. -/
def numeral? (cs : List Char) : Option Numeral :=
  let (whole, rest) := Digit.scan cs
  let (fraction, rest) :=
    match rest with
    | '.' :: rest => Digit.scan rest
    | rest => ([], rest)
  if whole.isEmpty ∧ fraction.isEmpty then none
  else (exponent? rest).map fun exponent => ⟨false, whole, fraction, exponent⟩

private def unsigned? (cs : List Char) : Option Binary64 :=
  let word := String.ofList (cs.map Char.toLower)
  if word = "inf" ∨ word = "infinity" then some .infinity
  else if word = "nan" then some .nan
  else (numeral? cs).map Numeral.toBinary64

/-- The number that a text writes. -/
def ofText? (text : String) : Option Binary64 :=
  match text.toList with
  | '-' :: cs => (unsigned? cs).map Binary64.neg
  | '+' :: cs => unsigned? cs
  | cs => unsigned? cs

end MongoQuery.Floating
