import MongoQuery.Number.Floating

/-!
# Decimal128 numbers

A `Decimal128` is the sixteen bytes of a decimal floating point number, the lowest byte
first.  They say a sign with an infinity, a NaN, or a coefficient of at most 34 digits and a
power of ten.  Reading a text rounds nothing: zeros at the end of the coefficient may go to
the power and come from it, and a number that still does not fit is refused.
-/

namespace MongoQuery

/-- The sixteen bytes of a decimal floating point number. -/
structure Decimal128 where
  bytes : List UInt8
  length_eq : bytes.length = 16
deriving DecidableEq, Repr

namespace Decimal128

/-- The number of a run of bytes, where there are sixteen of them. -/
def ofBytes? (bytes : List UInt8) : Option Decimal128 :=
  if h : bytes.length = 16 then some ⟨bytes, h⟩ else none

/-- What the bytes of a number say. -/
inductive Datum where
  | nan (negative signalling : Bool)
  | infinity (negative : Bool)
  | finite (negative : Bool) (coefficient : Nat) (exponent : Int)
deriving DecidableEq, Repr

/-- The number of digits that a coefficient can have. -/
def maxDigits : Nat := 34

/-- The least power of ten. -/
def minExponent : Int := -6176

/-- The greatest power of ten. -/
def maxExponent : Int := 6111

/-! ### Bytes -/

/-- The value of the sign bit in the word. -/
def signUnit : Nat := 0x80000000000000000000000000000000

/-- The value in the word of the lowest of the five bits after the sign, which tell
infinities and NaNs from the finite numbers. -/
def kindUnit : Nat := 0x4000000000000000000000000000000

/-- The value in the word of the bit that makes a NaN signal. -/
def signallingUnit : Nat := 0x2000000000000000000000000000000

/-- The value of the lowest exponent bit in the word. -/
def exponentUnit : Nat := 0x20000000000000000000000000000

private def signBits (negative : Bool) : Nat :=
  if negative then signUnit else 0

/-- The word of a datum. -/
def Datum.word : Datum → Nat
  | .nan negative signalling =>
    signBits negative + 31 * kindUnit + if signalling then signallingUnit else 0
  | .infinity negative => signBits negative + 30 * kindUnit
  | .finite negative coefficient exponent =>
    signBits negative + (exponent - minExponent).toNat * exponentUnit + coefficient

/-- What a word says.  A coefficient with more digits than it can have counts as zero; those
that begin two bits further down are all of this kind. -/
def Datum.ofWord (word : Nat) : Datum :=
  let negative : Bool := signUnit ≤ word
  let kind := word / kindUnit % 32
  if kind = 31 then .nan negative (word / signallingUnit % 2 = 1)
  else if kind = 30 then .infinity negative
  else if 24 ≤ kind then
    .finite negative 0 ((word / (exponentUnit / 4) % 16384 : Nat) + minExponent)
  else
    let coefficient := word % exponentUnit
    .finite negative (if coefficient < tenTo maxDigits then coefficient else 0)
      ((word / exponentUnit % 16384 : Nat) + minExponent)

private def lowBytes : Nat → Nat → List UInt8
  | 0, _ => []
  | count + 1, word => UInt8.ofNat word :: lowBytes count (word / 256)

private theorem length_lowBytes (count word : Nat) :
  (lowBytes count word).length = count
  := by
  induction count generalizing word with
  | zero => rfl
  | succ count ih => rw [lowBytes, List.length_cons, ih]

/-- The bytes of a datum. -/
def ofDatum (d : Datum) : Decimal128 :=
  ⟨lowBytes 16 d.word, length_lowBytes 16 d.word⟩

/-- The word that bytes form. -/
def word (x : Decimal128) : Nat :=
  x.bytes.foldr (fun b word => b.toNat + 256 * word) 0

/-- What a number is. -/
def datum (x : Decimal128) : Datum :=
  .ofWord x.word

private theorem foldr_lowBytes {count word : Nat} (h : word < Nat.pow 256 count) :
  (lowBytes count word).foldr (fun b word => b.toNat + 256 * word) 0 = word
  := by
  induction count generalizing word with
  | zero =>
      have hword : word < 1 := h
      rw [lowBytes, List.foldr_nil]
      omega
  | succ count ih =>
      have hrest : word / 256 < Nat.pow 256 count :=
        Nat.div_lt_of_lt_mul (by rw [Nat.mul_comm]; exact h)
      have hbyte : (UInt8.ofNat word).toNat = word % 256 := UInt8.toNat_ofNat'
      rw [lowBytes, List.foldr_cons, ih hrest, hbyte]
      omega

/-- A coefficient of not too many digits and a power within the bounds. -/
def Datum.Fits : Datum → Prop
  | .nan _ _ => True
  | .infinity _ => True
  | .finite _ coefficient exponent =>
    coefficient < tenTo maxDigits ∧ minExponent ≤ exponent ∧ exponent ≤ maxExponent

private theorem tenTo_maxDigits :
  tenTo maxDigits = 10000000000000000000000000000000000
  := rfl

private theorem signBits_eq (negative : Bool) :
  signBits negative = signUnit * negative.toNat
  := by
  cases negative <;> rfl

private theorem Datum.word_lt {d : Datum} (h : d.Fits) :
  d.word < Nat.pow 256 16
  := by
  have hpow : Nat.pow 256 16 = 2 * signUnit := rfl
  have hsign : ∀ negative : Bool, negative.toNat ≤ 1 := Bool.toNat_le
  rw [hpow]
  cases d with
  | nan negative signalling =>
      have := hsign negative
      rw [word, signBits_eq, kindUnit, signUnit, signallingUnit]
      split <;> omega
  | infinity negative =>
      have := hsign negative
      rw [word, signBits_eq, kindUnit, signUnit]
      omega
  | finite negative coefficient exponent =>
      have := hsign negative
      obtain ⟨hcoefficient, hmin, hmax⟩ := h
      rw [tenTo_maxDigits] at hcoefficient
      rw [minExponent] at hmin
      rw [maxExponent] at hmax
      rw [word, signBits_eq, minExponent, exponentUnit, signUnit]
      omega

private theorem decide_signUnit_le {negative : Bool} {rest : Nat} (h : rest < signUnit) :
  decide (signUnit ≤ signUnit * negative.toNat + rest) = negative
  := by
  cases negative
  · rw [Bool.toNat_false]
    exact decide_eq_false (by omega)
  · rw [Bool.toNat_true]
    exact decide_eq_true (by omega)

private theorem nan_fields (sign : Nat) (signalling : Bool) :
  let rest := 31 * kindUnit + if signalling then signallingUnit else 0
  rest < signUnit ∧ (signUnit * sign + rest) / kindUnit % 32 = 31
    ∧ decide ((signUnit * sign + rest) / signallingUnit % 2 = 1) = signalling
  := by
  rw [signUnit, kindUnit, signallingUnit]
  cases signalling <;> simp only [Bool.false_eq_true, if_false, if_true]
  · exact ⟨by omega, by omega, decide_eq_false (by omega)⟩
  · exact ⟨by omega, by omega, decide_eq_true (by omega)⟩

private theorem finite_fields (sign : Nat) {e coefficient : Nat} (he : e < 12288)
    (hcoefficient : coefficient < exponentUnit) :
  let rest := e * exponentUnit + coefficient
  rest < signUnit ∧ (signUnit * sign + rest) / kindUnit % 32 < 24
    ∧ (signUnit * sign + rest) % exponentUnit = coefficient
    ∧ (signUnit * sign + rest) / exponentUnit % 16384 = e
  := by
  rw [exponentUnit] at hcoefficient
  rw [exponentUnit, signUnit, kindUnit]
  refine ⟨?_, ?_, ?_, ?_⟩ <;> omega

private theorem Datum.ofWord_word {d : Datum} (h : d.Fits) :
  ofWord d.word = d
  := by
  cases d with
  | nan negative signalling =>
      obtain ⟨hrest, hkind, hsignalling⟩ := nan_fields negative.toNat signalling
      rw [word, signBits_eq, Nat.add_assoc, ofWord, if_pos hkind, decide_signUnit_le hrest,
        hsignalling]
  | infinity negative =>
      have hrest : 30 * kindUnit < signUnit := by decide
      have hkind : (signUnit * negative.toNat + 30 * kindUnit) / kindUnit % 32 = 30 := by
        rw [signUnit, kindUnit]
        omega
      rw [word, signBits_eq, ofWord, if_neg (by omega), if_pos hkind, decide_signUnit_le hrest]
  | finite negative coefficient exponent =>
      obtain ⟨hcoefficient, hmin, hmax⟩ := h
      have hunit : coefficient < exponentUnit :=
        Nat.lt_trans hcoefficient (by decide)
      obtain ⟨e, rfl⟩ : ∃ e : Nat, exponent = e + minExponent :=
        ⟨(exponent - minExponent).toNat, by omega⟩
      have he : e < 12288 := by
        rw [minExponent, maxExponent] at hmax
        omega
      obtain ⟨hrest, hkind, hdigits, hpower⟩ := finite_fields negative.toNat he hunit
      rw [word, signBits_eq, Int.add_sub_cancel, Int.toNat_natCast, Nat.add_assoc, ofWord,
        if_neg (by omega), if_neg (by omega), if_neg (by omega), decide_signUnit_le hrest,
        hdigits, hpower]
      simp only [if_pos hcoefficient]

/-- The bytes of a number say what it is. -/
theorem datum_ofDatum {d : Datum} (h : d.Fits) :
  (ofDatum d).datum = d
  := by
  rw [datum, word, ofDatum, foldr_lowBytes (Datum.word_lt h), Datum.ofWord_word h]

/-! ### Text -/

/-- The exponent within the sixteen bits in which it is counted. -/
private def counted? (exponent : Int) : Option Int :=
  if -32768 ≤ exponent ∧ exponent ≤ 32767 then some exponent else none

/-- The same number with a power of ten that is greater by `k`, where no digit is lost. -/
private def raised? (k : Nat) (coefficient : Nat) (exponent : Int) : Option (Nat × Int) :=
  if coefficient % tenTo k = 0 then some (coefficient / tenTo k, exponent + k) else none

/-- The coefficient and the power of a number among those that fit. -/
def fitted? (coefficient : Nat) (exponent : Int) : Option (Nat × Int) := do
  let excess := (Digit.ofNat coefficient).length - maxDigits
  let (coefficient, exponent) ← raised? excess coefficient exponent
  let (coefficient, exponent) ← raised? (minExponent - exponent).toNat coefficient exponent
  let excess := (exponent - maxExponent).toNat
  let coefficient := coefficient * tenTo excess
  if coefficient < tenTo maxDigits then some (coefficient, exponent - excess) else none

private theorem tenTo_add (m n : Nat) :
  tenTo (m + n) = tenTo m * tenTo n
  := Nat.pow_add 10 m n

private theorem raised?_eq_some {k coefficient coefficient' : Nat} {exponent exponent' : Int}
    (h : raised? k coefficient exponent = some (coefficient', exponent')) :
  coefficient = coefficient' * tenTo k ∧ exponent' = exponent + k
  := by
  rw [raised?] at h
  split at h
  · next hmod =>
      cases h
      exact ⟨(Nat.div_mul_cancel (Nat.dvd_of_mod_eq_zero hmod)).symm, rfl⟩
  · cases h

/-- What fits is within the bounds and has the value of what it was made of, whatever power of
ten the two are counted in. -/
theorem fitted?_eq_some {coefficient coefficient' : Nat} {exponent exponent' : Int}
    (h : fitted? coefficient exponent = some (coefficient', exponent')) :
  (∀ negative, (Datum.finite negative coefficient' exponent').Fits)
    ∧ ∀ unit : Int, unit ≤ exponent → unit ≤ exponent' →
      coefficient * tenTo (exponent - unit).toNat = coefficient' * tenTo (exponent' - unit).toNat
  := by
  obtain ⟨⟨c₁, e₁⟩, h₁, h⟩ := Option.bind_eq_some_iff.mp h
  obtain ⟨⟨c₂, e₂⟩, h₂, h⟩ := Option.bind_eq_some_iff.mp h
  generalize (Digit.ofNat coefficient).length - maxDigits = k at h₁
  obtain ⟨rfl, rfl⟩ := raised?_eq_some h₁
  obtain ⟨rfl, rfl⟩ := raised?_eq_some h₂
  simp only [Option.ite_none_right_eq_some, Option.some.injEq, Prod.mk.injEq] at h
  obtain ⟨hlt, rfl, rfl⟩ := h
  constructor
  · intro negative
    refine ⟨hlt, ?_⟩
    rw [minExponent, maxExponent]
    omega
  · intro unit hunit hunit'
    rw [Nat.mul_assoc, Nat.mul_assoc, Nat.mul_assoc, ← tenTo_add, ← tenTo_add, ← tenTo_add]
    congr 2
    omega

private def finite? (negative : Bool) (cs : List Char) : Option Datum := do
  let n ← Floating.numeral? cs
  let exponent ← counted? (n.exponent.getD 0)
  let exponent ← counted? (exponent - n.fraction.length)
  let (coefficient, exponent) ← fitted? (Digit.value (n.whole ++ n.fraction)) exponent
  some (.finite negative coefficient exponent)

private def unsigned? (negative : Bool) (cs : List Char) : Option Datum :=
  let word := String.ofList (cs.map Char.toLower)
  if word = "inf" ∨ word = "infinity" then some (.infinity negative)
  else if word = "nan" then some (.nan negative false)
  else if word = "snan" then some (.nan negative true)
  else finite? negative cs

/-- The number that a text writes. -/
def ofText? (text : String) : Option Decimal128 :=
  match text.toList with
  | '-' :: cs => (unsigned? true cs).map ofDatum
  | '+' :: cs => (unsigned? false cs).map ofDatum
  | cs => (unsigned? false cs).map ofDatum

private theorem fits_of_unsigned? {negative : Bool} {cs : List Char} {d : Datum}
    (h : unsigned? negative cs = some d) :
  d.Fits
  := by
  simp only [unsigned?] at h
  split at h
  · cases h
    trivial
  split at h
  · cases h
    trivial
  split at h
  · cases h
    trivial
  obtain ⟨n, -, h⟩ := Option.bind_eq_some_iff.mp h
  obtain ⟨_, -, h⟩ := Option.bind_eq_some_iff.mp h
  obtain ⟨_, -, h⟩ := Option.bind_eq_some_iff.mp h
  obtain ⟨⟨coefficient, exponent⟩, hfitted, h⟩ := Option.bind_eq_some_iff.mp h
  cases h
  apply (fitted?_eq_some hfitted).1

/-- A number that is read has a coefficient and a power within the bounds, and its bytes say
them. -/
theorem exists_datum_of_ofText? {text : String} {x : Decimal128} (h : ofText? text = some x) :
  ∃ d : Datum, d.Fits ∧ x = ofDatum d ∧ x.datum = d
  := by
  have hread : ∀ {negative : Bool} {cs : List Char}, (unsigned? negative cs).map ofDatum = some x →
      ∃ d : Datum, d.Fits ∧ x = ofDatum d ∧ x.datum = d := by
    intro negative cs h
    obtain ⟨d, hd, rfl⟩ := Option.map_eq_some_iff.mp h
    have hfits := fits_of_unsigned? hd
    exact ⟨d, hfits, rfl, datum_ofDatum hfits⟩
  rw [ofText?] at h
  split at h <;> exact hread h

/-- The text of a finite number, without a power of ten where no zeros are missing at its end
and not more than five stand between the point and its digits. -/
private def finiteText (negative : Bool) (coefficient : Nat) (exponent : Int) : List Char :=
  let digits := Digit.ofNat coefficient
  let leading := exponent + (digits.length - 1 : Nat)
  if exponent ≤ 0 ∧ -6 ≤ leading then
    let places := (-exponent).toNat
    let zero : Digit := ⟨0, by decide⟩
    let digits := List.replicate (places + 1 - digits.length) zero ++ digits
    (Numeral.mk negative (digits.take (digits.length - places))
      (digits.drop (digits.length - places)) none).text
  else
    (Numeral.mk negative (digits.take 1) (digits.drop 1) none).text
      ++ 'E' :: (if leading < 0 then '-' else '+') :: Digit.ofNatText leading.natAbs

/-- The text of a number. -/
def text (x : Decimal128) : String :=
  match x.datum with
  | .nan _ _ => "NaN"
  | .infinity negative => if negative then "-Infinity" else "Infinity"
  | .finite negative coefficient exponent =>
    String.ofList (finiteText negative coefficient exponent)

end Decimal128

end MongoQuery
