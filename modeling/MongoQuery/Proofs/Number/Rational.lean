import Mathlib.Algebra.Order.Field.Rat
import Mathlib.Algebra.Order.Field.Power
import Mathlib.Tactic.FieldSimp
import Mathlib.Tactic.Linarith
import Mathlib.Tactic.Positivity
import Mathlib.Tactic.Ring
import Mathlib.Tactic.Use
import MongoQuery.Wire.Field

/-!
# Numbers as rational numbers

Every finite number of 64 bits is a rational number: its sign times its significand, scaled by
a power of two.  It is the rational number that the binary64 format gives to the bits of the
word.  The integer that a number is equal to is the one that this rational number is, and a
number counts as positive when its rational number is, or when it is the infinity.
-/

namespace MongoQuery

theorem cast_twoTo (n : Nat) :
  (twoTo n : ℚ) = 2 ^ n
  := by
  change ((2 ^ n : ℕ) : ℚ) = 2 ^ n
  push_cast
  rfl

namespace Binary64

/-- The magnitude of a finite number. -/
def magnitude (x : Binary64) : ℚ :=
  x.significand * 2 ^ x.exponent

/-- The rational number that a finite number is. -/
def toRat (x : Binary64) : ℚ :=
  if x.isNegative then -x.magnitude else x.magnitude

theorem denominator_pos (x : Binary64) :
  0 < x.denominator
  := by
  apply Nat.pow_pos (by decide)

/-- The magnitude is the ratio of the numerator and the denominator. -/
theorem numerator_eq (x : Binary64) :
  (x.numerator : ℚ) = x.magnitude * x.denominator
  := by
  rw [numerator, denominator, magnitude, Nat.cast_mul, cast_twoTo, cast_twoTo, mul_assoc]
  congr 1
  rw [← zpow_natCast, ← zpow_natCast, ← zpow_add₀ (by norm_num)]
  congr 1
  omega

/-- A magnitude is a whole number when the numerator is that multiple of the denominator. -/
theorem magnitude_eq_natCast_iff (x : Binary64) (k : Nat) :
  x.magnitude = k ↔ x.numerator = k * x.denominator
  := by
  have hden : (x.denominator : ℚ) ≠ 0 := by
    exact_mod_cast x.denominator_pos.ne'
  rw [← mul_left_inj' hden, ← numerator_eq]
  norm_cast

theorem magnitude_nonneg (x : Binary64) :
  0 ≤ x.magnitude
  := by
  rw [magnitude]
  positivity

/-- Where the rational number of a number is an integer, its magnitude is the absolute value. -/
theorem magnitude_eq_natAbs {x : Binary64} {n : Int} (h : x.toRat = n) :
  x.magnitude = n.natAbs ∧ n = if x.isNegative then -(n.natAbs : Int) else n.natAbs
  := by
  have hnonneg := x.magnitude_nonneg
  rw [toRat] at h
  split at h
  · next hnegative =>
      have hn : n ≤ 0 := by
        have hcast : (n : ℚ) ≤ 0 := by linarith
        exact_mod_cast hcast
      have habs : (n.natAbs : Int) = -n := by omega
      constructor
      · rw [← Int.cast_natCast, habs]
        push_cast
        linarith
      · rw [if_pos hnegative]
        omega
  · next hpositive =>
      have hn : 0 ≤ n := by
        have hcast : 0 ≤ (n : ℚ) := by linarith
        exact_mod_cast hcast
      have habs : (n.natAbs : Int) = n := by omega
      constructor
      · rw [← Int.cast_natCast, habs]
        apply h
      · rw [if_neg hpositive]
        omega

/-- The integer that a number is equal to is the one that its rational number is. -/
theorem toInt?_eq_some_iff (x : Binary64) (n : Int) :
  x.toInt? = some n ↔ x.isFinite ∧ x.toRat = n
  := by
  rw [toInt?]
  constructor
  · intro h
    split at h
    · next hwhole =>
        obtain ⟨hfinite, hmod⟩ : x.isFinite ∧ x.numerator % x.denominator = 0 := by
          simpa using hwhole
        have hmagnitude : x.magnitude = (x.numerator / x.denominator : Nat) := by
          rw [magnitude_eq_natCast_iff, Nat.div_mul_cancel (Nat.dvd_of_mod_eq_zero hmod)]
        use hfinite
        rw [toRat, ← Option.some.inj h, hmagnitude]
        split
        · push_cast
          rfl
        · push_cast
          rfl
    · cases h
  · rintro ⟨hfinite, h⟩
    obtain ⟨hmagnitude, hn⟩ := magnitude_eq_natAbs h
    rw [magnitude_eq_natCast_iff] at hmagnitude
    have hmod : x.numerator % x.denominator = 0 := by
      rw [hmagnitude, Nat.mul_mod_left]
    have hdiv : x.numerator / x.denominator = n.natAbs := by
      rw [hmagnitude, Nat.mul_div_cancel _ x.denominator_pos]
    rw [if_pos (by simp [hfinite, hmod]), hdiv]
    exact congrArg some hn.symm

/-! ### Sign -/

theorem magnitude_pos_iff (x : Binary64) :
  0 < x.magnitude ↔ 0 < x.significand
  := by
  rw [magnitude, mul_pos_iff_of_pos_right (by positivity)]
  norm_cast

theorem isFinite_iff (x : Binary64) :
  x.isFinite ↔ x.bits.toNat / 4503599627370496 % 2048 < 2047
  := by
  rw [isFinite, exponentField, exponentUnit, decide_eq_true_iff]

theorem isNegative_iff (x : Binary64) :
  x.isNegative ↔ 9223372036854775808 ≤ x.bits.toNat
  := by
  rw [isNegative, signUnit, decide_eq_true_iff]

theorem isPositive_iff_bits (x : Binary64) :
  x.isPositive ↔ 0 < x.bits.toNat ∧ x.bits.toNat ≤ 9218868437227405312
  := by
  rw [isPositive, exponentUnit, Bool.and_eq_true, decide_eq_true_iff, decide_eq_true_iff]

/-- The significand vanishes for the zeros only. -/
theorem significand_pos_iff (x : Binary64) :
  0 < x.significand ↔ 0 < x.bits.toNat % 9223372036854775808
  := by
  rw [significand, exponentField, fractionField, exponentUnit]
  by_cases h : x.bits.toNat / 4503599627370496 % 2048 = 0
  · rw [if_pos h]
    omega
  · rw [if_neg h]
    omega

/-- A number is greater than zero when it is the infinity or its rational number is. -/
theorem isPositive_iff (x : Binary64) :
  x.isPositive ↔ x = infinity ∨ x.isFinite ∧ 0 < x.toRat
  := by
  have hbits := x.bits.toNat_lt
  rw [isPositive_iff_bits]
  constructor
  · rintro ⟨hpos, hle⟩
    rcases Nat.eq_or_lt_of_le hle with heq | hlt
    · left
      have hbits : x.bits = infinity.bits := UInt64.toNat_inj.mp heq
      cases x
      cases hbits
      rfl
    · right
      have hsign : ¬ x.isNegative := by
        rw [isNegative_iff]
        omega
      rw [isFinite_iff, toRat, if_neg hsign, magnitude_pos_iff, significand_pos_iff]
      omega
  · rintro (rfl | ⟨hfinite, hpos⟩)
    · decide
    · have hsign : ¬ x.isNegative := by
        intro hnegative
        rw [toRat, if_pos hnegative] at hpos
        have hnonneg := x.magnitude_nonneg
        linarith
      rw [toRat, if_neg hsign, magnitude_pos_iff, significand_pos_iff] at hpos
      rw [isNegative_iff] at hsign
      rw [isFinite_iff] at hfinite
      omega

/-! ### Integers -/

/-- The words from one up to that of the infinity are those of positive numbers. -/
theorem isPositive_word {word : Nat} (hpos : 0 < word) (hlt : word < 2047 * exponentUnit) :
  (mk (UInt64.ofNat word)).isPositive
  := by
  rw [exponentUnit] at hlt
  have hsize : word < UInt64.size := by
    rw [UInt64.size]
    omega
  rw [isPositive_iff_bits, UInt64.toNat_ofNat_of_lt' hsize]
  omega

/-- The number closest to a positive integer is greater than zero: it is a normal one. -/
theorem isPositive_nearest {n : Nat} (h : 0 < n) :
  (nearest n 1).isPositive
  := by
  have horder : -1 ≤ binaryOrder n 1 := by
    have hlog : Nat.log2 1 = 0 := by decide
    simp only [binaryOrder, hlog]
    split
    · omega
    · omega
  have hnormal : 0 < (max (binaryOrder n 1 - 52) (-1074) + 1074).toNat := by
    omega
  rw [nearest, if_neg h.ne']
  dsimp only
  split
  · next hlt =>
      apply isPositive_word _ hlt
      apply Nat.add_pos_left
      apply Nat.mul_pos hnormal (by decide)
  · decide

theorem neg_not_isPositive {x : Binary64} (h : x.isPositive) :
  ¬ x.neg.isPositive
  := by
  rw [isPositive_iff_bits] at h
  have hx : x.bits.toNat.testBit 63 = false := by
    apply Nat.testBit_lt_two_pow
    omega
  have hneg : x.neg.bits.toNat.testBit 63 = true := by
    rw [neg, UInt64.toNat_xor, Nat.testBit_xor, hx]
    decide
  have hle := Nat.ge_two_pow_of_testBit hneg
  rw [isPositive_iff_bits]
  omega

/-- The number closest to an integer is greater than zero when the integer is. -/
theorem isPositive_ofInt_iff (n : Int) :
  (ofInt n).isPositive ↔ 0 < n
  := by
  rw [ofInt, signed]
  rcases lt_trichotomy n 0 with hneg | rfl | hpos
  · have hnearest : (nearest n.natAbs 1).isPositive := isPositive_nearest (by omega)
    rw [if_pos (by simpa using hneg)]
    simp [neg_not_isPositive hnearest, hneg.le]
  · decide
  · have hnearest : (nearest n.natAbs 1).isPositive := isPositive_nearest (by omega)
    rw [if_neg (by simpa using hpos.le)]
    simp [hnearest, hpos]

/-! ### The format of words -/

/-- The rational number that a word stands for in the binary64 format: a sign bit, eleven bits
of exponent that are not all set and fifty-two bits of fraction follow each other in the word.
A number without exponent bits is subnormal, and any other has a one before its fraction. -/
inductive Denotes (x : Binary64) : ℚ → Prop
  | subnormal {sign fraction : Nat} : sign < 2 → fraction < 2 ^ 52 →
      x.bits.toNat = sign * 2 ^ 63 + fraction →
      Denotes x ((-1) ^ sign * (fraction / 2 ^ 52) * 2 ^ (-1022 : ℤ))
  | normal {sign exponent fraction : Nat} : sign < 2 → 0 < exponent → exponent < 2047 →
      fraction < 2 ^ 52 → x.bits.toNat = sign * 2 ^ 63 + exponent * 2 ^ 52 + fraction →
      Denotes x ((-1) ^ sign * (1 + fraction / 2 ^ 52) * 2 ^ ((exponent : ℤ) - 1023))

/-- The fields of a word that is put together from a sign, an exponent and a fraction. -/
theorem fields_of_word {x : Binary64} {sign exponent fraction : Nat} (hsign : sign < 2)
    (hexponent : exponent < 2047) (hfraction : fraction < 2 ^ 52)
    (h : x.bits.toNat = sign * 2 ^ 63 + exponent * 2 ^ 52 + fraction) :
  (x.isNegative ↔ sign = 1) ∧ x.exponentField = exponent ∧ x.fractionField = fraction
  := by
  rw [isNegative_iff, exponentField, fractionField, exponentUnit]
  omega

theorem toRat_of_sign {x : Binary64} {sign : Nat} (hsign : sign < 2)
    (h : x.isNegative ↔ sign = 1) :
  x.toRat = (-1) ^ sign * x.magnitude
  := by
  rw [toRat]
  obtain rfl | rfl : sign = 0 ∨ sign = 1 := by omega
  · rw [if_neg (by simp [h])]
    ring
  · rw [if_pos (by simp [h])]
    ring

theorem magnitude_of_subnormal {x : Binary64} (h : x.exponentField = 0) :
  x.magnitude = x.fractionField / 2 ^ 52 * 2 ^ (-1022 : ℤ)
  := by
  have hexponent : x.exponent = -1022 - (52 : ℕ) := by
    rw [exponent, h]
    decide
  rw [magnitude, significand, if_pos h, hexponent, zpow_sub₀ (by norm_num), zpow_natCast]
  ring

theorem magnitude_of_normal {x : Binary64} (h : 0 < x.exponentField) :
  x.magnitude = (1 + x.fractionField / 2 ^ 52) * 2 ^ ((x.exponentField : ℤ) - 1023)
  := by
  have hexponent : x.exponent = (x.exponentField : ℤ) - 1023 - (52 : ℕ) := by
    rw [exponent]
    omega
  have hunit : (exponentUnit : ℚ) = 2 ^ 52 := by
    norm_num [exponentUnit]
  rw [magnitude, significand, if_neg h.ne', hexponent, zpow_sub₀ (by norm_num), zpow_natCast,
    Nat.cast_add, hunit]
  field_simp

/-- What a word stands for is its rational number. -/
theorem Denotes.eq_toRat {x : Binary64} {q : ℚ} (h : x.Denotes q) :
  x.isFinite ∧ q = x.toRat
  := by
  cases h with
  | @subnormal sign fraction hsign hfraction hword =>
      have hfields : x.bits.toNat = sign * 2 ^ 63 + 0 * 2 ^ 52 + fraction := by
        rw [hword, Nat.zero_mul, Nat.add_zero]
      obtain ⟨hnegative, hexponent, rfl⟩ :=
        fields_of_word hsign (by decide) hfraction hfields
      constructor
      · simp [isFinite, hexponent]
      · rw [toRat_of_sign hsign hnegative, magnitude_of_subnormal hexponent, mul_assoc]
  | @normal sign exponent fraction hsign hpos hexponent hfraction hword =>
      obtain ⟨hnegative, rfl, rfl⟩ := fields_of_word hsign hexponent hfraction hword
      constructor
      · simpa [isFinite] using hexponent
      · rw [toRat_of_sign hsign hnegative, magnitude_of_normal hpos, mul_assoc]

/-- Every finite number stands for something. -/
theorem exists_denotes {x : Binary64} (h : x.isFinite) :
  ∃ q, x.Denotes q
  := by
  have hbits := x.bits.toNat_lt
  rw [isFinite_iff] at h
  have hsign : x.bits.toNat / 2 ^ 63 < 2 := by omega
  have hfraction : x.bits.toNat % 2 ^ 52 < 2 ^ 52 := by omega
  by_cases hexponent : x.bits.toNat / 2 ^ 52 % 2048 = 0
  · have hword : x.bits.toNat = x.bits.toNat / 2 ^ 63 * 2 ^ 63 + x.bits.toNat % 2 ^ 52 := by
      omega
    exact ⟨_, .subnormal hsign hfraction hword⟩
  · have hword : x.bits.toNat = x.bits.toNat / 2 ^ 63 * 2 ^ 63
        + x.bits.toNat / 2 ^ 52 % 2048 * 2 ^ 52 + x.bits.toNat % 2 ^ 52 := by
      omega
    exact ⟨_, .normal hsign (by omega) (by omega) hfraction hword⟩

theorem denotes_iff (x : Binary64) (q : ℚ) :
  x.Denotes q ↔ x.isFinite ∧ q = x.toRat
  := by
  constructor
  · apply Denotes.eq_toRat
  · rintro ⟨hfinite, rfl⟩
    obtain ⟨q, hq⟩ := exists_denotes hfinite
    rw [← hq.eq_toRat.2]
    apply hq

end Binary64

/-! ### Values -/

/-- An integer is put in the signed word of 64 bits whose integer it is, if there is one. -/
theorem Integer.toInt64?_eq_some_iff (n : Int) (m : Int64) :
  toInt64? n = some m ↔ n = m.toInt
  := by
  rw [toInt64?]
  constructor
  · intro h
    split at h
    · next hrange =>
        rw [Int64.toInt_minValue, Int64.toInt_maxValue] at hrange
        rw [← Option.some.inj h, Int64.toInt_ofInt_of_le hrange.1 (by omega)]
    · cases h
  · rintro rfl
    rw [if_pos ⟨m.minValue_le_toInt, m.toInt_le⟩, Int64.ofInt_toInt]

namespace Value

/-- The rational number that a number is; the infinities and what is no number are none. -/
def rational? : Value → Option ℚ
  | .int32 n => some n.toInt
  | .int64 n => some n.toInt
  | .double x => if x.isFinite then some x.toRat else none
  | _ => none

/-- The integer that a number is equal to is the one that its rational number is. -/
theorem integer?_eq_some_iff (v : Value) (n : Int64) :
  v.integer? = some n ↔ v.rational? = some (n.toInt : ℚ)
  := by
  cases v with
  | int32 m => simp [integer?, rational?, ← Int64.toInt_inj]
  | int64 m => simp [integer?, rational?, ← Int64.toInt_inj]
  | double x =>
      change (x.toInt?.bind Integer.toInt64?) = _ ↔ _
      simp [rational?, Option.bind_eq_some_iff, Binary64.toInt?_eq_some_iff,
        Integer.toInt64?_eq_some_iff]
  | _ => simp [integer?, rational?]

/-- The rational number that a number is, floating point numbers by the format of their
words. -/
inductive IsNumber : Value → ℚ → Prop
  | int32 (n : Int32) : IsNumber (.int32 n) n.toInt
  | int64 (n : Int64) : IsNumber (.int64 n) n.toInt
  | double {x : Binary64} {q : ℚ} : x.Denotes q → IsNumber (.double x) q

theorem isNumber_iff (v : Value) (q : ℚ) :
  v.IsNumber q ↔ v.rational? = some q
  := by
  constructor
  · intro h
    cases h with
    | int32 n => rfl
    | int64 n => rfl
    | double hdenotes =>
        obtain ⟨hfinite, rfl⟩ := hdenotes.eq_toRat
        rw [rational?, if_pos hfinite]
  · intro h
    cases v with
    | int32 n =>
        obtain rfl := Option.some.inj h
        apply IsNumber.int32
    | int64 n =>
        obtain rfl := Option.some.inj h
        apply IsNumber.int64
    | double x =>
        rw [rational?, Option.ite_none_right_eq_some] at h
        obtain ⟨hfinite, hq⟩ := h
        apply IsNumber.double
        apply (x.denotes_iff q).mpr ⟨hfinite, (Option.some.inj hq).symm⟩
    | _ => cases h

/-- A number is greater than zero. -/
def IsPositive (v : Value) : Prop :=
  v = .double .infinity ∨ ∃ q, v.rational? = some q ∧ 0 < q

/-- A number is greater than zero when the floating point number nearest to it is. -/
theorem isPositive_iff_any (v : Value) :
  v.IsPositive ↔ v.real?.any Binary64.isPositive
  := by
  cases v with
  | int32 m => simp [IsPositive, real?, rational?, Binary64.isPositive_ofInt_iff]
  | int64 m => simp [IsPositive, real?, rational?, Binary64.isPositive_ofInt_iff]
  | double x => simp [IsPositive, real?, rational?, Binary64.isPositive_iff]
  | _ => simp [IsPositive, real?, rational?]

instance (v : Value) : Decidable v.IsPositive :=
  decidable_of_iff _ v.isPositive_iff_any.symm

end Value

end MongoQuery
