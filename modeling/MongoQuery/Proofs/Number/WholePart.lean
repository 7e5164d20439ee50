import Mathlib.Data.Rat.Floor
import MongoQuery.Proofs.Number.Rational

/-!
# Whole parts

A rational number is cut to its whole part toward zero.  A floating point number counts as an
integer of 64 bits when it is finite, nothing stands behind its whole part and it lies between
the two ends of the signed range as they are rounded to floating point numbers: the upper end
is rounded up, and so is left out itself.

Main statement: the integer that a floating point number is read as is its whole part, and it is
read as one when it passes these tests.
-/

namespace MongoQuery

/-- The whole part of a number: the integer next to it on the side of zero. -/
def wholePart (q : ℚ) : ℤ :=
  if 0 ≤ q then ⌊q⌋ else ⌈q⌉

theorem wholePart_of_nonneg {q : ℚ} (h : 0 ≤ q) :
  wholePart q = ⌊q⌋
  := by
  rw [wholePart, if_pos h]

/-- Whole parts mirror each other at zero. -/
theorem wholePart_neg (q : ℚ) :
  wholePart (-q) = -wholePart q
  := by
  rw [wholePart, wholePart]
  rcases lt_trichotomy q 0 with hneg | rfl | hpos
  · rw [if_pos (by linarith), if_neg (by linarith), Int.floor_neg]
  · simp
  · rw [if_neg (by linarith), if_pos (by linarith), Int.ceil_neg]

theorem wholePart_intCast (n : ℤ) :
  wholePart n = n
  := by
  rw [wholePart, Int.floor_intCast, Int.ceil_intCast, ite_self]

theorem wholePart_nonneg {q : ℚ} (h : 0 ≤ q) :
  0 ≤ wholePart q
  := by
  rw [wholePart_of_nonneg h]
  apply Int.floor_nonneg.mpr h

theorem wholePart_nonpos {q : ℚ} (h : q ≤ 0) :
  wholePart q ≤ 0
  := by
  have hneg := wholePart_nonneg (neg_nonneg.mpr h)
  rw [wholePart_neg] at hneg
  linarith

theorem wholePart_mono {p q : ℚ} (h : p ≤ q) :
  wholePart p ≤ wholePart q
  := by
  rcases le_total 0 p with hp | hp
  · rw [wholePart_of_nonneg hp, wholePart_of_nonneg (hp.trans h)]
    apply Int.floor_mono h
  · rcases le_total 0 q with hq | hq
    · apply (wholePart_nonpos hp).trans (wholePart_nonneg hq)
    · -- Both are on the left of zero, where the order is that of the mirrored numbers.
      have hfloor := Int.floor_mono (neg_le_neg h)
      rw [← wholePart_of_nonneg (neg_nonneg.mpr hp), ← wholePart_of_nonneg (neg_nonneg.mpr hq),
        wholePart_neg, wholePart_neg] at hfloor
      linarith

/-- The magnitude of the whole part is the whole part of the magnitude. -/
theorem abs_wholePart (q : ℚ) :
  |(wholePart q : ℚ)| = ⌊|q|⌋
  := by
  rcases le_total 0 q with hq | hq
  · rw [abs_of_nonneg hq, wholePart_of_nonneg hq, abs_of_nonneg]
    exact_mod_cast Int.floor_nonneg.mpr hq
  · rw [abs_of_nonpos hq, ← wholePart_of_nonneg (neg_nonneg.mpr hq), wholePart_neg, abs_of_nonpos]
    · push_cast
      rfl
    · exact_mod_cast wholePart_nonpos hq

/-- A whole part that is not zero is on the side of its number. -/
theorem wholePart_side (q : ℚ) :
  wholePart q = 0 ∨ 0 < wholePart q ∧ 0 < q ∨ wholePart q < 0 ∧ q < 0
  := by
  rcases lt_trichotomy q 0 with hneg | rfl | hpos
  · rcases (wholePart_nonpos hneg.le).lt_or_eq with hlt | heq
    · right
      right
      use hlt
    · left
      apply heq
  · left
    apply wholePart_intCast 0
  · rcases (wholePart_nonneg hpos.le).lt_or_eq with hlt | heq
    · right
      left
      use hlt
    · left
      apply heq.symm

theorem wholePart_eq_zero_iff (q : ℚ) :
  wholePart q = 0 ↔ |q| < 1
  := by
  rw [← Int.cast_eq_zero (α := ℚ), ← abs_eq_zero, abs_wholePart, Int.cast_eq_zero,
    Int.floor_eq_zero_iff, Set.mem_Ico]
  simp

/-! ### Integers of 64 bits -/

namespace Binary64

theorem ofInt_minValue :
  ofInt Int64.minValue.toInt = ⟨0xc3e0000000000000⟩
  := by
  decide +kernel

/-- The greatest integer of the signed range is rounded to the one after it. -/
theorem ofInt_maxValue :
  ofInt Int64.maxValue.toInt = ⟨0x43e0000000000000⟩
  := by
  decide +kernel

theorem toRat_ofInt_minValue :
  (ofInt Int64.minValue.toInt).toRat = -9223372036854775808
  := by
  have hdenotes := @Denotes.normal ⟨0xc3e0000000000000⟩ 1 1086 0 (by decide) (by decide)
    (by decide) (by decide) (by decide +kernel)
  rw [ofInt_minValue, ← hdenotes.eq_toRat.2]
  norm_num

theorem toRat_ofInt_maxValue :
  (ofInt Int64.maxValue.toInt).toRat = 9223372036854775808
  := by
  have hdenotes := @Denotes.normal ⟨0x43e0000000000000⟩ 0 1086 0 (by decide) (by decide)
    (by decide) (by decide) (by decide +kernel)
  rw [ofInt_maxValue, ← hdenotes.eq_toRat.2]
  norm_num

/-- A number is finite, nothing stands behind its whole part, and it is not below the rounded
lower end of the signed range and below the rounded upper end. -/
def IsWhole64 (x : Binary64) : Prop :=
  x.isFinite ∧ x.toRat - wholePart x.toRat = 0
    ∧ (ofInt Int64.minValue.toInt).toRat ≤ x.toRat
    ∧ x.toRat < (ofInt Int64.maxValue.toInt).toRat

instance (x : Binary64) : Decidable x.IsWhole64 :=
  inferInstanceAs (Decidable (_ ∧ _ ∧ _ ∧ _))

theorem isWhole64_iff (x : Binary64) :
  x.IsWhole64 ↔ x.isFinite ∧ ∃ n : Int64, x.toRat = n.toInt
  := by
  rw [IsWhole64, toRat_ofInt_minValue, toRat_ofInt_maxValue, sub_eq_zero]
  constructor
  · rintro ⟨hfinite, hwhole, hmin, hmax⟩
    use hfinite, Int64.ofInt (wholePart x.toRat)
    rw [hwhole] at hmin hmax
    have hmin' : -9223372036854775808 ≤ wholePart x.toRat := by exact_mod_cast hmin
    have hmax' : wholePart x.toRat < 9223372036854775808 := by exact_mod_cast hmax
    rw [Int64.toInt_ofInt_of_le hmin' hmax']
    apply hwhole
  · rintro ⟨hfinite, n, hn⟩
    have hmin := n.le_toInt
    have hmax := n.toInt_lt
    rw [hn, wholePart_intCast]
    refine ⟨hfinite, rfl, ?_, ?_⟩
    · exact_mod_cast hmin
    · exact_mod_cast hmax

end Binary64

/-- A floating point number is read as its whole part, where it passes the tests of an integer
of 64 bits. -/
theorem Value.integer?_double (x : Binary64) :
  (double x).integer? = if x.IsWhole64 then some (Int64.ofInt (wholePart x.toRat)) else none
  := by
  ext n
  rw [integer?_eq_some_iff, Option.ite_none_right_eq_some,
    Binary64.isWhole64_iff, rational?, Option.ite_none_right_eq_some]
  constructor
  · rintro ⟨hfinite, hn⟩
    obtain hn := Option.some.inj hn
    use ⟨hfinite, n, hn⟩
    rw [hn, wholePart_intCast, Int64.ofInt_toInt]
  · rintro ⟨⟨hfinite, m, hm⟩, hn⟩
    rw [hm, wholePart_intCast, Int64.ofInt_toInt] at hn
    obtain rfl := Option.some.inj hn
    use hfinite
    rw [hm]

end MongoQuery
