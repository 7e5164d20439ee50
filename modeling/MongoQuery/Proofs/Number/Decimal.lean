import Mathlib.Data.List.Induction
import Mathlib.Tactic.Use
import MongoQuery.Proofs.Number.Rational

/-!
# Decimal texts of integers

A run of digits is the digits of the number that it writes behind some zeros.  So the texts
that are read as an integer are the decimal digits of its magnitude with any number of zeros in
front and before these a sign, of which zero may have either and a positive number may have
none.
-/

namespace MongoQuery

namespace Digit

theorem value_append_single (digits : List Digit) (d : Digit) :
  value (digits ++ [d]) = 10 * value digits + d.val
  := by
  rw [value, List.foldl_append, ← value]
  rfl

/-- Zeros in front do not count. -/
theorem value_replicate_append (zeros : Nat) (digits : List Digit) :
  value (List.replicate zeros 0 ++ digits) = value digits
  := by
  induction zeros with
  | zero => rfl
  | succ zeros ih =>
      rw [List.replicate_succ, List.cons_append, value, List.foldl_cons]
      apply ih

theorem ofNat_zero :
  ofNat 0 = [0]
  := ofNat_val 0

theorem ofNat_ne_nil (n : Nat) :
  ofNat n ≠ []
  := by
  intro h
  have hvalue := value_ofNat n
  rw [h] at hvalue
  rw [← hvalue, value, List.foldl_nil, ofNat_zero] at h
  cases h

/-- A run of digits is those of its number behind some zeros. -/
theorem exists_eq_replicate_append {digits : List Digit} (h : digits ≠ []) :
  ∃ zeros, digits = List.replicate zeros 0 ++ ofNat (value digits)
  := by
  induction digits using List.reverseRecOn with
  | nil => contradiction
  | append_singleton rest d ih =>
    rw [value_append_single]
    by_cases hrest : rest = []
    · use 0
      rw [hrest, value, List.foldl_nil, Nat.mul_zero, Nat.zero_add, ofNat_val]
      rfl
    · obtain ⟨zeros, hzeros⟩ := ih hrest
      by_cases hvalue : value rest = 0
      · -- All the digits before the last one are zeros.
        use zeros + 1
        rw [hvalue, Nat.mul_zero, Nat.zero_add, ofNat_val, List.replicate_succ']
        rw [hvalue, ofNat_zero] at hzeros
        rw [hzeros]
      · use zeros
        rw [ofNat_ten_mul_add (Nat.pos_of_ne_zero hvalue), ← List.append_assoc, ← hzeros]

theorem text_replicate_append (zeros : Nat) (digits : List Digit) :
  text (List.replicate zeros 0 ++ digits) = List.replicate zeros '0' ++ text digits
  := by
  rw [text, List.map_append, List.map_replicate]
  rfl

/-! ### Texts of a fixed width -/

/-- Texts are in the order of their first digits, and where these are the same what follows
decides. -/
theorem toChar_cons_lt_iff (d e : Digit) (cs ds : List Char) :
  d.toChar :: cs < e.toChar :: ds ↔ d.val < e.val ∨ d.val = e.val ∧ cs < ds
  := by
  have hlt : ∀ d e : Digit, d.toChar < e.toChar ↔ d.val < e.val := by decide
  have heq : ∀ d e : Digit, d.toChar = e.toChar ↔ d.val = e.val := by decide
  rw [List.cons_lt_cons_iff, hlt, heq]

theorem padded_one (d : Digit) :
  padded 1 d.val = [d.toChar]
  := by
  rw [padded, ofNatText, ofNat_val]
  rfl

/-- In a wider text the last digit stands behind the text of the others. -/
theorem padded_add_one {width : Nat} (h : 0 < width) (n : Nat) (d : Digit) :
  padded (width + 1) (10 * n + d.val) = padded width n ++ [d.toChar]
  := by
  unfold padded ofNatText
  rcases Nat.eq_zero_or_pos n with rfl | hn
  · obtain ⟨k, rfl⟩ := Nat.exists_eq_add_of_lt h
    rw [Nat.mul_zero, Nat.zero_add, ofNat_val, ofNat_zero, text, text]
    simp [List.replicate_succ', toChar]
  · have hlength : width + 1 - ((ofNat n).length + 1) = width - (ofNat n).length := by omega
    rw [ofNat_ten_mul_add hn, text, text]
    simp [hlength]

/-- Texts of the same width are in the order of their numbers, and where the numbers are the same
what follows decides. -/
theorem padded_append_lt_iff {width m n : Nat} (h : 0 < width) (hm : m < 10 ^ width)
    (hn : n < 10 ^ width) (cs ds : List Char) :
  padded width m ++ cs < padded width n ++ ds ↔ m < n ∨ m = n ∧ cs < ds
  := by
  induction width generalizing m n cs ds with
  | zero => contradiction
  | succ width ih =>
      obtain ⟨m, d, rfl⟩ : ∃ (k : Nat) (d : Digit), m = 10 * k + d.val :=
        ⟨m / 10, ⟨m % 10, Nat.mod_lt m (by decide)⟩, by dsimp only; omega⟩
      obtain ⟨n, e, rfl⟩ : ∃ (k : Nat) (e : Digit), n = 10 * k + e.val :=
        ⟨n / 10, ⟨n % 10, Nat.mod_lt n (by decide)⟩, by dsimp only; omega⟩
      rcases Nat.eq_zero_or_pos width with rfl | hwidth
      · obtain rfl : m = 0 := by omega
        obtain rfl : n = 0 := by omega
        simp only [Nat.mul_zero, Nat.zero_add]
        rw [padded_one, padded_one, List.singleton_append, List.singleton_append,
          toChar_cons_lt_iff]
      · rw [padded_add_one hwidth, padded_add_one hwidth, List.append_assoc, List.append_assoc,
          ih hwidth (by omega) (by omega), List.singleton_append, List.singleton_append,
          toChar_cons_lt_iff]
        by_cases hrest : cs < ds
        · simp only [hrest, and_true]
          omega
        · simp only [hrest, and_false, or_false]
          omega

end Digit

namespace Integer

/-- The signs that can stand before an integer. -/
inductive SignOf (n : Int) : List Char → Prop
  | minus : n ≤ 0 → SignOf n ['-']
  | plus : 0 ≤ n → SignOf n ['+']
  | none : 0 ≤ n → SignOf n []

/-- A text spells an integer: a sign that it can have, zeros, and the digits of its magnitude. -/
def SpelledBy (n : Int) (cs : List Char) : Prop :=
  ∃ sign zeros, SignOf n sign
    ∧ cs = sign ++ (List.replicate zeros '0' ++ Digit.ofNatText n.natAbs)

theorem SignOf.mem {n : Int} {sign : List Char} (h : SignOf n sign) :
  ∀ c ∈ sign, c = '-' ∨ c = '+'
  := by
  cases h <;> simp

/-- The texts that are read as an integer are those that spell it. -/
theorem ofChars?_eq_some_iff_spelledBy (cs : List Char) (n : Int) :
  ofChars? cs = some n ↔ SpelledBy n cs
  := by
  rw [ofChars?_eq_some_iff]
  constructor
  · rintro ⟨digits, hne, hcs⟩
    obtain ⟨zeros, hzeros⟩ := Digit.exists_eq_replicate_append hne
    have htext : Digit.text digits
        = List.replicate zeros '0' ++ Digit.ofNatText (Digit.value digits) := by
      rw [Digit.ofNatText, ← Digit.text_replicate_append, ← hzeros]
    rcases hcs with ⟨rfl, rfl⟩ | ⟨rfl | rfl, rfl⟩
    · use ['-'], zeros, .minus (by omega)
      rw [Int.natAbs_neg, Int.natAbs_natCast, ← htext]
      rfl
    · use ['+'], zeros, .plus (by omega)
      rw [Int.natAbs_natCast, ← htext]
      rfl
    · use [], zeros, .none (by omega)
      rw [Int.natAbs_natCast, ← htext]
      rfl
  · rintro ⟨sign, zeros, hsign, rfl⟩
    use List.replicate zeros 0 ++ Digit.ofNat n.natAbs
    rw [Digit.value_replicate_append, Digit.value_ofNat, Digit.text_replicate_append]
    constructor
    · apply List.append_ne_nil_of_right_ne_nil _ (Digit.ofNat_ne_nil _)
    · cases hsign with
      | minus h =>
          left
          use rfl
          omega
      | plus h =>
          right
          use .inl rfl
          omega
      | none h =>
          right
          use .inr rfl
          omega

/-- The texts that are read as a word are those that spell its integer. -/
theorem int64OfText?_eq_some_iff (text : String) (w : Int64) :
  int64OfText? text = some w ↔ SpelledBy w.toInt text.toList
  := by
  rw [int64OfText?, Option.bind_eq_bind, Option.bind_eq_some_iff]
  simp only [toInt64?_eq_some_iff, exists_eq_right, ofText?, ofChars?_eq_some_iff_spelledBy]

end Integer

end MongoQuery
