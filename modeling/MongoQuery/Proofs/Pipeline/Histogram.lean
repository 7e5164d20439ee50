import MongoQuery.Proofs.Number.WholePart
import MongoQuery.Proofs.Pipeline.Layout

/-!
# Histograms

A level with a width puts a number into the bucket of a multiple of the width: the number is
divided by the width, cut to its whole part and multiplied by the width again.  The whole part
is cut toward zero, so the buckets below zero mirror those above it and the one at zero is as
wide as two others.

Main statement: read with exact rational numbers, the expression that a level with a width
writes cuts every number toward zero to a multiple of the width.
-/

namespace MongoQuery

/-! ### Keys of a width -/

/-- Multiples of a width, as many as the count for each number, cut the numbers toward zero. -/
structure CutsTowardZero (width : ℚ) (count : ℚ → ℤ) : Prop where
  /-- A key is no further from zero than its number. -/
  abs_le : ∀ v, |count v * width| ≤ |v|
  /-- The number is less than a width further from zero. -/
  abs_lt : ∀ v, |v| < |count v * width| + width
  /-- A key that is not zero is on the side of its number. -/
  side : ∀ v, count v * width = 0 ∨ 0 < count v * width ∧ 0 < v ∨ count v * width < 0 ∧ v < 0
  mono : ∀ u v, u ≤ v → count u * width ≤ count v * width
  /-- A key is its own key. -/
  again : ∀ v, count (count v * width) * width = count v * width
  /-- Numbers have the same key when the multiples are the same. -/
  same_iff : ∀ u v, count u * width = count v * width ↔ count u = count v
  /-- The key is zero between the first two multiples on both sides of zero. -/
  zero_iff : ∀ v, count v * width = 0 ↔ |v| < width

/-- Whole parts of the quotients cut numbers toward zero. -/
theorem cutsTowardZero_wholePart {w : ℚ} (h : 0 < w) :
  CutsTowardZero w fun v => wholePart (v / w)
  where
  abs_le v := by
    rw [abs_mul, abs_wholePart, abs_of_pos h, ← le_div_iff₀ h, abs_div, abs_of_pos h]
    apply Int.floor_le
  abs_lt v := by
    rw [abs_mul, abs_wholePart, abs_of_pos h, ← add_one_mul, ← div_lt_iff₀ h, abs_div,
      abs_of_pos h]
    apply Int.lt_floor_add_one
  side v := by
    rcases wholePart_side (v / w) with hzero | ⟨hcount, hv⟩ | ⟨hcount, hv⟩
    · left
      rw [hzero, Int.cast_zero, zero_mul]
    · right
      left
      use mul_pos (Int.cast_pos.mpr hcount) h, (div_pos_iff_of_pos_right h).mp hv
    · right
      right
      use mul_neg_of_neg_of_pos (Int.cast_lt_zero.mpr hcount) h
      rw [div_lt_iff₀ h, zero_mul] at hv
      apply hv
  mono u v huv := by
    apply mul_le_mul_of_nonneg_right _ h.le
    exact_mod_cast wholePart_mono (div_le_div_of_nonneg_right huv h.le)
  again v := by
    rw [mul_div_cancel_right₀ _ h.ne', wholePart_intCast]
  same_iff u v := by
    rw [mul_left_inj' h.ne', Int.cast_inj]
  zero_iff v := by
    rw [mul_eq_zero_iff_right h.ne', Int.cast_eq_zero, wholePart_eq_zero_iff, abs_div,
      abs_of_pos h, div_lt_one h]

/-! ### Exact values of written expressions -/

/-- What an operator gives from exact numbers. -/
def operateExactly : String → List (Option ℚ) → Option ℚ
  | "$multiply", [some p, some q] => some (p * q)
  | "$divide", [some p, some q] => if q = 0 then none else some (p / q)
  | "$trunc", [some q] => some (wholePart q)
  | _, _ => none

namespace Value

mutual

/-- The exact number that a written expression has, given the numbers at paths. -/
def exactly (numberAt : String → Option ℚ) : Value → Option ℚ
  | .string text =>
    match text.toList with
    | '$' :: path => numberAt (String.ofList path)
    | _ => none
  | .document [(name, arg)] =>
    match arg with
    | .array items => operateExactly name (exactItems numberAt items)
    | v => operateExactly name [exactly numberAt v]
  | v => v.rational?

/-- The exact numbers of written expressions. -/
def exactItems (numberAt : String → Option ℚ) : List Value → List (Option ℚ)
  | [] => []
  | v :: rest => exactly numberAt v :: exactItems numberAt rest

end

/-- A reference has the number at its path. -/
theorem exactly_reference (numberAt : String → Option ℚ) (path : String) :
  exactly numberAt (Layout.reference path) = numberAt path
  := by
  rw [Layout.reference, exactly, String.toList_append]
  simp

/-- A finite floating point number is itself. -/
theorem exactly_double (numberAt : String → Option ℚ) {x : Binary64} {q : ℚ} (h : x.Denotes q) :
  exactly numberAt (.double x) = some q
  := by
  have hrational : (double x).rational? = some q := by
    rw [← isNumber_iff]
    apply IsNumber.double h
  simp [exactly, hrational]

/-! The operators of the expressions, whose arguments have numbers. -/

variable {numberAt : String → Option ℚ} {e f : Value} {p q : ℚ}

theorem exactly_multiply (he : e.exactly numberAt = some p) (hf : f.exactly numberAt = some q) :
  exactly numberAt (.document (Document.single "$multiply" (.array [e, f]))) = some (p * q)
  := by
  rw [Document.single, exactly, exactItems, exactItems, exactItems, he, hf, operateExactly]

theorem exactly_divide (he : e.exactly numberAt = some p) (hf : f.exactly numberAt = some q)
    (hq : q ≠ 0) :
  exactly numberAt (.document (Document.single "$divide" (.array [e, f]))) = some (p / q)
  := by
  rw [Document.single, exactly, exactItems, exactItems, exactItems, he, hf, operateExactly,
    if_neg hq]

theorem exactly_truncate {fields : Document}
    (he : exactly numberAt (.document fields) = some q) :
  exactly numberAt (.document (Document.single "$trunc" (.document fields)))
    = some (wholePart q : ℚ)
  := by
  rw [Document.single, exactly, he, operateExactly]
  intro items h
  cases h

end Value

/-! ### The expression of a level -/

namespace Layout

/-- The expression of the multiple of a width at which a component is cut. -/
def multiple (index : Nat) (width : Binary64) : Value :=
  .document (Document.single "$multiply" (.array
    [.document (Document.single "$trunc" (.document (Document.single "$divide"
      (.array [reference (component index), .double width])))), .double width]))

theorem rounding_eq (depth index : Nat) (width : Binary64) :
  rounding depth index width = replacing depth index (multiple index width)
  := by
  rfl

/-- The expression is the width as many times as the whole part of the quotient says. -/
theorem exactly_multiple {index : Nat} {width : Binary64} {w v : ℚ} (hwidth : width.Denotes w)
    (hpos : 0 < w) {numberAt : String → Option ℚ} (hv : numberAt (component index) = some v) :
  (multiple index width).exactly numberAt = some (wholePart (v / w) * w)
  := by
  have hdouble := Value.exactly_double numberAt hwidth
  apply Value.exactly_multiply _ hdouble
  apply Value.exactly_truncate
  apply Value.exactly_divide _ hdouble hpos.ne'
  rw [Value.exactly_reference, hv]

end Layout

namespace BucketSpec

/-- What a level does before those within it is part of the pipeline. -/
theorem opening_subset {spec : BucketSpec} {index : Nat} {level : Level}
    (h : spec.levels[index]? = some level) :
  Layout.opening spec.depth index level ⊆ spec.stages.map Stage.toDocument
  := by
  have hlength : 0 + spec.levels.length = spec.depth := Nat.zero_add spec.levels.length
  have hmem : (level, index) ∈ spec.levels.zipIdx := by
    apply List.mk_mem_zipIdx_iff_getElem?.mpr h
  rw [← Level.map_toDocument_keyStages]
  apply List.map_subset
  intro stage hstage
  rw [stages, levelStages_eq_flatMap _ _ _ hlength]
  apply List.mem_append_left
  apply List.mem_cons_of_mem
  apply List.mem_append_left
  apply List.mem_flatMap.mpr
  use (level, index), hmem

/-! ### The main statement -/

/-- In the pipeline of a specification the component of a level with a width is replaced by an
expression whose exact value is a multiple of the width, for every number in the component, and
these multiples cut the numbers toward zero. -/
theorem histogram_cuts (spec : BucketSpec) {index : Nat} {level : Level} {width : Binary64}
    {w : ℚ} (hlevel : spec.levels[index]? = some level)
    (hbucketing : level.bucketing = .histogram width) (hwidth : width.Denotes w) (hpos : 0 < w) :
  Layout.replacing spec.depth index (Layout.multiple index width)
      ∈ spec.stages.map Stage.toDocument
    ∧ ∃ count : ℚ → ℤ, CutsTowardZero w count
      ∧ ∀ (numberAt : String → Option ℚ) (v : ℚ), numberAt (Layout.component index) = some v →
        (Layout.multiple index width).exactly numberAt = some (count v * w)
  := by
  constructor
  · apply opening_subset hlevel
    rw [← Layout.rounding_eq, Layout.opening, hbucketing]
    apply List.mem_append_right _ List.mem_cons_self
  · use fun v => wholePart (v / w), cutsTowardZero_wholePart hpos
    intro numberAt v hv
    apply Layout.exactly_multiple hwidth hpos hv

/-- The floating point number two and a half. -/
def twoAndHalf : Binary64 := ⟨0x4004000000000000⟩

theorem denotes_twoAndHalf :
  twoAndHalf.Denotes (5 / 2)
  := by
  have hdenotes := @Binary64.Denotes.normal twoAndHalf 0 1024 (2 ^ 50) (by decide) (by decide)
    (by decide) (by decide) (by decide +kernel)
  norm_num at hdenotes
  apply hdenotes

/-- Temperatures by the stations where they were taken. -/
def temperatures : BucketSpec :=
  ⟨⟨"station", none, none, .raw⟩, [⟨"temperature", none, none, .histogram twoAndHalf⟩]⟩

/-- The key of minus two is zero when buckets are two and a half wide. -/
theorem histogram_cuts_temperatures :
  temperatures.levels[1]? = some ⟨"temperature", none, none, .histogram twoAndHalf⟩
    ∧ twoAndHalf.Denotes (5 / 2) ∧ (0 : ℚ) < 5 / 2
    ∧ Layout.replacing 2 1 (Layout.multiple 1 twoAndHalf)
      ∈ temperatures.stages.map Stage.toDocument
    ∧ (Layout.multiple 1 twoAndHalf).exactly (fun _ => some (-2)) = some 0
  := by
  have hpos : (0 : ℚ) < 5 / 2 := by norm_num
  obtain ⟨hmem, count, hcuts, hvalue⟩ :=
    @histogram_cuts temperatures 1 _ _ _ rfl rfl denotes_twoAndHalf hpos
  use rfl, denotes_twoAndHalf, hpos, hmem
  rw [hvalue _ (-2) rfl, (hcuts.zero_iff (-2)).mpr]
  rw [abs_neg, abs_two]
  norm_num

end BucketSpec

end MongoQuery
