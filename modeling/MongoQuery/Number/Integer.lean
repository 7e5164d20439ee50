import MongoQuery.Number.Digit

/-!
# Integers as text

An integer is written as a minus sign, when it is negative, and its digits.  It is read
more freely: either sign may stand in front and the digits may start with zeros, but
nothing else may stand beside them.  The fixed-width readings refuse what is out of range.
-/

namespace MongoQuery.Integer

/-- The decimal text of an integer. -/
def text (n : Int) : String :=
  let digits := Digit.ofNatText n.natAbs
  String.ofList (if n < 0 then '-' :: digits else digits)

private def magnitude? (cs : List Char) : Option Nat :=
  match Digit.scan cs with
  | ([], _) => none
  | (digits, []) => some (Digit.value digits)
  | (_, _ :: _) => none

/-- The integer that a run of characters writes. -/
def ofChars? : List Char → Option Int
  | '-' :: cs => (magnitude? cs).map fun n => -(n : Int)
  | '+' :: cs => (magnitude? cs).map fun n => (n : Int)
  | cs => (magnitude? cs).map fun n => (n : Int)

private theorem map_magnitude?_eq_some_iff (f : Int → Int) (cs : List Char) (n : Int) :
  (magnitude? cs >>= fun m => pure (m : Int)).map f = some n
    ↔ ∃ digits, digits ≠ [] ∧ cs = Digit.text digits ∧ n = f (Digit.value digits)
  := by
  constructor
  · intro h
    obtain ⟨_, hm, rfl⟩ := Option.map_eq_some_iff.mp h
    obtain ⟨m, hm, hcast⟩ := Option.bind_eq_some_iff.mp hm
    cases hcast
    unfold magnitude? at hm
    split at hm
    · cases hm
    · next digits hne hscan =>
        cases hm
        refine ⟨digits, hne, ?_, rfl⟩
        rw [Digit.text_append_of_scan hscan, List.append_nil]
    · cases hm
  · rintro ⟨digits, hne, rfl, rfl⟩
    rw [magnitude?, Digit.scan_text]
    cases digits with
    | nil => exact absurd rfl hne
    | cons d rest => rfl

/-- An integer is read from a run of digits behind a sign of either kind or none. -/
theorem ofChars?_eq_some_iff (cs : List Char) (n : Int) :
  ofChars? cs = some n
    ↔ ∃ digits, digits ≠ []
      ∧ (cs = '-' :: Digit.text digits ∧ n = -(Digit.value digits : Int)
        ∨ (cs = '+' :: Digit.text digits ∨ cs = Digit.text digits)
          ∧ n = (Digit.value digits : Int))
  := by
  constructor
  · intro h
    unfold ofChars? at h
    split at h
    · obtain ⟨digits, hne, rfl, hn⟩ := (map_magnitude?_eq_some_iff _ _ n).mp h
      exact ⟨digits, hne, .inl ⟨rfl, hn⟩⟩
    · obtain ⟨digits, hne, rfl, hn⟩ := (map_magnitude?_eq_some_iff _ _ n).mp h
      exact ⟨digits, hne, .inr ⟨.inl rfl, hn⟩⟩
    · obtain ⟨digits, hne, rfl, hn⟩ := (map_magnitude?_eq_some_iff _ _ n).mp h
      exact ⟨digits, hne, .inr ⟨.inr rfl, hn⟩⟩
  · rintro ⟨digits, hne, ⟨rfl, hn⟩ | ⟨rfl | rfl, hn⟩⟩
    · exact (map_magnitude?_eq_some_iff _ _ n).mpr ⟨digits, hne, rfl, hn⟩
    · exact (map_magnitude?_eq_some_iff _ _ n).mpr ⟨digits, hne, rfl, hn⟩
    · -- No digit is a sign.
      rw [ofChars?]
      · exact (map_magnitude?_eq_some_iff _ _ n).mpr ⟨digits, hne, rfl, hn⟩
      · intro cs hminus
        apply Digit.text_ne_cons (by decide) _ _ hminus
      · intro cs hplus
        apply Digit.text_ne_cons (by decide) _ _ hplus

/-- The integer that a text writes. -/
def ofText? (text : String) : Option Int :=
  ofChars? text.toList

/-- An integer as a signed word of 64 bits, where it fits. -/
def toInt64? (n : Int) : Option Int64 :=
  if Int64.minValue.toInt ≤ n ∧ n ≤ Int64.maxValue.toInt then some (Int64.ofInt n) else none

/-- An integer as a signed word of 32 bits, where it fits. -/
def toInt32? (n : Int) : Option Int32 :=
  if Int32.minValue.toInt ≤ n ∧ n ≤ Int32.maxValue.toInt then some (Int32.ofInt n) else none

/-- The signed word of 64 bits that a text writes. -/
def int64OfText? (text : String) : Option Int64 :=
  ofText? text >>= toInt64?

/-- The signed word of 32 bits that a text writes. -/
def int32OfText? (text : String) : Option Int32 :=
  ofText? text >>= toInt32?

end MongoQuery.Integer
