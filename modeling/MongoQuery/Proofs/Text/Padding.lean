import Mathlib.Data.List.DropRight
import Mathlib.Tactic.Use
import MongoQuery.Text.Parts

/-!
# Padded texts

What is left of a text when the white space at its ends is taken away has the text for a
padding, and of a run of characters none of which is white space every padding is cut back to
the run itself.
-/

namespace MongoQuery.Text

/-- A text is a run of characters with white space before and behind it. -/
def Pads (core : List Char) (text : String) : Prop :=
  ∃ lead trail, (∀ c ∈ lead, isBlank c) ∧ (∀ c ∈ trail, isBlank c)
    ∧ text.toList = lead ++ core ++ trail

theorem toList_trim (text : String) :
  (trim text).toList = (text.toList.dropWhile isBlank).rdropWhile isBlank
  := by
  rw [trim, String.toList_ofList, List.rdropWhile]

/-- Taking the white space away leaves what the text pads. -/
theorem pads_trim (text : String) :
  Pads (trim text).toList text
  := by
  use text.toList.takeWhile isBlank, (text.toList.dropWhile isBlank).rtakeWhile isBlank
  constructor
  · intro c hc
    apply List.mem_takeWhile_imp hc
  constructor
  · intro c hc
    apply List.mem_rtakeWhile_imp hc
  · rw [toList_trim, List.append_assoc, List.rdropWhile_append_rtakeWhile,
      List.takeWhile_append_dropWhile]

/-- Where no character of a run is dropped, what is dropped stands before it. -/
theorem dropWhile_append_of_forall {p : Char → Bool} {lead core : List Char}
    (hlead : ∀ c ∈ lead, p c) (hcore : ∀ c ∈ core, ¬ p c) :
  (lead ++ core).dropWhile p = core
  := by
  rw [List.dropWhile_append_of_pos hlead]
  cases core with
  | nil => rfl
  | cons c rest => rw [List.dropWhile_cons_of_neg (hcore c List.mem_cons_self)]

/-- A padding of characters that are not white space is cut back to these. -/
theorem toList_trim_of_pads {core : List Char} {text : String} (hcore : ∀ c ∈ core, ¬ isBlank c)
    (h : Pads core text) :
  (trim text).toList = core
  := by
  obtain ⟨lead, trail, hlead, htrail, htext⟩ := h
  rw [toList_trim, htext, List.append_assoc, List.dropWhile_append_of_pos hlead]
  cases core with
  | nil => rw [List.nil_append, List.dropWhile_eq_nil_iff.mpr htrail, List.rdropWhile_nil]
  | cons c rest =>
      rw [List.cons_append, List.dropWhile_cons_of_neg (hcore c List.mem_cons_self),
        ← List.cons_append, List.rdropWhile, List.reverse_append, dropWhile_append_of_forall,
        List.reverse_reverse]
      · intro c hc
        apply htrail c (List.mem_reverse.mp hc)
      · intro c hc
        apply hcore c (List.mem_reverse.mp hc)

end MongoQuery.Text
