import Mathlib.Data.List.Nodup
import MongoQuery.Proofs.Filter.Combination

/-!
# The two ways to attach a condition to a field

A condition is attached to a field by the clause of its fragment, or as the only condition of
a group.  The group spells the parts of an outermost conjunction out as its own clauses, which
comes to the same clause unless there are no parts, when it says nothing at all.  An outermost
choice becomes the only clause of its conjunction.

Main statement: the two documents are the same exactly when the condition is no choice and no
conjunction without parts, and they always hold under the same tests.
-/

namespace MongoQuery

namespace Fragment

variable (field : String)

theorem group_single_direct (v : Value) :
  group [(field, .direct v)] = attach field (.direct v)
  := by
  rfl

/-- The clauses of the parts are those that the conjunction at the field has. -/
theorem group_single_and {parts : List Fragment} (h : parts ≠ []) :
  group [(field, .and parts)] = attach field (.and parts)
  := by
  obtain ⟨part, rest, rfl⟩ := List.exists_cons_of_ne_nil h
  have hclauses : conjunction [(field, .and (part :: rest))] = attachAll field (part :: rest) := by
    apply List.append_nil
  rw [group_eq_insert, hclauses]
  rfl

theorem group_single_and_nil :
  group [(field, .and [])] = []
  := by
  rfl

/-- A choice is the only clause of the conjunction. -/
theorem group_single_or (parts : List Fragment) :
  group [(field, .or parts)]
    = Document.single "$and" (.array [.document (attach field (.or parts))])
  := by
  rfl

/-- A fragment at a field is its own group unless it is a choice or has nothing to say. -/
theorem attach_eq_group_single_iff (fragment : Fragment) :
  attach field fragment = group [(field, fragment)]
    ↔ (∀ parts, fragment ≠ .or parts) ∧ fragment ≠ .and []
  := by
  cases fragment with
  | direct v => simp [group_single_direct]
  | and parts =>
      by_cases h : parts = []
      · subst h
        simp [group_single_and_nil, attach, Document.single]
      · simp [group_single_and field h, h]
  | or parts => simp [group_single_or, attach, Document.single]

/-- Where the two documents differ, they differ in their names already. -/
theorem names_attach_eq_iff (fragment : Fragment) :
  Fields.names (attach field fragment) = Fields.names (group [(field, fragment)])
    ↔ attach field fragment = group [(field, fragment)]
  := by
  cases fragment with
  | direct v => simp [group_single_direct]
  | and parts =>
      by_cases h : parts = []
      · subst h
        simp [group_single_and_nil, attach, Document.single, Fields.names]
      · simp [group_single_and field h]
  | or parts => simp [group_single_or, attach, Document.single, Fields.names]

/-- The clause of a fragment at a field and the group of it alone hold under the same tests. -/
theorem holds_attach_iff_group (test : String → Value → Prop)
    (h : isOperatorName field = false) (fragment : Fragment) :
  Filter.Holds test (attach field fragment) ↔ Filter.Holds test (group [(field, fragment)])
  := by
  have hdistinct : Fields.Distinct [(field, fragment)] := by
    apply List.nodup_singleton
  have hfield : ∀ f ∈ [(field, fragment)], isOperatorName f.1 = false := by
    rw [List.forall_mem_singleton]
    apply h
  rw [holds_attach test h, holds_group test hdistinct hfield, List.forall_mem_singleton]

end Fragment

namespace Condition

variable (now : Instant)

theorem filter_single (field : String) (c : Condition) :
  Group.filter now (Group.single field c) = Fragment.group [(field, c.fragment now)]
  := by
  rfl

/-- The fragment of a condition is a choice, or has nothing to say, when the condition does. -/
theorem fragment_ne_iff (c : Condition) :
  ((∀ parts, c.fragment now ≠ .or parts) ∧ c.fragment now ≠ .and [])
    ↔ (∀ parts, c ≠ .any parts) ∧ c ≠ .all []
  := by
  cases c with
  | all parts => cases parts <;> simp [fragment, fragments]
  | _ => simp [fragment]

/-! ### The main statement -/

/-- The clause of a condition at a field is the document of the group with the condition alone
exactly when the condition is no choice and no conjunction without parts, and where they differ
they have different names.  At a field that is not named like an operator they hold under the
same tests. -/
theorem attach_agrees_group_single (c : Condition) (field : String) :
  ((c.fragment now).attach field = Group.filter now (Group.single field c)
      ↔ (∀ parts, c ≠ .any parts) ∧ c ≠ .all [])
    ∧ (Fields.names ((c.fragment now).attach field)
        = Fields.names (Group.filter now (Group.single field c))
      ↔ (c.fragment now).attach field = Group.filter now (Group.single field c))
    ∧ (isOperatorName field = false → ∀ test : String → Value → Prop,
      Filter.Holds test ((c.fragment now).attach field)
        ↔ Filter.Holds test (Group.filter now (Group.single field c)))
  := by
  rw [filter_single]
  constructor
  · rw [Fragment.attach_eq_group_single_iff, fragment_ne_iff]
  constructor
  · apply Fragment.names_attach_eq_iff
  · intro h test
    apply Fragment.holds_attach_iff_group field test h

/-- Nothing, or a number between two others. -/
def absentOrBetween : Condition :=
  .any [isNull, .all [compare .gt (.int32 10), compare .lt (.int32 20)]]

/-- The group wraps a choice, and says the same. -/
theorem attach_agrees_group_single_choice :
  isOperatorName "n" = false
    ∧ (absentOrBetween.fragment ⟨0⟩).attach "n"
      ≠ Group.filter ⟨0⟩ (Group.single "n" absentOrBetween)
    ∧ ∀ test : String → Value → Prop,
      Filter.Holds test ((absentOrBetween.fragment ⟨0⟩).attach "n")
        ↔ Filter.Holds test (Group.filter ⟨0⟩ (Group.single "n" absentOrBetween))
  := by
  have hfield : isOperatorName "n" = false := by decide
  obtain ⟨hsame, -, hholds⟩ := attach_agrees_group_single ⟨0⟩ absentOrBetween "n"
  use hfield
  constructor
  · intro heq
    apply (hsame.mp heq).1 _ rfl
  · apply hholds hfield

end Condition

end MongoQuery
