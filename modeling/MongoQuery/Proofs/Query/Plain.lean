import Mathlib.Data.List.Nodup
import MongoQuery.Proofs.Filter.Combination
import MongoQuery.Query.FilterSpec

/-!
# Groups that name their fields once, and plain queries

A query group that is built by insertions names every field once, and so do all groups
within it.  A query is plain when no field of it, at any depth, has the name of an operator
and no value of an equality is a document that begins with an operator.
-/

namespace MongoQuery

/-- Whether a value is a document whose first name is an operator's. -/
def Value.isOperation : Value → Bool
  | .document ((name, _) :: _) => isOperatorName name
  | _ => false

namespace Comparison

theorem operator_ne_elemMatch (comparison : Comparison) :
  comparison.operator ≠ "$elemMatch"
  := by
  cases comparison with
  | _ => decide

theorem operator_ne_not (comparison : Comparison) :
  comparison.operator ≠ "$not"
  := by
  cases comparison with
  | _ => decide

end Comparison

namespace Condition

mutual

/-- The groups of a condition name every field once. -/
def Distinct : Condition → Prop
  | .all parts => DistinctParts parts
  | .any parts => DistinctParts parts
  | .find group => Fields.Distinct group ∧ DistinctFields group
  | .nfind group => Fields.Distinct group ∧ DistinctFields group
  | _ => True

/-- The groups of all conditions of a list name every field once. -/
def DistinctParts : List Condition → Prop
  | [] => True
  | c :: rest => Distinct c ∧ DistinctParts rest

/-- The groups within the conditions of a group name every field once. -/
def DistinctFields : List (String × Condition) → Prop
  | [] => True
  | (_, c) :: rest => Distinct c ∧ DistinctFields rest

end

mutual

/-- No field of a condition is named like an operator and no value that it is to be equal
to begins with one. -/
def Plain : Condition → Prop
  | .eq v => v.isOperation = false
  | .all parts => PlainParts parts
  | .any parts => PlainParts parts
  | .find group => PlainFields group
  | .nfind group => PlainFields group
  | _ => True

/-- All conditions of a list are plain. -/
def PlainParts : List Condition → Prop
  | [] => True
  | c :: rest => Plain c ∧ PlainParts rest

/-- The fields of a group and their conditions are plain. -/
def PlainFields : List (String × Condition) → Prop
  | [] => True
  | (field, c) :: rest => (isOperatorName field = false ∧ Plain c) ∧ PlainFields rest

end

theorem plainFields_iff (group : List (String × Condition)) :
  PlainFields group ↔ ∀ f ∈ group, isOperatorName f.1 = false ∧ Plain f.2
  := by
  induction group with
  | nil => simp [PlainFields]
  | cons f rest ih => rw [PlainFields, ih, List.forall_mem_cons]

end Condition

namespace Group

/-- A group and the groups within it name every field once. -/
structure Distinct (group : Group) : Prop where
  names : Fields.Distinct group
  inner : Condition.DistinctFields group

/-- No field of a group, at any depth, is named like an operator, and no value of an
equality begins with one. -/
def Plain (group : Group) : Prop :=
  Condition.PlainFields group

theorem Regular.of_plain {group : Group} (hdistinct : Fields.Distinct group)
    (hplain : Condition.PlainFields group) :
  group.Regular
  := by
  constructor
  · apply hdistinct
  · intro f hf
    apply ((Condition.plainFields_iff group).mp hplain f hf).1

theorem distinct_single (field : String) {condition : Condition} (h : condition.Distinct) :
  (single field condition).Distinct
  := by
  constructor
  · apply List.nodup_singleton
  · use h
    apply True.intro

end Group

namespace Criteria

/-- Every group of criteria names every field once, at every depth. -/
def Distinct (criteria : Criteria) : Prop :=
  ∀ statement ∈ criteria.statements, ∀ group ∈ statement, Group.Distinct group

/-- No field of criteria, at any depth, is named like an operator, and no value of an
equality begins with one. -/
def Plain (criteria : Criteria) : Prop :=
  ∀ statement ∈ criteria.statements, ∀ group ∈ statement, Group.Plain group

theorem regular {criteria : Criteria} (hdistinct : criteria.Distinct) (hplain : criteria.Plain) :
  ∀ statement ∈ criteria.statements, ∀ group ∈ statement, Group.Regular group
  := by
  intro statement hs group hg
  apply Group.Regular.of_plain
  · apply (hdistinct statement hs group hg).names
  · apply hplain statement hs group hg

end Criteria

end MongoQuery
