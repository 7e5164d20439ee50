import Mathlib.Data.List.Nodup
import MongoQuery.Filter.Find
import MongoQuery.Proofs.Filter.Combination

/-!
# The specification of the next page

The specification of the page after a record has one statement more than the one before,
with one group of one field: the sort field must lie past its value in the record.  So its
filter holds of exactly the records of which the old filter holds and which lie past that
value, and order and limit stay.
-/

namespace MongoQuery

theorem updateLast_append_single {α : Type} (f : α → α) (first : α) (items : List α) (a : α) :
  updateLast f first (items ++ [a]) = items ++ [f a]
  := by
  induction items with
  | nil => rfl
  | cons b rest ih =>
      cases rest with
      | nil => rfl
      | cons c more =>
          change b :: updateLast f first (c :: more ++ [a]) = _
          rw [ih]
          rfl

/-- A condition in a statement that has just been begun is the statement's only one. -/
theorem Criteria.constrain_beginStatement (criteria : Criteria) (field : String)
    (condition : Condition) :
  (criteria.beginStatement.constrain field condition).statements
    = criteria.statements ++ [[Group.single field condition]]
  := by
  apply updateLast_append_single

namespace FilterSpec

variable {spec : FilterSpec} {last : Document} {value : Value}

/-- The group by which the page after a value is asked for. -/
def pastGroup (spec : FilterSpec) (value : Value) : Group :=
  Group.single spec.sort.field (.compare spec.sort.direction.past value)

theorem pageAfter_of_at? (h : last.at? spec.sort.field = some value) :
  (spec.pageAfter last).criteria.statements = spec.criteria.statements ++ [[spec.pastGroup value]]
  := by
  rw [pageAfter, h]
  apply Criteria.constrain_beginStatement

@[simp]
theorem sort_pageAfter (spec : FilterSpec) (last : Document) :
  (spec.pageAfter last).sort = spec.sort
  := by
  unfold pageAfter
  split
  · rfl
  · rfl

/-- The command for the next page sorts as that for the page before. -/
theorem sort_find_pageAfter (now : Instant) (spec : FilterSpec) (last : Document) :
  ((spec.pageAfter last).find now).sort = (spec.find now).sort
  := by
  rw [find, find, sort_pageAfter]

@[simp]
theorem limit_pageAfter (spec : FilterSpec) (last : Document) :
  (spec.pageAfter last).limit = spec.limit
  := by
  unfold pageAfter
  split
  · rfl
  · rfl

/-! ### The filter of the next page -/

/-- The groups of a specification name their fields once and no operators, and the sort
field is no operator either. -/
structure Regular (spec : FilterSpec) : Prop where
  groups : ∀ statement ∈ spec.criteria.statements, ∀ group ∈ statement, Group.Regular group
  sort : isOperatorName spec.sort.field = false

theorem regular_pastGroup (hsort : isOperatorName spec.sort.field = false) (value : Value) :
  (spec.pastGroup value).Regular
  := by
  constructor
  · apply List.nodup_singleton
  · intro f hf
    obtain rfl := List.mem_singleton.mp hf
    apply hsort

theorem Regular.pageAfter (h : spec.Regular) (hlast : last.at? spec.sort.field = some value) :
  (spec.pageAfter last).Regular
  := by
  constructor
  · intro statement hs group hg
    rw [pageAfter_of_at? hlast] at hs
    rcases List.mem_append.mp hs with hs | hs
    · apply h.groups statement hs group hg
    · obtain rfl := List.mem_singleton.mp hs
      obtain rfl := List.mem_singleton.mp hg
      apply regular_pastGroup h.sort
  · rw [sort_pageAfter]
    apply h.sort

/-- The filter of the group that asks for what lies past a value is one comparison. -/
theorem holds_filter_pastGroup (now : Instant) (test : String → Value → Prop)
    (hsort : isOperatorName spec.sort.field = false) (value : Value) :
  Filter.Holds test ((spec.pastGroup value).filter now) ↔ test spec.sort.field
    (.document (Document.single spec.sort.direction.past.operator value))
  := by
  rw [Group.holds_filter now test (regular_pastGroup hsort value)]
  apply List.forall_mem_singleton

/-- The filter of the next page holds where the old one does and the sort field lies past its
value in the last record. -/
theorem holds_filter_pageAfter (now : Instant) (test : String → Value → Prop) (h : spec.Regular)
    (hlast : last.at? spec.sort.field = some value) :
  Filter.Holds test ((spec.pageAfter last).criteria.filter now)
    ↔ Filter.Holds test (spec.criteria.filter now) ∧ test spec.sort.field
      (.document (Document.single spec.sort.direction.past.operator value))
  := by
  rw [Criteria.holds_filter_iff_groups now test (h.pageAfter hlast).groups,
    Criteria.holds_filter_iff_groups now test h.groups, pageAfter_of_at? hlast,
    List.forall_mem_append, List.forall_mem_singleton,
    ← holds_filter_pastGroup now test h.sort value]
  simp

end FilterSpec

end MongoQuery
