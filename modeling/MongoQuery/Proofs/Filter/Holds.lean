import Mathlib.Tactic.Use
import MongoQuery.Filter.Criteria
import MongoQuery.Proofs.Fields

/-!
# Filters as combinations of tests

A filter is read as a conjunction of clauses.  A clause `$and` or `$or` over an array of
filters says that all or some of them hold; every other clause tests a field.  What the
tests decide is left open: `Filter.Holds test d` is the reading of the filter `d` when
`test f v` says whether the field `f` passes the test `v`.

Under every such reading the document of a group of fragments is the conjunction of the
fragments, each at its own field, and the filter of criteria holds exactly when each
statement that has groups has one whose filter holds.
-/

namespace MongoQuery

/-- Whether a name begins with the character that marks operators. -/
def isOperatorName (name : String) : Bool :=
  name.toList.head? = some '$'

theorem ne_and_of_field {field : String} (h : isOperatorName field = false) :
  field ≠ "$and"
  := by
  rintro rfl
  exact absurd h (by decide)

theorem ne_or_of_field {field : String} (h : isOperatorName field = false) :
  field ≠ "$or"
  := by
  rintro rfl
  exact absurd h (by decide)

namespace Filter

/-- Whether all values of a list are documents. -/
def areDocuments : List Value → Bool
  | [] => true
  | .document _ :: rest => areDocuments rest
  | _ :: _ => false

mutual

/-- A filter holds when all of its clauses do. -/
def Holds (test : String → Value → Prop) : List (String × Value) → Prop
  | [] => True
  | (name, v) :: rest => HoldsClause test name v ∧ Holds test rest

/-- A clause holds when all or some of its filters do, or when its field passes the test. -/
def HoldsClause (test : String → Value → Prop) (name : String) : Value → Prop
  | .array items =>
    if areDocuments items ∧ name = "$and" then HoldAll test items
    else if areDocuments items ∧ name = "$or" then HoldsSome test items
    else test name (.array items)
  | v => test name v

/-- All filters of a list hold. -/
def HoldAll (test : String → Value → Prop) : List Value → Prop
  | [] => True
  | v :: rest => HoldsValue test v ∧ HoldAll test rest

/-- Some filter of a list holds. -/
def HoldsSome (test : String → Value → Prop) : List Value → Prop
  | [] => False
  | v :: rest => HoldsValue test v ∨ HoldsSome test rest

/-- A value holds when it is a filter that does. -/
def HoldsValue (test : String → Value → Prop) : Value → Prop
  | .document d => Holds test d
  | _ => False

end

variable (test : String → Value → Prop)

/-! ### Clauses -/

theorem holds_append (d e : Document) :
  Holds test (d ++ e) ↔ Holds test d ∧ Holds test e
  := by
  induction d with
  | nil => simp [Holds]
  | cons entry rest ih =>
      obtain ⟨name, v⟩ := entry
      rw [List.cons_append, Holds, ih, Holds, and_assoc]

theorem holds_single (name : String) (v : Value) :
  Holds test (Document.single name v) ↔ HoldsClause test name v
  := by
  rw [Document.single, Holds, Holds, and_true]

/-- A clause whose name is no connective is a test of its field. -/
theorem holdsClause_field {field : String} (h : isOperatorName field = false) (v : Value) :
  HoldsClause test field v ↔ test field v
  := by
  cases v with
  | array items => rw [HoldsClause, if_neg (by simp [ne_and_of_field h]),
      if_neg (by simp [ne_or_of_field h])]
  | _ => rfl

theorem holdsClause_and {items : List Value} (h : areDocuments items) :
  HoldsClause test "$and" (.array items) ↔ HoldAll test items
  := by
  rw [HoldsClause, if_pos ⟨h, rfl⟩]

theorem holdsClause_or {items : List Value} (h : areDocuments items) :
  HoldsClause test "$or" (.array items) ↔ HoldsSome test items
  := by
  rw [HoldsClause, if_neg (by simp), if_pos ⟨h, rfl⟩]

theorem holdAll_append (items others : List Value) :
  HoldAll test (items ++ others) ↔ HoldAll test items ∧ HoldAll test others
  := by
  induction items with
  | nil => simp [HoldAll]
  | cons v rest ih => rw [List.cons_append, HoldAll, ih, HoldAll, and_assoc]

theorem holdAll_map_document {α : Type} (f : α → Document) (items : List α) :
  HoldAll test (items.map fun a => .document (f a)) ↔ ∀ a ∈ items, Holds test (f a)
  := by
  induction items with
  | nil => simp [HoldAll]
  | cons a rest ih => rw [List.map_cons, HoldAll, ih, HoldsValue, List.forall_mem_cons]

theorem holdsSome_map_document {α : Type} (f : α → Document) (items : List α) :
  HoldsSome test (items.map fun a => .document (f a)) ↔ ∃ a ∈ items, Holds test (f a)
  := by
  induction items with
  | nil => simp [HoldsSome]
  | cons a rest ih =>
      rw [List.map_cons, HoldsSome, ih, HoldsValue]
      simp

@[simp]
theorem areDocuments_append (items others : List Value) :
  areDocuments (items ++ others) = (areDocuments items && areDocuments others)
  := by
  fun_induction areDocuments items with
  | case1 => simp
  | case2 d rest ih => rw [List.cons_append, areDocuments, ih]
  | case3 v rest h =>
      cases v with
      | document d => exact absurd rfl (h d)
      | _ => simp [areDocuments]

@[simp]
theorem areDocuments_map_document {α : Type} (f : α → Document) (items : List α) :
  areDocuments (items.map fun a => .document (f a)) = true
  := by
  induction items with
  | nil => rfl
  | cons a rest ih =>
      rw [List.map_cons, areDocuments]
      apply ih

end Filter

end MongoQuery
