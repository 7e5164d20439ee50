import MongoQuery.Query.Condition

/-!
# Criteria

Criteria are statements that must all hold, a statement being a choice of groups of which
one must hold.  Criteria are built from left to right: a field goes into the last group of
the last statement, and a new group or statement can be begun after it.
-/

namespace MongoQuery

/-- Groups of which one must hold. -/
abbrev Statement := List Group

/-- Statements that must all hold. -/
structure Criteria where
  statements : List Statement

/-- Applies a function to the last element of a list, or gives the list a first one. -/
def updateLast {α : Type} (f : α → α) (first : α) : List α → List α
  | [] => [first]
  | [a] => [f a]
  | a :: rest => a :: updateLast f first rest

namespace Criteria

/-- The criteria to build on: one statement with one group without fields. -/
def initial : Criteria := ⟨[[[]]]⟩

/-- No statements, which every record satisfies. -/
def empty : Criteria := ⟨[]⟩

/-- Gives a field of the last group of the last statement a condition. -/
def constrain (c : Criteria) (field : String) (condition : Condition) : Criteria :=
  let group := Group.single field condition
  let addTo (statement : Statement) : Statement :=
    updateLast (fun g => Fields.insert g field condition) group statement
  ⟨updateLast addTo [group] c.statements⟩

/-- Begins a group in the last statement. -/
def beginGroup (c : Criteria) : Criteria :=
  ⟨updateLast (fun statement => statement ++ [[]]) [[]] c.statements⟩

/-- Begins a statement, with one group. -/
def beginStatement (c : Criteria) : Criteria :=
  ⟨c.statements ++ [[[]]]⟩

/-- Adds a statement without groups. -/
def addEmptyStatement (c : Criteria) : Criteria :=
  ⟨c.statements ++ [[]]⟩

end Criteria

end MongoQuery
