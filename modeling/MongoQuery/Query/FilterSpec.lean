import MongoQuery.Query.Criteria
import MongoQuery.Text.Parts

/-!
# Filter specifications

A filter specification asks for the records that satisfy criteria, in the order of one
field and up to a limit.  The page after one that has been read is asked for by one more
statement: the sort field must lie strictly past its value in the last record of the page.
-/

namespace MongoQuery

/-- A direction of sorting. -/
inductive Direction where
  | asc
  | desc
deriving DecidableEq, Repr

namespace Direction

/-- The name of a direction in requests. -/
def name : Direction → String
  | .asc => "ASC"
  | .desc => "DESC"

/-- The direction with a given name. -/
def ofName? (s : String) : Option Direction :=
  [asc, desc].find? fun d => d.name = s

/-- The sign of a direction in sort documents. -/
def sign : Direction → Int32
  | .asc => 1
  | .desc => -1

/-- The comparison that holds of what comes later in a direction. -/
def past : Direction → Comparison
  | .asc => .gt
  | .desc => .lt

end Direction

/-- A field to sort by and a direction. -/
structure SortKey where
  field : String
  direction : Direction
deriving DecidableEq, Repr

/-! ### Paths -/

/-- The names on a path. -/
def pathNames (path : String) : List String :=
  Text.split '.' path

namespace Document

/-- The value that names lead to, one after the other, through documents. -/
def follow? (d : Document) : List String → Option Value
  | [] => none
  | [name] => d.get? name
  | name :: rest =>
    match d.get? name with
    | some (.document inner) => follow? inner rest
    | _ => none

/-- The value at a path whose names are separated by points. -/
def at? (d : Document) (path : String) : Option Value :=
  d.follow? (pathNames path)

end Document

/-! ### Specifications -/

/-- A complete query. -/
structure FilterSpec where
  criteria : Criteria
  sort : SortKey
  limit : UInt64
  /-- The value of the sort field in the last record of the page before. -/
  cursor : Option Value

namespace FilterSpec

/-- The specification to build on: no condition, ascending by `id`, fifty records. -/
def initial : FilterSpec :=
  { criteria := .initial, sort := ⟨"id", .asc⟩, limit := 50, cursor := none }

/-- Gives a field of the current group a condition. -/
def constrain (spec : FilterSpec) (field : String) (condition : Condition) : FilterSpec :=
  { spec with criteria := spec.criteria.constrain field condition }

/-- Begins an alternative to the groups of the current statement. -/
def beginGroup (spec : FilterSpec) : FilterSpec :=
  { spec with criteria := spec.criteria.beginGroup }

/-- Begins a statement beside those so far. -/
def beginStatement (spec : FilterSpec) : FilterSpec :=
  { spec with criteria := spec.criteria.beginStatement }

/-- Sorts by a field. -/
def sortBy (spec : FilterSpec) (field : String) (direction : Direction) : FilterSpec :=
  { spec with sort := ⟨field, direction⟩ }

/-- Sets the limit. -/
def limitTo (spec : FilterSpec) (limit : UInt64) : FilterSpec :=
  { spec with limit }

/-- The specification of the page after the one that ends with a given record; where the
record has no value at the sort field there is no such page and nothing changes. -/
def pageAfter (spec : FilterSpec) (last : Document) : FilterSpec :=
  match last.at? spec.sort.field with
  | none => spec
  | some value =>
    let condition := Condition.compare spec.sort.direction.past value
    { spec.beginStatement.constrain spec.sort.field condition with cursor := some value }

end FilterSpec

end MongoQuery
