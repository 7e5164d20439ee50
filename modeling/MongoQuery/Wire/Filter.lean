import MongoQuery.Query.FilterSpec
import MongoQuery.Wire.Condition

/-!
# Filters in requests

Criteria are the field `statements`, an array of arrays of groups.  A filter has beside
them a field to sort by, a direction and a limit; what is absent has its initial value.
-/

namespace MongoQuery

namespace Criteria

/-- The fault of statements that are not an array of arrays. -/
def notArrays : DecodeError := .invalidField "statements" "an array of arrays"

/-- The group that an item of a statement gives. -/
def groupOf : Value → Except DecodeError Group
  | .document d => Group.decode d
  | _ => .error (.invalidField "statements" "arrays of query documents")

/-- The statement that an item of the statements gives. -/
def statementOf : Value → Except DecodeError Statement
  | .array groups => groups.mapM groupOf
  | _ => .error notArrays

/-- Reads criteria. -/
def decode (d : Document) : Except DecodeError Criteria :=
  match d.present? "statements" with
  | none => .ok .initial
  | some (.array statements) => (statements.mapM statementOf).map Criteria.mk
  | some _ => .error notArrays

end Criteria

/-- Reads the name of a direction. -/
def Direction.decode (name : String) : Except DecodeError Direction :=
  match Direction.ofName? name with
  | some d => .ok d
  | none => .error (.unknownSortDirection name)

namespace FilterSpec

/-- The limit that a number gives. -/
def limitOf (v : Value) : Except DecodeError UInt64 :=
  match v.integer? with
  | some n =>
    if 0 ≤ n.toInt then .ok n.toUInt64
    else .error (.invalidField "limit" "a non-negative integer")
  | none => .error (.invalidField "limit" "a non-negative integer")

/-- Reads a filter. -/
def decode (d : Document) : Except DecodeError FilterSpec := do
  let criteria ← Criteria.decode d
  let field ←
    match d.present? "sortFieldId" with
    | none => pure initial.sort.field
    | some v => requireString "sortFieldId" v
  let direction ←
    match d.present? "sortDirection" with
    | none => pure initial.sort.direction
    | some v => requireString "sortDirection" v >>= Direction.decode
  let limit ←
    match d.present? "limit" with
    | none => pure initial.limit
    | some v => limitOf v
  return { criteria, sort := ⟨field, direction⟩, limit, cursor := none }

end FilterSpec

end MongoQuery
