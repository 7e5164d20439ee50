import MongoQuery.Filter.Condition
import MongoQuery.Query.Criteria

/-!
# Criteria as filters

The filter of the first statement is the base to whose conjunction the filters of the
later ones are added; statements without groups do not count.
-/

namespace MongoQuery

/-- The filter of a statement: that of its only group, or a choice. -/
def Statement.filter (now : Instant) (statement : Statement) : Document :=
  match statement with
  | [group] => group.filter now
  | groups => Document.single "$or" (.array (groups.map fun g => .document (g.filter now)))

/-- Adds clauses to the conjunction of a filter, which they begin where there is none. -/
def Document.conjoin (filter : Document) (clauses : List Value) : Document :=
  if clauses.isEmpty then filter
  else
    match filter.get? "$and" with
    | some (.array present) => filter.insert "$and" (.array (present ++ clauses))
    | _ => filter.insert "$and" (.array clauses)

/-- The filter of criteria. -/
def Criteria.filter (now : Instant) (criteria : Criteria) : Document :=
  match criteria.statements.filter fun statement => !statement.isEmpty with
  | [] => []
  | base :: rest =>
    Document.conjoin (Statement.filter now base)
      (rest.map fun statement => .document (Statement.filter now statement))

end MongoQuery
