import MongoQuery.Bson.Json
import MongoQuery.Filter.Criteria
import MongoQuery.Query.FilterSpec
import MongoQuery.Wire.Filter

/-!
# Find commands

A filter specification becomes the body of a find command: a filter, an order and a limit.
-/

namespace MongoQuery

/-- The body of a find command. -/
structure FindCommand where
  filter : Document
  sort : Document
  limit : Int64

/-- The document of a find command. -/
def FindCommand.toDocument (command : FindCommand) : Document :=
  [("filter", .document command.filter), ("sort", .document command.sort),
    ("limit", .int64 command.limit)]

namespace FilterSpec

/-- The find command of a specification; a limit past the signed range is the greatest
one in it. -/
def find (now : Instant) (spec : FilterSpec) : FindCommand :=
  { filter := spec.criteria.filter now
    sort := Document.single spec.sort.field (.int32 spec.sort.direction.sign)
    limit := Int64.ofIntClamp spec.limit.toNat }

end FilterSpec

/-- The find command of a request document. -/
def Document.find (now : Instant) (request : Document) : Except DecodeError FindCommand :=
  (FilterSpec.decode request).map fun spec => spec.find now

end MongoQuery
