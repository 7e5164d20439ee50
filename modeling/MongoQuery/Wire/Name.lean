import MongoQuery.Bson.Extended
import MongoQuery.Query.Aggregation
import MongoQuery.Query.FilterSpec

/-!
# Names and sort keys in JSON

An interval, a direction and a comparison are written in JSON as the strings of their
names; a name may also be given as an object whose one member has that name and is null.
A sort key is the object of its field and its direction, or the array of the two.
-/

namespace MongoQuery

/-- The name that a JSON value gives. -/
def Json.name? : Json → Option String
  | .string s => some s
  | .object [(s, .null)] => some s
  | _ => none

/-- The interval that a JSON value names. -/
def DateInterval.ofJson? (j : Json) : Option DateInterval :=
  j.name? >>= ofName?

/-- The direction that a JSON value names. -/
def Direction.ofJson? (j : Json) : Option Direction :=
  j.name? >>= ofName?

/-- The comparison that a JSON value names. -/
def Comparison.ofJson? (j : Json) : Option Comparison :=
  j.name? >>= ofName?

namespace SortKey

/-- The values of the members with a given name. -/
private def membersNamed (name : String) (members : List (String × Json)) : List Json :=
  members.filterMap fun member => if member.1 = name then some member.2 else none

/-- The sort key that a JSON value gives: of an object the members `field` and
`direction`, each of them once. -/
def ofJson? : Json → Option SortKey
  | .object members => do
    let [.string field] := membersNamed "field" members | none
    let [direction] := membersNamed "direction" members | none
    let direction ← Direction.ofJson? direction
    some ⟨field, direction⟩
  | .array [.string field, direction] => do
    let direction ← Direction.ofJson? direction
    some ⟨field, direction⟩
  | _ => none

/-- The sort key that a text gives; the other members of an object do not count. -/
def ofText? (text : String) : Option SortKey :=
  Json.ofTextKeeping? ["field", "direction"] text >>= ofJson?

/-- The JSON object of a sort key. -/
def toJson (key : SortKey) : Json :=
  .object [("field", .string key.field), ("direction", .string key.direction.name)]

end SortKey

end MongoQuery
