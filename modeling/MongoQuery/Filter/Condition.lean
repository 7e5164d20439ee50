import MongoQuery.Filter.Fragment
import MongoQuery.Query.Condition

/-!
# Conditions and groups as filters

Every condition has a fragment and every group a filter document, at the instant against
which relative dates are resolved.  That a text begins with given characters is asked for by
a regular expression: a start anchor and then the characters, each of those that have a
meaning in patterns behind a backslash.
-/

namespace MongoQuery

namespace Pattern

/-- The characters that are written behind a backslash. -/
def special : List Char :=
  ['\\', '.', '+', '*', '?', '(', ')', '|', '[', ']', Char.ofNat 0x7b, Char.ofNat 0x7d, '^', '$',
    '#', '&', '-', '~']

/-- The characters that stand for one character in a pattern. -/
def escape (c : Char) : List Char :=
  if c ∈ special then ['\\', c] else [c]

/-- The pattern of the texts that begin with a given one. -/
def startingWith (text : String) : String :=
  String.ofList ('^' :: text.toList.flatMap escape)

end Pattern

namespace Condition

/-- The document that tests for an element of an array. -/
private def elementMatch (filter : Document) : Document :=
  Document.single "$elemMatch" (.document filter)

mutual

/-- The fragment of a condition. -/
def fragment (now : Instant) : Condition → Fragment
  | .eq value => .direct value
  | .neq value => .direct (.document (Document.single "$ne" value))
  | .order comparison bound =>
    .direct (.document (Document.single comparison.operator (bound.resolve now)))
  | .startsWith text =>
    .direct (.document
      [("$regex", .string (Pattern.startingWith text)), ("$options", .string "i")])
  | .all parts => .and (fragments now parts)
  | .any parts => .or (fragments now parts)
  | .find group => .direct (.document (elementMatch (Fragment.group (fieldFragments now group))))
  | .nfind group =>
    .direct (.document (Document.single "$not"
      (.document (elementMatch (Fragment.group (fieldFragments now group))))))

/-- The fragments of a list of conditions. -/
def fragments (now : Instant) : List Condition → List Fragment
  | [] => []
  | c :: rest => fragment now c :: fragments now rest

/-- The fragments of the fields of a group. -/
def fieldFragments (now : Instant) : List (String × Condition) → List (String × Fragment)
  | [] => []
  | (field, c) :: rest => (field, fragment now c) :: fieldFragments now rest

end

end Condition

/-- The filter document of a group. -/
def Group.filter (now : Instant) (group : Group) : Document :=
  Fragment.group (Condition.fieldFragments now group)

end MongoQuery
