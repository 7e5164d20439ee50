import MongoQuery.Query.Comparison

/-!
# Conditions and query groups

A condition is a predicate on the value of one field.  A query group gives conditions to
fields, all of which have to hold; conditions and groups contain each other, since a
condition may ask for an element of an array that a group describes.
-/

namespace MongoQuery

/-- A predicate on the value of a field. -/
inductive Condition where
  | eq (value : Value)
  | neq (value : Value)
  | order (comparison : Comparison) (bound : Bound)
  | startsWith (text : String)
  | all (parts : List Condition)
  | any (parts : List Condition)
  | find (group : List (String × Condition))
  | nfind (group : List (String × Condition))

/-- Conditions on fields that must all hold, in the order in which the fields were given. -/
abbrev Group := Fields Condition

namespace Condition

/-- The condition that a value is null or absent. -/
def isNull : Condition := .eq .null

/-- The comparison with the instant a number of days ago. -/
def daysAgo (comparison : Comparison) (days : Int64) : Condition :=
  .order comparison (.daysAgo days)

/-- The comparison with a value. -/
def compare (comparison : Comparison) (value : Value) : Condition :=
  .order comparison (.literal value)

/-- The name of the operator of a condition in requests. -/
def opName : Condition → String
  | .eq _ => "EQ"
  | .neq _ => "NEQ"
  | .order comparison _ => comparison.name
  | .startsWith _ => "PREFIX"
  | .all _ => "ALL"
  | .any _ => "ANY"
  | .find _ => "FIND"
  | .nfind _ => "NFIND"

end Condition

namespace Group

/-- The group with a single field. -/
def single (field : String) (condition : Condition) : Group :=
  Fields.insert [] field condition

end Group

end MongoQuery
