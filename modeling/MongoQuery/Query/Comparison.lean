import MongoQuery.Bson.Value

/-!
# Comparisons

The order comparisons of a condition and what they compare with: a value, or the instant
a number of whole days before the one to which the request refers.
-/

namespace MongoQuery

/-- An order comparison. -/
inductive Comparison where
  | lt
  | gt
  | lte
  | gte
deriving DecidableEq, Repr

namespace Comparison

/-- The name of a comparison in requests. -/
def name : Comparison → String
  | .lt => "LT"
  | .gt => "GT"
  | .lte => "LTE"
  | .gte => "GTE"

/-- All comparisons. -/
def all : List Comparison := [.lt, .gt, .lte, .gte]

/-- The comparison with a given name. -/
def ofName? (s : String) : Option Comparison :=
  all.find? fun c => c.name = s

/-- The operator of a comparison in filters. -/
def operator : Comparison → String
  | .lt => "$lt"
  | .gt => "$gt"
  | .lte => "$lte"
  | .gte => "$gte"

end Comparison

/-- The right-hand side of a comparison. -/
inductive Bound where
  | literal (value : Value)
  | daysAgo (days : Int64)

namespace Bound

/-- The value compared with at a given instant. -/
def resolve (now : Instant) : Bound → Value
  | .literal value => value
  | .daysAgo days => .date (now.daysBefore days)

end Bound

end MongoQuery
