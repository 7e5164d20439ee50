import MongoQuery.Bson.Description

/-!
# Faults of requests

The causes for which a document is not a request, and their messages.
-/

namespace MongoQuery

/-- Why a document is not a request. -/
inductive DecodeError where
  /-- The operator of a condition is missing or not known. -/
  | unsupportedOperator (condition : Document)
  /-- The type of an aggregation request is missing or not known. -/
  | unsupportedAggregationType (request : Document)
  /-- A required field is missing. -/
  | missingField (field place : String)
  /-- A field has a value of the wrong kind. -/
  | invalidField (field expected : String)
  /-- A level of buckets has both a width and a date interval. -/
  | conflictingBucketing (spec : Document)
  | unknownDateInterval (name : String)
  | unknownSortDirection (name : String)

/-- The message of a fault. -/
def DecodeError.message : DecodeError → String
  | .unsupportedOperator condition =>
    "unsupported operator in condition: " ++ condition.describe
  | .unsupportedAggregationType request =>
    "unsupported aggregation type: " ++ request.describe
  | .missingField field place => "missing field `" ++ field ++ "` in " ++ place
  | .invalidField field expected => "field `" ++ field ++ "` must be " ++ expected
  | .conflictingBucketing spec =>
    "bucket spec sets both interval and dateInterval: " ++ spec.describe
  | .unknownDateInterval name => "unknown date interval: " ++ name
  | .unknownSortDirection name => "unknown sort direction: " ++ name

end MongoQuery
