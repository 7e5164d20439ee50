import MongoQuery.Query.Aggregation
import MongoQuery.Wire.Filter

/-!
# Aggregation requests as documents

The field `type` says which kind of step a document is, and the fields of that kind stand
beside it.  Each level of a bucket specification is a document, and the level within it is
its field `subBuckets`.  Faults of the field, the values and the levels within come before
those of the selected property and the way of forming keys.
-/

namespace MongoQuery

/-- Reads the name of an interval. -/
def DateInterval.decode (name : String) : Except DecodeError DateInterval :=
  match DateInterval.ofName? name with
  | some i => .ok i
  | none => .error (.unknownDateInterval name)

namespace Level

/-- The field that a level groups by. -/
def fieldIdOf (d : Document) : Except DecodeError String :=
  match d.present? "fieldId" with
  | some v => requireString "fieldId" v
  | none => .error (.missingField "fieldId" "bucket spec")

/-- The keys that a level keeps. -/
def valuesOf (d : Document) : Except DecodeError (Option (List Value)) :=
  match d.present? "values" with
  | none => .ok none
  | some (.array values) => .ok (some values)
  | some _ => .error (.invalidField "values" "an array")

/-- The fault of ids that are not an array of strings. -/
def notStrings : DecodeError := .invalidField "subFieldIds" "an array of strings"

/-- The id that an item of the ids gives. -/
def idOf : Value → Except DecodeError String
  | .string s => .ok s
  | _ => .error notStrings

/-- The property that a level looks at, given where both of its fields are present. -/
def subFieldOf (d : Document) : Except DecodeError (Option SubField) :=
  match d.present? "subFieldIds", d.present? "subFieldProp" with
  | some ids, some property => do
    let ids ←
      match ids with
      | .array ids => ids.mapM idOf
      | _ => .error notStrings
    let property ← requireString "subFieldProp" property
    return some ⟨ids, property⟩
  | _, _ => .ok none

/-- The width that a number gives. -/
def widthOf (v : Value) : Except DecodeError Binary64 :=
  match v.real? with
  | some x =>
    if x.isPositive then .ok x else .error (.invalidField "interval" "a positive number")
  | none => .error (.invalidField "interval" "a positive number")

/-- How a level forms keys. -/
def bucketingOf (d : Document) : Except DecodeError Bucketing :=
  match d.present? "interval", d.present? "dateInterval" with
  | some _, some _ => .error (.conflictingBucketing d)
  | some width, none => (widthOf width).map .histogram
  | none, some interval => do
    let name ← requireString "dateInterval" interval
    let interval ← DateInterval.decode name
    return .date interval
  | none, none => .ok .raw

end Level

namespace BucketSpec

/-- The specification of a level, given what its document says of the levels within. -/
def ofLevel (d : Document) (inner : Except DecodeError (List Level)) :
    Except DecodeError BucketSpec := do
  let fieldId ← Level.fieldIdOf d
  let values ← Level.valuesOf d
  let inner ← inner
  let subField ← Level.subFieldOf d
  let bucketing ← Level.bucketingOf d
  return ⟨⟨fieldId, values, subField, bucketing⟩, inner⟩

mutual

/-- The levels that the field `subBuckets` among the given ones holds. -/
def innerOfFields : List (String × Value) → Except DecodeError (List Level)
  | [] => .ok []
  | (name, v) :: rest => if name = "subBuckets" then innerOfValue v else innerOfFields rest

/-- The levels that the value of the field `subBuckets` gives. -/
def innerOfValue : Value → Except DecodeError (List Level)
  | .null => .ok []
  | .document fields => (ofLevel fields (innerOfFields fields)).map levels
  | _ => .error (.invalidField "subBuckets" "a bucket spec document")

end

/-- Reads a bucket specification. -/
def decode (d : Document) : Except DecodeError BucketSpec :=
  ofLevel d (innerOfFields d)

end BucketSpec

/-- Reads a step of an aggregation. -/
def Request.decode (d : Document) : Except DecodeError Request :=
  match d.get? "type" with
  | some (.string kind) =>
    if kind = "filter" then (Criteria.decode d).map .filter
    else if kind = "buckets" then (BucketSpec.decode d).map .buckets
    else .error (.unsupportedAggregationType d)
  | _ => .error (.unsupportedAggregationType d)

end MongoQuery
