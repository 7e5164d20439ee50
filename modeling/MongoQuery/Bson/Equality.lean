import MongoQuery.Bson.Value

/-!
# Equality of BSON values

Two values are equal when they have the same type and the same content.  The order of the
fields of a document does not count, the two zeros of floating point are equal, and a NaN
equals nothing, itself included; decimal numbers are compared by their bytes.
-/

namespace MongoQuery.Value

mutual

/-- Whether two values are equal. -/
def equal : Value → Value → Bool
  | .null, .null => true
  | .bool b, .bool c => b == c
  | .int32 m, .int32 n => m == n
  | .int64 m, .int64 n => m == n
  | .double x, .double y => x.equal y
  | .decimal128 x, .decimal128 y => x == y
  | .string s, .string t => s == t
  | .array items, .array others => equalItems items others
  | .document fields, .document others =>
    fields.length == others.length && equalFields fields others
  | .objectId i, .objectId j => i == j
  | .date s, .date t => s == t
  | .symbol s, .symbol t => s == t
  | .code s, .code t => s == t
  | .codeWithScope s scope, .codeWithScope t others =>
    s == t && (scope.length == others.length && equalFields scope others)
  | .timestamp t i, .timestamp u j => t == u && i == j
  | .regex p o, .regex q r => p == q && o == r
  | .binary s b, .binary t c => s == t && b == c
  | .dbPointer s i, .dbPointer t j => s == t && i == j
  | .minKey, .minKey => true
  | .maxKey, .maxKey => true
  | .undefined, .undefined => true
  | _, _ => false

/-- Whether two lists have equal values in the same order. -/
def equalItems : List Value → List Value → Bool
  | [], [] => true
  | v :: rest, w :: others => equal v w && equalItems rest others
  | _, _ => false

/-- Whether every field is present in another document with an equal value. -/
def equalFields : List (String × Value) → List (String × Value) → Bool
  | [], _ => true
  | (name, v) :: rest, others =>
    (match Fields.get? others name with
      | some w => equal v w
      | none => false)
    && equalFields rest others

end

end MongoQuery.Value

namespace MongoQuery.Document

/-- Whether two documents have the same fields with equal values, in any order. -/
def equal (d e : Document) : Bool :=
  d.length == e.length && Value.equalFields d e

end MongoQuery.Document
