import MongoQuery.Bson.Value
import MongoQuery.Json.Basic
import MongoQuery.Text.Base64
import MongoQuery.Text.Hex

/-!
# BSON values as JSON

The relaxed JSON form of a value: numbers are JSON numbers, and a value of a type that
JSON lacks is an object whose first name starts with a dollar sign.  A number that is not
finite becomes null and a plain binary value becomes the array of its bytes.
-/

namespace MongoQuery

namespace ObjectId

/-- The hexadecimal digits of an object identifier. -/
def text (id : ObjectId) : String :=
  String.ofList (Hex.encode id.bytes)

/-- The JSON form of an object identifier. -/
def toJson (id : ObjectId) : Json :=
  .object [("$oid", .string id.text)]

end ObjectId

namespace Value

private def doubleToJson (x : Binary64) : Json :=
  if x.isFinite then .number (.fractional x) else .null

private def bytesToJson (bytes : List UInt8) : Json :=
  .array (bytes.map fun b => .int b.toNat)

private def binaryToJson (subtype : UInt8) (bytes : List UInt8) : Json :=
  if subtype = 0 then bytesToJson bytes
  else
    .object [("$binary", .object
      [("base64", .string (String.ofList (Base64.encode bytes))),
        ("subType", .string (String.ofList (Hex.encode [subtype])))])]

mutual

/-- The JSON form of a value. -/
def toJson : Value → Json
  | .null => .null
  | .bool b => .bool b
  | .int32 n => .int n.toInt
  | .int64 n => .int n.toInt
  | .double x => doubleToJson x
  | .decimal128 x => .object [("$numberDecimalBytes", bytesToJson x.bytes)]
  | .string s => .string s
  | .array items => .array (itemsToJson items)
  | .document fields => .object (fieldsToJson fields)
  | .objectId id => id.toJson
  | .date t => .object [("$date", .object [("$numberLong", .string (Integer.text t.millis.toInt))])]
  | .symbol s => .object [("$symbol", .string s)]
  | .code source => .object [("$code", .string source)]
  | .codeWithScope source scope =>
    .object [("$code", .string source), ("$scope", .object (fieldsToJson scope))]
  | .timestamp time increment =>
    .object [("$timestamp", .object [("t", .int time.toNat), ("i", .int increment.toNat)])]
  | .regex pattern options =>
    .object [("$regularExpression",
      .object [("pattern", .string pattern), ("options", .string options)])]
  | .binary subtype bytes => binaryToJson subtype bytes
  | .dbPointer collection id =>
    .object [("$dbPointer", .object [("$ref", .string collection), ("$id", id.toJson)])]
  | .minKey => .object [("$minKey", .int 1)]
  | .maxKey => .object [("$maxKey", .int 1)]
  | .undefined => .object [("$undefined", .bool true)]

/-- The JSON forms of the items of an array. -/
def itemsToJson : List Value → List Json
  | [] => []
  | v :: rest => toJson v :: itemsToJson rest

/-- The members that the fields of a document become. -/
def fieldsToJson : List (String × Value) → List (String × Json)
  | [] => []
  | (name, v) :: rest => (name, toJson v) :: fieldsToJson rest

end

end Value

/-- The JSON form of a document. -/
def Document.toJson (d : Document) : Json :=
  .object (Value.fieldsToJson d)

end MongoQuery
