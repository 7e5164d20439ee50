import MongoQuery.Bson.Json

/-!
# BSON values in messages

The form in which a value appears in a message.  It reads like the notation of a shell
and, since strings are not escaped, is not meant to be read back.
-/

namespace MongoQuery.Value

private def doubleText (x : Binary64) : String :=
  if x.isNaN then "NaN"
  else if x.isFinite then String.ofList (Numeral.plain x).text
  else if x.isNegative then "-inf"
  else "inf"

private def quotes (s : String) : String := "\"" ++ s ++ "\""

private def binaryText (subtype : UInt8) (bytes : List UInt8) : String :=
  "Binary(0x" ++ String.ofList (Hex.ofNat subtype.toNat) ++ ", "
    ++ String.ofList (Base64.encode bytes) ++ ")"

/-- Parts of a list, a comma and a space between them. -/
def listText (parts : List String) : String :=
  String.intercalate ", " parts

/-- Fields between braces that stand apart from them. -/
def bracedText (parts : List String) : String :=
  if parts.isEmpty then "\x7b\x7d" else "\x7b " ++ listText parts ++ " \x7d"

mutual

/-- The form of a value in a message. -/
def describe : Value → String
  | .null => "null"
  | .bool true => "true"
  | .bool false => "false"
  | .int32 n => Integer.text n.toInt
  | .int64 n => Integer.text n.toInt
  | .double x => doubleText x
  | .decimal128 x => x.text
  | .string s => quotes s
  | .array items => "[" ++ listText (describeItems items) ++ "]"
  | .document fields => bracedText (describeFields fields)
  | .objectId id => "ObjectId(\"" ++ id.text ++ "\")"
  | .date t => "DateTime(\"" ++ t.describe ++ "\")"
  | .symbol s => "Symbol(\"" ++ s ++ "\")"
  | .code source => source
  | .codeWithScope source _ => source
  | .timestamp time increment =>
    "Timestamp(" ++ Integer.text time.toNat ++ ", " ++ Integer.text increment.toNat ++ ")"
  | .regex pattern options => "/" ++ pattern ++ "/" ++ options
  | .binary subtype bytes => binaryText subtype bytes
  | .dbPointer collection id => "DbPointer(" ++ collection ++ ", " ++ id.text ++ ")"
  | .minKey => "MinKey"
  | .maxKey => "MaxKey"
  | .undefined => "undefined"

/-- The forms of the items of an array. -/
def describeItems : List Value → List String
  | [] => []
  | v :: rest => describe v :: describeItems rest

/-- The forms of the fields of a document. -/
def describeFields : List (String × Value) → List String
  | [] => []
  | (name, v) :: rest => (quotes name ++ ": " ++ describe v) :: describeFields rest

end

end MongoQuery.Value

namespace MongoQuery.Document

/-- The form of a document in a message. -/
def describe (d : Document) : String :=
  Value.bracedText (Value.describeFields d)

end MongoQuery.Document
