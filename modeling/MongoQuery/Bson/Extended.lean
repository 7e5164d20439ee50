import MongoQuery.Bson.Value
import MongoQuery.Json.Reader
import MongoQuery.Number.Floating
import MongoQuery.Text.Base64
import MongoQuery.Time.Rfc3339

/-!
# Extended JSON

A JSON value is read as a BSON value.  A numeral without point and power is an integer: a
nonnegative one takes 32 bits where it fits and 64 where it must, and a negative one always
takes 64.  The members of an object are the fields of a document, a repeated name keeping
its first place and its last value, unless one of them has a marker for its name: then the
object is the value that the marker announces.  The members before the marker are read and
dropped, and only the other half of a scoped code may follow it.
-/

namespace MongoQuery

/-- The names that announce a value of a type which JSON lacks. -/
inductive Marker where
  | oid
  | symbol
  | code
  | scope
  | numberInt
  | numberLong
  | numberDouble
  | numberDecimal
  | numberDecimalBytes
  | date
  | timestamp
  | regularExpression
  | binary
  | uuid
  | dbPointer
  | minKey
  | maxKey
  | undefined
deriving DecidableEq, Repr

namespace Marker

/-- The marker with a given name. -/
def ofName? (name : String) : Option Marker :=
  if name = "$oid" then some .oid
  else if name = "$symbol" then some .symbol
  else if name = "$code" then some .code
  else if name = "$scope" then some .scope
  else if name = "$numberInt" then some .numberInt
  else if name = "$numberLong" then some .numberLong
  else if name = "$numberDouble" then some .numberDouble
  else if name = "$numberDecimal" then some .numberDecimal
  else if name = "$numberDecimalBytes" then some .numberDecimalBytes
  else if name = "$date" then some .date
  else if name = "$timestamp" then some .timestamp
  else if name = "$regularExpression" then some .regularExpression
  else if name = "$binary" then some .binary
  else if name = "$uuid" then some .uuid
  else if name = "$dbPointer" then some .dbPointer
  else if name = "$minKey" then some .minKey
  else if name = "$maxKey" then some .maxKey
  else if name = "$undefined" then some .undefined
  else none

/-! ### Parts of marked values -/

/-- The string that a JSON value is. -/
def string? : Json → Option String
  | .string s => some s
  | _ => none

/-- The nonnegative integer that a JSON value is. -/
def natural? : Json → Option Nat
  | .number n =>
    match n.reading? with
    | some (.natural k) => some k.toNat
    | _ => none
  | _ => none

/-- The word of 32 bits that a JSON value is. -/
def word32? (j : Json) : Option UInt32 := do
  let n ← natural? j
  if n < UInt32.size then some (UInt32.ofNat n) else none

/-- The values of the named members of an object, each of them given once and no other
beside them; an array gives them in order and without names. -/
def parts? (names : List String) : Json → Option (List Json)
  | .object members =>
    if members.length = names.length then names.mapM fun name => Fields.get? members name
    else none
  | .array items => if items.length = names.length then some items else none
  | _ => none

private def objectIdOfText? (s : String) : Option ObjectId :=
  Hex.decode? s.toList >>= ObjectId.ofBytes?

private def objectId? (j : Json) : Option ObjectId := do
  let [s] ← parts? ["$oid"] j | none
  string? s >>= objectIdOfText?

private def instant? : Json → Option Instant
  | .number n =>
    match n.reading? with
    | some (.natural k) => (Integer.toInt64? k.toNat).map Instant.mk
    | some (.negative k) => some ⟨k⟩
    | _ => none
  | .string s => Rfc3339.ofText? s
  | j => do
    let [s] ← parts? ["$numberLong"] j | none
    let s ← string? s
    (Integer.int64OfText? s).map Instant.mk

private def timestamp? (j : Json) : Option Value := do
  let [time, increment] ← parts? ["t", "i"] j | none
  let time ← word32? time
  let increment ← word32? increment
  some (.timestamp time increment)

/-- A text that a zero byte does not end early. -/
private def terminated? (s : String) : Option String :=
  if s.toList.any fun c => c.toNat = 0 then none else some s

private def sortChars (s : String) : String :=
  String.ofList (s.toList.mergeSort fun a b => a.toNat ≤ b.toNat)

private def regex? (j : Json) : Option Value := do
  let [pattern, options] ← parts? ["pattern", "options"] j | none
  let pattern ← string? pattern >>= terminated?
  let options ← string? options >>= terminated?
  some (.regex pattern (sortChars options))

private def binary? (j : Json) : Option Value := do
  let [bytes, subtype] ← parts? ["base64", "subType"] j | none
  let bytes ← string? bytes
  let bytes ← Base64.decode? bytes.toList
  let subtype ← string? subtype
  let [subtype] ← Hex.decode? subtype.toList | none
  some (.binary subtype bytes)

/-- The digits of a UUID: 32 of them, or with a hyphen after the 8th, 12th, 16th and 20th,
and then also after a marker or between braces. -/
private def uuidDigits? (cs : List Char) : Option (List Char) :=
  let hyphenated? (cs : List Char) : Option (List Char) :=
    if cs.length = 36 ∧ ([8, 13, 18, 23].all fun i => cs[i]? = some '-') then
      some (cs.take 8 ++ (cs.drop 9).take 4 ++ (cs.drop 14).take 4 ++ (cs.drop 19).take 4
        ++ cs.drop 24)
    else none
  if cs.length = 32 then some cs
  else if cs.length = 38 then
    if cs.head? = some '{' ∧ cs.getLast? = some '}' then hyphenated? ((cs.drop 1).take 36)
    else none
  else if cs.length = 45 then
    if (cs.take 9).map Char.toLower = "urn:uuid:".toList then hyphenated? (cs.drop 9)
    else none
  else hyphenated? cs

private def uuid? (j : Json) : Option Value := do
  let s ← string? j
  let digits ← uuidDigits? s.toList
  let bytes ← Hex.decode? digits
  some (.binary 4 bytes)

private def dbPointer? (j : Json) : Option Value := do
  let [collection, id] ← parts? ["$ref", "$id"] j | none
  let collection ← string? collection
  let id ← objectId? id
  some (.dbPointer collection id)

private def double? (j : Json) : Option Binary64 := do
  let s ← string? j
  if s = "Infinity" then some .infinity
  else if s = "-Infinity" then some (.neg .infinity)
  else if s = "NaN" then some .nan
  else Floating.ofText? s

private def byte? (j : Json) : Option UInt8 := do
  let n ← natural? j
  if n < UInt8.size then some (UInt8.ofNat n) else none

/-- The bytes that a JSON value gives, as numbers or as those of a string. -/
private def bytes? : Json → Option (List UInt8)
  | .array items => items.mapM byte?
  | .string s => some s.toUTF8.toList
  | _ => none

/-- The value that a marker announces, from the member with that name alone; a scope does
not stand alone. -/
def value? : Marker → Json → Option Value
  | .oid, j => do
    let id ← string? j >>= objectIdOfText?
    some (.objectId id)
  | .symbol, j => (string? j).map .symbol
  | .code, j => (string? j).map .code
  | .scope, _ => none
  | .numberInt, j => (string? j >>= Integer.int32OfText?).map .int32
  | .numberLong, j => (string? j >>= Integer.int64OfText?).map .int64
  | .numberDouble, j => (double? j).map .double
  | .numberDecimal, j => (string? j >>= Decimal128.ofText?).map .decimal128
  | .numberDecimalBytes, j => (bytes? j >>= Decimal128.ofBytes?).map .decimal128
  | .date, j => (instant? j).map .date
  | .timestamp, j => timestamp? j
  | .regularExpression, j => regex? j
  | .binary, j => binary? j
  | .uuid, j => uuid? j
  | .dbPointer, j => dbPointer? j
  | .minKey, j => if natural? j = some 1 then some .minKey else none
  | .maxKey, j => if natural? j = some 1 then some .maxKey else none
  | .undefined, .bool true => some .undefined
  | .undefined, _ => none

end Marker

namespace Value

/-- The value of a numeral, by its size. -/
def ofNumeral? (n : Numeral) : Option Value :=
  match n.reading? with
  | some (.natural k) =>
    match Integer.toInt32? k.toNat with
    | some n => some (.int32 n)
    | none => (Integer.toInt64? k.toNat).map .int64
  | some (.negative k) => some (.int64 k)
  | some (.real x) => some (.double x)
  | none => none

/-- The document that a value is. -/
def document? : Value → Option Document
  | .document fields => some fields
  | _ => none

mutual

/-- The value that a JSON value stands for. -/
def ofJson? : Json → Option Value
  | .null => some .null
  | .bool b => some (.bool b)
  | .number n => ofNumeral? n
  | .string s => some (.string s)
  | .array items => (ofItems? items).map .array
  | .object members => ofMembers? [] members

/-- The values that the items of an array stand for. -/
def ofItems? : List Json → Option (List Value)
  | [] => some []
  | item :: rest => do
    let v ← ofJson? item
    let values ← ofItems? rest
    some (v :: values)

/-- The value of an object, of whose members the fields given first are already read. -/
def ofMembers? : Document → List (String × Json) → Option Value
  | fields, [] => some (.document fields)
  | fields, (name, j) :: rest =>
    match Marker.ofName? name with
    | none => do
      let v ← ofJson? j
      ofMembers? (fields.insert name v) rest
    | some marker =>
      match rest with
      | [] => marker.value? j
      | [(other, k)] =>
        if marker = .code ∧ other = "$scope" then do
          let source ← Marker.string? j
          let scope ← ofJson? k >>= document?
          some (.codeWithScope source scope)
        else if marker = .scope ∧ other = "$code" then do
          let scope ← ofJson? j >>= document?
          let source ← Marker.string? k
          some (.codeWithScope source scope)
        else none
      | _ => none

end

/-- How deep arrays and objects may be nested in a text. -/
def maxDepth : Nat := 127

/-- The JSON value that a text writes, unless it is nested too deep. -/
def readJson? (text : String) : Option Json := do
  let j ← Json.ofText? text
  if j.depth ≤ maxDepth then some j else none

/-- The value that a text writes. -/
def ofText? (text : String) : Option Value :=
  readJson? text >>= ofJson?

end Value

namespace Document

/-- The document that a text writes. -/
def ofText? (text : String) : Option Document :=
  Value.ofText? text >>= Value.document?

/-- The documents of the array that a text writes. -/
def listOfText? (text : String) : Option (List Document) := do
  let .array items ← Value.ofText? text | none
  items.mapM Value.document?

end Document

end MongoQuery
