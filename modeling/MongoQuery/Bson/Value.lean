import MongoQuery.Fields
import MongoQuery.Number.Decimal128
import MongoQuery.Time.Instant

/-!
# BSON values

The values of BSON, numbers kept apart by their type.  A document is a map with ordered
fields; a document that is read or built by insertion has every field once.
-/

namespace MongoQuery

/-- The twelve bytes of an object identifier. -/
structure ObjectId where
  bytes : List UInt8
  length_eq : bytes.length = 12
deriving DecidableEq, Repr

/-- The object identifier of a run of bytes, where there are twelve of them. -/
def ObjectId.ofBytes? (bytes : List UInt8) : Option ObjectId :=
  if h : bytes.length = 12 then some ⟨bytes, h⟩ else none

/-- A BSON value. -/
inductive Value where
  | null
  | bool (b : Bool)
  | int32 (n : Int32)
  | int64 (n : Int64)
  | double (x : Binary64)
  | decimal128 (x : Decimal128)
  | string (s : String)
  | array (items : List Value)
  | document (fields : List (String × Value))
  | objectId (id : ObjectId)
  | date (t : Instant)
  | symbol (s : String)
  | code (source : String)
  | codeWithScope (source : String) (scope : List (String × Value))
  | timestamp (time increment : UInt32)
  | regex (pattern options : String)
  | binary (subtype : UInt8) (bytes : List UInt8)
  | dbPointer (collection : String) (id : ObjectId)
  | minKey
  | maxKey
  | undefined
deriving Inhabited

/-- A BSON document. -/
abbrev Document := Fields Value

namespace Document

/-- The document with a single field. -/
def single (name : String) (value : Value) : Document :=
  [(name, value)]

end Document

end MongoQuery
