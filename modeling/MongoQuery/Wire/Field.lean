import MongoQuery.Number.Integer
import MongoQuery.Wire.Error

/-!
# Fields of requests

A field of a request that is null counts as absent.  Integers may be given in any of the
three types of number, as long as they are integers of 64 bits.
-/

namespace MongoQuery

/-- The value of a field, if it is present and not null. -/
def Document.present? (d : Document) (name : String) : Option Value :=
  match d.get? name with
  | some .null => none
  | found => found

namespace Value

/-- The integer of 64 bits that a number is equal to. -/
def integer? : Value → Option Int64
  | .int32 n => some n.toInt64
  | .int64 n => some n
  | .double x => x.toInt? >>= Integer.toInt64?
  | _ => none

/-- The floating point number nearest to a number. -/
def real? : Value → Option Binary64
  | .int32 n => some (Binary64.ofInt n.toInt)
  | .int64 n => some (Binary64.ofInt n.toInt)
  | .double x => some x
  | _ => none

end Value

/-- The string that a field has to be. -/
def requireString (field : String) : Value → Except DecodeError String
  | .string s => .ok s
  | _ => .error (.invalidField field "a string")

end MongoQuery
