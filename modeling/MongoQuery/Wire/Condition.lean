import MongoQuery.Query.Condition
import MongoQuery.Wire.Field

/-!
# Conditions and groups in requests

A condition is the document of an operator `op` and an operand `value`; a group is the
document of the conditions of its fields.  Faults are reported in reading order: of a
condition first the operator, then the kind of the operand, then what the operand holds.
-/

namespace MongoQuery

/-- The operators of conditions. -/
inductive Operator where
  | eq
  | neq
  | order (comparison : Comparison)
  | startsWith
  | all
  | any
  | find
  | nfind
deriving DecidableEq, Repr

namespace Operator

/-- The operator with a given name. -/
def ofName? (s : String) : Option Operator :=
  if s = "EQ" then some .eq
  else if s = "NEQ" then some .neq
  else if s = "PREFIX" then some .startsWith
  else if s = "ALL" then some .all
  else if s = "ANY" then some .any
  else if s = "FIND" then some .find
  else if s = "NFIND" then some .nfind
  else (Comparison.ofName? s).map .order

/-- The operator of a condition document. -/
def ofDocument? (d : Document) : Option Operator :=
  match d.get? "op" with
  | some (.string s) => ofName? s
  | _ => none

end Operator

namespace Condition

/-- The bound that the operand of a comparison gives: a document with a field `daysAgo` is
relative and everything else is literal. -/
def boundOf : Value → Except DecodeError Bound
  | .document fields =>
    match Fields.get? fields "daysAgo" with
    | none => .ok (.literal (.document fields))
    | some v =>
      match v.integer? with
      | some days => .ok (.daysAgo days)
      | none => .error (.invalidField "daysAgo" "an integer")
  | v => .ok (.literal v)

/-- The fault of an operand that is not an array of condition documents. -/
def notConditions : DecodeError := .invalidField "value" "an array of condition documents"

/-- The fault of an operand that is not a group. -/
def notGroup : DecodeError := .invalidField "value" "a query document"

/-- The fault of a field of a group that is not a condition document. -/
def notCondition (field : String) : DecodeError := .invalidField field "a condition document"

/-- The condition of an operator without an operand, or with null for one. -/
def withoutOperand : Operator → Except DecodeError Condition
  | .eq => .ok (.eq .null)
  | .neq => .ok (.neq .null)
  | .order comparison => .ok (.order comparison (.literal .null))
  | .startsWith => .error (.invalidField "value" "a string for PREFIX")
  | .all => .error notConditions
  | .any => .error notConditions
  | .find => .error notGroup
  | .nfind => .error notGroup

mutual

/-- The condition that a value gives; a value that is not a document has the fault `fault`. -/
def ofValue (fault : DecodeError) : Value → Except DecodeError Condition
  | .document fields =>
    match Operator.ofDocument? fields with
    | some op => ofFields op fields
    | none => .error (.unsupportedOperator fields)
  | _ => .error fault

/-- The condition of an operator whose operand is the field `value` among the given ones. -/
def ofFields (op : Operator) : List (String × Value) → Except DecodeError Condition
  | [] => withoutOperand op
  | (name, v) :: rest => if name = "value" then ofOperand op v else ofFields op rest

/-- The condition of an operator and its operand; an operand of a kind that the operator
cannot have is as good as none. -/
def ofOperand : Operator → Value → Except DecodeError Condition
  | op, .null => withoutOperand op
  | .eq, v => .ok (.eq v)
  | .neq, v => .ok (.neq v)
  | .order comparison, v => (boundOf v).map (.order comparison)
  | .startsWith, .string s => .ok (.startsWith s)
  | .all, .array items => (ofItems items).map .all
  | .any, .array items => (ofItems items).map .any
  | .find, .document fields => (groupOfFields fields).map .find
  | .nfind, .document fields => (groupOfFields fields).map .nfind
  | op, _ => withoutOperand op

/-- The conditions that the items of an array give. -/
def ofItems : List Value → Except DecodeError (List Condition)
  | [] => .ok []
  | v :: rest => do
    let c ← ofValue notConditions v
    let conditions ← ofItems rest
    return c :: conditions

/-- The group that the fields of a document give. -/
def groupOfFields : List (String × Value) → Except DecodeError (List (String × Condition))
  | [] => .ok []
  | (field, v) :: rest => do
    let c ← ofValue (notCondition field) v
    let group ← groupOfFields rest
    return (field, c) :: group

end

/-- Reads a condition. -/
def decode (d : Document) : Except DecodeError Condition :=
  ofValue notConditions (.document d)

end Condition

/-- Reads a group. -/
def Group.decode (d : Document) : Except DecodeError Group :=
  Condition.groupOfFields d

end MongoQuery
