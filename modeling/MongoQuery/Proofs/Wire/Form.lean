import MongoQuery.Proofs.Fields
import MongoQuery.Wire.Aggregation

/-!
# Written forms

The documents in which conditions, groups, filters, bucket specifications and requests are
written: a condition by its operator and its operand, a group by its fields in order, a
level of buckets by what is set in it.  A comparison with a literal document that has a
field `daysAgo` cannot be told from a comparison with a number of days ago; where there is
none, at any depth, a condition is unambiguous.
-/

namespace MongoQuery

/-! ### Conditions and groups -/

/-- The operand in which a bound is written. -/
def Bound.form : Bound → Value
  | .literal v => v
  | .daysAgo days => .document (Document.single "daysAgo" (.int64 days))

namespace Condition

/-- The document of an operator and an operand. -/
def documentOf (op : String) (operand : Value) : Document :=
  [("op", .string op), ("value", operand)]

mutual

/-- The operand in which a condition is written. -/
def operand : Condition → Value
  | .eq v => v
  | .neq v => v
  | .order _ bound => bound.form
  | .startsWith text => .string text
  | .all parts => .array (formParts parts)
  | .any parts => .array (formParts parts)
  | .find group => .document (formFields group)
  | .nfind group => .document (formFields group)

/-- The values in which conditions are written. -/
def formParts : List Condition → List Value
  | [] => []
  | c :: rest => .document (documentOf c.opName c.operand) :: formParts rest

/-- The fields in which the fields of a group are written. -/
def formFields : List (String × Condition) → List (String × Value)
  | [] => []
  | (field, c) :: rest =>
    (field, .document (documentOf c.opName c.operand)) :: formFields rest

end

/-- The document in which a condition is written. -/
def form (c : Condition) : Document :=
  documentOf c.opName c.operand

end Condition

/-- The document in which a group is written. -/
def Group.form (group : Group) : Document :=
  Condition.formFields group

/-! ### Filters -/

/-- The value in which a statement is written. -/
def Statement.form (statement : Statement) : Value :=
  .array (statement.map fun group => .document (Group.form group))

/-- The value in which criteria are written. -/
def Criteria.form (criteria : Criteria) : Value :=
  .array (criteria.statements.map Statement.form)

/-- The document in which a filter is written. -/
def FilterSpec.form (spec : FilterSpec) : Document :=
  [("statements", spec.criteria.form), ("sortFieldId", .string spec.sort.field),
    ("sortDirection", .string spec.sort.direction.name),
    ("limit", .int64 (Int64.ofNat spec.limit.toNat))]

/-! ### Buckets -/

namespace Bucketing

/-- The width that is set. -/
def width? : Bucketing → Option Binary64
  | .histogram width => some width
  | _ => none

/-- The date interval that is set. -/
def interval? : Bucketing → Option DateInterval
  | .date interval => some interval
  | _ => none

end Bucketing

/-- The document in which a level of buckets is written, given that of the levels within. -/
def Level.form (level : Level) (inner : Option Document) : Document :=
  Fields.ofSet
    [("fieldId", some (.string level.fieldId)),
      ("values", level.values.map .array),
      ("subFieldIds", level.subField.map fun s => .array (s.ids.map .string)),
      ("subFieldProp", level.subField.map fun s => .string s.property),
      ("interval", level.bucketing.width?.map .double),
      ("dateInterval", level.bucketing.interval?.map fun i => .string i.name),
      ("subBuckets", inner.map .document)]

namespace BucketSpec

/-- The document in which inner levels are written, if there are any. -/
def formInner : List Level → Option Document
  | [] => none
  | level :: rest => some (level.form (formInner rest))

/-- The document in which a bucket specification is written. -/
def form (spec : BucketSpec) : Document :=
  spec.outer.form (formInner spec.inner)

end BucketSpec

/-! ### Requests -/

namespace Request

/-- The fields in which what a request consists of is written. -/
def fields : Request → Document
  | .filter criteria => [("statements", criteria.form)]
  | .buckets spec => spec.form

/-- The document in which a request is written. -/
def form (request : Request) : Document :=
  ("type", .string request.kind) :: request.fields

end Request

/-! ### Unambiguous conditions -/

/-- Not a comparison with a literal document that reads as a number of days ago. -/
def Bound.Unambiguous : Bound → Prop
  | .literal (.document fields) => Fields.get? fields "daysAgo" = none
  | _ => True

namespace Condition

mutual

/-- No literal bound, at any depth, reads as a number of days ago. -/
def Unambiguous : Condition → Prop
  | .order _ bound => bound.Unambiguous
  | .all parts => UnambiguousParts parts
  | .any parts => UnambiguousParts parts
  | .find group => UnambiguousFields group
  | .nfind group => UnambiguousFields group
  | _ => True

/-- Each of the conditions is unambiguous. -/
def UnambiguousParts : List Condition → Prop
  | [] => True
  | c :: rest => c.Unambiguous ∧ UnambiguousParts rest

/-- Each of the conditions of the fields is unambiguous. -/
def UnambiguousFields : List (String × Condition) → Prop
  | [] => True
  | (_, c) :: rest => c.Unambiguous ∧ UnambiguousFields rest

end

end Condition

/-- The conditions of criteria are unambiguous. -/
def Criteria.Unambiguous (criteria : Criteria) : Prop :=
  ∀ statement ∈ criteria.statements, ∀ group ∈ statement, Condition.UnambiguousFields group

/-- The widths of a bucket specification are greater than zero. -/
def BucketSpec.Positive (spec : BucketSpec) : Prop :=
  ∀ level ∈ spec.levels, ∀ width, level.bucketing = .histogram width → width.isPositive

/-- What a request consists of can be read back. -/
def Request.Readable : Request → Prop
  | .filter criteria => criteria.Unambiguous
  | .buckets spec => spec.Positive

end MongoQuery
