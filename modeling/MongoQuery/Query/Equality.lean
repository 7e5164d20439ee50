import MongoQuery.Bson.Equality
import MongoQuery.Query.Aggregation
import MongoQuery.Query.FilterSpec

/-!
# Equality of queries

Queries are equal when they have the same shape and equal values at corresponding places,
under the equality of BSON values.  The fields of a group are compared in their order.
-/

namespace MongoQuery

/-- Whether two optional things are both absent or equal. -/
def equalOption {α : Type} (equal : α → α → Bool) : Option α → Option α → Bool
  | none, none => true
  | some a, some b => equal a b
  | _, _ => false

/-- Whether two lists have equal elements in the same order. -/
def equalList {α : Type} (equal : α → α → Bool) : List α → List α → Bool
  | [], [] => true
  | a :: as, b :: bs => equal a b && equalList equal as bs
  | _, _ => false

/-- Whether two bounds are equal. -/
def Bound.equal : Bound → Bound → Bool
  | .literal v, .literal w => v.equal w
  | .daysAgo m, .daysAgo n => m == n
  | _, _ => false

namespace Condition

mutual

/-- Whether two conditions are equal. -/
def equal : Condition → Condition → Bool
  | .eq v, .eq w => v.equal w
  | .neq v, .neq w => v.equal w
  | .order c b, .order d e => c == d && b.equal e
  | .startsWith s, .startsWith t => s == t
  | .all parts, .all others => equalParts parts others
  | .any parts, .any others => equalParts parts others
  | .find group, .find other => equalGroups group other
  | .nfind group, .nfind other => equalGroups group other
  | _, _ => false

/-- Whether two lists of conditions are equal. -/
def equalParts : List Condition → List Condition → Bool
  | [], [] => true
  | c :: rest, d :: others => equal c d && equalParts rest others
  | _, _ => false

/-- Whether two groups have equal fields in the same order. -/
def equalGroups : List (String × Condition) → List (String × Condition) → Bool
  | [], [] => true
  | (f, c) :: rest, (g, d) :: others => f == g && equal c d && equalGroups rest others
  | _, _ => false

end

end Condition

/-- Whether two groups are equal. -/
def Group.equal (g h : Group) : Bool :=
  Condition.equalGroups g h

/-- Whether two criteria are equal. -/
def Criteria.equal (c d : Criteria) : Bool :=
  equalList (equalList Group.equal) c.statements d.statements

/-- Whether two filter specifications are equal. -/
def FilterSpec.equal (a b : FilterSpec) : Bool :=
  a.criteria.equal b.criteria && a.sort == b.sort && a.limit == b.limit
    && equalOption Value.equal a.cursor b.cursor

/-- Whether two ways of forming keys are equal. -/
def Bucketing.equal : Bucketing → Bucketing → Bool
  | .raw, .raw => true
  | .histogram x, .histogram y => x.equal y
  | .date i, .date j => i == j
  | _, _ => false

/-- Whether two levels are equal. -/
def Level.equal (a b : Level) : Bool :=
  a.fieldId == b.fieldId && equalOption (equalList Value.equal) a.values b.values
    && a.subField == b.subField && a.bucketing.equal b.bucketing

/-- Whether two bucket specifications are equal. -/
def BucketSpec.equal (a b : BucketSpec) : Bool :=
  equalList Level.equal a.levels b.levels

/-- Whether two requests are equal. -/
def Request.equal : Request → Request → Bool
  | .filter c, .filter d => c.equal d
  | .buckets a, .buckets b => a.equal b
  | _, _ => false

end MongoQuery
