import MongoQuery.Pipeline.Stage
import MongoQuery.Query.Aggregation

/-!
# Bucket pipelines

The pipeline of a bucket specification counts the records by the fields of all levels
together, which gives a row for every compound key.  From the outermost level in, each
level then replaces its component of the key; from the innermost level out, each level
keeps the selected keys and puts the rows together that agree up to its component.  At the
end the key is dropped.
-/

namespace MongoQuery

/-- The key of the first `length` components as they stand in a row. -/
def Stage.ownKey (length : Nat) : List Expr :=
  (List.range length).map fun j => .place (.component j)

namespace Level

/-- The projection that replaces one of `depth` components and keeps all else. -/
def replaceComponent (depth index : Nat) (e : Expr) : Stage :=
  let others := (List.range depth).filter fun j => j ≠ index
  .project ((.component index, .compute e)
    :: others.map (fun j => (Place.component j, Projection.keep))
    ++ [(.column .id, .keep), (.column .value, .keep)])

/-- The expression that rounds a component to a key. -/
def keyExpr? (index : Nat) : Bucketing → Option Expr
  | .raw => none
  | .histogram width =>
    some (.multiply (.truncate (.divide (.place (.component index)) (.number width)))
      (.number width))
  | .date interval => some (.dateText interval.format (.place (.component index)))

/-- The stages that look at a property of selected elements of a component. -/
def selectStages (depth index : Nat) (subField : SubField) : List Stage :=
  [.unwind (.component index),
    .among (.member index "id") (subField.ids.map .string),
    replaceComponent depth index (.place (.member index subField.property))]

/-- The stages that replace the component of a level. -/
def keyStages (depth index : Nat) (level : Level) : List Stage :=
  (match level.subField with
    | some subField => selectStages depth index subField
    | none => [])
  ++ (match keyExpr? index level.bucketing with
    | some e => [replaceComponent depth index e]
    | none => [])

/-- The stage that puts the rows together which agree up to a component; the buckets within
are collected unless the level is the innermost one. -/
def collapse (index : Nat) (innermost : Bool) : Stage :=
  .group (Stage.ownKey (index + 1))
    ([(.id, .first (.ifNull (.place (.component index)) .emptyText)), (.value, .sum .value)]
      ++ if innermost then [] else [(.buckets, .collect [.id, .value, .buckets])])

/-- The projection that gives the innermost buckets no buckets within. -/
def leaf : Stage :=
  .project [(.key, .keep), (.column .id, .keep), (.column .value, .keep),
    (.column .buckets, .emptyList)]

/-- The stages that form the buckets of a level. -/
def bucketStages (index : Nat) (innermost : Bool) (level : Level) : List Stage :=
  (match level.values with
    | some values => [.among (.component index) values]
    | none => [])
  ++ collapse index innermost :: (if innermost then [leaf] else [])

end Level

namespace BucketSpec

/-- The key by which the records are counted at first: the fields of all levels. -/
def sourceKey (spec : BucketSpec) : List Expr :=
  spec.levels.map fun level => .field level.fieldId

/-- The stages of levels, the first of them with a given index. -/
def levelStages (depth : Nat) : Nat → List Level → List Stage
  | _, [] => []
  | index, level :: inner =>
    level.keyStages depth index ++ levelStages depth (index + 1) inner
      ++ level.bucketStages index inner.isEmpty

/-- The pipeline of a specification. -/
def stages (spec : BucketSpec) : List Stage :=
  .group spec.sourceKey [(.value, .count)]
    :: levelStages spec.depth 0 spec.levels
    ++ [.project [(.key, .drop), (.column .id, .keep), (.column .value, .keep),
      (.column .buckets, .keep)]]

end BucketSpec

end MongoQuery
