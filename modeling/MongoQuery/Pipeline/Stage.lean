import MongoQuery.Bson.Value
import MongoQuery.Number.Integer

/-!
# Stages of a pipeline

The stages that aggregations are made of, in the form in which they work on the rows of a
bucket pipeline.  Such a row has a compound key, whose components are numbered from zero,
and three columns; its places are the key, the components, the members of a component and
the columns.  `Stage.toDocument` is the document of a stage.
-/

namespace MongoQuery

/-- A column of a row beside its key. -/
inductive Column where
  | id
  | value
  | buckets
deriving DecidableEq, Repr

/-- The name of a column. -/
def Column.name : Column → String
  | .id => "id"
  | .value => "value"
  | .buckets => "buckets"

/-- A place in a row. -/
inductive Place where
  | key
  | component (index : Nat)
  | member (index : Nat) (name : String)
  | column (c : Column)
deriving DecidableEq, Repr

namespace Place

/-- The path of a place. -/
def path : Place → String
  | .key => "_id"
  | .component index => "_id." ++ Integer.text index
  | .member index name => "_id." ++ Integer.text index ++ "." ++ name
  | .column c => c.name

/-- The reference to a place in an expression. -/
def reference (p : Place) : Value :=
  .string ("$" ++ p.path)

end Place

/-- An expression over a row, or over a record that is not yet grouped. -/
inductive Expr where
  /-- A field of a record. -/
  | field (fieldId : String)
  /-- A place of a row. -/
  | place (p : Place)
  | number (x : Binary64)
  | emptyText
  /-- The first expression, or the second where that is null or missing. -/
  | ifNull (e fallback : Expr)
  | multiply (e f : Expr)
  | divide (e f : Expr)
  /-- The whole part. -/
  | truncate (e : Expr)
  /-- The text of a date in a format. -/
  | dateText (format : String) (e : Expr)
deriving DecidableEq, Repr

/-- The value that writes an expression. -/
def Expr.toValue : Expr → Value
  | .field fieldId => .string ("$" ++ fieldId)
  | .place p => p.reference
  | .number x => .double x
  | .emptyText => .string ""
  | .ifNull e fallback =>
    .document (Document.single "$ifNull" (.array [e.toValue, fallback.toValue]))
  | .multiply e f => .document (Document.single "$multiply" (.array [e.toValue, f.toValue]))
  | .divide e f => .document (Document.single "$divide" (.array [e.toValue, f.toValue]))
  | .truncate e => .document (Document.single "$trunc" e.toValue)
  | .dateText format e =>
    .document (Document.single "$dateToString"
      (.document [("format", .string format), ("date", e.toValue)]))

/-- What a grouping computes from the rows that it puts together. -/
inductive Accumulator where
  /-- The number of rows. -/
  | count
  /-- The sum of a column. -/
  | sum (c : Column)
  /-- The value of an expression on the first row. -/
  | first (e : Expr)
  /-- The list of the rows, each with the given columns. -/
  | collect (columns : List Column)
deriving DecidableEq, Repr

/-- The value that writes an accumulator. -/
def Accumulator.toValue : Accumulator → Value
  | .count => .document (Document.single "$sum" (.int32 1))
  | .sum c => .document (Document.single "$sum" (Place.column c).reference)
  | .first e => .document (Document.single "$first" e.toValue)
  | .collect columns =>
    .document (Document.single "$push"
      (.document (columns.map fun c => (c.name, (Place.column c).reference))))

/-- What a projection puts at a place. -/
inductive Projection where
  /-- What was there. -/
  | keep
  /-- Nothing. -/
  | drop
  /-- The value of an expression. -/
  | compute (e : Expr)
  /-- The empty list. -/
  | emptyList
deriving DecidableEq, Repr

/-- The value that writes a projection. -/
def Projection.toValue : Projection → Value
  | .keep => .int32 1
  | .drop => .int32 0
  | .compute e => e.toValue
  | .emptyList => .array []

/-- A stage of a pipeline. -/
inductive Stage where
  /-- Keeps the records that satisfy a filter. -/
  | satisfying (filter : Document)
  /-- Keeps the rows whose value at a place is among the given ones. -/
  | among (p : Place) (values : List Value)
  /-- Turns a row into one for each element of the array at a place. -/
  | unwind (p : Place)
  /-- Puts the rows with equal keys together; the key has one component for each expression. -/
  | group (key : List Expr) (columns : List (Column × Accumulator))
  /-- Forms each row anew from the given places. -/
  | project (places : List (Place × Projection))

namespace Stage

/-- The document of a compound key whose components have numbers from a first one. -/
def keyFrom (first : Nat) : List Expr → Document
  | [] => []
  | e :: rest => (Integer.text first, e.toValue) :: keyFrom (first + 1) rest

/-- The document of a compound key. -/
def keyDocument (key : List Expr) : Document :=
  keyFrom 0 key

/-- The document of a stage. -/
def toDocument : Stage → Document
  | .satisfying filter => Document.single "$match" (.document filter)
  | .among p values =>
    Document.single "$match" (.document (Document.single p.path
      (.document (Document.single "$in" (.array values)))))
  | .unwind p => Document.single "$unwind" p.reference
  | .group key columns =>
    Document.single "$group" (.document (("_id", .document (keyDocument key))
      :: columns.map fun column => (column.1.name, column.2.toValue)))
  | .project places =>
    Document.single "$project"
      (.document (places.map fun place => (place.1.path, place.2.toValue)))

end Stage

end MongoQuery
