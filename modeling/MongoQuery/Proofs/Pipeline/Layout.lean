import Mathlib.Data.List.Basic
import MongoQuery.Pipeline.Buckets

/-!
# The flat layout of bucket pipelines

A bucket pipeline is formed by recursion on the levels: the stages of a level stand around
those of the levels within it.  Laid out flat it is a grouping of the records, then what each
level does before those within it, from the outermost in, then what each level does after
them, from the innermost out, and a projection that closes.  What a level does is written
here as documents, and it takes nothing but the level, its index and the number of levels.

Main statement: the documents of the pipeline of any specification are its flat layout.
-/

namespace MongoQuery

namespace Layout

/-! ### The parts of the layout -/

/-- The path of a component. -/
def component (index : Nat) : String := "_id." ++ Integer.text index

/-- The path of a member of a component. -/
def member (index : Nat) (name : String) : String := component index ++ "." ++ name

/-- The reference to a path. -/
def reference (path : String) : Value := .string ("$" ++ path)

/-- The grouping of the records by the fields of all levels. -/
def source (levels : List Level) : Document :=
  Document.single "$group" (.document
    [("_id", .document (levels.zipIdx.map fun l => (Integer.text l.2, reference l.1.fieldId))),
      ("value", .document (Document.single "$sum" (.int32 1)))])

/-- The projection that puts a value in the place of a component. -/
def replacing (depth index : Nat) (v : Value) : Document :=
  Document.single "$project" (.document
    ((component index, v)
      :: ((List.range depth).filter fun j => j ≠ index).map (fun j : Nat => (component j, .int32 1))
      ++ [("id", .int32 1), ("value", .int32 1)]))

/-- The stages of a selector. -/
def selecting (depth index : Nat) (subField : SubField) : List Document :=
  [Document.single "$unwind" (reference (component index)),
    Document.single "$match" (.document (Document.single (member index "id")
      (.document (Document.single "$in" (.array (subField.ids.map .string)))))),
    replacing depth index (reference (member index subField.property))]

/-- The projection to a multiple of a width. -/
def rounding (depth index : Nat) (width : Binary64) : Document :=
  replacing depth index (.document (Document.single "$multiply" (.array
    [.document (Document.single "$trunc" (.document (Document.single "$divide"
      (.array [reference (component index), .double width])))), .double width])))

/-- The projection to the beginning of an interval. -/
def dating (depth index : Nat) (interval : DateInterval) : Document :=
  replacing depth index (.document (Document.single "$dateToString" (.document
    [("format", .string interval.format), ("date", reference (component index))])))

/-- What a level does before those within it. -/
def opening (depth index : Nat) (level : Level) : List Document :=
  (match level.subField with
    | some subField => selecting depth index subField
    | none => [])
  ++ (match level.bucketing with
    | .raw => []
    | .histogram width => [rounding depth index width]
    | .date interval => [dating depth index interval])

/-- The choice of keys. -/
def choosing (index : Nat) (values : List Value) : Document :=
  Document.single "$match" (.document (Document.single (component index)
    (.document (Document.single "$in" (.array values)))))

/-- The grouping of a level, which collects the buckets within where there are any. -/
def grouping (depth index : Nat) : Document :=
  Document.single "$group" (.document
    ([("_id", .document ((List.range (index + 1)).map fun j : Nat =>
        (Integer.text j, reference (component j)))),
      ("id", .document (Document.single "$first" (.document (Document.single "$ifNull"
        (.array [reference (component index), .string ""]))))),
      ("value", .document (Document.single "$sum" (.string "$value")))]
    ++ if index + 1 < depth then
      [("buckets", .document (Document.single "$push" (.document
        [("id", .string "$id"), ("value", .string "$value"), ("buckets", .string "$buckets")])))]
      else []))

/-- The projection that gives buckets no buckets within. -/
def emptying : Document :=
  Document.single "$project" (.document
    [("_id", .int32 1), ("id", .int32 1), ("value", .int32 1), ("buckets", .array [])])

/-- What a level does after those within it. -/
def closing (depth index : Nat) (level : Level) : List Document :=
  (match level.values with
    | some values => [choosing index values]
    | none => [])
  ++ grouping depth index :: if index + 1 = depth then [emptying] else []

/-- The projection that leaves the buckets. -/
def final : Document :=
  Document.single "$project" (.document
    [("_id", .int32 0), ("id", .int32 1), ("value", .int32 1), ("buckets", .int32 1)])

/-- The layout of a specification. -/
def flat (spec : BucketSpec) : List Document :=
  source spec.levels
    :: spec.levels.zipIdx.flatMap (fun l => opening spec.depth l.2 l.1)
    ++ spec.levels.zipIdx.reverse.flatMap (fun l => closing spec.depth l.2 l.1)
    ++ [final]

end Layout

/-! ### The documents of the stages -/

open Layout

namespace Stage

/-- A key of an expression for each of some items is written with the indices of the items. -/
theorem keyFrom_map {α : Type} (f : α → Expr) (xs : List α) (first : Nat) :
  keyFrom first (xs.map f) = (xs.zipIdx first).map fun x => (Integer.text x.2, (f x.1).toValue)
  := by
  induction xs generalizing first with
  | nil => rfl
  | cons x rest ih => rw [List.map_cons, keyFrom, ih, List.zipIdx_cons, List.map_cons]

theorem keyFrom_range' (f : Nat → Expr) (first n : Nat) :
  keyFrom first ((List.range' first n).map f)
    = (List.range' first n).map fun j : Nat => (Integer.text j, (f j).toValue)
  := by
  induction n generalizing first with
  | zero => rfl
  | succ n ih => rw [List.range'_succ, List.map_cons, keyFrom, ih, List.map_cons]

/-- The first components of the key of a row are written as a key. -/
theorem keyDocument_ownKey (n : Nat) :
  keyDocument (ownKey n)
    = (List.range n).map fun j : Nat => (Integer.text j, reference (component j))
  := by
  rw [keyDocument, ownKey, List.range_eq_range', keyFrom_range']
  rfl

end Stage

namespace Level

theorem toDocument_replaceComponent_eq (depth index : Nat) (e : Expr) :
  (replaceComponent depth index e).toDocument = replacing depth index e.toValue
  := by
  simp only [replaceComponent, Stage.toDocument, List.map_append, List.map_cons, List.map_map]
  rfl

theorem map_toDocument_selectStages (depth index : Nat) (subField : SubField) :
  (selectStages depth index subField).map Stage.toDocument = selecting depth index subField
  := by
  rw [selectStages, List.map_cons, List.map_cons, List.map_singleton,
    toDocument_replaceComponent_eq]
  rfl

/-- What a level does before those within it. -/
theorem map_toDocument_keyStages (depth index : Nat) (level : Level) :
  (level.keyStages depth index).map Stage.toDocument = opening depth index level
  := by
  rw [keyStages, opening, List.map_append]
  congr 1
  · cases level.subField with
    | none => rfl
    | some subField => apply map_toDocument_selectStages
  · cases level.bucketing with
    | raw => rfl
    | histogram width =>
        simp only [keyExpr?, List.map_singleton, toDocument_replaceComponent_eq]
        rfl
    | date interval =>
        simp only [keyExpr?, List.map_singleton, toDocument_replaceComponent_eq]
        rfl

theorem toDocument_collapse {depth index : Nat} (h : index < depth) :
  (collapse index (index + 1 = depth)).toDocument = grouping depth index
  := by
  rw [collapse, Stage.toDocument, Stage.keyDocument_ownKey, grouping]
  by_cases hlast : index + 1 = depth
  · have hinner : ¬ index + 1 < depth := by omega
    rw [decide_eq_true hlast, if_neg hinner]
    rfl
  · have hinner : index + 1 < depth := by omega
    rw [decide_eq_false hlast, if_pos hinner]
    rfl

/-- What a level does after those within it. -/
theorem map_toDocument_bucketStages {depth index : Nat} (h : index < depth) (level : Level) :
  (level.bucketStages index (index + 1 = depth)).map Stage.toDocument = closing depth index level
  := by
  rw [bucketStages, closing, List.map_append, List.map_cons, toDocument_collapse h]
  congr 1
  · cases level.values with
    | none => rfl
    | some values => rfl
  · by_cases hlast : index + 1 = depth
    · simp only [hlast, decide_true, if_true]
      rfl
    · simp only [hlast, decide_false, if_false]
      rfl

end Level

/-! ### The recursion on the levels -/

namespace BucketSpec

/-- The stages of levels are what each of them does before those within it, from the outermost
in, and then what each of them does after them, from the innermost out. -/
theorem levelStages_eq_flatMap (depth index : Nat) (levels : List Level)
    (h : index + levels.length = depth) :
  levelStages depth index levels
    = (levels.zipIdx index).flatMap (fun l => l.1.keyStages depth l.2)
      ++ (levels.zipIdx index).reverse.flatMap fun l => l.1.bucketStages l.2 (l.2 + 1 = depth)
  := by
  -- The index grows and the levels get fewer, so that their sum stays the depth: the last level
  -- is the one whose index is one less.
  induction levels generalizing index with
  | nil => rfl
  | cons level inner ih =>
      rw [List.length_cons] at h
      have hinnermost : inner.isEmpty = decide (index + 1 = depth) := by
        cases inner with
        | nil => simpa using h
        | cons next rest =>
            rw [List.length_cons] at h
            have hne : index + 1 ≠ depth := by omega
            simp [hne]
      rw [levelStages, ih (index + 1) (by omega), hinnermost, List.zipIdx_cons,
        List.flatMap_cons, List.reverse_cons, List.flatMap_append, List.flatMap_singleton]
      simp only [List.append_assoc]

theorem toDocument_source (spec : BucketSpec) :
  (Stage.group spec.sourceKey [(.value, .count)]).toDocument = source spec.levels
  := by
  rw [Stage.toDocument, sourceKey, Stage.keyDocument, Stage.keyFrom_map]
  rfl

/-- The documents of the pipeline of a specification are its flat layout. -/
theorem map_toDocument_stages_eq_flat (spec : BucketSpec) :
  spec.stages.map Stage.toDocument = Layout.flat spec
  := by
  have hlength : 0 + spec.levels.length = spec.depth := Nat.zero_add spec.levels.length
  have hclosing : ∀ l ∈ spec.levels.zipIdx.reverse,
      (l.1.bucketStages l.2 (l.2 + 1 = spec.depth)).map Stage.toDocument
        = closing spec.depth l.2 l.1 := by
    intro l hl
    have hindex := List.snd_lt_of_mem_zipIdx (List.mem_reverse.mp hl)
    rw [Nat.add_comm, hlength] at hindex
    apply Level.map_toDocument_bucketStages hindex
  rw [stages, levelStages_eq_flatMap _ _ _ hlength, List.map_append, List.map_cons,
    toDocument_source, List.map_append, List.map_flatMap, List.map_flatMap,
    List.flatMap_congr hclosing]
  simp only [Level.map_toDocument_keyStages]
  rfl

end BucketSpec

end MongoQuery
