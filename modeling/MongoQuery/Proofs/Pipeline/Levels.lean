import MongoQuery.Proofs.Pipeline.NestedCount
import MongoQuery.Proofs.Pipeline.Rows

/-!
# Stages of levels

The pipeline of a bucket specification counts the records, runs the stages of its levels and
drops the key.  A level keeps the rows with selected keys and collapses rows, whose numbers
are added up; the last projection leaves the bucket that a row is.
-/

namespace MongoQuery

/-! ### The buckets that rows are -/

namespace Document

/-- The bucket that a row is. -/
def bucket (row : Document) : Value :=
  .document (row.collected [.id, .value, .buckets])

/-- A row with a value in every column is the bucket of these values. -/
theorem bucket_eq {row : Document} {id value : Value} {inner : List Value}
    (hid : row.atPlace (.column .id) = some id)
    (hvalue : row.atPlace (.column .value) = some value)
    (hbuckets : row.atPlace (.column .buckets) = some (.array inner)) :
  row.bucket = .document (bucketDocument id value inner)
  := by
  rw [bucket, collected]
  simp only [List.map_cons, List.map_nil, hid, hvalue, hbuckets]
  rfl

end Document

namespace Engine

variable (E : Engine)

/-- The projection that drops the key leaves the bucket that a row is. -/
theorem document_projectRow (row : Document) :
  Value.document (E.projectRow [(.key, .drop), (.column .id, .keep), (.column .value, .keep),
      (.column .buckets, .keep)] row) = row.bucket
  := by
  rw [E.projectRow_eq (by rfl), Document.bucket, Document.collected]
  cases hid : row.atPlace (.column .id) <;> cases hvalue : row.atPlace (.column .value)
    <;> cases hbuckets : row.atPlace (.column .buckets)
    <;> simp [Engine.projected, hid, hvalue, hbuckets, Document.setPlaces, Document.setPlace,
      Document.put, Column.name, Fields.insert, Fields.ofSet]

/-! ### Stages one after the other -/

theorem run_append (stages others : List Stage) (rows : List Document) :
  E.run (stages ++ others) rows = E.run others (E.run stages rows)
  := by
  apply List.foldl_append

/-- A row that a grouping makes is that of a bunch of some of the rows. -/
theorem exists_bunch_of_mem_step_group {es : List Expr} {columns : List (Column × Accumulator)}
    {rows : List Document} {row : Document} (h : row ∈ E.step (.group es columns) rows) :
  ∃ bunch, row = E.groupRow columns bunch ∧ bunch.items ≠ []
    ∧ ∀ item ∈ bunch.items, item ∈ rows
  := by
  obtain ⟨bunch, hbunch, rfl⟩ := List.mem_map.mp h
  have hhold := Bunch.hold_ofItems E.alikeKeys (E.key es) rows
  use bunch, rfl
  constructor
  · obtain ⟨first, rest, hitems, -⟩ := hhold.begun bunch hbunch
    rw [hitems]
    apply List.cons_ne_nil
  · intro item hitem
    apply hhold.perm.mem_iff.mp
    apply List.mem_flatMap.mpr
    use bunch

/-- The numbers that rows have in a column are added up. -/
theorem accumulate_sum {α : Type} (xs : List α) (row : α → Document) (c : Column)
    (count : α → Nat) (h : ∀ x ∈ xs, (row x).atPlace (.column c) = some (E.number (count x))) :
  E.accumulate (xs.map row) (.sum c) = E.number ((xs.map count).foldr (· + ·) 0)
  := by
  have hcolumn : (xs.map row).map (fun row => row.atPlace (.column c))
      = (xs.map count).map fun n => some (E.number n) := by
    rw [List.map_map, List.map_map]
    apply List.map_congr_left h
  rw [accumulate, hcolumn, E.sum_numbers]

end Engine

/-! ### The stages of a level -/

namespace Level

/-- The stages that replace the component of a level unwind it, look at the ids of what is in
it, or put the value of an expression in its place: a property of a selected element, or the
key that is formed. -/
theorem mem_keyStages {depth index : Nat} {level : Level} {stage : Stage}
    (h : stage ∈ level.keyStages depth index) :
  stage = .unwind (.component index)
    ∨ (∃ ids, stage = .among (.member index "id") ids)
    ∨ ∃ e, stage = replaceComponent depth index e
      ∧ ((∃ property, e = .place (.member index property))
        ∨ keyExpr? index level.bucketing = some e)
  := by
  rcases List.mem_append.mp h with hselect | hround
  · cases hsub : level.subField with
    | none =>
        rw [hsub] at hselect
        cases hselect
    | some subField =>
        simp only [hsub, selectStages, List.mem_cons, List.not_mem_nil, or_false] at hselect
        rcases hselect with rfl | rfl | rfl
        · left
          rfl
        · right
          left
          use subField.ids.map .string
        · right
          right
          use .place (.member index subField.property), rfl
          left
          use subField.property
  · cases hexpr : keyExpr? index level.bucketing with
    | none =>
        rw [hexpr] at hround
        cases hround
    | some e =>
        rw [hexpr] at hround
        right
        right
        use e, List.mem_singleton.mp hround
        right
        rfl

/-- The expression of a key has the value that the level forms from the component. -/
theorem eval_of_keyExpr? (E : Engine) {index : Nat} {level : Level} {e : Expr}
    (h : keyExpr? index level.bucketing = some e) (row : Document) :
  E.eval row e = level.rounded E (row.atPlace (.component index))
  := by
  rw [rounded]
  cases hbucketing : level.bucketing with
  | raw =>
      rw [hbucketing] at h
      cases h
  | histogram width =>
      rw [hbucketing] at h
      cases h
      rfl
  | date interval =>
      rw [hbucketing] at h
      cases h
      rfl

/-- Where there is no expression the value is the key. -/
theorem rounded_of_keyExpr? (E : Engine) {index : Nat} {level : Level}
    (h : keyExpr? index level.bucketing = none) (x : Option Value) :
  level.rounded E x = x
  := by
  rw [rounded]
  cases hbucketing : level.bucketing with
  | raw => rfl
  | histogram width =>
      rw [hbucketing] at h
      cases h
  | date interval =>
      rw [hbucketing] at h
      cases h

/-- The columns of the rows of a level. -/
def collapseColumns (index : Nat) (innermost : Bool) : List (Column × Accumulator) :=
  [(.id, .first (.ifNull (.place (.component index)) .emptyText)), (.value, .sum .value)]
    ++ if innermost then [] else [(.buckets, .collect [.id, .value, .buckets])]

theorem collapse_eq (index : Nat) (innermost : Bool) :
  collapse index innermost = .group (Stage.ownKey (index + 1)) (collapseColumns index innermost)
  := by
  rfl

/-- The stage that selects keys at a level, if it does. -/
def valueStages (index : Nat) (level : Level) : List Stage :=
  match level.values with
  | some values => [.among (.component index) values]
  | none => []

theorem bucketStages_eq (index : Nat) (innermost : Bool) (level : Level) :
  level.bucketStages index innermost
    = level.valueStages index ++ collapse index innermost :: (if innermost then [leaf] else [])
  := by
  rfl

end Level

/-- The stage that selects keys at a level drops rows. -/
theorem Engine.sublist_run_valueStages (E : Engine) (level : Level) (index : Nat)
    (rows : List Document) :
  (E.run (level.valueStages index) rows).Sublist rows
  := by
  rw [Level.valueStages]
  split
  · apply List.filter_sublist
  · apply List.Sublist.refl

/-- The buckets of a specification are those that the rows of its outermost level are. -/
theorem BucketSpec.map_run_stages (E : Engine) (spec : BucketSpec) (records : List Document) :
  (E.run spec.stages records).map Value.document
    = (E.run (levelStages spec.depth 0 spec.levels)
      (E.step (.group spec.sourceKey [(.value, .count)]) records)).map Document.bucket
  := by
  rw [stages, Engine.run_append]
  change ((E.run _ _).map _).map Value.document = _
  rw [List.map_map]
  apply List.map_congr_left
  intro row _
  apply E.document_projectRow

end MongoQuery
