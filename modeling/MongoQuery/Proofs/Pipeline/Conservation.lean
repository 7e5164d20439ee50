import Mathlib.Tactic.Choose
import MongoQuery.Proofs.Pipeline.Levels
import MongoQuery.Proofs.Pipeline.Reading

/-!
# Bucket pipelines conserve numbers

Whatever a level selects, looks at or rounds, each row of a bucket pipeline keeps the number
of one of the rows from which it is made until rows are collapsed, and then it has the sum of
their numbers and holds their buckets.  So no number is lost or counted twice within the
buckets that come out, also where rows are unwound or dropped between the groupings.

Main statement: the pipeline of any specification gives buckets that are nested as deep as
the specification, each with the sum of the numbers of the buckets directly within it.
-/

namespace MongoQuery

/-- A value is a bucket with a number, nested to a depth: an innermost bucket has none within,
and the number of any other is the sum of those of the buckets within, of which there are
some. -/
def IsBucket (E : Engine) : Nat → Nat → Value → Prop
  | 0, _, _ => False
  | 1, n, bucket => 1 ≤ n ∧ ∃ id, bucket = .document (bucketDocument id (E.number n) [])
  | depth + 2, n, bucket => 1 ≤ n ∧ ∃ id inner counts,
    bucket = .document (bucketDocument id (E.number n) inner) ∧ inner ≠ []
      ∧ List.Forall₂ (IsBucket E (depth + 1)) counts inner ∧ n = counts.foldr (· + ·) 0

/-- A row has a number in its column for values. -/
structure Document.Numbered (E : Engine) (n : Nat) (row : Document) : Prop where
  pos : 1 ≤ n
  value : row.atPlace (.column .value) = some (E.number n)

/-- A row has a number and is a bucket with it. -/
structure Document.Nests (E : Engine) (depth n : Nat) (row : Document) : Prop
    extends row.Numbered E n where
  isBucket : IsBucket E depth n row.bucket

variable (E : Engine)

/-! ### Stages that keep numbers -/

namespace Engine

/-- Every row that a stage makes has the number of a row from which it is made. -/
def KeepsNumbers (stage : Stage) : Prop :=
  ∀ rows, ∀ row ∈ E.step stage rows, ∃ old ∈ rows,
    row.atPlace (.column .value) = old.atPlace (.column .value)

theorem keepsNumbers_among (p : Place) (values : List Value) :
  E.KeepsNumbers (.among p values)
  := by
  intro rows row hrow
  use row, List.mem_of_mem_filter hrow

theorem keepsNumbers_unwind {p : Place} (h : p.Apart (.column .value)) :
  E.KeepsNumbers (.unwind p)
  := by
  intro rows row hrow
  obtain ⟨old, hold, hrow⟩ := List.mem_flatMap.mp hrow
  use old, hold
  unfold Document.unwound at hrow
  split at hrow
  · obtain ⟨item, -, rfl⟩ := List.mem_map.mp hrow
    apply Document.follow?_put_of_apart old item _ _ h
  · cases hrow
  · cases hrow
  · rw [List.mem_singleton.mp hrow]

theorem keepsNumbers_replaceComponent (depth index : Nat) (e : Expr) :
  E.KeepsNumbers (Level.replaceComponent depth index e)
  := by
  intro rows row hrow
  obtain ⟨old, hold, rfl⟩ := List.mem_map.mp hrow
  use old, hold
  apply E.atPlace_value_replaced

/-- The stages that replace the component of a level keep numbers. -/
theorem keepsNumbers_keyStages (depth index : Nat) (level : Level) :
  ∀ stage ∈ level.keyStages depth index, E.KeepsNumbers stage
  := by
  intro stage hstage
  rcases Level.mem_keyStages hstage with rfl | ⟨ids, rfl⟩ | ⟨e, rfl, -⟩
  · apply E.keepsNumbers_unwind (Place.apart_component_column index .value)
  · apply E.keepsNumbers_among
  · apply E.keepsNumbers_replaceComponent

/-- Stages that keep numbers do so one after the other. -/
theorem exists_numbered_run {stages : List Stage} (h : ∀ stage ∈ stages, E.KeepsNumbers stage)
    {rows : List Document} (hrows : ∀ row ∈ rows, ∃ n, row.Numbered E n) :
  ∀ row ∈ E.run stages rows, ∃ n, row.Numbered E n
  := by
  induction stages generalizing rows with
  | nil => apply hrows
  | cons stage rest ih =>
      apply ih fun other hother => h other (List.mem_cons_of_mem _ hother)
      intro row hrow
      obtain ⟨old, hold, hvalue⟩ := h stage List.mem_cons_self rows row hrow
      obtain ⟨n, hn⟩ := hrows old hold
      use n, hn.pos
      rw [hvalue, hn.value]

end Engine

/-! ### Groupings that add numbers up -/

theorem one_le_foldr_add {counts : List Nat} (hne : counts ≠ []) (h : ∀ n ∈ counts, 1 ≤ n) :
  1 ≤ counts.foldr (· + ·) 0
  := by
  obtain ⟨n, rest, rfl⟩ := List.exists_cons_of_ne_nil hne
  have hn := h n List.mem_cons_self
  rw [List.foldr_cons]
  omega

namespace Engine

/-- The rows of the first grouping have the numbers of the records in them. -/
theorem exists_numbered_step_count (es : List Expr) (records : List Document) :
  ∀ row ∈ E.step (.group es [(.value, .count)]) records, ∃ n, row.Numbered E n
  := by
  intro row hrow
  obtain ⟨bunch, rfl, hne, -⟩ := E.exists_bunch_of_mem_step_group hrow
  use bunch.items.length, List.length_pos_iff.mpr hne
  rw [E.atPlace_column_groupRow]
  simp [accumulate, List.map_const', E.sum_ones]

variable {E} {rows : List Document} {row : Document} {index : Nat} {innermost : Bool}

/-- A row of a level comes of some rows and has the sum of their numbers, and it shows
something. -/
theorem exists_bunch_of_mem_step_collapse {count : Document → Nat}
    (hcount : ∀ old ∈ rows, old.Numbered E (count old))
    (hrow : row ∈ E.step (Level.collapse index innermost) rows) :
  ∃ bunch, row = E.groupRow (Level.collapseColumns index innermost) bunch ∧ bunch.items ≠ []
    ∧ (∀ old ∈ bunch.items, old ∈ rows)
    ∧ row.Numbered E ((bunch.items.map count).foldr (· + ·) 0)
    ∧ ∃ id, row.atPlace (.column .id) = some id
  := by
  obtain ⟨bunch, rfl, hne, hitems⟩ := E.exists_bunch_of_mem_step_group hrow
  use bunch, rfl, hne, hitems
  constructor
  · constructor
    · apply one_le_foldr_add
      · simpa using hne
      · intro n hn
        obtain ⟨old, hold, rfl⟩ := List.mem_map.mp hn
        apply (hcount old (hitems old hold)).pos
    · have hsum := E.accumulate_sum bunch.items id .value count fun old hold =>
        (hcount old (hitems old hold)).value
      rw [List.map_id] at hsum
      rw [E.atPlace_column_groupRow, ← hsum]
      rfl
  · rw [E.atPlace_column_groupRow]
    exact ⟨_, rfl⟩

/-- Collapsing rows with numbers at the innermost level gives the innermost buckets. -/
theorem exists_nests_innermost (h : ∀ old ∈ rows, ∃ n, old.Numbered E n)
    (hrow : row ∈ E.run [Level.collapse index true, Level.leaf] rows) :
  ∃ n, row.Nests E 1 n
  := by
  choose! count hcount using h
  obtain ⟨merged, hmerged, rfl⟩ := List.mem_map.mp hrow
  obtain ⟨bunch, -, -, -, hnumber, id, hid⟩ := exists_bunch_of_mem_step_collapse hcount hmerged
  have hvalue : (E.projectRow leafPlaces merged).atPlace (.column .value)
      = some (E.number ((bunch.items.map count).foldr (· + ·) 0)) := by
    rw [E.atPlace_leaf merged (by simp [leafPlaces]), hnumber.value]
  have hid : (E.projectRow leafPlaces merged).atPlace (.column .id) = some id := by
    rw [E.atPlace_leaf merged (by simp [leafPlaces]), hid]
  use (bunch.items.map count).foldr (· + ·) 0
  constructor
  · use hnumber.pos
    apply hvalue
  · use hnumber.pos, id
    apply Document.bucket_eq hid hvalue (E.atPlace_buckets_leaf merged)

/-- Collapsing the buckets of a level gives those of the level around it. -/
theorem exists_nests_outer {depth : Nat} (h : ∀ old ∈ rows, ∃ n, old.Nests E (depth + 1) n)
    (hrow : row ∈ E.run [Level.collapse index false] rows) :
  ∃ n, row.Nests E (depth + 2) n
  := by
  choose! count hcount using h
  obtain ⟨bunch, rfl, hne, hitems, hnumber, id, hid⟩ :=
    exists_bunch_of_mem_step_collapse (fun old hold => (hcount old hold).toNumbered) hrow
  have hbuckets : (E.groupRow (Level.collapseColumns index false) bunch).atPlace (.column .buckets)
      = some (.array (bunch.items.map Document.bucket)) := by
    rw [E.atPlace_column_groupRow]
    rfl
  use (bunch.items.map count).foldr (· + ·) 0, hnumber
  use hnumber.pos, id, bunch.items.map Document.bucket, bunch.items.map count
  use Document.bucket_eq hid hnumber.value hbuckets
  constructor
  · simpa using hne
  · constructor
    · rw [List.forall₂_map_left_iff, List.forall₂_map_right_iff, List.forall₂_same]
      intro old hold
      apply (hcount old (hitems old hold)).isBucket
    · rfl

/-! ### The levels of a specification -/

/-- The stages of levels turn rows with numbers into buckets that are nested as deep as there
are levels. -/
theorem exists_nests_levelStages (depth : Nat) :
    ∀ (within : List Level) (level : Level) (index : Nat) (rows : List Document),
      (∀ old ∈ rows, ∃ n, old.Numbered E n) →
      ∀ row ∈ E.run (BucketSpec.levelStages depth index (level :: within)) rows,
        ∃ n, row.Nests E (within.length + 1) n
  | within, level, index, rows, h, row, hrow => by
      rw [BucketSpec.levelStages, run_append, run_append, Level.bucketStages_eq, run_append] at hrow
      have hkeyed := E.exists_numbered_run (E.keepsNumbers_keyStages depth index level) h
      cases within with
      | nil =>
          apply exists_nests_innermost _ hrow
          intro old hold
          apply hkeyed old ((E.sublist_run_valueStages level index _).subset hold)
      | cons next rest =>
          have hinner := exists_nests_levelStages depth rest next (index + 1) _ hkeyed
          apply exists_nests_outer _ hrow
          intro old hold
          apply hinner old ((E.sublist_run_valueStages level index _).subset hold)

end Engine

/-! ### The main statement -/

/-- The written pipeline of a specification gives buckets with numbers, nested as deep as the
specification has levels. -/
theorem BucketSpec.exists_isBucket_runDocuments (spec : BucketSpec) (records : List Document) :
  ∃ counts, List.Forall₂ (IsBucket E spec.depth) counts
    ((E.runDocuments (spec.stages.map Stage.toDocument) records).map Value.document)
  := by
  have hrows := Engine.exists_nests_levelStages spec.depth spec.inner spec.outer 0 _
    (E.exists_numbered_step_count spec.sourceKey records)
  choose! count hcount using hrows
  rw [Engine.runDocuments_map_toDocument, map_run_stages]
  use (E.run (levelStages spec.depth 0 spec.levels)
    (E.step (.group spec.sourceKey [(.value, .count)]) records)).map count
  rw [List.forall₂_map_left_iff, List.forall₂_map_right_iff, List.forall₂_same]
  intro row hrow
  apply (hcount row hrow).isBucket

end MongoQuery
