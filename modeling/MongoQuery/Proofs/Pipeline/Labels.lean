import MongoQuery.Proofs.Pipeline.Counting

/-!
# The ids of sibling buckets

The rows that a level puts together agree up to its component, and rows of different buckets
do not, so the buckets within one bucket have keys no two of which are alike.  A bucket shows
its key, but the empty text where the key is null or missing.  Keys that are not alike are
shown alike exactly when both are shown as the empty text.

Main statement: buckets beside each other have different keys, whatever a specification asks
for, and carry the same id only where both show the empty text.
-/

namespace MongoQuery

/-- Buckets, nested to a depth, carry the labels of keys, and the keys of any two buckets
beside each other are in a relation. -/
def Siblings {κ : Type} (label : κ → Value) (R : κ → κ → Prop) : Nat → List Value → Prop
  | 0, buckets => buckets = []
  | depth + 1, buckets => ∃ keys : List κ, keys.Pairwise R
    ∧ List.Forall₂ (fun key bucket => ∃ value inner,
        bucket = .document (bucketDocument (label key) value inner)
        ∧ Siblings label R depth inner) keys buckets

namespace Engine

variable (E : Engine)

/-- A key is shown as the empty text: it is missing, null, or that text. -/
def ShownEmpty (x : Option Value) : Prop :=
  E.same (shown x) (.string "")

/-- Two keys are not alike, and they are shown alike exactly when both are shown as the empty
text. -/
structure ToldApart (x y : Option Value) : Prop where
  unlike : ¬ E.alike x y
  same_shown_iff : E.same (shown x) (shown y) ↔ E.ShownEmpty x ∧ E.ShownEmpty y

/-! ### Labels of keys -/

theorem shown_cases (x : Option Value) :
  shown x = .string "" ∨ x = some (shown x)
  := by
  cases x with
  | none =>
      left
      rfl
  | some v =>
      cases v with
      | null =>
          left
          rfl
      | _ =>
          right
          rfl

theorem toldApart_of_not_alike {x y : Option Value} (h : ¬ E.alike x y) :
  E.ToldApart x y
  := by
  use h
  constructor
  · intro hsame
    rcases shown_cases x with hx | hx
    · have hempty : E.same (shown y) (.string "") := by
        apply E.same_symm
        rw [← hx]
        apply hsame
      constructor
      · apply E.same_trans _ _ _ hsame hempty
      · apply hempty
    · rcases shown_cases y with hy | hy
      · have hempty : E.same (shown x) (.string "") := by
          rw [← hy]
          apply hsame
        constructor
        · apply hempty
        · apply E.same_trans _ _ _ (E.same_symm _ _ hsame) hempty
      · rw [hx, hy] at h
        cases h hsame
  · rintro ⟨hx, hy⟩
    apply E.same_trans _ _ _ hx (E.same_symm _ _ hy)

/-! ### Compound keys -/

/-- Compound keys are alike when they are so up to their last components and there. -/
theorem alikeKeys_concat (x y : Option Value) :
    ∀ xs ys : List (Option Value), xs.length = ys.length →
      E.alikeKeys (xs ++ [x]) (ys ++ [y]) = (E.alikeKeys xs ys && E.alike x y)
  | [], [], _ => by simp [alikeKeys]
  | x' :: xs, y' :: ys, h => by
      rw [List.cons_append, List.cons_append, alikeKeys, alikeKeys, alikeKeys_concat x y xs ys,
        Bool.and_assoc]
      apply Nat.succ.inj h

end Engine

namespace Document

theorem components_succ (row : Document) (n : Nat) :
  row.components (n + 1) = row.components n ++ [row.atPlace (.component n)]
  := by
  rw [components, List.range_succ, List.map_append]
  rfl

theorem atPlace_last_of_components {row row' : Document} {n : Nat}
    (h : row.components (n + 1) = row'.components (n + 1)) :
  row.atPlace (.component n) = row'.atPlace (.component n)
  := by
  rw [components_succ, components_succ] at h
  have hlast := List.append_inj_right' h rfl
  apply List.singleton_inj.mp hlast

end Document

namespace Engine

variable (E : Engine)

/-- Rows whose compound keys are not alike, but agree up to the last components, have last
components that are not alike. -/
theorem not_alike_last {row row' : Document} {n : Nat}
    (hupto : E.alikeKeys (row.components n) (row'.components n))
    (h : ¬ E.alikeKeys (row.components (n + 1)) (row'.components (n + 1))) :
  ¬ E.alike (row.atPlace (.component n)) (row'.atPlace (.component n))
  := by
  intro halike
  apply h
  have hlength : (row.components n).length = (row'.components n).length := by
    rw [Document.length_components, Document.length_components]
  rw [Document.components_succ, Document.components_succ, E.alikeKeys_concat _ _ _ _ hlength, hupto,
    halike]
  rfl

/-! ### Rows of a level -/

/-- The compound keys of rows, up to some component, are not alike. -/
def KeysApart (n : Nat) (rows : List Document) : Prop :=
  rows.Pairwise fun row row' => ¬ E.alikeKeys (row.components n) (row'.components n)

/-- A row shows the component of its level, and the buckets within it are told apart. -/
def ShowsKey (index depth : Nat) (row : Document) : Prop :=
  ∃ value inner, row.bucket
      = .document (bucketDocument (shown (row.atPlace (.component index))) value inner)
    ∧ Siblings shown E.ToldApart depth inner

/-- The compound keys of rows, up to the component of their level, are not alike, and each row
shows this component. -/
structure KeysShown (index depth : Nat) (rows : List Document) : Prop where
  apart : E.KeysApart (index + 1) rows
  shows : ∀ row ∈ rows, E.ShowsKey index depth row

/-- Rows with different components that show them are buckets that are told apart. -/
theorem siblings_map_bucket {index depth : Nat} {rows : List Document}
    (hapart : rows.Pairwise fun row row' =>
      ¬ E.alike (row.atPlace (.component index)) (row'.atPlace (.component index)))
    (h : ∀ row ∈ rows, E.ShowsKey index depth row) :
  Siblings shown E.ToldApart (depth + 1) (rows.map Document.bucket)
  := by
  use rows.map fun row => row.atPlace (.component index)
  constructor
  · apply List.pairwise_map.mpr
    apply hapart.imp
    intro row row' hunlike
    apply E.toldApart_of_not_alike hunlike
  · rw [List.forall₂_map_left_iff, List.forall₂_map_right_iff, List.forall₂_same]
    apply h

/-! ### Collapsed rows -/

section Collapse

variable {E} {n index : Nat} {rows : List Document}
  {bunch : Bunch (List (Option Value)) Document}

/-- The rows that are put together by their first components. -/
theorem hold_ownKey (E : Engine) (n : Nat) (rows : List Document) :
  Bunch.Hold E.alikeKeys (fun row => row.components n) rows
    (Bunch.ofItems E.alikeKeys (E.key (Stage.ownKey n)) rows)
  := by
  have hkey : E.key (Stage.ownKey n) = fun row => row.components n := by
    funext row
    apply E.key_ownKey
  rw [hkey]
  apply Bunch.hold_ofItems

/-- The row of a group has the components of its first row. -/
theorem exists_first_groupRow (columns : List (Column × Accumulator))
    (hbunch : bunch ∈ Bunch.ofItems E.alikeKeys (E.key (Stage.ownKey n)) rows) :
  ∃ first, bunch.items.head? = some first
    ∧ (E.groupRow columns bunch).components n = first.components n
  := by
  obtain ⟨first, rest, hitems, hkey, -⟩ := (hold_ownKey E n rows).begun bunch hbunch
  use first
  constructor
  · rw [hitems]
    rfl
  · have hcomponents := E.components_groupRow columns bunch
    rw [hkey, Document.length_components] at hcomponents
    apply hcomponents

/-- Rows of different groups have keys that are not alike. -/
theorem keysApart_step_ownKey (E : Engine) (n : Nat) (columns : List (Column × Accumulator))
    (rows : List Document) :
  E.KeysApart n (E.step (.group (Stage.ownKey n) columns) rows)
  := by
  apply List.pairwise_map.mpr
  apply ((hold_ownKey E n rows).apart E.alikeKeys_trans).imp_of_mem
  intro bunch bunch' hbunch hbunch' hapart
  obtain ⟨first, hfirst, hcomponents⟩ := exists_first_groupRow columns hbunch
  obtain ⟨first', hfirst', hcomponents'⟩ := exists_first_groupRow columns hbunch'
  rw [hcomponents, hcomponents']
  apply hapart first (List.mem_of_mem_head? hfirst) first' (List.mem_of_mem_head? hfirst')

/-- A collapsed row shows its own component. -/
theorem atPlace_id_collapsed (innermost : Bool)
    (hbunch : bunch ∈ Bunch.ofItems E.alikeKeys (E.key (Stage.ownKey (index + 1))) rows) :
  (E.groupRow (Level.collapseColumns index innermost) bunch).atPlace (.column .id)
    = some (shown ((E.groupRow (Level.collapseColumns index innermost) bunch).atPlace
      (.component index)))
  := by
  obtain ⟨first, hfirst, hcomponents⟩ :=
    exists_first_groupRow (Level.collapseColumns index innermost) hbunch
  rw [Document.atPlace_last_of_components hcomponents, E.atPlace_column_groupRow]
  have haccumulate : E.accumulate bunch.items
      (.first (.ifNull (.place (.component index)) .emptyText))
        = shown (first.atPlace (.component index)) := by
    rw [accumulate, hfirst, Option.bind_some, E.eval_shown]
    rfl
  rw [← haccumulate]
  rfl

/-- A collapsed row has a number in its column. -/
theorem atPlace_value_collapsed (E : Engine) (index : Nat) (innermost : Bool)
    (bunch : Bunch (List (Option Value)) Document) :
  (E.groupRow (Level.collapseColumns index innermost) bunch).atPlace (.column .value)
    = some (E.accumulate bunch.items (.sum .value))
  := by
  rw [E.atPlace_column_groupRow]
  rfl

/-- Collapsing any rows by the innermost component gives rows that show it. -/
theorem showsKey_innermost {row : Document}
    (h : row ∈ E.run [Level.collapse index true, Level.leaf] rows) :
  E.ShowsKey index 0 row
  := by
  obtain ⟨collapsed, hcollapsed, rfl⟩ := List.mem_map.mp h
  obtain ⟨bunch, hbunch, rfl⟩ := List.mem_map.mp hcollapsed
  change E.ShowsKey index 0
    (E.projectRow leafPlaces (E.groupRow (Level.collapseColumns index true) bunch))
  have hcomponent := Document.atPlace_last_of_components
    (E.components_leaf (E.groupRow (Level.collapseColumns index true) bunch) (index + 1))
  use E.accumulate bunch.items (.sum .value), []
  constructor
  · rw [hcomponent]
    apply Document.bucket_eq
    · rw [E.atPlace_leaf _ (by simp [leafPlaces]), atPlace_id_collapsed true hbunch]
    · rw [E.atPlace_leaf _ (by simp [leafPlaces]), atPlace_value_collapsed]
    · apply E.atPlace_buckets_leaf
  · rfl

/-- Collapsing rows that show their keys gives rows that show the component before. -/
theorem showsKey_outer {depth : Nat} (hrows : E.KeysShown (index + 1) depth rows)
    {row : Document} (h : row ∈ E.step (Level.collapse index false) rows) :
  E.ShowsKey index (depth + 1) row
  := by
  obtain ⟨bunch, hbunch, rfl⟩ := List.mem_map.mp h
  have hhold := hold_ownKey E (index + 1) rows
  use E.accumulate bunch.items (.sum .value), bunch.items.map Document.bucket
  constructor
  · apply Document.bucket_eq
    · apply atPlace_id_collapsed false hbunch
    · apply atPlace_value_collapsed
    · rw [E.atPlace_column_groupRow]
      rfl
  · apply E.siblings_map_bucket
    -- the rows put together agree up to the component of the level, so they differ in the next
    · have hsymm : ∀ {row row' : Document},
          ¬ E.alikeKeys (row.components (index + 2)) (row'.components (index + 2)) →
          ¬ E.alikeKeys (row'.components (index + 2)) (row.components (index + 2)) := by
        intro row row' hunlike halike
        apply hunlike (E.alikeKeys_symm _ _ halike)
      have hunlike := hhold.pairwise_items hsymm hrows.apart hbunch
      have halike := hhold.within E.alikeKeys_symm E.alikeKeys_trans hbunch
      apply (halike.and hunlike).imp
      rintro row row' ⟨hupto, hfull⟩
      apply E.not_alike_last hupto hfull
    · intro row hrow
      apply hrows.shows row
      apply hhold.perm.mem_iff.mp
      apply List.mem_flatMap.mpr
      use bunch

end Collapse

/-! ### The levels of a specification -/

/-- The innermost buckets of a level show their keys. -/
theorem keysShown_bucketStages_innermost (E : Engine) (level : Level) (index : Nat)
    (rows : List Document) :
  E.KeysShown index 0 (E.run (level.bucketStages index true) rows)
  := by
  rw [Level.bucketStages_eq, run_append]
  constructor
  · apply List.pairwise_map.mpr
    apply (E.keysApart_step_ownKey (index + 1) _ _).imp
    intro row row' hunlike
    change ¬ E.alikeKeys ((E.projectRow leafPlaces row).components (index + 1))
      ((E.projectRow leafPlaces row').components (index + 1))
    rw [E.components_leaf, E.components_leaf]
    apply hunlike
  · intro row hrow
    apply showsKey_innermost hrow

/-- The buckets of a level around another show their keys when those within do. -/
theorem keysShown_bucketStages_outer {E : Engine} (level : Level) {index depth : Nat}
    {rows : List Document} (h : E.KeysShown (index + 1) depth rows) :
  E.KeysShown index (depth + 1) (E.run (level.bucketStages index false) rows)
  := by
  have hsublist := E.sublist_run_valueStages level index rows
  have hleft : E.KeysShown (index + 1) depth (E.run (level.valueStages index) rows) := by
    constructor
    · apply h.apart.sublist hsublist
    · intro row hrow
      apply h.shows row (hsublist.subset hrow)
  rw [Level.bucketStages_eq, run_append]
  constructor
  · apply keysApart_step_ownKey
  · intro row hrow
    apply showsKey_outer hleft hrow

/-- Whatever rows they work on, the stages of levels give rows that show their keys. -/
theorem keysShown_levelStages (E : Engine) (depth : Nat) :
    ∀ (within : List Level) (level : Level) (index : Nat) (rows : List Document),
      E.KeysShown index within.length
        (E.run (BucketSpec.levelStages depth index (level :: within)) rows)
  | [], level, index, rows => by
      rw [BucketSpec.levelStages, run_append]
      apply keysShown_bucketStages_innermost
  | next :: rest, level, index, rows => by
      rw [BucketSpec.levelStages, run_append, run_append]
      apply keysShown_bucketStages_outer level
      apply keysShown_levelStages E depth rest next (index + 1)

end Engine

/-! ### The main statement -/

/-- The buckets beside each other in the output of the pipeline of a specification have
different keys, and carry the same id exactly where both show the empty text. -/
theorem BucketSpec.siblings_toldApart_runDocuments (E : Engine) (spec : BucketSpec)
    (records : List Document) :
  Siblings shown E.ToldApart spec.depth
    ((E.runDocuments (spec.stages.map Stage.toDocument) records).map Value.document)
  := by
  rw [Engine.runDocuments_map_toDocument, map_run_stages]
  have hrows := E.keysShown_levelStages spec.depth spec.inner spec.outer 0
    (E.step (.group spec.sourceKey [(.value, .count)]) records)
  apply E.siblings_map_bucket _ hrows.shows
  apply hrows.apart.imp
  intro row row' hunlike
  apply E.not_alike_last _ hunlike
  rfl

/-- A record without a status, and one whose status is the empty text. -/
def blankRecords : List Document :=
  [[], [("status", .string "")]]

/-- The rows of the buckets by status of these records: the key of the first is missing, that
of the second is the empty text. -/
theorem Engine.exists_rows_blankRecords (E : Engine) :
  ∃ row row', E.run (BucketSpec.levelStages 1 0 (BucketSpec.ofField "status").levels)
      (E.step (.group (BucketSpec.ofField "status").sourceKey [(.value, .count)]) blankRecords)
        = [row, row']
    ∧ row.atPlace (.component 0) = none
    ∧ row'.atPlace (.component 0) = some (.string "")
  := by
  have hcounted : E.step (.group (BucketSpec.ofField "status").sourceKey [(.value, .count)])
      blankRecords = [E.groupRow [(.value, .count)] ⟨[none], [[]]⟩,
        E.groupRow [(.value, .count)] ⟨[some (.string "")], [[("status", .string "")]]⟩] := by
    rfl
  have hmissing := E.components_groupRow [(.value, .count)] ⟨[none], [[]]⟩
  have hempty := E.components_groupRow [(.value, .count)]
    ⟨[some (.string "")], [[("status", .string "")]]⟩
  change Document.components _ 1 = _ at hmissing hempty
  rw [hcounted]
  change ∃ row row', E.step Level.leaf (E.step (Level.collapse 0 true) _) = [row, row'] ∧ _
  rw [Level.collapse_eq, leaf_eq]
  simp only [step, Bunch.ofItems, List.foldl_cons, List.foldl_nil, Bunch.add, E.key_ownKey,
    hmissing, hempty, alikeKeys, alike, alikeBy, Bool.false_and, Bool.false_eq_true, if_false,
    List.map_cons, List.map_nil]
  refine ⟨_, _, rfl, ?_, ?_⟩
  · apply List.singleton_inj.mp
    apply (E.components_leaf _ 1).trans
    apply E.components_groupRow
  · apply List.singleton_inj.mp
    apply (E.components_leaf _ 1).trans
    apply E.components_groupRow

/-- Two buckets with an id that is the same as itself do not have different ids. -/
theorem Engine.not_siblings_of_same (E : Engine) {v : Value} (h : E.same v v)
    (value value' : Value) (inner inner' : List Value) (depth : Nat) :
  ¬ Siblings id (fun v w => ¬ E.same v w) (depth + 1)
    [.document (bucketDocument v value inner), .document (bucketDocument v value' inner')]
  := by
  rintro ⟨keys, hunlike, hbuckets⟩
  obtain ⟨key, others, ⟨_, _, heq, -⟩, hothers, rfl⟩ := List.forall₂_cons_right_iff.mp hbuckets
  obtain ⟨key', _, ⟨_, _, heq', -⟩, -, rfl⟩ := List.forall₂_cons_right_iff.mp hothers
  have hid : v = key := congrArg Prod.snd (List.cons.inj (Value.document.inj heq)).1
  have hid' : v = key' := congrArg Prod.snd (List.cons.inj (Value.document.inj heq')).1
  apply List.rel_of_pairwise_cons hunlike List.mem_cons_self
  rw [← hid, ← hid']
  apply h

/-- A record without the field and one with the empty text in it give two buckets beside each
other with the same id. -/
theorem BucketSpec.not_siblings_unlike_status :
  ¬ Siblings id (fun v w => ¬ Engine.plain.same v w) (ofField "status").depth
    ((Engine.plain.runDocuments ((ofField "status").stages.map Stage.toDocument) blankRecords).map
      Value.document)
  := by
  rw [Engine.runDocuments_map_toDocument, map_run_stages]
  obtain ⟨row, row', hrows, hmissing, hempty⟩ := Engine.plain.exists_rows_blankRecords
  have hshows := (Engine.plain.keysShown_levelStages 1 [] (ofField "status").outer 0
    (Engine.plain.step (.group (ofField "status").sourceKey [(.value, .count)]) blankRecords)).shows
  change ∀ row ∈ Engine.plain.run (levelStages 1 0 (ofField "status").levels) _, _ at hshows
  change ¬ Siblings id _ 1
    ((Engine.plain.run (levelStages 1 0 (ofField "status").levels) _).map Document.bucket)
  rw [hrows] at hshows ⊢
  obtain ⟨value, inner, hbucket, -⟩ := hshows row List.mem_cons_self
  obtain ⟨value', inner', hbucket', -⟩ :=
    hshows row' (List.mem_cons_of_mem row List.mem_cons_self)
  rw [hmissing] at hbucket
  rw [hempty] at hbucket'
  rw [List.map_cons, List.map_cons, List.map_nil, hbucket, hbucket']
  apply Engine.not_siblings_of_same
  simp [Engine.plain, Engine.ofEquality, Engine.ofSame, shown]

end MongoQuery
