import MongoQuery.Proofs.Pipeline.Calendar
import MongoQuery.Proofs.Pipeline.Collapse
import MongoQuery.Proofs.Pipeline.Reading

/-!
# Bucket pipelines count

The pipeline of a bucket specification without sub-fields counts the records that its levels
keep by the keys of its levels.  From the innermost level out, the rows of a level are the
buckets of its cohorts, and records of different rows differ in the key of the level or of
one further out.
-/

namespace MongoQuery

variable {E : Engine}

/-! ### Rows that are buckets -/

namespace Cohort

/-- A row is a bucket of its records at a level: it shows the key of one of them, and its inner
buckets count them by the levels within. -/
structure Forms (E : Engine) (keys : List (Document → Option Value)) (level : Level)
    (within : List Level) (c : Cohort) : Prop extends c.Counts E keys where
  shows : ∃ r ∈ c.records, c.row.atPlace (.column .id) = some (shown (level.key E r))
  inner : ∃ buckets, c.row.atPlace (.column .buckets) = some (.array buckets)
    ∧ CountedBy E within c.records buckets

/-- The row of a bucket as a document. -/
theorem Forms.exists_bucket {keys : List (Document → Option Value)} {level : Level}
    {within : List Level} {c : Cohort} (h : c.Forms E keys level within) :
  ∃ r ∈ c.records, ∃ inner : List Value,
    c.row.bucket
        = .document (bucketDocument (shown (level.key E r)) (E.number c.records.length) inner)
      ∧ CountedBy E within c.records inner
  := by
  obtain ⟨r, hr, hid⟩ := h.shows
  obtain ⟨inner, hbuckets, hcounted⟩ := h.inner
  use r, hr, inner, Document.bucket_eq hid h.value hbuckets

end Cohort

/-- Rows are the buckets of records at a level: each is one, records of different rows differ
in some key, and the rows have all of the records. -/
structure Formation (E : Engine) (keys : List (Document → Option Value)) (level : Level)
    (within : List Level) (records : List Document) (cohorts : List Cohort) : Prop where
  forms : ∀ c ∈ cohorts, c.Forms E keys level within
  apart : cohorts.Pairwise fun c c' => ∀ r ∈ c.records, ∀ r' ∈ c'.records, ¬ E.AlikeOn keys r r'
  perm : (cohorts.flatMap Cohort.records).Perm records

namespace Formation

variable {keys : List (Document → Option Value)} {level : Level} {within : List Level}
  {records : List Document} {cohorts : List Cohort}

/-- Rows that are left when others are dropped form the buckets of the records that are left. -/
theorem of_sublist (h : Formation E keys level within records cohorts) {kept : List Cohort}
    (hkept : kept.Sublist cohorts) {left : List Document}
    (hperm : (kept.flatMap Cohort.records).Perm left) :
  Formation E keys level within left kept
  := by
  constructor
  · intro c hc
    apply h.forms c (hkept.subset hc)
  · apply h.apart.sublist hkept
  · apply hperm

/-- The rows whose records have like keys further out count their records by the key of the
level and those within. -/
theorem countedBy (h : Formation E (keys ++ [level.key E]) level within records cohorts)
    (halike : cohorts.Pairwise fun c c' =>
      ∀ r ∈ c.records, ∀ r' ∈ c'.records, E.AlikeOn keys r r') :
  CountedBy E (level :: within) records (cohorts.map fun c => c.row.bucket)
  := by
  rw [CountedBy]
  use cohorts.map Cohort.records
  constructor
  · constructor
    · apply h.perm
    · intro group hgroup
      obtain ⟨c, hc, rfl⟩ := List.mem_map.mp hgroup
      obtain ⟨first, rest, hrecords, -⟩ := (h.forms c hc).begun
      rw [hrecords]
      apply List.cons_ne_nil
    · intro group hgroup
      obtain ⟨c, hc, rfl⟩ := List.mem_map.mp hgroup
      apply (h.forms c hc).alike.imp
      intro r r' hlike
      apply hlike
      simp
    · apply List.pairwise_map.mpr
      apply (h.apart.and halike).imp
      rintro c c' ⟨hapart, hlike⟩ r hr r' hr' hkey
      apply hapart r hr r' hr'
      intro key hmem
      rcases List.mem_append.mp hmem with hmem | hmem
      · apply hlike r hr r' hr' key hmem
      · obtain rfl := List.mem_singleton.mp hmem
        apply hkey
  · rw [List.forall₂_map_left_iff, List.forall₂_map_right_iff, List.forall₂_same]
    intro c hc
    obtain ⟨r, hr, inner, hbucket, hcounted⟩ := (h.forms c hc).exists_bucket
    use r, hr, inner, hbucket

end Formation

/-! ### Collapsing to the rows of a level -/

section Collapse

variable {before : List (Document → Option Value)} {level next : Level} {within : List Level}
  {records : List Document} {cohorts : List Cohort}

/-- A cohort whose row has become an innermost bucket. -/
def Cohort.leaf (E : Engine) (c : Cohort) : Cohort :=
  ⟨E.projectRow Engine.leafPlaces c.row, c.records⟩

/-- A cohort that counts its records and shows the key of one of them forms an innermost
bucket. -/
theorem Cohort.Counts.forms_leaf {keys : List (Document → Option Value)} {c : Cohort}
    (h : c.Counts E keys)
    (hshows : ∃ r ∈ c.records, c.row.atPlace (.column .id) = some (shown (level.key E r))) :
  (c.leaf E).Forms E keys level []
  := by
  constructor
  · constructor
    · obtain ⟨first, rest, hrecords, hcomponents⟩ := h.begun
      use first, rest, hrecords
      rw [leaf, E.components_leaf, hcomponents]
    · apply h.alike
    · rw [leaf, E.atPlace_leaf c.row (by simp [Engine.leafPlaces]), h.value]
  · obtain ⟨r, hr, hid⟩ := hshows
    use r, hr
    rw [leaf, E.atPlace_leaf c.row (by simp [Engine.leafPlaces]), hid]
  · use []
    rw [leaf, E.atPlace_buckets_leaf]
    use rfl
    rfl

/-- Collapsing the rows of the last level gives the innermost buckets. -/
theorem exists_formation_innermost (h : ∀ c ∈ cohorts, c.Counts E (before ++ [level.key E])) :
  ∃ formed : List Cohort,
    E.run [Level.collapse before.length true, Level.leaf] (cohorts.map Cohort.row)
        = formed.map Cohort.row
      ∧ Formation E (before ++ [level.key E]) level [] (cohorts.flatMap Cohort.records) formed
  := by
  have hlength : (before ++ [level.key E]).length = before.length + 1 := by simp
  use ((Cohort.bunches E (before ++ [level.key E]).length cohorts).map
    (Cohort.merged E (Level.collapseColumns before.length true))).map (Cohort.leaf E)
  constructor
  · change E.step Level.leaf
      (E.step (Level.collapse before.length true) (cohorts.map Cohort.row)) = _
    rw [Level.collapse_eq, ← hlength, Cohort.step_ownKey, Engine.leaf_eq]
    change List.map _ _ = _
    simp only [List.map_map]
    rfl
  · constructor
    · intro c hc
      obtain ⟨c, hmerged, rfl⟩ := List.mem_map.mp hc
      obtain ⟨bunch, hbunch, rfl⟩ := List.mem_map.mp hmerged
      apply Cohort.Counts.forms_leaf
      · apply Cohort.counts_merged h hbunch
        rfl
      · apply Cohort.shows_merged hbunch rfl h
        rfl
    · apply List.pairwise_map.mpr
      apply Cohort.apart_merged h
    · rw [List.flatMap_map]
      apply Cohort.perm_merged

/-- Of the rows of a level, those that are merged differ in the key of the level. -/
theorem Formation.of_mem_bunches {keys : List (Document → Option Value)}
    (h : Formation E (keys ++ [next.key E]) next within records cohorts)
    {bunch : Bunch (List (Option Value)) Cohort}
    (hbunch : bunch ∈ Cohort.bunches E keys.length cohorts) :
  Formation E (keys ++ [next.key E]) next within (bunch.items.flatMap Cohort.records) bunch.items
  := by
  constructor
  · intro c hc
    apply h.forms c (Cohort.mem_of_mem_bunches hbunch hc)
  · have hsymm : ∀ {c c' : Cohort},
        (∀ r ∈ c.records, ∀ r' ∈ c'.records, ¬ E.AlikeOn (keys ++ [next.key E]) r r') →
        ∀ r ∈ c'.records, ∀ r' ∈ c.records, ¬ E.AlikeOn (keys ++ [next.key E]) r r' := by
      intro c c' hapart r hr r' hr' halike
      apply hapart r' hr' r hr halike.symm
    apply (Cohort.hold_bunches E keys.length cohorts).pairwise_items hsymm h.apart hbunch
  · apply List.Perm.refl

/-- Collapsing the rows of a level within gives the buckets of the level around it. -/
theorem exists_formation_outer
    (h : Formation E (before ++ [level.key E] ++ [next.key E]) next within records cohorts) :
  ∃ formed : List Cohort,
    E.run [Level.collapse before.length false] (cohorts.map Cohort.row) = formed.map Cohort.row
      ∧ Formation E (before ++ [level.key E]) level (next :: within) records formed
  := by
  have hlength : (before ++ [level.key E]).length = before.length + 1 := by simp
  have hcounts : ∀ c ∈ cohorts, c.Counts E (before ++ [level.key E]) := by
    intro c hc
    apply (h.forms c hc).toCounts.of_append
  use (Cohort.bunches E (before ++ [level.key E]).length cohorts).map
    (Cohort.merged E (Level.collapseColumns before.length false))
  constructor
  · change E.step (Level.collapse before.length false) (cohorts.map Cohort.row) = _
    rw [Level.collapse_eq, ← hlength, Cohort.step_ownKey]
  · constructor
    · intro c hc
      obtain ⟨bunch, hbunch, rfl⟩ := List.mem_map.mp hc
      constructor
      · apply Cohort.counts_merged hcounts hbunch
        rfl
      · apply Cohort.shows_merged hbunch rfl hcounts
        rfl
      · use bunch.items.map fun c => c.row.bucket
        constructor
        · rw [Cohort.merged, E.atPlace_column_groupRow]
          change some (Value.array ((bunch.items.map Cohort.row).map _)) = _
          rw [List.map_map]
          rfl
        · apply (h.of_mem_bunches hbunch).countedBy
          apply Cohort.pairwise_alikeOn_items hcounts hbunch
    · apply Cohort.apart_merged hcounts
    · apply (Cohort.perm_merged E _ _ cohorts).trans h.perm

/-- The stages that form the innermost buckets count the records which the level keeps. -/
theorem exists_formation_bucketStages_innermost (hrespected : level.RespectedBy E)
    (h : ∀ c ∈ cohorts, c.Counts E (before ++ [level.key E])) :
  ∃ formed : List Cohort,
    E.run (level.bucketStages before.length true) (cohorts.map Cohort.row)
        = formed.map Cohort.row
      ∧ Formation E (before ++ [level.key E]) level []
          ((cohorts.flatMap Cohort.records).filter (level.keeps E)) formed
  := by
  obtain ⟨kept, hsublist, hvalues, hkept⟩ := Level.exists_sublist_valueStages hrespected h
  obtain ⟨formed, hformed, hformation⟩ :=
    exists_formation_innermost fun c hc => h c (hsublist.subset hc)
  use formed
  constructor
  · rw [Level.bucketStages_eq, Engine.run_append, hvalues]
    apply hformed
  · rw [← hkept]
    apply hformation

/-- The stages that form the buckets of a level around another count the records which the
level keeps. -/
theorem exists_formation_bucketStages_outer (hrespected : level.RespectedBy E)
    (h : Formation E (before ++ [level.key E] ++ [next.key E]) next within records cohorts) :
  ∃ formed : List Cohort,
    E.run (level.bucketStages before.length false) (cohorts.map Cohort.row)
        = formed.map Cohort.row
      ∧ Formation E (before ++ [level.key E]) level (next :: within)
          (records.filter (level.keeps E)) formed
  := by
  have hcounts : ∀ c ∈ cohorts, c.Counts E (before ++ level.key E :: [next.key E]) := by
    intro c hc
    have hc := (h.forms c hc).toCounts
    rw [List.append_assoc] at hc
    apply hc
  obtain ⟨kept, hsublist, hvalues, hkept⟩ := Level.exists_sublist_valueStages hrespected hcounts
  have hperm : (kept.flatMap Cohort.records).Perm (records.filter (level.keeps E)) := by
    rw [hkept]
    apply h.perm.filter
  obtain ⟨formed, hformed, hformation⟩ :=
    exists_formation_outer (h.of_sublist hsublist hperm)
  use formed
  constructor
  · rw [Level.bucketStages_eq, Engine.run_append, hvalues]
    apply hformed
  · apply hformation

end Collapse

/-! ### The levels of a specification -/

/-- The stages of levels turn rows that count by the keys of the levels further out and the
sources of these levels into the buckets of the first of them. -/
theorem exists_formation :
    ∀ (within : List Level) (level : Level) (done : List Level) (cohorts : List Cohort),
      (∀ l ∈ level :: within, l.subField = none) →
      (∀ l ∈ level :: within, l.RespectedBy E) →
      (∀ c ∈ cohorts,
        c.Counts E (done.map (Level.key E) ++ (level :: within).map Level.source)) →
      ∃ formed : List Cohort,
        E.run (BucketSpec.levelStages (done.length + (level :: within).length) done.length
            (level :: within)) (cohorts.map Cohort.row) = formed.map Cohort.row
          ∧ Formation E (done.map (Level.key E) ++ [level.key E]) level within
              ((cohorts.flatMap Cohort.records).filter fun r =>
                (level :: within).all fun l => l.keeps E r) formed
  | within, level, done, cohorts, hsub, hrespected, hcounts => by
      obtain ⟨keyed, hkeyed, hkeyedCounts, hkeyedRecords⟩ :=
        Level.exists_counts_keyStages (hsub level List.mem_cons_self)
          (hrespected level List.mem_cons_self) hcounts
      rw [List.length_append, List.length_map, List.length_cons, List.length_map,
        ← List.length_cons] at hkeyed
      rw [BucketSpec.levelStages, Engine.run_append, Engine.run_append, hkeyed,
        ← hkeyedRecords]
      cases within with
      | nil =>
          obtain ⟨formed, hformed, hformation⟩ :=
            exists_formation_bucketStages_innermost (hrespected level List.mem_cons_self)
              hkeyedCounts
          rw [List.length_map] at hformed
          use formed, hformed
          simpa using hformation
      | cons next rest =>
          have hnextCounts : ∀ c ∈ keyed, c.Counts E
              ((done ++ [level]).map (Level.key E) ++ (next :: rest).map Level.source) := by
            simpa using hkeyedCounts
          obtain ⟨inner, hinner, hinnerFormation⟩ := exists_formation rest next (done ++ [level])
            keyed (fun l hl => hsub l (List.mem_cons_of_mem _ hl))
            (fun l hl => hrespected l (List.mem_cons_of_mem _ hl)) hnextCounts
          have hlength : (done ++ [level]).length = done.length + 1 := by simp
          have hdepth : done.length + 1 + (next :: rest).length
              = done.length + (level :: next :: rest).length := by
            simp only [List.length_cons]
            omega
          rw [hlength, hdepth] at hinner
          rw [List.map_append] at hinnerFormation
          obtain ⟨formed, hformed, hformation⟩ :=
            exists_formation_bucketStages_outer (hrespected level List.mem_cons_self)
              hinnerFormation
          rw [List.length_map] at hformed
          use formed
          constructor
          · rw [hinner]
            apply hformed
          · rw [List.filter_filter] at hformation
            apply hformation

/-! ### The main statement -/

/-- The stages of a specification without sub-fields count the records that all levels keep
by the keys of the levels. -/
theorem BucketSpec.countedBy_run_stages (E : Engine) (spec : BucketSpec)
    (hsub : ∀ level ∈ spec.levels, level.subField = none)
    (hrespected : ∀ level ∈ spec.levels, level.RespectedBy E) (records : List Document) :
  CountedBy E spec.levels
    (records.filter fun r => spec.levels.all fun level => level.keeps E r)
    ((E.run spec.stages records).map Value.document)
  := by
  obtain ⟨cohorts, hcohorts, hcounts, hperm⟩ := spec.exists_counts E records
  obtain ⟨formed, hformed, hformation⟩ :=
    exists_formation spec.inner spec.outer [] cohorts hsub hrespected hcounts
  have hdepth : ([] : List Level).length + (spec.outer :: spec.inner).length = spec.depth :=
    Nat.zero_add _
  rw [hdepth] at hformed
  change E.run (levelStages spec.depth 0 spec.levels) _ = _ at hformed
  rw [map_run_stages, hcohorts, hformed, List.map_map]
  have hleft := hformation.of_sublist (List.Sublist.refl formed)
    (hformation.perm.trans (hperm.filter _))
  apply hleft.countedBy
  apply hformation.apart.imp
  intro c c' _ r _ r' _ key hkey
  cases hkey

/-- The written pipeline of a specification without sub-fields counts the records that all
levels keep by the keys of the levels, on every engine that respects the levels; where only
equal values are the same key, that is every one. -/
theorem BucketSpec.countedBy_runDocuments (E : Engine) (spec : BucketSpec)
    (hsub : ∀ level ∈ spec.levels, level.subField = none)
    (hrespected : ∀ level ∈ spec.levels, level.RespectedBy E) (records : List Document) :
  CountedBy E spec.levels
    (records.filter fun r => spec.levels.all fun level => level.keeps E r)
    ((E.runDocuments (spec.stages.map Stage.toDocument) records).map Value.document)
  := by
  rw [Engine.runDocuments_map_toDocument]
  apply spec.countedBy_run_stages E hsub hrespected

/-! ### Prices and months -/

/-- Prices. -/
def Level.byPrice : Level :=
  ⟨"price", none, none, .raw⟩

/-- Months, of which one is selected. -/
def Level.byMonth : Level :=
  ⟨"at", some [.string "2023-11-01T00:00:00.000"], none, .date .month⟩

/-- Months within prices. -/
def BucketSpec.visits : BucketSpec :=
  ⟨Level.byPrice, [Level.byMonth]⟩

/-- A visit at a price and an instant. -/
def visit (price : Binary64) (t : Instant) : Document :=
  [("price", .double price), ("at", .date t)]

theorem Level.source_byPrice (price : Binary64) (t : Instant) :
  byPrice.source (visit price t) = some (.double price)
  := rfl

theorem Level.source_byMonth (price : Binary64) (t : Instant) :
  byMonth.source (visit price t) = some (.date t)
  := rfl

theorem Level.key_byMonth (price : Binary64) (t : Instant) :
  byMonth.key Engine.calendar (visit price t)
    = some (.string (t.format DateInterval.month.format))
  := by
  rw [key, source_byMonth]
  rfl

theorem Level.keeps_byMonth (price : Binary64) (t : Instant) :
  byMonth.keeps Engine.calendar (visit price t)
    = ("2023-11-01T00:00:00.000" == t.format DateInterval.month.format)
  := by
  rw [keeps, key_byMonth]
  simp [byMonth, Engine.calendar, Engine.ofSame, Value.equal]

/-- A visit in November at the one zero. -/
def firstVisit : Document := visit .zero ⟨1700000000000⟩

/-- A visit a day later at the other zero. -/
def secondVisit : Document := visit Binary64.zero.neg ⟨1700100000000⟩

/-- A visit in December. -/
def thirdVisit : Document := visit .zero ⟨1702000000000⟩

theorem format_visits :
  Instant.format DateInterval.month.format ⟨1700000000000⟩ = "2023-11-01T00:00:00.000"
    ∧ Instant.format DateInterval.month.format ⟨1700100000000⟩ = "2023-11-01T00:00:00.000"
    ∧ Instant.format DateInterval.month.format ⟨1702000000000⟩ = "2023-12-01T00:00:00.000"
  := by
  decide +kernel

theorem BucketSpec.levels_visits :
  visits.levels = [Level.byPrice, Level.byMonth]
  := rfl

/-- The first two visits differ in the fields of both levels and share their keys. -/
theorem BucketSpec.alike_visits :
  ∀ level ∈ visits.levels, level.source firstVisit ≠ level.source secondVisit
    ∧ Engine.calendar.alike (level.key Engine.calendar firstVisit)
      (level.key Engine.calendar secondVisit)
  := by
  obtain ⟨hfirst, hsecond, -⟩ := format_visits
  intro level hlevel
  rw [levels_visits] at hlevel
  rcases List.mem_pair.mp hlevel with rfl | rfl
  · constructor
    · rw [firstVisit, secondVisit, Level.source_byPrice, Level.source_byPrice]
      simp [Binary64.zero, Binary64.neg]
    · rw [Level.key, Level.key, firstVisit, secondVisit, Level.source_byPrice,
        Level.source_byPrice]
      decide
  · constructor
    · rw [firstVisit, secondVisit, Level.source_byMonth, Level.source_byMonth]
      simp
    · rw [firstVisit, secondVisit, Level.key_byMonth, Level.key_byMonth, hfirst, hsecond]
      decide

/-- All prices are kept and, of the months, November. -/
theorem BucketSpec.filter_visits :
  ([firstVisit, secondVisit, thirdVisit].filter fun r =>
    visits.levels.all fun level => level.keeps Engine.calendar r) = [firstVisit, secondVisit]
  := by
  obtain ⟨hfirst, hsecond, hthird⟩ := format_visits
  have hprice : ∀ r, Level.byPrice.keeps Engine.calendar r := fun _ => rfl
  simp [levels_visits, hprice, firstVisit, secondVisit, thirdVisit, Level.keeps_byMonth, hfirst,
    hsecond, hthird]

/-- The first two visits differ in both fields and share both keys, and only they are counted. -/
theorem BucketSpec.countedBy_runDocuments_visits :
  (∀ level ∈ visits.levels, level.subField = none)
    ∧ (∀ level ∈ visits.levels, level.RespectedBy Engine.calendar)
    ∧ (∀ level ∈ visits.levels, level.source firstVisit ≠ level.source secondVisit
      ∧ Engine.calendar.alike (level.key Engine.calendar firstVisit)
        (level.key Engine.calendar secondVisit))
    ∧ ([firstVisit, secondVisit, thirdVisit].filter fun r =>
        visits.levels.all fun level => level.keeps Engine.calendar r) = [firstVisit, secondVisit]
    ∧ CountedBy Engine.calendar visits.levels [firstVisit, secondVisit]
      ((Engine.calendar.runDocuments (visits.stages.map Stage.toDocument)
        [firstVisit, secondVisit, thirdVisit]).map Value.document)
  := by
  have hsub : ∀ level ∈ visits.levels, level.subField = none := by
    simp [levels_visits, Level.byPrice, Level.byMonth]
  have hrespected : ∀ level ∈ visits.levels, level.RespectedBy Engine.calendar := by
    intro level _
    apply level.respectedBy_calendar
  have hcounted := countedBy_runDocuments Engine.calendar visits hsub hrespected
    [firstVisit, secondVisit, thirdVisit]
  rw [filter_visits] at hcounted
  exact ⟨hsub, hrespected, alike_visits, filter_visits, hcounted⟩

end MongoQuery
