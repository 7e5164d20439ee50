import MongoQuery.Proofs.Pipeline.Cohort

/-!
# Collapsing rows

The grouping of a level puts together the rows that agree up to its component.  The row that
comes of them counts the records of all of them, shows the key of its first record, and has
the rows that were put together as its inner buckets; records of different such rows differ
in some key.
-/

namespace MongoQuery

namespace Engine

theorem eval_shown (E : Engine) (row : Document) (p : Place) :
  E.eval row (.ifNull (.place p) .emptyText) = some (shown (row.atPlace p))
  := by
  simp only [eval]
  split
  · next h => 
      rw [h]
      rfl
  · next h =>
      rw [h]
      rfl
  · next hnone hnull =>
      cases h : row.atPlace p with
      | none => apply (hnone h).elim
      | some v =>
          cases v with
          | null => apply (hnull h).elim
          | _ => rfl

end Engine

namespace Cohort

variable {E : Engine} {keys more : List (Document → Option Value)} {c c' : Cohort}

theorem Counts.of_append (h : c.Counts E (keys ++ more)) :
  c.Counts E keys
  := by
  constructor
  · obtain ⟨first, rest, hrecords, hcomponents⟩ := h.begun
    use first, rest, hrecords
    have htake : (c.row.components (keys ++ more).length).take keys.length
        = c.row.components keys.length := by
      rw [Document.components, ← List.map_take, List.take_range, List.length_append,
        Nat.min_eq_left (Nat.le_add_right _ _)]
      rfl
    rw [← htake, hcomponents, List.map_append]
    apply List.take_left'
    apply List.length_map
  · apply h.alike.imp
    intro r r' halike key hkey
    apply halike key (List.mem_append_left _ hkey)
  · apply h.value

/-- The components are the keys of a record, and every other record has keys like these. -/
theorem Counts.exists_head (h : c.Counts E keys) :
  ∃ first ∈ c.records, c.row.components keys.length = keys.map (fun key => key first)
    ∧ ∀ r ∈ c.records, r = first ∨ E.AlikeOn keys first r
  := by
  obtain ⟨first, rest, hrecords, hcomponents⟩ := h.begun
  have halike := h.alike
  rw [hrecords, List.pairwise_cons] at halike
  rw [hrecords]
  use first, List.mem_cons_self, hcomponents
  intro r hr
  rcases List.mem_cons.mp hr with rfl | hr
  · left
    rfl
  · right
    apply halike.1 r hr

/-- The records of rows with like components have like keys. -/
theorem Counts.alikeOn (h : c.Counts E keys) (h' : c'.Counts E keys)
    (halike : E.alikeKeys (c.row.components keys.length) (c'.row.components keys.length))
    {r r' : Document} (hr : r ∈ c.records) (hr' : r' ∈ c'.records) :
  E.AlikeOn keys r r'
  := by
  obtain ⟨first, -, hcomponents, hfirst⟩ := h.exists_head
  obtain ⟨first', -, hcomponents', hfirst'⟩ := h'.exists_head
  rw [hcomponents, hcomponents', E.alikeKeys_map] at halike
  have hleft : E.AlikeOn keys r first' := by
    rcases hfirst r hr with rfl | hlike
    · apply halike
    · apply hlike.symm.trans halike
  rcases hfirst' r' hr' with rfl | hlike
  · apply hleft
  · apply hleft.trans hlike

/-- Rows with records of like keys have like components. -/
theorem Counts.alikeKeys (h : c.Counts E keys) (h' : c'.Counts E keys) {r r' : Document}
    (hr : r ∈ c.records) (hr' : r' ∈ c'.records) (halike : E.AlikeOn keys r r') :
  E.alikeKeys (c.row.components keys.length) (c'.row.components keys.length)
  := by
  obtain ⟨first, -, hcomponents, hfirst⟩ := h.exists_head
  obtain ⟨first', -, hcomponents', hfirst'⟩ := h'.exists_head
  rw [hcomponents, hcomponents', E.alikeKeys_map]
  have hleft : E.AlikeOn keys first r' := by
    rcases hfirst r hr with rfl | hlike
    · apply halike
    · apply hlike.trans halike
  rcases hfirst' r' hr' with rfl | hlike
  · apply hleft
  · apply hleft.trans hlike.symm

/-! ### Merged cohorts -/

/-- The cohort of a bunch of cohorts. -/
def merged (E : Engine) (columns : List (Column × Accumulator))
    (bunch : Bunch (List (Option Value)) Cohort) : Cohort :=
  ⟨E.groupRow columns (bunch.map row), bunch.items.flatMap records⟩

/-- The bunches of the cohorts whose rows have like components. -/
def bunches (E : Engine) (n : Nat) (cohorts : List Cohort) :
    List (Bunch (List (Option Value)) Cohort) :=
  Bunch.ofItems E.alikeKeys (fun c => c.row.components n) cohorts

/-- The grouping by the first components makes the rows of the merged cohorts. -/
theorem step_ownKey (E : Engine) (n : Nat) (columns : List (Column × Accumulator))
    (cohorts : List Cohort) :
  E.step (.group (Stage.ownKey n) columns) (cohorts.map row)
    = ((bunches E n cohorts).map (merged E columns)).map row
  := by
  have hkey : E.key (Stage.ownKey n) ∘ row = fun c => c.row.components n := by
    funext c
    apply E.key_ownKey
  change (Bunch.ofItems E.alikeKeys (E.key (Stage.ownKey n)) (cohorts.map row)).map
    (E.groupRow columns) = _
  rw [Bunch.ofItems_map, hkey, List.map_map, List.map_map]
  rfl

section Merged

variable {columns : List (Column × Accumulator)} {cohorts : List Cohort}

theorem hold_bunches (E : Engine) (n : Nat) (cohorts : List Cohort) :
  Bunch.Hold E.alikeKeys (fun c => c.row.components n) cohorts (bunches E n cohorts)
  := by
  apply Bunch.hold_ofItems

/-- The merged cohorts have the records of all cohorts. -/
theorem perm_merged (E : Engine) (n : Nat) (columns : List (Column × Accumulator))
    (cohorts : List Cohort) :
  (((bunches E n cohorts).map (merged E columns)).flatMap records).Perm (cohorts.flatMap records)
  := by
  rw [List.flatMap_map]
  change ((bunches E n cohorts).flatMap fun bunch => bunch.items.flatMap records).Perm _
  rw [← List.flatMap_assoc]
  apply (hold_bunches E n cohorts).perm.flatMap_right

variable (h : ∀ c ∈ cohorts, c.Counts E keys)
variable {bunch : Bunch (List (Option Value)) Cohort}
variable (hbunch : bunch ∈ bunches E keys.length cohorts)

include hbunch in
theorem mem_of_mem_bunches {c : Cohort} (hc : c ∈ bunch.items) :
  c ∈ cohorts
  := by
  apply (hold_bunches E keys.length cohorts).perm.mem_iff.mp
  apply List.mem_flatMap.mpr
  use bunch

include h hbunch in
/-- A merged cohort begins with the first record of the first cohort that is merged. -/
theorem exists_first_merged :
  ∃ c rest first others, bunch.items = c :: rest ∧ c.records = first :: others
    ∧ bunch.key = keys.map fun key => key first
  := by
  have hhold := hold_bunches E keys.length cohorts
  obtain ⟨c, rest, hitems, hkey, -⟩ := hhold.begun bunch hbunch
  have hc : c ∈ cohorts := by
    apply mem_of_mem_bunches hbunch
    rw [hitems]
    apply List.mem_cons_self
  obtain ⟨first, others, hrecords, hcomponents⟩ := (h c hc).begun
  use c, rest, first, others, hitems, hrecords
  rw [hkey, hcomponents]

include h hbunch in
/-- Records of different cohorts that are merged have like keys. -/
theorem pairwise_alikeOn_items :
  bunch.items.Pairwise fun c c' => ∀ r ∈ c.records, ∀ r' ∈ c'.records, E.AlikeOn keys r r'
  := by
  have hhold := hold_bunches E keys.length cohorts
  apply (hhold.within E.alikeKeys_symm E.alikeKeys_trans hbunch).imp_of_mem
  intro c c' hc hc' halike r hr r' hr'
  have hcounts := h c (mem_of_mem_bunches hbunch hc)
  have hcounts' := h c' (mem_of_mem_bunches hbunch hc')
  apply hcounts.alikeOn hcounts' halike hr hr'

include h hbunch in
/-- A merged cohort counts its records. -/
theorem counts_merged
    (hvalue : (columns.find? fun column => column.1 = .value) = some (.value, .sum .value)) :
  (merged E columns bunch).Counts E keys
  := by
  obtain ⟨c, rest, first, others, hitems, hrecords, hkey⟩ := exists_first_merged h hbunch
  constructor
  · use first, others ++ rest.flatMap records
    constructor
    · rw [merged, hitems, List.flatMap_cons, hrecords]
      rfl
    · have hcomponents := E.components_groupRow columns (bunch.map row)
      change Document.components _ bunch.key.length = bunch.key at hcomponents
      rw [hkey, List.length_map] at hcomponents
      apply hcomponents
  · apply List.pairwise_flatMap.mpr
    constructor
    · intro c hc
      apply (h c (mem_of_mem_bunches hbunch hc)).alike
    · apply pairwise_alikeOn_items h hbunch
  · have hsum : E.accumulate (bunch.items.map row) (.sum .value)
        = E.number (bunch.items.flatMap records).length := by
      rw [E.accumulate_sum bunch.items row .value (fun c => c.records.length), List.length_flatMap]
      · rfl
      · intro c hc
        apply (h c (mem_of_mem_bunches hbunch hc)).value
    rw [merged, E.atPlace_column_groupRow, hvalue, ← hsum]
    rfl

include hbunch in
/-- A merged cohort shows the key of one of its records at the level that is collapsed. -/
theorem shows_merged {before : List (Document → Option Value)} {level : Level}
    (hkeys : keys = before ++ [level.key E]) (h : ∀ c ∈ cohorts, c.Counts E keys)
    (hid : (columns.find? fun column => column.1 = .id)
      = some (.id, .first (.ifNull (.place (.component before.length)) .emptyText))) :
  ∃ r ∈ (merged E columns bunch).records,
    (merged E columns bunch).row.atPlace (.column .id) = some (shown (level.key E r))
  := by
  obtain ⟨c, rest, first, others, hitems, hrecords, -⟩ := exists_first_merged h hbunch
  have hc : c ∈ cohorts := by
    apply mem_of_mem_bunches hbunch
    rw [hitems]
    apply List.mem_cons_self
  have hcounts := h c hc
  rw [hkeys] at hcounts
  obtain ⟨first', others', hrecords', hfirst⟩ := hcounts.exists_first
  obtain ⟨rfl, -⟩ := List.cons.inj (hrecords.symm.trans hrecords')
  use first
  constructor
  · rw [merged, hitems, List.flatMap_cons, hrecords]
    apply List.mem_cons_self
  · have hhead : (bunch.items.map row).head? = some c.row := by
      rw [hitems]
      rfl
    have haccumulate : E.accumulate (bunch.items.map row)
        (.first (.ifNull (.place (.component before.length)) .emptyText))
          = shown (level.key E first) := by
      rw [Engine.accumulate, hhead, Option.bind_some, E.eval_shown, hfirst]
      rfl
    rw [merged, E.atPlace_column_groupRow, hid, ← haccumulate]
    rfl

include h in
/-- Records of different merged cohorts differ in some key. -/
theorem apart_merged :
  ((bunches E keys.length cohorts).map (merged E columns)).Pairwise fun c c' =>
    ∀ r ∈ c.records, ∀ r' ∈ c'.records, ¬ E.AlikeOn keys r r'
  := by
  have hhold := hold_bunches E keys.length cohorts
  apply List.pairwise_map.mpr
  apply (hhold.apart E.alikeKeys_trans).imp_of_mem
  intro bunch bunch' hbunch hbunch' hapart r hr r' hr' halike
  obtain ⟨c, hc, hrc⟩ := List.mem_flatMap.mp hr
  obtain ⟨c', hc', hrc'⟩ := List.mem_flatMap.mp hr'
  apply hapart c hc c' hc'
  have hcounts := h c (mem_of_mem_bunches hbunch hc)
  have hcounts' := h c' (mem_of_mem_bunches hbunch' hc')
  apply hcounts.alikeKeys hcounts' hrc hrc' halike

end Merged

end Cohort

end MongoQuery
