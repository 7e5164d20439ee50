import MongoQuery.Proofs.Pipeline.Levels

/-!
# Cohorts

Each row of a bucket pipeline stands for some of the records, its cohort.  The components of
its key are read off the first record of the cohort, the other records have like ones, and
its value is the number of the records.  The first grouping makes such rows, and they stay
such while components are replaced and rows are dropped that lack selected keys.
-/

namespace MongoQuery

variable (E : Engine)

/-! ### Like keys -/

namespace Engine

theorem alike_symm :
    ∀ {x y : Option Value}, E.alike x y → E.alike y x
  | none, none, h => h
  | none, some _, h => h
  | some _, none, h => h
  | some v, some w, h => E.same_symm v w h

theorem alike_trans :
    ∀ {x y z : Option Value}, E.alike x y → E.alike y z → E.alike x z
  | none, none, _, _, h' => h'
  | none, some _, _, h, _ => (Bool.false_ne_true h).elim
  | some _, none, _, h, _ => (Bool.false_ne_true h).elim
  | some _, some _, none, _, h' => h'
  | some u, some v, some w, h, h' => E.same_trans u v w h h'

theorem alikeKeys_symm :
    ∀ xs ys : List (Option Value), E.alikeKeys xs ys → E.alikeKeys ys xs
  | [], [], _ => rfl
  | [], _ :: _, h => h
  | _ :: _, [], h => h
  | x :: xs, y :: ys, h => by
      rw [alikeKeys, Bool.and_eq_true] at h ⊢
      use E.alike_symm h.1
      apply alikeKeys_symm xs ys h.2

theorem alikeKeys_trans :
    ∀ xs ys zs : List (Option Value), E.alikeKeys xs ys → E.alikeKeys ys zs → E.alikeKeys xs zs
  | [], [], _, _, h' => h'
  | x :: xs, y :: ys, [], _, h' => h'
  | x :: xs, y :: ys, z :: zs, h, h' => by
      rw [alikeKeys, Bool.and_eq_true] at h h' ⊢
      use E.alike_trans h.1 h'.1
      apply alikeKeys_trans xs ys zs h.2 h'.2

/-- Two records have like keys. -/
def AlikeOn (keys : List (Document → Option Value)) (r r' : Document) : Prop :=
  ∀ key ∈ keys, E.alike (key r) (key r')

variable {E} {keys : List (Document → Option Value)}

theorem AlikeOn.symm {r r' : Document} (h : E.AlikeOn keys r r') :
  E.AlikeOn keys r' r
  := by
  intro key hkey
  apply E.alike_symm (h key hkey)

theorem AlikeOn.trans {r r' r'' : Document} (h : E.AlikeOn keys r r')
    (h' : E.AlikeOn keys r' r'') :
  E.AlikeOn keys r r''
  := by
  intro key hkey
  apply E.alike_trans (h key hkey) (h' key hkey)

variable (E) in
/-- Compound keys that are read off two records are alike when the records have like keys. -/
theorem alikeKeys_map (keys : List (Document → Option Value)) (r r' : Document) :
  E.alikeKeys (keys.map fun key => key r) (keys.map fun key => key r') ↔ E.AlikeOn keys r r'
  := by
  induction keys with
  | nil => simp [alikeKeys, AlikeOn]
  | cons key rest ih => simp [alikeKeys, ih, AlikeOn]

end Engine

/-! ### Rows and the records they stand for -/

/-- A row with the records for which it stands. -/
structure Cohort where
  row : Document
  records : List Document

namespace Cohort

/-- A row counts its records: the components of its key are the keys of the first of them,
and the keys of the others are like these. -/
structure Counts (keys : List (Document → Option Value)) (c : Cohort) : Prop where
  begun : ∃ first rest, c.records = first :: rest
    ∧ c.row.components keys.length = keys.map fun key => key first
  alike : c.records.Pairwise (E.AlikeOn keys)
  value : c.row.atPlace (.column .value) = some (E.number c.records.length)

end Cohort

/-! ### Counting by the fields of all levels -/

/-- The rows of the first grouping count all records by the sources of the levels. -/
theorem BucketSpec.exists_counts (spec : BucketSpec) (records : List Document) :
  ∃ cohorts : List Cohort,
    E.step (.group spec.sourceKey [(.value, .count)]) records = cohorts.map Cohort.row
      ∧ (∀ c ∈ cohorts, c.Counts E (spec.levels.map Level.source))
      ∧ (cohorts.flatMap Cohort.records).Perm records
  := by
  have hkey : ∀ r, E.key spec.sourceKey r
      = (spec.levels.map Level.source).map fun key => key r := by
    intro r
    rw [Engine.key, sourceKey, List.map_map, List.map_map]
    rfl
  have hhold := Bunch.hold_ofItems E.alikeKeys (E.key spec.sourceKey) records
  use (Bunch.ofItems E.alikeKeys (E.key spec.sourceKey) records).map fun bunch =>
    ⟨E.groupRow [(.value, .count)] bunch, bunch.items⟩
  constructor
  · rw [List.map_map]
    rfl
  · constructor
    · intro c hc
      obtain ⟨bunch, hbunch, rfl⟩ := List.mem_map.mp hc
      constructor
      · obtain ⟨first, rest, hitems, hfirst, -⟩ := hhold.begun bunch hbunch
        rw [hkey] at hfirst
        use first, rest, hitems
        rw [← hfirst]
        have hlength : (spec.levels.map Level.source).length = bunch.key.length := by
            rw [hfirst, List.length_map, List.length_map, List.length_map]
        rw [hlength]
        apply E.components_groupRow
      · have hwithin := hhold.within E.alikeKeys_symm E.alikeKeys_trans hbunch
        apply hwithin.imp
        intro r r' h
        rw [hkey, hkey] at h
        apply (E.alikeKeys_map _ r r').mp h
      · rw [E.atPlace_column_groupRow]
        simp [Engine.accumulate, List.map_const', E.sum_ones]
    · rw [List.flatMap_map]
      apply hhold.perm

/-! ### Replacing components -/

section Keys

variable {E} {before after : List (Document → Option Value)} {key key' : Document → Option Value}
  {c : Cohort}

namespace Cohort

/-- A component of the key of a row is the key of the first record. -/
theorem Counts.exists_first (h : c.Counts E (before ++ key :: after)) :
  ∃ first rest, c.records = first :: rest
    ∧ c.row.atPlace (.component before.length) = key first
  := by
  obtain ⟨first, rest, hrecords, hcomponents⟩ := h.begun
  use first, rest, hrecords
  have hat := @Document.atPlace_of_components c.row (before.map fun key => key first)
    (after.map fun key => key first) (key first)
  rw [List.length_map] at hat
  apply hat
  simpa using hcomponents

/-- A row still counts its records when a component is replaced by a key that is formed from
it. -/
theorem Counts.replace (h : c.Counts E (before ++ key :: after)) {e : Expr}
    {f : Option Value → Option Value} (hcongr : ∀ x y, E.alike x y → E.alike (f x) (f y))
    (hkey : ∀ r, key' r = f (key r))
    (heval : E.eval c.row e = f (c.row.atPlace (.component before.length))) :
  Counts E (before ++ key' :: after)
    ⟨E.projectRow (Engine.replaced (before ++ key :: after).length before.length e) c.row,
      c.records⟩
  := by
  have hlength : (before ++ key' :: after).length = (before ++ key :: after).length := by simp
  constructor
  · obtain ⟨first, rest, hrecords, hcomponents⟩ := h.begun
    obtain ⟨first', rest', hrecords', hfirst⟩ := h.exists_first
    obtain ⟨rfl, -⟩ := List.cons.inj (hrecords.symm.trans hrecords')
    use first, rest, hrecords
    rw [hlength]
    change Document.components (E.projectRow _ c.row) _ = _
    rw [E.components_replaced, hcomponents, heval, hfirst, ← hkey]
    simp
  · apply h.alike.imp
    intro r r' halike k hk
    rcases List.mem_append.mp hk with hk | hk
    · apply halike k (List.mem_append_left _ hk)
    · rcases List.mem_cons.mp hk with rfl | hk
      · rw [hkey, hkey]
        apply hcongr
        apply halike key (by simp)
      · apply halike k (by simp [hk])
  · change Document.atPlace (E.projectRow _ c.row) _ = _
    rw [E.atPlace_value_replaced, h.value]

end Cohort

/-- The stages that replace the component of a level without a sub-field form its keys. -/
theorem Level.exists_counts_keyStages {level : Level} (hlevel : level.subField = none)
    (hrespected : level.RespectedBy E) {cohorts : List Cohort} (h : ∀ c ∈ cohorts, c.Counts E (before ++ level.source :: after)) :
  ∃ formed : List Cohort,
    E.run (level.keyStages (before ++ level.source :: after).length before.length)
        (cohorts.map Cohort.row) = formed.map Cohort.row
      ∧ (∀ c ∈ formed, c.Counts E (before ++ level.key E :: after))
      ∧ formed.flatMap Cohort.records = cohorts.flatMap Cohort.records
  := by
  have hreplace : ∀ e : Expr,
      (∀ row, E.eval row e = level.rounded E (row.atPlace (.component before.length))) →
      ∃ formed : List Cohort,
        E.run [replaceComponent (before ++ level.source :: after).length before.length e]
            (cohorts.map Cohort.row) = formed.map Cohort.row
          ∧ (∀ c ∈ formed, c.Counts E (before ++ level.key E :: after))
          ∧ formed.flatMap Cohort.records = cohorts.flatMap Cohort.records := by
    intro e heval
    use cohorts.map fun c => ⟨E.projectRow (Engine.replaced
      (before ++ level.source :: after).length before.length e) c.row, c.records⟩
    constructor
    · rw [Engine.replaceComponent_eq, List.map_map]
      change (cohorts.map Cohort.row).map _ = _
      rw [List.map_map]
      rfl
    · constructor
      · intro c hc
        obtain ⟨old, hold, rfl⟩ := List.mem_map.mp hc
        apply (h old hold).replace hrespected.rounded _ (heval old.row)
        intro r
        rfl
      · rw [List.flatMap_map]
  cases hexpr : keyExpr? before.length level.bucketing with
  | none =>
      have hkey : level.key E = level.source := by
        funext r
        rw [key, rounded_of_keyExpr? E hexpr]
      use cohorts
      rw [keyStages, hlevel, hexpr, hkey]
      use rfl, h
  | some e =>
      rw [keyStages, hlevel, hexpr]
      apply hreplace e (eval_of_keyExpr? E hexpr)

/-! ### Keeping selected keys -/

/-- A row has a selected key exactly when each of its records has one. -/
theorem Cohort.Counts.among_eq (h : c.Counts E (before ++ key :: after)) {values : List Value}
    (hselected : ∀ x y, E.alike x y → E.among x values = E.among y values)
    {r : Document} (hr : r ∈ c.records) :
  E.among (key r) values = E.among (c.row.atPlace (.component before.length)) values
  := by
  obtain ⟨first, rest, hrecords, hfirst⟩ := h.exists_first
  rw [hfirst]
  have halike := h.alike
  rw [hrecords, List.pairwise_cons] at halike
  rw [hrecords] at hr
  rcases List.mem_cons.mp hr with rfl | hr
  · rfl
  · symm
    apply hselected
    apply halike.1 r hr
    simp

/-- Dropping cohorts by what all of their records share drops these records. -/
theorem Cohort.flatMap_filter {p : Cohort → Bool} {q : Document → Bool} {cohorts : List Cohort}
    (h : ∀ c ∈ cohorts, ∀ r ∈ c.records, q r = p c) :
  (cohorts.filter p).flatMap records = (cohorts.flatMap records).filter q
  := by
  induction cohorts with
  | nil => rfl
  | cons c rest ih =>
      have hrest := ih fun other hother => h other (List.mem_cons_of_mem c hother)
      have hc := h c List.mem_cons_self
      rw [List.flatMap_cons, List.filter_append, ← hrest, List.filter_cons]
      split
      · next hp =>
          have hall : c.records.filter q = c.records := by
            apply List.filter_eq_self.mpr
            intro r hr
            rw [hc r hr, hp]
          rw [List.flatMap_cons, hall]
      · next hp =>
          have hnone : c.records.filter q = [] := by
            apply List.filter_eq_nil_iff.mpr
            intro r hr
            rw [hc r hr]
            apply hp
          rw [hnone, List.nil_append]

/-- The stage that selects keys at a level drops the records which the level does not keep. -/
theorem Level.exists_sublist_valueStages {level : Level} (hrespected : level.RespectedBy E)
    {cohorts : List Cohort} (h : ∀ c ∈ cohorts, c.Counts E (before ++ level.key E :: after)) :
  ∃ kept : List Cohort, kept.Sublist cohorts
    ∧ E.run (level.valueStages before.length) (cohorts.map Cohort.row) = kept.map Cohort.row
    ∧ kept.flatMap Cohort.records = (cohorts.flatMap Cohort.records).filter (level.keeps E)
  := by
  rw [valueStages]
  cases hvalues : level.values with
  | none =>
      use cohorts, List.Sublist.refl cohorts, rfl
      symm
      apply List.filter_eq_self.mpr
      intro r _
      rw [keeps, hvalues]
  | some values =>
      use cohorts.filter fun c => E.among (c.row.atPlace (.component before.length)) values
      constructor
      · apply List.filter_sublist
      · constructor
        · change (cohorts.map Cohort.row).filter _ = _
          rw [List.filter_map]
          rfl
        · apply Cohort.flatMap_filter
          intro c hc r hr
          rw [keeps, hvalues]
          apply (h c hc).among_eq (hrespected.selected values hvalues) hr

end Keys

end MongoQuery
