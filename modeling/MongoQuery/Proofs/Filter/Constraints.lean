import MongoQuery.Proofs.Filter.Combination

/-!
# What a filter keeps of its constraints

The document of a group has one space of names for the fields of the group and for the
conjunction of the clauses of its composites, and the filter of criteria puts the filters of
the later statements into the conjunction of the first.  A group overwrites what a field puts
where its conjunction goes; criteria extend an array there and overwrite any other value.

Main statement: a group and criteria lose no constraint exactly when no field overshadows the
conjunction.
-/

namespace MongoQuery

/-! ### Values and clauses of conditions -/

namespace Condition

/-- Whether a condition is combined of others on the same field. -/
def isComposite : Condition → Bool
  | .all _ => true
  | .any _ => true
  | _ => false

variable (now : Instant)

/-- The clauses of a composite at a field: one for each part that must hold, and a single one
for a choice. -/
def clauses (field : String) : Condition → List Value
  | .all parts => parts.map fun part => .document ((part.fragment now).attach field)
  | .any parts => [.document (Document.single "$or"
      (.array (parts.map fun part => .document ((part.fragment now).attach field))))]
  | _ => []

theorem attachAll_fragments (field : String) (parts : List Condition) :
  Fragment.attachAll field (fragments now parts)
    = parts.map fun part => .document ((part.fragment now).attach field)
  := by
  induction parts with
  | nil => rfl
  | cons c rest ih => rw [fragments, Fragment.attachAll, ih, List.map_cons]

theorem clauses_fragment (field : String) (c : Condition) :
  (c.fragment now).clauses field = c.clauses now field
  := by
  cases c with
  | all parts => rw [fragment, Fragment.clauses, attachAll_fragments, clauses]
  | any parts => rw [fragment, Fragment.clauses, attachAll_fragments, clauses]
  | _ => rfl

/-- A condition is translated to a value for its field when it is not combined. -/
theorem exists_direct_iff (c : Condition) :
  (∃ v, c.fragment now = .direct v) ↔ c.isComposite = false
  := by
  cases c with
  | _ => simp [fragment, isComposite]

/-- Only an equality with an array is translated to an array. -/
theorem fragment_eq_array_iff (c : Condition) (items : List Value) :
  c.fragment now = .direct (.array items) ↔ c = .eq (.array items)
  := by
  cases c with
  | _ => simp [fragment]

end Condition

/-! ### Groups -/

namespace Group

variable (now : Instant)

/-- The clauses of all composites of a group, in the order of the fields. -/
def clauses (group : Group) : List Value :=
  group.flatMap fun f => f.2.clauses now f.1

/-- A document has all constraints of a group: the value of every condition that is not
combined under its field, and the clauses of the others in the conjunction. -/
structure KeptIn (group : Group) (d : Document) : Prop where
  direct : ∀ f ∈ group, f.2.isComposite = false →
    ∃ v, f.2.fragment now = .direct v ∧ d.get? f.1 = some v
  conjunction : group.clauses now ≠ [] →
    ∃ items, d.get? "$and" = some (.array items) ∧ (group.clauses now).Sublist items

/-- A field that is not combined stands where the conjunction goes only if there are no
clauses, or if it asks for an array of just the clauses. -/
def Unshadowed (group : Group) : Prop :=
  ∀ f ∈ group, f.1 = "$and" → f.2.isComposite = false →
    group.clauses now = [] ∨ f.2 = .eq (.array (group.clauses now))

theorem conjunction_fieldFragments (group : Group) :
  Fragment.conjunction (Condition.fieldFragments now group) = group.clauses now
  := by
  rw [Condition.fieldFragments_eq_map, Fragment.conjunction, List.flatMap_map, clauses]
  simp only [Condition.clauses_fragment]

theorem distinct_fieldFragments {group : Group} (h : Fields.Distinct group) :
  Fields.Distinct (Condition.fieldFragments now group)
  := by
  rw [Condition.fieldFragments_eq_map, Fields.Distinct, Fields.names, List.map_map]
  apply h

theorem get?_and_filter {group : Group} (h : group.clauses now ≠ []) :
  (group.filter now).get? "$and" = some (.array (group.clauses now))
  := by
  rw [← conjunction_fieldFragments] at h ⊢
  apply Fragment.get?_and_group h

theorem get?_filter_iff {group : Group} (hdistinct : Fields.Distinct group) {field : String}
    (v : Value) (hclear : field ≠ "$and" ∨ group.clauses now = []) :
  (group.filter now).get? field = some v
    ↔ ∃ f ∈ group, f.1 = field ∧ f.2.fragment now = .direct v
  := by
  rw [← conjunction_fieldFragments] at hclear
  rw [Group.filter, Fragment.get?_group_iff (distinct_fieldFragments now hdistinct) v hclear,
    Condition.fieldFragments_eq_map, List.mem_map]
  simp only [Prod.mk.injEq]

/-- The filter of a group has all its constraints exactly when no field stands where the
conjunction goes. -/
theorem keptIn_filter_iff {group : Group} (hdistinct : Fields.Distinct group) :
  group.KeptIn now (group.filter now) ↔ group.Unshadowed now
  := by
  constructor
  · rintro ⟨hdirect, -⟩ f hf hname hsingle
    by_cases hempty : group.clauses now = []
    · apply Or.inl hempty
    · right
      obtain ⟨v, hv, hget⟩ := hdirect f hf hsingle
      rw [hname, get?_and_filter now hempty] at hget
      obtain rfl := Option.some.inj hget
      apply (Condition.fragment_eq_array_iff now _ _).mp hv
  · intro h
    constructor
    · intro f hf hsingle
      obtain ⟨v, hv⟩ := (Condition.exists_direct_iff now _).mpr hsingle
      use v, hv
      by_cases hclear : f.1 ≠ "$and" ∨ group.clauses now = []
      · apply (get?_filter_iff now hdistinct v hclear).mpr
        use f, hf
      · obtain ⟨hname', hempty⟩ := not_or.mp hclear
        have hname := Decidable.of_not_not hname'
        have heq := (h f hf hname hsingle).resolve_left hempty
        have harray := (Condition.fragment_eq_array_iff now _ _).mpr heq
        rw [hname, get?_and_filter now hempty, ← Fragment.direct.inj (harray.symm.trans hv)]
    · intro hne
      exact ⟨_, get?_and_filter now hne, List.Sublist.refl _⟩

theorem unshadowed_of_not_mem {group : Group} (h : "$and" ∉ Fields.names group) :
  group.Unshadowed now
  := by
  intro f hf hname
  cases h (List.mem_map.mpr ⟨f, hf, hname⟩)

/-- What the filter of a group has where the conjunction goes is an array, unless there are no
clauses and a field that stands there asks for something else. -/
theorem conjunction_isArray_iff {group : Group} (hdistinct : Fields.Distinct group) :
  (∀ v, (group.filter now).get? "$and" = some v → ∃ items, v = .array items)
    ↔ ∀ f ∈ group, f.1 = "$and" → f.2.isComposite = false →
      group.clauses now ≠ [] ∨ ∃ items, f.2 = .eq (.array items)
  := by
  by_cases hempty : group.clauses now = []
  · constructor
    · intro h f hf hname hsingle
      right
      obtain ⟨v, hv⟩ := (Condition.exists_direct_iff now _).mpr hsingle
      have hget := (get?_filter_iff now hdistinct v (Or.inr hempty)).mpr ⟨f, hf, hname, hv⟩
      obtain ⟨items, rfl⟩ := h v hget
      use items
      apply (Condition.fragment_eq_array_iff now _ _).mp hv
    · intro h v hget
      obtain ⟨f, hf, hname, hv⟩ := (get?_filter_iff now hdistinct v (Or.inr hempty)).mp hget
      have hsingle := (Condition.exists_direct_iff now _).mp ⟨v, hv⟩
      rcases h f hf hname hsingle with hne | ⟨items, hitems⟩
      · cases hne hempty
      · rw [hitems] at hv
        use items
        apply (Fragment.direct.inj hv).symm
  · constructor
    · intro _ f _ _ _
      apply Or.inl hempty
    · intro _ v hget
      rw [get?_and_filter now hempty] at hget
      use group.clauses now
      apply (Option.some.inj hget).symm

end Group

/-! ### Criteria -/

namespace Document

/-- A document has all constraints of a filter and of later ones: the entries of the filter,
and the later filters at the end of its conjunction, which begins with them if there was
none. -/
structure Extends (base : Document) (later : List Document) (d : Document) : Prop where
  entry : ∀ name v, name ≠ "$and" → base.get? name = some v → d.get? name = some v
  unchanged : later = [] → d.get? "$and" = base.get? "$and"
  extended : later ≠ [] → ∃ items,
    (base.get? "$and" = some (.array items) ∨ base.get? "$and" = none ∧ items = [])
      ∧ d.get? "$and" = some (.array (items ++ later.map .document))

theorem get?_conjoin_of_ne (d : Document) (clauses : List Value) {name : String}
    (h : name ≠ "$and") :
  (d.conjoin clauses).get? name = d.get? name
  := by
  unfold conjoin
  split
  · rfl
  · split
    · apply Fields.get?_insert_of_ne d _ h
    · apply Fields.get?_insert_of_ne d _ h

theorem get?_and_conjoin_of_array {d : Document} {items : List Value}
    (h : d.get? "$and" = some (.array items)) (clauses : List Value) :
  (d.conjoin clauses).get? "$and" = some (.array (items ++ clauses))
  := by
  unfold conjoin
  by_cases hempty : clauses = []
  · rw [if_pos (by simpa using hempty), h, hempty, List.append_nil]
  · rw [if_neg (by simpa using hempty), h]
    apply Fields.get?_insert_self

/-- What stands where the conjunction goes and is no array is replaced by the clauses. -/
theorem get?_and_conjoin_of_not_array {d : Document}
    (h : ∀ items, d.get? "$and" ≠ some (.array items)) {clauses : List Value}
    (hne : clauses ≠ []) :
  (d.conjoin clauses).get? "$and" = some (.array clauses)
  := by
  unfold conjoin
  rw [if_neg (by simpa using hne)]
  split
  · rename_i items hitems
    cases h items hitems
  · apply Fields.get?_insert_self

/-- A filter with clauses added to its conjunction has all constraints exactly when it had an
array for a conjunction, or none, or when there are no clauses. -/
theorem extends_conjoin_iff (base : Document) (later : List Document) :
  Extends base later (base.conjoin (later.map .document))
    ↔ later ≠ [] → ∀ v, base.get? "$and" = some v → ∃ items, v = .array items
  := by
  constructor
  · rintro ⟨-, -, hextended⟩ hne v hv
    obtain ⟨items, harray | ⟨hnone, -⟩, -⟩ := hextended hne
    · use items
      apply Option.some.inj (hv.symm.trans harray)
    · rw [hnone] at hv
      cases hv
  · intro h
    constructor
    · intro name v hname hv
      rw [get?_conjoin_of_ne base _ hname, hv]
    · rintro rfl
      rfl
    · intro hne
      cases hget : base.get? "$and" with
      | none =>
          use []
          constructor
          · right
            use rfl
          · apply get?_and_conjoin_of_not_array
            · intro items hitems
              cases hget.symm.trans hitems
            · simpa using hne
      | some v =>
          obtain ⟨items, rfl⟩ := h hne v hget
          use items, Or.inl rfl
          apply get?_and_conjoin_of_array hget

end Document

namespace Criteria

variable (now : Instant)

/-- A document has all constraints of criteria: those of the first statement that has groups,
and the filters of the later ones as clauses. -/
def KeptIn (criteria : Criteria) (d : Document) : Prop :=
  ∀ base later, criteria.kept = base :: later →
    Document.Extends (Statement.filter now base) (later.map (Statement.filter now)) d

/-- Where the first statement that has groups is a single group and others follow, a field of
the group stands where the conjunction goes only if there are clauses for that, or if it asks
for an array. -/
def Unshadowed (criteria : Criteria) : Prop :=
  ∀ group later, criteria.kept = [group] :: later → later ≠ [] →
    ∀ f ∈ group, f.1 = "$and" → f.2.isComposite = false →
      Group.clauses now group ≠ [] ∨ ∃ items, f.2 = .eq (.array items)

theorem unshadowed_of_not_mem {criteria : Criteria}
    (h : ∀ statement ∈ criteria.statements, ∀ group ∈ statement, "$and" ∉ Fields.names group) :
  criteria.Unshadowed now
  := by
  intro group later hkept _ f hf hname
  have hbase := mem_statements_of_kept_cons hkept
  cases h [group] hbase group List.mem_cons_self (List.mem_map.mpr ⟨f, hf, hname⟩)

/-- The filter of criteria has all constraints exactly when no field stands where the
conjunction goes. -/
theorem keptIn_filter_iff {criteria : Criteria}
    (h : ∀ statement ∈ criteria.statements, ∀ group ∈ statement, Fields.Distinct group) :
  criteria.KeptIn now (criteria.filter now) ↔ criteria.Unshadowed now
  := by
  have hdistinct : ∀ {group later}, criteria.kept = [group] :: later → Fields.Distinct group := by
    intro group later hkept
    apply h [group] (mem_statements_of_kept_cons hkept) group List.mem_cons_self
  constructor
  · intro hall group later hkept hne
    have hgroup := hall [group] later hkept
    rw [filter_of_kept_cons now hkept, Document.extends_conjoin_iff] at hgroup
    apply (Group.conjunction_isArray_iff now (hdistinct hkept)).mp
    apply hgroup
    simpa using hne
  · intro hall base later hkept
    rw [filter_of_kept_cons now hkept, Document.extends_conjoin_iff]
    intro hne v hv
    match base, hkept, hv with
    | [], _, hv => cases hv
    | [group], hkept, hv =>
        apply (Group.conjunction_isArray_iff now (hdistinct hkept)).mpr _ v hv
        apply hall group later hkept
        simpa using hne
    | first :: second :: rest, _, hv => cases hv

end Criteria

/-! ### The main statement -/

/-- When groups name every field once, the filter of a group has all its constraints, and that
of criteria all of theirs, exactly when no field stands where the conjunction goes. -/
theorem keptIn_filters_iff (now : Instant) :
  (∀ group : Group, Fields.Distinct group →
    (group.KeptIn now (group.filter now) ↔ group.Unshadowed now))
  ∧ ∀ criteria : Criteria,
    (∀ statement ∈ criteria.statements, ∀ group ∈ statement, Fields.Distinct group) →
      (criteria.KeptIn now (criteria.filter now) ↔ criteria.Unshadowed now)
  := by
  constructor
  · intro group hdistinct
    apply Group.keptIn_filter_iff now hdistinct
  · intro criteria hdistinct
    apply Criteria.keptIn_filter_iff now hdistinct

namespace Group

/-- A beginning of a name, and an age in a range. -/
def aged : Group :=
  [("name", .startsWith "b"), ("age", .all [.compare .gte (.int32 18), .compare .lt (.int32 65)])]

/-- An age, and a field that is named like the conjunction. -/
def shadowed : Group :=
  [("$and", .eq (.array [.document [("name", .string "bob")],
      .document [("age", .document [("$gt", .int32 18)])]])),
    ("age", .all [.compare .gt (.int32 18)])]

end Group

/-- Two statements, the first with a composite. -/
def Criteria.aged : Criteria :=
  ⟨[[Group.aged], [], [Group.single "id" (.eq .null)]]⟩

theorem keptIn_filters_iff_aged :
  (Fields.Distinct Group.aged ∧ Group.aged.KeptIn ⟨0⟩ (Group.aged.filter ⟨0⟩))
    ∧ Criteria.aged.KeptIn ⟨0⟩ (Criteria.aged.filter ⟨0⟩)
  := by
  have hgroup : Fields.Distinct Group.aged := by
    simp [Group.aged, Fields.Distinct, Fields.names]
  have hnames : "$and" ∉ Fields.names Group.aged := by
    simp [Group.aged, Fields.names]
  constructor
  · use hgroup
    apply ((keptIn_filters_iff ⟨0⟩).1 Group.aged hgroup).mpr
    apply Group.unshadowed_of_not_mem ⟨0⟩ hnames
  · apply ((keptIn_filters_iff ⟨0⟩).2 Criteria.aged _).mpr
    · apply Criteria.unshadowed_of_not_mem ⟨0⟩
      simp [Criteria.aged, Group.aged, Group.single, Fields.insert, Fields.names]
    · simp [Criteria.aged, Group.aged, Group.single, Fields.insert, Fields.Distinct, Fields.names]

/-- The value of a field that is named like the conjunction is lost, although a filter could
have it and the clauses. -/
theorem not_keptIn_filter_shadowed :
  Fields.Distinct Group.shadowed ∧ (∃ d, Group.shadowed.KeptIn ⟨0⟩ d)
    ∧ ¬ Group.shadowed.KeptIn ⟨0⟩ (Group.shadowed.filter ⟨0⟩)
  := by
  have hdistinct : Fields.Distinct Group.shadowed := by
    simp [Group.shadowed, Fields.Distinct, Fields.names]
  use hdistinct
  constructor
  · use [("$and", .array [.document [("name", .string "bob")],
      .document [("age", .document [("$gt", .int32 18)])]])]
    constructor
    · intro f hf hsingle
      simp only [Group.shadowed, List.mem_cons, List.not_mem_nil, or_false] at hf
      rcases hf with rfl | rfl
      · exact ⟨_, rfl, rfl⟩
      · cases hsingle
    · intro _
      refine ⟨_, rfl, ?_⟩
      apply List.Sublist.cons
      apply List.Sublist.refl
  · rw [Group.keptIn_filter_iff ⟨0⟩ hdistinct]
    intro h
    rcases h _ List.mem_cons_self rfl rfl with hempty | hsame
    · cases hempty
    · have hvalue := Condition.eq.inj hsame
      have hlength := congrArg List.length (Value.array.inj hvalue)
      cases hlength

end MongoQuery
