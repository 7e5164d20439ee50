import MongoQuery.Proofs.Filter.Grammar

/-!
# Valid filters

Translation leaves the grammar of filters only by a connective over no filters.  Such a
connective comes of a choice without parts, wherever it stands, and of a conjunction without
parts that is itself a part of another condition.  A conjunction without parts that stands
under a field contributes nothing to the group.

Main statement: the filter of plain criteria is in the grammar exactly when there is neither.
-/

namespace MongoQuery

/-! ### Fragments -/

namespace Fragment

mutual

/-- A fragment can be attached to a field as a clause of its own. -/
def Valid : Fragment → Prop
  | .direct v => IsPredicate v
  | .and parts => parts ≠ [] ∧ AllValid parts
  | .or parts => parts ≠ [] ∧ AllValid parts

/-- All fragments of a list can be attached as clauses of their own. -/
def AllValid : List Fragment → Prop
  | [] => True
  | part :: rest => Valid part ∧ AllValid rest

end

/-- A fragment can stand at a field of a group, to which the parts of a conjunction go one by
one. -/
def ValidAtField : Fragment → Prop
  | .and parts => AllValid parts
  | fragment => fragment.Valid

/-- A fragment is valid as a clause of its own when it is at a field and is no conjunction
without parts. -/
theorem valid_iff (fragment : Fragment) :
  fragment.Valid ↔ fragment ≠ .and [] ∧ fragment.ValidAtField
  := by
  cases fragment with
  | direct v => simp [ValidAtField]
  | and parts => simp [Valid, ValidAtField]
  | or parts => simp [ValidAtField]

theorem attachAll_eq_nil_iff (field : String) (parts : List Fragment) :
  attachAll field parts = [] ↔ parts = []
  := by
  rw [attachAll_eq_map, List.map_eq_nil_iff]

mutual

/-- A fragment that is attached to a field is a filter when it is valid. -/
theorem isFilter_attach {field : String} (h : isOperatorName field = false) :
    ∀ fragment : Fragment, IsFilter (attach field fragment) ↔ fragment.Valid
  | .direct v => by
      rw [attach, isFilter_single, isClause_field_iff h, Valid]
  | .and parts => by
      rw [attach, isFilter_single, isClause_connective_iff (Or.inl rfl), Valid, Ne, Ne,
        attachAll_eq_nil_iff, areFilters_attachAll h parts]
  | .or parts => by
      rw [attach, isFilter_single, isClause_connective_iff (Or.inr rfl), Valid, Ne, Ne,
        attachAll_eq_nil_iff, areFilters_attachAll h parts]

theorem areFilters_attachAll {field : String} (h : isOperatorName field = false) :
    ∀ parts : List Fragment, AreFilters (attachAll field parts) ↔ AllValid parts
  | [] => by simp [attachAll, AllValid, AreFilters.nil]
  | part :: rest => by
      rw [attachAll, areFilters_cons_iff, AllValid, isFilter_attach h part,
        areFilters_attachAll h rest]

end

/-- The values under the fields and the clauses of the conjunction are valid together when
every fragment is valid at its field. -/
theorem isFilter_directFields_conjunction (fragments : List (String × Fragment))
    (hfield : ∀ f ∈ fragments, isOperatorName f.1 = false) :
  IsFilter (directFields fragments) ∧ AreFilters (conjunction fragments)
    ↔ ∀ f ∈ fragments, f.2.ValidAtField
  := by
  induction fragments with
  | nil => simp [directFields, conjunction, IsFilter.nil, AreFilters.nil]
  | cons f rest ih =>
      obtain ⟨field, fragment⟩ := f
      have hhead := hfield (field, fragment) List.mem_cons_self
      have htail := ih fun f hf => hfield f (List.mem_cons_of_mem _ hf)
      rw [List.forall_mem_cons, ← htail, conjunction, List.flatMap_cons, areFilters_append]
      cases fragment with
      | direct v =>
          change IsFilter ((field, v) :: directFields rest)
            ∧ AreFilters [] ∧ AreFilters (conjunction rest) ↔ _
          rw [isFilter_cons_iff, isClause_field_iff hhead, and_iff_right AreFilters.nil,
            ValidAtField, Valid, and_assoc]
          intro parts hparts
          cases hparts
      | and parts =>
          change IsFilter (directFields rest)
            ∧ AreFilters (attachAll field parts) ∧ AreFilters (conjunction rest) ↔ _
          rw [areFilters_attachAll hhead, ValidAtField, and_left_comm]
      | or parts =>
          change IsFilter (directFields rest)
            ∧ AreFilters [.document (attach field (.or parts))] ∧ AreFilters (conjunction rest) ↔ _
          rw [areFilters_cons_iff, isFilter_attach hhead, and_iff_left AreFilters.nil,
            ValidAtField, and_left_comm]
          intro parts hparts
          cases hparts

/-- The document of a group of fragments is a filter when every fragment is valid at its
field. -/
theorem isFilter_group {fragments : List (String × Fragment)}
    (hdistinct : Fields.Distinct fragments)
    (hfield : ∀ f ∈ fragments, isOperatorName f.1 = false) :
  IsFilter (group fragments) ↔ ∀ f ∈ fragments, f.2.ValidAtField
  := by
  rw [← isFilter_directFields_conjunction fragments hfield, group_eq hdistinct hfield]
  by_cases hempty : conjunction fragments = []
  · simp [hempty, AreFilters.nil]
  · rw [if_neg (by simpa using hempty), isFilter_append, isFilter_cons_iff,
      isClause_connective_iff (Or.inl rfl), and_iff_left IsFilter.nil, and_iff_right hempty]

end Fragment

/-! ### Conditions -/

namespace Condition

mutual

/-- No choice within a condition is without parts, and no conjunction that is a part of
another condition is. -/
def Filled : Condition → Prop
  | .all parts => FilledParts parts
  | .any parts => parts ≠ [] ∧ FilledParts parts
  | .find group => FilledFields group
  | .nfind group => FilledFields group
  | _ => True

/-- No condition of a list is a conjunction without parts, and all are filled. -/
def FilledParts : List Condition → Prop
  | [] => True
  | c :: rest => (c ≠ .all [] ∧ Filled c) ∧ FilledParts rest

/-- The conditions of all fields of a group are filled. -/
def FilledFields : List (String × Condition) → Prop
  | [] => True
  | (_, c) :: rest => Filled c ∧ FilledFields rest

end

variable (now : Instant)

theorem fragments_eq_nil_iff (parts : List Condition) :
  fragments now parts = [] ↔ parts = []
  := by
  cases parts with
  | nil => simp [fragments]
  | cons c rest => simp [fragments]

theorem fragment_eq_and_nil_iff (c : Condition) :
  c.fragment now = .and [] ↔ c = .all []
  := by
  cases c with
  | all parts => simp [fragment, fragments_eq_nil_iff]
  | _ => simp [fragment]

mutual

/-- The fragment of a plain condition is valid at a field exactly when the condition is
filled. -/
theorem validAtField_fragment_iff :
    ∀ c : Condition, c.Distinct → c.Plain → ((c.fragment now).ValidAtField ↔ c.Filled)
  | .eq _, _, hplain => by
      use fun _ => True.intro
      intro _
      apply IsPredicate.literal hplain
  | .neq v, _, _ => by
      use fun _ => True.intro
      intro _
      apply IsPredicate.differs v
  | .order comparison bound, _, _ => by
      use fun _ => True.intro
      intro _
      apply IsPredicate.compares comparison (bound.resolve now)
  | .startsWith text, _, _ => by
      use fun _ => True.intro
      intro _
      apply IsPredicate.matchesPattern (Pattern.startingWith text) "i"
  | .all parts, hdistinct, hplain => by
      rw [fragment, Fragment.ValidAtField, Filled]
      apply allValid_fragments_iff parts hdistinct hplain
  | .any parts, hdistinct, hplain => by
      change fragments now parts ≠ [] ∧ Fragment.AllValid (fragments now parts) ↔ _
      rw [Filled, Ne, fragments_eq_nil_iff, allValid_fragments_iff parts hdistinct hplain]
  | .find group, hdistinct, hplain => by
      have ih := validAtField_fieldFragments_iff group hdistinct.2 hplain
      have hregular := Group.Regular.of_plain hdistinct.1 hplain
      change IsPredicate (.document (Document.single "$elemMatch"
        (.document (Fragment.group (fieldFragments now group))))) ↔ _
      rw [isPredicate_elementMatch_iff, Filled, ← ih]
      apply Fragment.isFilter_group (hregular.distinct_fragments now)
        (hregular.field_fragments now)
  | .nfind group, hdistinct, hplain => by
      have ih := validAtField_fieldFragments_iff group hdistinct.2 hplain
      have hregular := Group.Regular.of_plain hdistinct.1 hplain
      change IsPredicate (.document (Document.single "$not" (.document (Document.single
        "$elemMatch" (.document (Fragment.group (fieldFragments now group))))))) ↔ _
      rw [isPredicate_noElementMatch_iff, Filled, ← ih]
      apply Fragment.isFilter_group (hregular.distinct_fragments now)
        (hregular.field_fragments now)

theorem allValid_fragments_iff :
    ∀ parts : List Condition, DistinctParts parts → PlainParts parts →
      (Fragment.AllValid (fragments now parts) ↔ FilledParts parts)
  | [], _, _ => Iff.rfl
  | c :: rest, hdistinct, hplain => by
      rw [fragments, Fragment.AllValid, FilledParts, Fragment.valid_iff, Ne,
        fragment_eq_and_nil_iff, validAtField_fragment_iff c hdistinct.1 hplain.1,
        allValid_fragments_iff rest hdistinct.2 hplain.2]

theorem validAtField_fieldFragments_iff :
    ∀ group : List (String × Condition), DistinctFields group → PlainFields group →
      ((∀ f ∈ fieldFragments now group, f.2.ValidAtField) ↔ FilledFields group)
  | [], _, _ => by simp [fieldFragments, FilledFields]
  | (field, c) :: rest, hdistinct, hplain => by
      rw [fieldFragments, List.forall_mem_cons, FilledFields,
        validAtField_fragment_iff c hdistinct.1 hplain.1.2,
        validAtField_fieldFragments_iff rest hdistinct.2 hplain.2]

end

end Condition

/-! ### Groups, statements and criteria -/

/-- All conditions of a group are filled. -/
def Group.Filled (group : Group) : Prop :=
  Condition.FilledFields group

/-- The filter of a plain group is in the grammar exactly when the group is filled. -/
theorem Group.isFilter_filter (now : Instant) {group : Group} (hdistinct : group.Distinct)
    (hplain : group.Plain) :
  IsFilter (group.filter now) ↔ group.Filled
  := by
  have hregular := Group.Regular.of_plain hdistinct.names hplain
  rw [Group.filter, Fragment.isFilter_group (hregular.distinct_fragments now)
    (hregular.field_fragments now)]
  apply Condition.validAtField_fieldFragments_iff now group hdistinct.inner hplain

/-- The filter of a statement that has groups is in the grammar when those of its groups
are. -/
theorem Statement.isFilter_filter (now : Instant) {statement : Statement} (hne : statement ≠ []) :
  IsFilter (statement.filter now) ↔ ∀ group ∈ statement, IsFilter (Group.filter now group)
  := by
  match statement, hne with
  | [group], _ => simp [Statement.filter]
  | first :: second :: rest, _ =>
      change IsFilter (Document.single "$or"
        (.array ((first :: second :: rest).map fun g => .document (Group.filter now g)))) ↔ _
      rw [isFilter_single, isClause_connective_iff (Or.inr rfl), areFilters_map_document]
      simp

namespace Document

/-- The conjunction of a filter, where it has one, is an array of at least one value. -/
def Extendable (d : Document) : Prop :=
  ∀ v, d.get? "$and" = some v → ∃ items, v = .array items ∧ items ≠ []

/-- A filter to whose conjunction clauses are added is in the grammar when it and the clauses
were. -/
theorem isFilter_conjoin {d : Document} (hd : d.Extendable) (clauses : List Value) :
  IsFilter (d.conjoin clauses) ↔ IsFilter d ∧ AreFilters clauses
  := by
  unfold conjoin
  by_cases hempty : clauses = []
  · simp [hempty, AreFilters.nil]
  · rw [if_neg (by simpa using hempty)]
    cases hget : d.get? "$and" with
    | none =>
        have hnone := (Fields.get?_eq_none_iff d "$and").mp hget
        rw [Fields.insert_of_not_mem _ hnone, isFilter_append, isFilter_cons_iff,
          isClause_connective_iff (Or.inl rfl), and_iff_left IsFilter.nil, and_iff_right hempty]
    | some v =>
        obtain ⟨items, rfl, hitems⟩ := hd v hget
        obtain ⟨before, after, hd', hinsert⟩ :=
          Fields.exists_insert_of_get? (.array (items ++ clauses)) hget
        have hboth : items ++ clauses ≠ [] := by simp [hitems]
        change IsFilter (Fields.insert d "$and" (.array (items ++ clauses))) ↔ _
        rw [hinsert, hd', isFilter_append, isFilter_append, isFilter_cons_iff, isFilter_cons_iff,
          isClause_connective_iff (Or.inl rfl), isClause_connective_iff (Or.inl rfl),
          and_iff_right hboth, and_iff_right hitems, areFilters_append]
        tauto

end Document

theorem Statement.extendable (now : Instant) {statement : Statement}
    (h : ∀ group ∈ statement, Group.Regular group) :
  Document.Extendable (statement.filter now)
  := by
  intro v hv
  obtain ⟨items, rfl, hne, -⟩ := exists_of_get?_and now h hv
  use items

namespace Criteria

/-- All conditions of criteria are filled. -/
def Filled (criteria : Criteria) : Prop :=
  ∀ statement ∈ criteria.statements, ∀ group ∈ statement, Group.Filled group

/-- The filter of criteria is in the grammar when those of all groups are. -/
theorem isFilter_filter_iff_groups (now : Instant) {criteria : Criteria}
    (h : ∀ statement ∈ criteria.statements, ∀ group ∈ statement, Group.Regular group) :
  IsFilter (criteria.filter now)
    ↔ ∀ statement ∈ criteria.statements, ∀ group ∈ statement, IsFilter (Group.filter now group)
  := by
  rw [criteria.filter_iff_statements now IsFilter.nil]
  · constructor
    · intro hall statement hs group hg
      have hne : statement ≠ [] := List.ne_nil_of_mem hg
      apply (Statement.isFilter_filter now hne).mp (hall statement hs hne) group hg
    · intro hall statement hs hne
      apply (Statement.isFilter_filter now hne).mpr (hall statement hs)
  · intro statement hs clauses
    rw [Document.isFilter_conjoin (Statement.extendable now (h statement hs)),
      areFilters_map_document]

/-! ### The main statement -/

/-- The filter of plain criteria is in the grammar exactly when no choice within them is
without parts and no conjunction that is a part of another condition is. -/
theorem isFilter_filter_iff (now : Instant) (criteria : Criteria) (hdistinct : criteria.Distinct)
    (hplain : criteria.Plain) :
  IsFilter (criteria.filter now) ↔ criteria.Filled
  := by
  rw [isFilter_filter_iff_groups now (criteria.regular hdistinct hplain)]
  constructor
  · intro h statement hs group hg
    apply (Group.isFilter_filter now (hdistinct _ hs _ hg) (hplain _ hs _ hg)).mp
    apply h statement hs group hg
  · intro h statement hs group hg
    apply (Group.isFilter_filter now (hdistinct _ hs _ hg) (hplain _ hs _ hg)).mpr
    apply h statement hs group hg

/-- Criteria with a conjunction without parts under a field, and with composites in others. -/
def nested : Criteria :=
  ⟨[[[("tags", .all []),
    ("lists", .nfind [("id", .any [.eq (.string "a"), .all [.neq .null, .startsWith "b"]])])]]]⟩

/-- Criteria with a conjunction without parts in a choice. -/
def hollow : Criteria :=
  ⟨[[[("lists", .find [("id", .any [.eq (.string "a"), .all []])])]]]⟩

theorem isFilter_filter_nested_hollow :
  (nested.Distinct ∧ nested.Plain ∧ IsFilter (nested.filter ⟨0⟩))
    ∧ hollow.Distinct ∧ hollow.Plain ∧ ¬ IsFilter (hollow.filter ⟨0⟩)
  := by
  have hnested : nested.Distinct := by
    simp only [nested, Distinct, List.forall_mem_cons, List.not_mem_nil, false_implies,
      implies_true, and_true]
    constructor
    · simp [Fields.Distinct, Fields.names]
    · simp [Condition.DistinctFields, Condition.Distinct, Condition.DistinctParts, Fields.Distinct,
        Fields.names]
  have hnestedPlain : nested.Plain := by
    simp [nested, Plain, Group.Plain, Condition.PlainFields, Condition.Plain,
      Condition.PlainParts, isOperatorName, Value.isOperation]
  have hhollow : hollow.Distinct := by
    simp only [hollow, Distinct, List.forall_mem_cons, List.not_mem_nil, false_implies,
      implies_true, and_true]
    apply Group.distinct_single
    simp [Condition.DistinctFields, Condition.Distinct, Condition.DistinctParts, Fields.Distinct,
      Fields.names]
  have hhollowPlain : hollow.Plain := by
    simp [hollow, Plain, Group.Plain, Condition.PlainFields, Condition.Plain,
      Condition.PlainParts, isOperatorName, Value.isOperation]
  constructor
  · use hnested, hnestedPlain
    apply (isFilter_filter_iff ⟨0⟩ nested hnested hnestedPlain).mpr
    simp [nested, Filled, Group.Filled, Condition.FilledFields, Condition.Filled,
      Condition.FilledParts]
  · use hhollow, hhollowPlain
    rw [isFilter_filter_iff ⟨0⟩ hollow hhollow hhollowPlain]
    simp [hollow, Filled, Group.Filled, Condition.FilledFields, Condition.Filled,
      Condition.FilledParts]

end Criteria

end MongoQuery
