import MongoQuery.Proofs.Filter.Holds

/-!
# The filters of groups and of criteria

The document of a group of fragments holds when every fragment holds at its field, although
the direct fragments stand under their fields and the others share one conjunction.  The
filter of criteria holds when every statement that has groups has one whose filter holds,
although the first statement's filter is the base to which the others are added.
-/

namespace MongoQuery

/-! ### Fragments -/

namespace Fragment

mutual

/-- A fragment holds under a test for its values: those of composites are combined. -/
def Holds (test : Value → Prop) : Fragment → Prop
  | .direct v => test v
  | .and parts => HoldAll test parts
  | .or parts => HoldsSome test parts

/-- All fragments of a list hold. -/
def HoldAll (test : Value → Prop) : List Fragment → Prop
  | [] => True
  | part :: rest => Holds test part ∧ HoldAll test rest

/-- Some fragment of a list holds. -/
def HoldsSome (test : Value → Prop) : List Fragment → Prop
  | [] => False
  | part :: rest => Holds test part ∨ HoldsSome test rest

end

theorem attachAll_eq_map (field : String) (parts : List Fragment) :
  attachAll field parts = parts.map fun part => .document (attach field part)
  := by
  induction parts with
  | nil => rfl
  | cons part rest ih => rw [attachAll, ih, List.map_cons]

@[simp]
theorem areDocuments_attachAll (field : String) (parts : List Fragment) :
  Filter.areDocuments (attachAll field parts) = true
  := by
  rw [attachAll_eq_map]
  apply Filter.areDocuments_map_document

variable (test : String → Value → Prop)

mutual

/-- A fragment that is attached to a field holds when it holds under the field's test. -/
theorem holds_attach {field : String} (h : isOperatorName field = false) :
    ∀ fragment : Fragment, Filter.Holds test (attach field fragment) ↔ fragment.Holds (test field)
  | .direct v => by
      rw [attach, Filter.holds_single, Holds]
      apply Filter.holdsClause_field test h
  | .and parts => by
      rw [attach, Filter.holds_single, Filter.holdsClause_and test (areDocuments_attachAll _ _),
        Holds]
      apply holdAll_attachAll h parts
  | .or parts => by
      rw [attach, Filter.holds_single, Filter.holdsClause_or test (areDocuments_attachAll _ _),
        Holds]
      apply holdsSome_attachAll h parts

/-- Attached fragments all hold when the fragments do under the field's test. -/
theorem holdAll_attachAll {field : String} (h : isOperatorName field = false) :
    ∀ parts : List Fragment,
      Filter.HoldAll test (attachAll field parts) ↔ HoldAll (test field) parts
  | [] => Iff.rfl
  | part :: rest => by
      rw [attachAll, Filter.HoldAll, Filter.HoldsValue, HoldAll, holds_attach h part,
        holdAll_attachAll h rest]

/-- Some attached fragment holds when some fragment does under the field's test. -/
theorem holdsSome_attachAll {field : String} (h : isOperatorName field = false) :
    ∀ parts : List Fragment,
      Filter.HoldsSome test (attachAll field parts) ↔ HoldsSome (test field) parts
  | [] => Iff.rfl
  | part :: rest => by
      rw [attachAll, Filter.HoldsSome, Filter.HoldsValue, HoldsSome, holds_attach h part,
        holdsSome_attachAll h rest]

end

/-! ### Groups of fragments -/

@[simp]
theorem areDocuments_clauses (field : String) (fragment : Fragment) :
  Filter.areDocuments (clauses field fragment) = true
  := by
  cases fragment with
  | direct v => rfl
  | and parts => apply areDocuments_attachAll
  | or parts => rfl

/-- The fields under which a group of fragments puts values directly. -/
def directFields (fragments : List (String × Fragment)) : List (String × Value) :=
  fragments.filterMap fun f => f.2.direct?.map fun v => (f.1, v)

/-- The clauses that a group of fragments collects in its conjunction. -/
def conjunction (fragments : List (String × Fragment)) : List Value :=
  fragments.flatMap fun f => f.2.clauses f.1

theorem areDocuments_conjunction (fragments : List (String × Fragment)) :
  Filter.areDocuments (conjunction fragments) = true
  := by
  induction fragments with
  | nil => rfl
  | cons f rest ih =>
      rw [conjunction, List.flatMap_cons, Filter.areDocuments_append, areDocuments_clauses]
      apply ih

theorem names_directFields_sublist (fragments : List (String × Fragment)) :
  (Fields.names (directFields fragments)).Sublist (Fields.names fragments)
  := by
  induction fragments with
  | nil => apply List.Sublist.refl
  | cons f rest ih =>
      obtain ⟨field, fragment⟩ := f
      cases fragment with
      | direct v => apply List.Sublist.cons_cons field ih
      | and parts => apply List.Sublist.cons field ih
      | or parts => apply List.Sublist.cons field ih

/-- The values under the fields and the clauses of the conjunction together say that every
fragment holds at its field. -/
theorem holds_directFields_conjunction (fragments : List (String × Fragment))
    (hfield : ∀ f ∈ fragments, isOperatorName f.1 = false) :
  Filter.Holds test (directFields fragments) ∧ Filter.HoldAll test (conjunction fragments)
    ↔ ∀ f ∈ fragments, f.2.Holds (test f.1)
  := by
  induction fragments with
  | nil => simp [directFields, conjunction, Filter.Holds, Filter.HoldAll]
  | cons f rest ih =>
      obtain ⟨field, fragment⟩ := f
      have hhead := hfield (field, fragment) List.mem_cons_self
      have htail := ih fun f hf => hfield f (List.mem_cons_of_mem _ hf)
      rw [List.forall_mem_cons, ← htail, conjunction, List.flatMap_cons, Filter.holdAll_append]
      cases fragment with
      | direct v =>
          change (Filter.HoldsClause test field v ∧ Filter.Holds test (directFields rest))
            ∧ Filter.HoldAll test [] ∧ Filter.HoldAll test (conjunction rest) ↔ _
          rw [Filter.holdsClause_field test hhead]
          simp [Filter.HoldAll, Holds, and_assoc]
      | and parts =>
          change Filter.Holds test (directFields rest)
            ∧ Filter.HoldAll test (attachAll field parts)
              ∧ Filter.HoldAll test (conjunction rest) ↔ _
          rw [holdAll_attachAll test hhead, Holds, and_left_comm]
      | or parts =>
          change Filter.Holds test (directFields rest)
            ∧ (Filter.Holds test (attach field (.or parts)) ∧ True)
              ∧ Filter.HoldAll test (conjunction rest) ↔ _
          rw [holds_attach test hhead, and_true, and_left_comm]

theorem group_eq_insert (fragments : List (String × Fragment)) :
  group fragments = if (conjunction fragments).isEmpty then Fields.ofList (directFields fragments)
    else Fields.insert (Fields.ofList (directFields fragments)) "$and"
      (.array (conjunction fragments))
  := by
  rfl

/-- A group of fragments has their clauses in its conjunction, if there are any. -/
theorem get?_and_group {fragments : List (String × Fragment)} (h : conjunction fragments ≠ []) :
  Fields.get? (group fragments) "$and" = some (.array (conjunction fragments))
  := by
  rw [group_eq_insert, if_neg (by simpa using h), Fields.get?_insert_self]

theorem mem_directFields_iff (fragments : List (String × Fragment)) (field : String)
    (v : Value) :
  (field, v) ∈ directFields fragments ↔ (field, .direct v) ∈ fragments
  := by
  induction fragments with
  | nil => simp [directFields]
  | cons f rest ih =>
      obtain ⟨first, fragment⟩ := f
      cases fragment with
      | direct w =>
          change (field, v) ∈ (first, w) :: directFields rest ↔ _
          simp [ih]
      | and parts =>
          change (field, v) ∈ directFields rest ↔ _
          simp [ih]
      | or parts =>
          change (field, v) ∈ directFields rest ↔ _
          simp [ih]

/-- A group of fragments at different fields has the direct values under their fields, except
where its conjunction goes. -/
theorem get?_group_iff {fragments : List (String × Fragment)}
    (hdistinct : Fields.Distinct fragments) {field : String} (v : Value)
    (hclear : field ≠ "$and" ∨ conjunction fragments = []) :
  Fields.get? (group fragments) field = some v ↔ (field, .direct v) ∈ fragments
  := by
  have hfields := (names_directFields_sublist fragments).nodup hdistinct
  have hget : Fields.get? (group fragments) field
      = Fields.get? (directFields fragments) field := by
    rw [group_eq_insert, Fields.ofList_of_distinct hfields]
    by_cases hempty : conjunction fragments = []
    · rw [if_pos (by simpa using hempty)]
    · have hne := hclear.resolve_right hempty
      rw [if_neg (by simpa using hempty), Fields.get?_insert_of_ne _ _ hne]
  rw [hget, ← mem_directFields_iff]
  constructor
  · apply Fields.mem_of_get?
  · apply Fields.get?_of_mem hfields

/-- The document of a group of fragments at different fields is the values under the fields
and, if there are any clauses, their conjunction. -/
theorem group_eq {fragments : List (String × Fragment)} (hdistinct : Fields.Distinct fragments)
    (hfield : ∀ f ∈ fragments, isOperatorName f.1 = false) :
  group fragments = if (conjunction fragments).isEmpty then directFields fragments
    else directFields fragments ++ [("$and", .array (conjunction fragments))]
  := by
  have hsublist := names_directFields_sublist fragments
  have hfields : Fields.ofList (directFields fragments) = directFields fragments := by
    apply Fields.ofList_of_distinct
    apply hsublist.nodup hdistinct
  have hand : "$and" ∉ Fields.names (directFields fragments) := by
    intro hmem
    obtain ⟨f, hf, hname⟩ := List.mem_map.mp (hsublist.mem hmem)
    apply ne_and_of_field (hfield f hf) hname
  rw [group_eq_insert, hfields, Fields.insert_of_not_mem _ hand]

/-- The conjunction of a group of fragments at fields has nothing but their clauses. -/
theorem eq_of_get?_and_group {fragments : List (String × Fragment)}
    (hdistinct : Fields.Distinct fragments)
    (hfield : ∀ f ∈ fragments, isOperatorName f.1 = false) {v : Value}
    (hv : Fields.get? (group fragments) "$and" = some v) :
  conjunction fragments ≠ [] ∧ v = .array (conjunction fragments)
  := by
  by_cases hempty : conjunction fragments = []
  · have hand : "$and" ∉ Fields.names (directFields fragments) := by
      intro hmem
      obtain ⟨f, hf, hname⟩ := List.mem_map.mp ((names_directFields_sublist fragments).mem hmem)
      apply ne_and_of_field (hfield f hf) hname
    rw [group_eq hdistinct hfield, if_pos (by simpa using hempty),
      (Fields.get?_eq_none_iff _ _).mpr hand] at hv
    cases hv
  · rw [get?_and_group hempty] at hv
    use hempty
    apply (Option.some.inj hv).symm

/-- The document of a group of fragments holds when every fragment holds at its field. -/
theorem holds_group {fragments : List (String × Fragment)} (hdistinct : Fields.Distinct fragments)
    (hfield : ∀ f ∈ fragments, isOperatorName f.1 = false) :
  Filter.Holds test (group fragments) ↔ ∀ f ∈ fragments, f.2.Holds (test f.1)
  := by
  rw [← holds_directFields_conjunction test fragments hfield, group_eq hdistinct hfield]
  by_cases hempty : conjunction fragments = []
  · simp [hempty, Filter.HoldAll]
  · have hand := Filter.holdsClause_and test (areDocuments_conjunction fragments)
    rw [if_neg (by simpa using hempty), Filter.holds_append, Filter.Holds, Filter.Holds, and_true,
      hand]

end Fragment

/-! ### Conjunctions with further clauses -/

/-- The conjunction of a filter, where it has one, is an array of filters. -/
def Document.Conjoinable (d : Document) : Prop :=
  ∀ v, d.get? "$and" = some v → ∃ items, v = .array items ∧ Filter.areDocuments items

namespace Document

variable (test : String → Value → Prop)

/-- Adding clauses to the conjunction of a filter adds them to what it says. -/
theorem holds_conjoin {d : Document} (hd : d.Conjoinable) {clauses : List Value}
    (hclauses : Filter.areDocuments clauses) :
  Filter.Holds test (d.conjoin clauses) ↔ Filter.Holds test d ∧ Filter.HoldAll test clauses
  := by
  unfold conjoin
  by_cases hempty : clauses = []
  · simp [hempty, Filter.HoldAll]
  · rw [if_neg (by simpa using hempty)]
    cases hget : d.get? "$and" with
    | none =>
        have hnone := (Fields.get?_eq_none_iff d "$and").mp hget
        rw [Fields.insert_of_not_mem _ hnone, Filter.holds_append, Filter.Holds, Filter.Holds,
          and_true, Filter.holdsClause_and test hclauses]
    | some v =>
        obtain ⟨items, rfl, hitems⟩ := hd v hget
        obtain ⟨before, after, hd', hinsert⟩ :=
          Fields.exists_insert_of_get? (.array (items ++ clauses)) hget
        have hboth : Filter.areDocuments (items ++ clauses) := by
          rw [Filter.areDocuments_append, hitems, hclauses]
          rfl
        change Filter.Holds test (Fields.insert d "$and" (.array (items ++ clauses))) ↔ _
        rw [hinsert, hd', Filter.holds_append, Filter.holds_append, Filter.Holds, Filter.Holds,
          Filter.holdsClause_and test hboth, Filter.holdsClause_and test hitems,
          Filter.holdAll_append, and_assoc, and_assoc, and_comm (a := Filter.HoldAll test clauses)]
        simp only [and_assoc]

end Document

/-! ### Groups, statements and criteria -/

theorem Condition.fieldFragments_eq_map (now : Instant) (group : Group) :
  fieldFragments now group = group.map fun f => (f.1, f.2.fragment now)
  := by
  induction group with
  | nil => rfl
  | cons f rest ih => rw [fieldFragments, ih, List.map_cons]

/-- A group names each field once, and no name is an operator's. -/
structure Group.Regular (group : Group) : Prop where
  distinct : Fields.Distinct group
  field : ∀ f ∈ group, isOperatorName f.1 = false

namespace Group

variable {group : Group} (now : Instant)

theorem Regular.distinct_fragments (h : group.Regular) :
  Fields.Distinct (Condition.fieldFragments now group)
  := by
  rw [Condition.fieldFragments_eq_map, Fields.Distinct, Fields.names, List.map_map]
  apply h.distinct

theorem Regular.field_fragments (h : group.Regular) :
  ∀ f ∈ Condition.fieldFragments now group, isOperatorName f.1 = false
  := by
  intro f hf
  rw [Condition.fieldFragments_eq_map] at hf
  obtain ⟨g, hg, rfl⟩ := List.mem_map.mp hf
  apply h.field g hg

/-- The filter of a group holds when the fragment of each condition does at its field. -/
theorem holds_filter (test : String → Value → Prop) (h : group.Regular) :
  Filter.Holds test (group.filter now)
    ↔ ∀ f ∈ group, (f.2.fragment now).Holds (test f.1)
  := by
  rw [Group.filter, Fragment.holds_group test (h.distinct_fragments now) (h.field_fragments now),
    Condition.fieldFragments_eq_map, List.forall_mem_map]

/-- The conjunction of the filter of a group, where it has one, is of at least one filter. -/
theorem Regular.exists_of_get?_and (h : group.Regular) {v : Value}
    (hv : (group.filter now).get? "$and" = some v) :
  ∃ items, v = .array items ∧ items ≠ [] ∧ Filter.areDocuments items
  := by
  obtain ⟨hne, rfl⟩ :=
    Fragment.eq_of_get?_and_group (h.distinct_fragments now) (h.field_fragments now) hv
  use Fragment.conjunction (Condition.fieldFragments now group), rfl, hne
  apply Fragment.areDocuments_conjunction

end Group

namespace Statement

variable (now : Instant) {statement : Statement}

/-- The filter of a statement that has groups holds when that of one of them does. -/
theorem holds_filter (test : String → Value → Prop) (hne : statement ≠ []) :
  Filter.Holds test (statement.filter now)
    ↔ ∃ group ∈ statement, Filter.Holds test (Group.filter now group)
  := by
  match statement, hne with
  | [group], _ => simp [Statement.filter]
  | first :: second :: rest, _ =>
      change Filter.Holds test (Document.single "$or"
        (.array ((first :: second :: rest).map fun g => .document (Group.filter now g)))) ↔ _
      rw [Filter.holds_single, Filter.holdsClause_or test (Filter.areDocuments_map_document _ _),
        Filter.holdsSome_map_document]

/-- The conjunction of the filter of a statement, where it has one, is of at least one
filter. -/
theorem exists_of_get?_and (h : ∀ group ∈ statement, group.Regular) {v : Value}
    (hv : (statement.filter now).get? "$and" = some v) :
  ∃ items, v = .array items ∧ items ≠ [] ∧ Filter.areDocuments items
  := by
  match statement, h, hv with
  | [], _, hv => cases hv
  | [group], h, hv => apply (h group List.mem_cons_self).exists_of_get?_and now hv
  | first :: second :: rest, _, hv => cases hv

theorem conjoinable (h : ∀ group ∈ statement, group.Regular) :
  Document.Conjoinable (statement.filter now)
  := by
  intro v hv
  obtain ⟨items, rfl, -, hitems⟩ := exists_of_get?_and now h hv
  use items

end Statement

namespace Criteria

/-- The statements that have groups. -/
def kept (criteria : Criteria) : List Statement :=
  criteria.statements.filter fun statement => !statement.isEmpty

theorem mem_kept_iff (criteria : Criteria) (statement : Statement) :
  statement ∈ criteria.kept ↔ statement ∈ criteria.statements ∧ statement ≠ []
  := by
  simp [kept]

theorem mem_statements_of_kept_cons {criteria : Criteria} {base : Statement}
    {rest : List Statement} (h : criteria.kept = base :: rest) :
  base ∈ criteria.statements
  := by
  have hbase : base ∈ criteria.kept := by
    rw [h]
    apply List.mem_cons_self
  apply ((criteria.mem_kept_iff base).mp hbase).1

theorem filter_of_kept_nil (now : Instant) {criteria : Criteria} (h : criteria.kept = []) :
  criteria.filter now = []
  := by
  rw [kept] at h
  rw [filter, h]

/-- The filter of criteria is that of the first statement with those of the others added. -/
theorem filter_of_kept_cons (now : Instant) {criteria : Criteria} {base : Statement}
    {rest : List Statement} (h : criteria.kept = base :: rest) :
  criteria.filter now = (Statement.filter now base).conjoin
    ((rest.map (Statement.filter now)).map .document)
  := by
  rw [kept] at h
  rw [filter, h, List.map_map]
  rfl

/-- What is true of a filter with clauses added exactly when it is of the filter and of the
clauses is true of the filter of criteria exactly when it is of those of the statements that
have groups. -/
theorem filter_iff_statements (now : Instant) (criteria : Criteria) {P : Document → Prop}
    (hempty : P [])
    (hconjoin : ∀ statement ∈ criteria.statements, ∀ clauses : List Document,
      P ((Statement.filter now statement).conjoin (clauses.map .document))
        ↔ P (Statement.filter now statement) ∧ ∀ d ∈ clauses, P d) :
  P (criteria.filter now)
    ↔ ∀ statement ∈ criteria.statements, statement ≠ [] → P (Statement.filter now statement)
  := by
  have hstatements : (∀ statement ∈ criteria.statements, statement ≠ [] →
      P (Statement.filter now statement))
      ↔ ∀ statement ∈ criteria.kept, P (Statement.filter now statement) := by
    simp only [mem_kept_iff, and_imp]
  rw [hstatements]
  cases hkept : criteria.kept with
  | nil =>
      rw [filter_of_kept_nil now hkept]
      simp [hempty]
  | cons base rest =>
      rw [filter_of_kept_cons now hkept, hconjoin base (mem_statements_of_kept_cons hkept),
        List.forall_mem_cons, List.forall_mem_map]

/-- The filter of criteria holds when each statement that has groups has one whose filter
holds. -/
theorem holds_filter_iff_groups (now : Instant) (test : String → Value → Prop)
    {criteria : Criteria} (h : ∀ s ∈ criteria.statements, ∀ group ∈ s, Group.Regular group) :
  Filter.Holds test (criteria.filter now) ↔ ∀ s ∈ criteria.statements, s ≠ [] →
    ∃ group ∈ s, Filter.Holds test (Group.filter now group)
  := by
  rw [criteria.filter_iff_statements now (P := Filter.Holds test) True.intro]
  · constructor
    · intro hall s hs hne
      apply (Statement.holds_filter now test hne).mp (hall s hs hne)
    · intro hall s hs hne
      apply (Statement.holds_filter now test hne).mpr (hall s hs hne)
  · intro s hs clauses
    rw [Document.holds_conjoin test (Statement.conjoinable now (h s hs))
      (Filter.areDocuments_map_document _ _), Filter.holdAll_map_document]

end Criteria

end MongoQuery
