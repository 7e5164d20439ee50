import MongoQuery.Proofs.Query.Page
import MongoQuery.Proofs.Query.Paths

/-!
# The clause of the next page

To ask for the next page is to add one statement after those that are there, of one group with
one field, and to remember the value that the field must pass.  In the filter this is one
clause more at the end of the conjunction, which begins with the clause where there was none;
where the filter said nothing it becomes the clause itself.

Main statement: this is all that changes when the sort field leads to a value in the last
record, and nothing changes when it does not.
-/

namespace MongoQuery

/-! ### Clauses at the end of a conjunction -/

namespace Document

/-- A filter has one clause more than another, at the end of its conjunction. -/
inductive WithClause (clause : Value) : Document → Document → Prop
  /-- There was no conjunction, and the clause begins one. -/
  | begun {d : Document} (h : "$and" ∉ Fields.names d) :
    WithClause clause d (d ++ [("$and", .array [clause])])
  /-- There was a conjunction, and all other entries stay. -/
  | extended {before after : Document} {items : List Value} (h : "$and" ∉ Fields.names before) :
    WithClause clause (before ++ ("$and", .array items) :: after)
      (before ++ ("$and", .array (items ++ [clause])) :: after)

/-- What a filter has where the conjunction goes is an array, if there is anything. -/
def TakesClauses (d : Document) : Prop :=
  ∀ v, d.get? "$and" = some v → ∃ items, v = .array items

theorem withClause_conjoin {d : Document} (h : d.TakesClauses) (clause : Value) :
  WithClause clause d (d.conjoin [clause])
  := by
  cases hget : d.get? "$and" with
  | none =>
      have hname := (Fields.get?_eq_none_iff d "$and").mp hget
      have hconjoin : d.conjoin [clause] = d ++ [("$and", .array [clause])] := by
        rw [conjoin, hget, ← Fields.insert_of_not_mem _ hname]
        rfl
      rw [hconjoin]
      exact .begun hname
  | some v =>
      obtain ⟨items, rfl⟩ := h v hget
      have hconjoin : d.conjoin [clause]
          = Fields.insert d "$and" (.array (items ++ [clause])) := by
        rw [conjoin, hget]
        rfl
      obtain ⟨before, after, hd, hname⟩ := Fields.exists_append_of_get? hget
      rw [hconjoin, hd, Fields.insert_append_cons _ _ _ hname]
      exact .extended hname

/-- Clauses may be added one after the other. -/
theorem conjoin_append {d : Document} (h : d.TakesClauses) (clauses others : List Value) :
  d.conjoin (clauses ++ others) = (d.conjoin clauses).conjoin others
  := by
  by_cases hclauses : clauses = []
  · subst hclauses
    rfl
  by_cases hothers : others = []
  · subst hothers
    rw [List.append_nil]
    rfl
  have hboth : clauses ++ others ≠ [] := by simp [hclauses]
  cases hget : d.get? "$and" with
  | none =>
      simp [conjoin, hget, hclauses, hothers, Fields.insert_insert]
  | some v =>
      obtain ⟨items, rfl⟩ := h v hget
      simp [conjoin, hget, hclauses, hothers, Fields.insert_insert]

theorem takesClauses_of_none {d : Document} (h : d.get? "$and" = none) :
  d.TakesClauses
  := by
  intro v hv
  rw [h] at hv
  cases hv

theorem takesClauses_of_array {d : Document} {items : List Value}
    (h : d.get? "$and" = some (.array items)) :
  d.TakesClauses
  := by
  intro v hv
  rw [h] at hv
  use items, (Option.some.inj hv).symm

theorem TakesClauses.conjoin {d : Document} (h : d.TakesClauses) (clauses : List Value) :
  TakesClauses (d.conjoin clauses)
  := by
  by_cases hempty : clauses = []
  · subst hempty
    apply h
  rw [Document.conjoin, if_neg (by simpa using hempty)]
  split
  · apply takesClauses_of_array
    apply Fields.get?_insert_self
  · apply takesClauses_of_array
    apply Fields.get?_insert_self

end Document

/-! ### Filters that take clauses -/

/-- The conjunction of a group of fragments at fields is an array, if there is one. -/
theorem Fragment.takesClauses_group {fragments : List (String × Fragment)}
    (hfield : ∀ f ∈ fragments, isOperatorName f.1 = false) :
  Document.TakesClauses (group fragments)
  := by
  by_cases hempty : conjunction fragments = []
  · have hand : "$and" ∉ Fields.names (Fields.ofList (directFields fragments)) := by
      rw [Fields.names_ofList, List.mem_eraseDups]
      intro hmem
      obtain ⟨f, hf, hname⟩ := List.mem_map.mp ((names_directFields_sublist fragments).mem hmem)
      apply ne_and_of_field (hfield f hf) hname
    apply Document.takesClauses_of_none
    rw [group_eq_insert, if_pos (by simpa using hempty)]
    apply (Fields.get?_eq_none_iff _ _).mpr hand
  · apply Document.takesClauses_of_array (get?_and_group hempty)

theorem Statement.takesClauses_filter (now : Instant) {statement : Statement}
    (h : ∀ group ∈ statement, ∀ f ∈ group, isOperatorName f.1 = false) :
  Document.TakesClauses (statement.filter now)
  := by
  match statement, h with
  | [], _ => exact Document.takesClauses_of_none rfl
  | [group], h =>
      apply Fragment.takesClauses_group
      rw [Condition.fieldFragments_eq_map, List.forall_mem_map]
      apply h group List.mem_cons_self
  | first :: second :: rest, _ => exact Document.takesClauses_of_none rfl

namespace Criteria

variable (now : Instant)

/-- One statement more adds its filter as a clause, unless it is the first that has groups. -/
theorem filter_append_single (criteria : Criteria) {statement : Statement} (hne : statement ≠ [])
    (h : ∀ base ∈ criteria.statements, Document.TakesClauses (Statement.filter now base)) :
  filter now ⟨criteria.statements ++ [statement]⟩
    = if criteria.kept = [] then statement.filter now
      else (criteria.filter now).conjoin [.document (statement.filter now)]
  := by
  have hkept : kept ⟨criteria.statements ++ [statement]⟩ = criteria.kept ++ [statement] := by
    simp [kept, hne]
  cases hold : criteria.kept with
  | nil =>
      rw [hold, List.nil_append] at hkept
      rw [filter_of_kept_cons now hkept, if_pos rfl]
      rfl
  | cons base rest =>
      rw [hold, List.cons_append] at hkept
      have hbase := h base (mem_statements_of_kept_cons hold)
      rw [filter_of_kept_cons now hkept, filter_of_kept_cons now hold, if_neg (by simp),
        List.map_append, List.map_append, Document.conjoin_append hbase]
      rfl

theorem takesClauses_filter {criteria : Criteria}
    (h : ∀ base ∈ criteria.statements, Document.TakesClauses (Statement.filter now base)) :
  Document.TakesClauses (criteria.filter now)
  := by
  cases hkept : criteria.kept with
  | nil =>
      rw [filter_of_kept_nil now hkept]
      apply Document.takesClauses_of_none rfl
  | cons base rest =>
      rw [filter_of_kept_cons now hkept]
      apply (h base (mem_statements_of_kept_cons hkept)).conjoin

theorem kept_eq_nil_iff (criteria : Criteria) :
  criteria.kept = [] ↔ ∀ statement ∈ criteria.statements, statement = []
  := by
  simp [kept]

end Criteria

/-! ### The main statement -/

namespace FilterSpec

/-- The clause that the sort field lies past a value, after it or before it by the direction. -/
def pastClause (spec : FilterSpec) (v : Value) : Document :=
  [(spec.sort.field, .document [(if spec.sort.direction = .asc then "$gt" else "$lt", v)])]

theorem pastGroup_eq (spec : FilterSpec) (v : Value) :
  spec.pastGroup v = [(spec.sort.field,
    .order (if spec.sort.direction = .asc then .gt else .lt) (.literal v))]
  := by
  rw [pastGroup]
  cases spec.sort.direction with
  | asc => rfl
  | desc => rfl

theorem filter_pastGroup (now : Instant) (spec : FilterSpec) (v : Value) :
  Group.filter now (spec.pastGroup v) = spec.pastClause v
  := by
  rw [pastGroup_eq, pastClause]
  cases spec.sort.direction with
  | asc => rfl
  | desc => rfl

/-- When the sort field leads to a value in the last record, the specification of the next page
has one statement more, that the field lies past just this value, and the value for its cursor.
Its filter is that of the page before with one clause more, or the clause alone where no
statement had groups.  When the sort field leads to no value, nothing changes. -/
theorem pageAfter_adds_clause (spec : FilterSpec) (last : Document) :
  (∀ v, last.LeadsTo spec.sort.field v →
    spec.pageAfter last
      = { criteria := ⟨spec.criteria.statements ++ [[[(spec.sort.field,
            .order (if spec.sort.direction = .asc then .gt else .lt) (.literal v))]]]⟩
          sort := spec.sort
          limit := spec.limit
          cursor := some v }
    ∧ ((∀ s ∈ spec.criteria.statements, ∀ group ∈ s, ∀ f ∈ group, isOperatorName f.1 = false) →
      ∀ now, ((∀ s ∈ spec.criteria.statements, s = [])
          → (spec.pageAfter last).criteria.filter now = spec.pastClause v)
        ∧ ((∃ s ∈ spec.criteria.statements, s ≠ [])
          → Document.WithClause (.document (spec.pastClause v)) (spec.criteria.filter now)
            ((spec.pageAfter last).criteria.filter now))))
  ∧ ((∀ v, ¬ last.LeadsTo spec.sort.field v) → spec.pageAfter last = spec)
  := by
  constructor
  · intro v hv
    rw [← Document.at?_eq_some_iff] at hv
    have hnext : spec.pageAfter last
        = { criteria := ⟨spec.criteria.statements ++ [[spec.pastGroup v]]⟩
            sort := spec.sort
            limit := spec.limit
            cursor := some v } := by
      rw [← pageAfter_of_at? hv, pageAfter, hv]
      rfl
    rw [← pastGroup_eq]
    use hnext
    intro hfield now
    have htakes : ∀ base ∈ spec.criteria.statements,
        Document.TakesClauses (Statement.filter now base) := by
      intro base hbase
      apply Statement.takesClauses_filter now (hfield base hbase)
    have hfilter := spec.criteria.filter_append_single now (List.cons_ne_nil (spec.pastGroup v) [])
      htakes
    have hclause : Statement.filter now [spec.pastGroup v] = spec.pastClause v :=
      filter_pastGroup now spec v
    rw [hnext, hfilter, hclause]
    constructor
    · intro hempty
      rw [if_pos (spec.criteria.kept_eq_nil_iff.mpr hempty)]
    · rintro ⟨s, hs, hne⟩
      rw [if_neg fun hempty => hne (spec.criteria.kept_eq_nil_iff.mp hempty s hs)]
      apply Document.withClause_conjoin (Criteria.takesClauses_filter now htakes)
  · intro hnone
    have hat : last.at? spec.sort.field = none := by
      rw [Option.eq_none_iff_forall_ne_some]
      intro v hv
      apply hnone v ((last.at?_eq_some_iff _ v).mp hv)
    rw [pageAfter, hat]

/-- A rank that looks like a date. -/
def agedRank : Value :=
  .document [("daysAgo", .int32 3)]

/-- Records with one of two names by rank, the highest first. -/
def ranked : FilterSpec :=
  { criteria := ⟨[[], [[("name", .any [.isNull, .eq (.string "bob")])]]]⟩
    sort := ⟨"meta.rank", .desc⟩
    limit := 2
    cursor := some (.int32 9) }

/-- All records by rank, with statements that have no groups. -/
def rankedAll : FilterSpec :=
  { ranked with criteria := ⟨[[], []]⟩ }

/-- A record with such a rank. -/
def rankedRecord : Document :=
  [("id", .string "7"), ("meta", .document [("rank", agedRank)])]

/-- A rank is compared with as it is, after the choice that the filter has already or alone, and
a record without rank has no next page. -/
theorem pageAfter_adds_clause_ranked :
  rankedRecord.LeadsTo "meta.rank" agedRank
    ∧ (ranked.pageAfter rankedRecord).criteria.statements
      = ranked.criteria.statements ++ [[[("meta.rank", .order .lt (.literal agedRank))]]]
    ∧ Document.WithClause (.document [("meta.rank", .document [("$lt", agedRank)])])
      (ranked.criteria.filter ⟨0⟩) ((ranked.pageAfter rankedRecord).criteria.filter ⟨0⟩)
    ∧ (rankedAll.pageAfter rankedRecord).criteria.filter ⟨0⟩
      = [("meta.rank", .document [("$lt", agedRank)])]
    ∧ (∀ v, ¬ Document.LeadsTo [("id", .string "7")] "meta.rank" v)
    ∧ ranked.pageAfter [("id", .string "7")] = ranked
  := by
  have hleads : rankedRecord.LeadsTo "meta.rank" agedRank := by
    apply (rankedRecord.at?_eq_some_iff "meta.rank" agedRank).mp rfl
  have hnone : ∀ v, ¬ Document.LeadsTo [("id", .string "7")] "meta.rank" v := by
    intro v hv
    cases (Document.at?_eq_some_iff _ "meta.rank" v).mpr hv
  have hfields : ∀ s ∈ ranked.criteria.statements, ∀ group ∈ s, ∀ f ∈ group,
      isOperatorName f.1 = false := by
    simp [ranked, isOperatorName]
  obtain ⟨hnext, hfilter⟩ := (pageAfter_adds_clause ranked rankedRecord).1 agedRank hleads
  obtain ⟨-, hall⟩ := (pageAfter_adds_clause rankedAll rankedRecord).1 agedRank hleads
  use hleads
  constructor
  · rw [hnext]
    rfl
  constructor
  · apply (hfilter hfields ⟨0⟩).2
    simp [ranked]
  constructor
  · apply (hall (by simp [rankedAll]) ⟨0⟩).1
    simp [rankedAll]
  use hnone
  apply (pageAfter_adds_clause ranked [("id", .string "7")]).2 hnone

end FilterSpec

end MongoQuery
