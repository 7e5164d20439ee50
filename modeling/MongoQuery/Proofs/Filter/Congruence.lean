import MongoQuery.Filter.Find
import MongoQuery.Proofs.Filter.Combination
import MongoQuery.Proofs.Query.Equality

/-!
# Equal queries have equal filters

The filters of equal conditions, groups and criteria are equal.  The documents of both sides
are built by the same settings, so they have their fields in the same order, although the
documents that they contain as literals need not; two documents that are related in this
way are called parallel here.  Unlike equality this is kept by insertion and can be read at
a name, which the translation does at the conjunction.
-/

namespace MongoQuery

open List (Forall₂)

/-! ### Parallel documents -/

namespace Document

/-- Two documents have every name once, the same names in the same order and equal values. -/
structure Parallel (d e : Document) : Prop where
  distinct : Fields.Distinct d
  aligned : Fields.Aligned (fun v w => v.equal w) d e

variable {d e : Document}

theorem Parallel.equal (h : Parallel d e) :
  d.equal e
  := by
  apply equal_of_aligned h.distinct h.aligned

theorem Parallel.insert (h : Parallel d e) (name : String) {v w : Value} (hvw : v.equal w) :
  Parallel (d.insert name v) (e.insert name w)
  := by
  constructor
  · apply h.distinct.insert
  · apply h.aligned.insert name hvw

theorem parallel_ofList {settings others : List (String × Value)}
    (h : Fields.Aligned (fun v w => v.equal w) settings others) :
  Parallel (Fields.ofList settings) (Fields.ofList others)
  := by
  constructor
  · apply Fields.distinct_ofList
  · apply h.ofList

theorem parallel_single (name : String) {v w : Value} (h : v.equal w) :
  Parallel (single name v) (single name w)
  := by
  constructor
  · apply List.pairwise_singleton
  · exact .cons ⟨rfl, h⟩ .nil

end Document

namespace Value

theorem equal_document {d e : Document} (h : d.equal e) :
  (document d).equal (.document e)
  := by
  exact (document_equal_iff _ _).mpr ⟨e, rfl, h⟩

theorem equal_document_single (name : String) {v w : Value} (h : v.equal w) :
  (document (Document.single name v)).equal (.document (Document.single name w))
  := by
  apply equal_document
  exact Document.equal_single name h

theorem equal_array {items others : List Value}
    (h : Forall₂ (fun v w => v.equal w) items others) :
  (array items).equal (.array others)
  := by
  exact (array_equal_iff _ _).mpr ⟨others, rfl, h⟩

/-- The elements of an array; other values have none. -/
def items : Value → List Value
  | .array items => items
  | _ => []

theorem forall₂_items_of_equal {v w : Value} (h : v.equal w) :
  Forall₂ (fun v w => v.equal w) v.items w.items
  := by
  rw [equal.eq_def] at h
  split at h
  case h_8 => exact (equalItems_iff _ _).mp h
  case h_22 => cases h
  all_goals exact .nil

end Value

namespace Document

/-- The clauses that the conjunction of a filter has. -/
def conjuncts (d : Document) : List Value :=
  ((d.get? "$and").map Value.items).getD []

/-- Clauses go to the end of the conjunction. -/
theorem conjoin_eq (d : Document) (clauses : List Value) :
  d.conjoin clauses = if clauses.isEmpty then d
    else d.insert "$and" (.array (d.conjuncts ++ clauses))
  := by
  rw [conjoin, conjuncts]
  cases d.get? "$and" with
  | none => rfl
  | some v => cases v <;> rfl

theorem Parallel.conjuncts {d e : Document} (h : Parallel d e) :
  Forall₂ (fun v w => v.equal w) d.conjuncts e.conjuncts
  := by
  rw [Document.conjuncts, Document.conjuncts]
  cases hget : d.get? "$and" with
  | none =>
      rw [h.aligned.get?_eq_none hget]
      exact .nil
  | some v =>
      obtain ⟨w, hw, hvw⟩ := h.aligned.exists_get? hget
      rw [hw]
      exact Value.forall₂_items_of_equal hvw

/-- Equal clauses added to parallel filters give parallel filters. -/
theorem Parallel.conjoin {d e : Document} (h : Parallel d e) {clauses others : List Value}
    (hclauses : Forall₂ (fun v w => v.equal w) clauses others) :
  Parallel (d.conjoin clauses) (e.conjoin others)
  := by
  rw [conjoin_eq, conjoin_eq, isEmpty_eq_of_forall₂ hclauses]
  split
  · exact h
  · apply h.insert
    apply Value.equal_array (List.rel_append h.conjuncts hclauses)

end Document

/-! ### Fragments -/

namespace Fragment

mutual

/-- Whether two fragments are equal. -/
def equal : Fragment → Fragment → Bool
  | .direct v, .direct w => v.equal w
  | .and parts, .and others => equalParts parts others
  | .or parts, .or others => equalParts parts others
  | _, _ => false

/-- Whether two lists of fragments are equal. -/
def equalParts : List Fragment → List Fragment → Bool
  | [], [] => true
  | f :: rest, g :: others => equal f g && equalParts rest others
  | _, _ => false

end

theorem equalParts_iff (parts others : List Fragment) :
  equalParts parts others ↔ Forall₂ (fun f g => f.equal g) parts others
  := by
  induction parts generalizing others with
  | nil => cases others <;> simp [equalParts]
  | cons f rest ih => cases others <;> simp [equalParts, ih]

theorem direct_equal_iff (v : Value) (g : Fragment) :
  (direct v).equal g ↔ ∃ w, g = .direct w ∧ v.equal w
  := by
  cases g <;> simp [equal]

theorem and_equal_iff (parts : List Fragment) (g : Fragment) :
  (and parts).equal g ↔ ∃ others, g = .and others ∧ Forall₂ (fun f g => f.equal g) parts others
  := by
  cases g <;> simp [equal, equalParts_iff]

theorem or_equal_iff (parts : List Fragment) (g : Fragment) :
  (or parts).equal g ↔ ∃ others, g = .or others ∧ Forall₂ (fun f g => f.equal g) parts others
  := by
  cases g <;> simp [equal, equalParts_iff]

mutual

/-- Equal fragments are attached to a field by equal clauses. -/
theorem equal_attach (field : String) :
    ∀ (f : Fragment) {g : Fragment}, f.equal g → (attach field f).equal (attach field g)
  | .direct v, g, h => by
      obtain ⟨w, rfl, hvw⟩ := (direct_equal_iff _ _).mp h
      exact Document.equal_single field hvw
  | .and parts, g, h => by
      obtain ⟨others, rfl, hparts⟩ := (and_equal_iff _ _).mp h
      apply Document.equal_single
      exact Value.equal_array (forall₂_attachAll field parts hparts)
  | .or parts, g, h => by
      obtain ⟨others, rfl, hparts⟩ := (or_equal_iff _ _).mp h
      apply Document.equal_single
      exact Value.equal_array (forall₂_attachAll field parts hparts)

theorem forall₂_attachAll (field : String) :
    ∀ (parts : List Fragment) {others : List Fragment},
      Forall₂ (fun f g => f.equal g) parts others →
        Forall₂ (fun v w => v.equal w) (attachAll field parts) (attachAll field others)
  | [], _, .nil => .nil
  | part :: rest, _, .cons hpart hrest =>
      .cons (Value.equal_document (equal_attach field part hpart))
        (forall₂_attachAll field rest hrest)

end

theorem forall₂_clauses (field : String) {f g : Fragment} (h : f.equal g) :
  Forall₂ (fun v w => v.equal w) (clauses field f) (clauses field g)
  := by
  cases f with
  | direct v =>
      obtain ⟨w, rfl, hvw⟩ := (direct_equal_iff _ _).mp h
      exact .nil
  | and parts =>
      obtain ⟨others, rfl, hparts⟩ := (and_equal_iff _ _).mp h
      exact forall₂_attachAll field parts hparts
  | or parts =>
      obtain ⟨others, rfl, hparts⟩ := (or_equal_iff _ _).mp h
      exact .cons (Value.equal_document (equal_attach field (.or parts) h)) .nil

section Groups

variable {fragments others : Fields Fragment}

theorem aligned_directFields (h : Fields.Aligned (fun f g => f.equal g) fragments others) :
  Fields.Aligned (fun v w => v.equal w) (directFields fragments) (directFields others)
  := by
  apply List.rel_filterMap _ h
  rintro ⟨name, f⟩ ⟨-, g⟩ ⟨rfl, hfg⟩
  cases f with
  | direct v =>
      obtain ⟨w, rfl, hvw⟩ := (direct_equal_iff _ _).mp hfg
      exact .some ⟨rfl, hvw⟩
  | and parts =>
      obtain ⟨others, rfl, hparts⟩ := (and_equal_iff _ _).mp hfg
      exact .none
  | or parts =>
      obtain ⟨others, rfl, hparts⟩ := (or_equal_iff _ _).mp hfg
      exact .none

theorem forall₂_conjunction (h : Fields.Aligned (fun f g => f.equal g) fragments others) :
  Forall₂ (fun v w => v.equal w) (conjunction fragments) (conjunction others)
  := by
  apply List.rel_flatMap h
  rintro ⟨name, f⟩ ⟨-, g⟩ ⟨rfl, hfg⟩
  exact forall₂_clauses name hfg

/-- Equal fragments at the same fields make equal documents. -/
theorem parallel_group (h : Fields.Aligned (fun f g => f.equal g) fragments others) :
  Document.Parallel (group fragments) (group others)
  := by
  have hfields := Document.parallel_ofList (aligned_directFields h)
  have hconjunction := forall₂_conjunction h
  rw [group_eq_insert, group_eq_insert, isEmpty_eq_of_forall₂ hconjunction]
  split
  · exact hfields
  · exact hfields.insert "$and" (Value.equal_array hconjunction)

end Groups

end Fragment

/-! ### Conditions, groups and criteria -/

variable (now : Instant)

theorem Bound.equal_resolve {b e : Bound} (h : b.equal e) :
  (b.resolve now).equal (e.resolve now)
  := by
  cases b with
  | literal v =>
      cases e with
      | literal w => exact h
      | daysAgo n => cases h
  | daysAgo m =>
      cases e with
      | literal w => cases h
      | daysAgo n =>
          obtain rfl := eq_of_beq h
          apply Value.equal_self_of_isScalar rfl

namespace Condition

theorem fragments_eq_map (parts : List Condition) :
  fragments now parts = parts.map (fragment now)
  := by
  induction parts with
  | nil => rfl
  | cons c rest ih => rw [fragments, ih, List.map_cons]

theorem forall₂_fragments {parts others : List Condition}
    (h : Forall₂ (fun c d => c.equal d) parts others)
    (hfragment : ∀ c ∈ parts, ∀ d, c.equal d → (c.fragment now).equal (d.fragment now)) :
  Forall₂ (fun f g => f.equal g) (fragments now parts) (fragments now others)
  := by
  rw [fragments_eq_map, fragments_eq_map, List.forall₂_map_left_iff, List.forall₂_map_right_iff]
  exact forall₂_imp_of_mem h hfragment

theorem aligned_fieldFragments {group other : Group}
    (h : Fields.Aligned (fun c d => c.equal d) group other)
    (hfragment : ∀ f ∈ group, ∀ d, f.2.equal d → (f.2.fragment now).equal (d.fragment now)) :
  Fields.Aligned (fun f g => f.equal g) (fieldFragments now group) (fieldFragments now other)
  := by
  rw [fieldFragments_eq_map, fieldFragments_eq_map, Fields.Aligned, List.forall₂_map_left_iff,
    List.forall₂_map_right_iff]
  apply forall₂_imp_of_mem h
  rintro f hf g ⟨hname, hfg⟩
  exact ⟨hname, hfragment f hf g.2 hfg⟩

/-- Equal fragments of the fields make an equal test for an element. -/
theorem equal_elementMatch {group other : Group}
    (h : Fields.Aligned (fun c d => c.equal d) group other)
    (hfragment : ∀ f ∈ group, ∀ d, f.2.equal d → (f.2.fragment now).equal (d.fragment now)) :
  (Value.document (Document.single "$elemMatch"
      (.document (Fragment.group (fieldFragments now group))))).equal
    (.document (Document.single "$elemMatch"
      (.document (Fragment.group (fieldFragments now other)))))
  := by
  apply Value.equal_document_single
  apply Value.equal_document
  apply (Fragment.parallel_group (aligned_fieldFragments now h hfragment)).equal

/-- Equal conditions have equal fragments. -/
theorem equal_fragment {c d : Condition} (h : c.equal d) :
  (c.fragment now).equal (d.fragment now)
  := by
  induction c using induction_within generalizing d with
  | eq v =>
      cases (equal_iff_alike _ _).mp h with
      | eq hvw => exact hvw
  | neq v =>
      cases (equal_iff_alike _ _).mp h with
      | neq hvw => exact Value.equal_document_single "$ne" hvw
  | order comparison b =>
      cases (equal_iff_alike _ _).mp h with
      | order _ hbe =>
          exact Value.equal_document_single comparison.operator (Bound.equal_resolve now hbe)
  | startsWith text =>
      cases (equal_iff_alike _ _).mp h with
      | startsWith _ =>
          have hdistinct : Fields.Distinct [("$regex", Value.string (Pattern.startingWith text)),
              ("$options", .string "i")] := by
            simp [Fields.Distinct, Fields.names]
          exact Value.equal_document (Document.equal_self hdistinct (by simp [Value.equal]))
  | all parts ih =>
      cases (equal_iff_alike _ _).mp h with
      | all hparts =>
          apply (Fragment.and_equal_iff _ _).mpr ⟨_, rfl, forall₂_fragments now hparts _⟩
          exact fun c hc _ => ih c hc
  | any parts ih =>
      cases (equal_iff_alike _ _).mp h with
      | any hparts =>
          apply (Fragment.or_equal_iff _ _).mpr ⟨_, rfl, forall₂_fragments now hparts _⟩
          exact fun c hc _ => ih c hc
  | find group ih =>
      cases (equal_iff_alike _ _).mp h with
      | find hgroup => exact equal_elementMatch now hgroup fun f hf _ => ih f hf
  | nfind group ih =>
      cases (equal_iff_alike _ _).mp h with
      | nfind hgroup =>
          exact Value.equal_document_single "$not"
            (equal_elementMatch now hgroup fun f hf _ => ih f hf)

end Condition

theorem Group.parallel_filter {g h : Group} (heq : g.equal h) :
  Document.Parallel (g.filter now) (h.filter now)
  := by
  apply Fragment.parallel_group
  apply Condition.aligned_fieldFragments now ((equal_iff g h).mp heq)
  intro f _ d
  apply Condition.equal_fragment

theorem Statement.parallel_filter {s t : Statement} (h : Forall₂ (fun g h => g.equal h) s t) :
  Document.Parallel (Statement.filter now s) (Statement.filter now t)
  := by
  have hchoice : Document.Parallel
      (Document.single "$or" (.array (s.map fun g => .document (g.filter now))))
      (Document.single "$or" (.array (t.map fun g => .document (g.filter now)))) := by
    apply Document.parallel_single
    apply Value.equal_array
    rw [List.forall₂_map_left_iff, List.forall₂_map_right_iff]
    apply h.imp
    intro g h heq
    exact Value.equal_document (Group.parallel_filter now heq).equal
  cases h with
  | nil => exact hchoice
  | cons hgroup hrest =>
      cases hrest with
      | nil => exact Group.parallel_filter now hgroup
      | cons _ _ => exact hchoice

namespace Criteria

theorem forall₂_kept {c d : Criteria} (h : c.equal d) :
  Forall₂ (Forall₂ fun g h => Group.equal g h) c.kept d.kept
  := by
  apply List.rel_filter _ ((equal_iff c d).mp h)
  intro s t hst
  simp [isEmpty_eq_of_forall₂ hst]

theorem parallel_filter {c d : Criteria} (h : c.equal d) :
  Document.Parallel (c.filter now) (d.filter now)
  := by
  have hkept := forall₂_kept h
  cases hc : c.kept with
  | nil =>
      rw [hc] at hkept
      have hd := List.forall₂_nil_left_iff.mp hkept
      rw [filter_of_kept_nil now hc, filter_of_kept_nil now hd]
      exact ⟨List.nodup_nil, .nil⟩
  | cons base rest =>
      rw [hc] at hkept
      obtain ⟨base', rest', hbase, hrest, hd⟩ := List.forall₂_cons_left_iff.mp hkept
      rw [filter_of_kept_cons now hc, filter_of_kept_cons now hd, List.map_map, List.map_map]
      apply (Statement.parallel_filter now hbase).conjoin
      rw [List.forall₂_map_left_iff, List.forall₂_map_right_iff]
      apply hrest.imp
      intro s t hst
      exact Value.equal_document (Statement.parallel_filter now hst).equal

end Criteria

/-! ### Find commands -/

/-- Whether two find commands are equal. -/
def FindCommand.equal (a b : FindCommand) : Bool :=
  a.filter.equal b.filter && a.sort.equal b.sort && a.limit == b.limit

theorem FindCommand.equal_toDocument {a b : FindCommand} (h : a.equal b) :
  a.toDocument.equal b.toDocument
  := by
  rw [equal, Bool.and_eq_true, Bool.and_eq_true, beq_iff_eq] at h
  obtain ⟨⟨hfilter, hsort⟩, hlimit⟩ := h
  have hlimit' : (Value.int64 a.limit).equal (.int64 b.limit) := by
    rw [hlimit]
    apply Value.equal_self_of_isScalar rfl
  apply Document.equal_of_aligned
  · simp [toDocument, Fields.Distinct, Fields.names]
  · exact .cons ⟨rfl, Value.equal_document hfilter⟩
      (.cons ⟨rfl, Value.equal_document hsort⟩ (.cons ⟨rfl, hlimit'⟩ .nil))

theorem FilterSpec.equal_find {a b : FilterSpec} (h : a.equal b) :
  (a.find now).equal (b.find now)
  := by
  obtain ⟨hcriteria, hsort, hlimit, -⟩ := (equal_iff a b).mp h
  have hfilter := (Criteria.parallel_filter now hcriteria).equal
  have hsort' : (Document.single b.sort.field (.int32 b.sort.direction.sign)).equal
      (Document.single b.sort.field (.int32 b.sort.direction.sign)) := by
    apply Document.equal_single _ (Value.equal_self_of_isScalar rfl)
  rw [find, find, FindCommand.equal, hfilter, hsort, hlimit, hsort', beq_self_eq_true]
  rfl

end MongoQuery
