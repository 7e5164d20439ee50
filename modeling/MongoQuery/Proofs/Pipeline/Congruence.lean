import Mathlib.Data.List.Nodup
import MongoQuery.Pipeline.Request
import MongoQuery.Proofs.Filter.Congruence
import MongoQuery.Proofs.Pipeline.Layout
import MongoQuery.Proofs.Pipeline.Places

/-!
# Equal queries have equal translations

Equal bucket specifications have equal pipelines.  Their levels differ in the values that
they select and in the sign of a width that is zero, and these go into stages whose other
fields are the same for both.  With the filters of equal queries this makes every translation
respect equality.

Main statement: equal conditions, groups, criteria, specifications and requests have equal
translations at every instant, and equality of each is symmetric and transitive.
-/

namespace MongoQuery

open List (Forall₂)

theorem forall₂_zipIdx {α β : Type} {R : α → β → Prop} {as : List α} {bs : List β}
    (h : Forall₂ R as bs) (first : Nat) :
  Forall₂ (fun l m => R l.1 m.1 ∧ l.2 = m.2) (as.zipIdx first) (bs.zipIdx first)
  := by
  induction h generalizing first with
  | nil => exact .nil
  | cons hhead _ ih =>
      rw [List.zipIdx_cons, List.zipIdx_cons]
      exact .cons ⟨hhead, rfl⟩ (ih (first + 1))

namespace Layout

theorem component_injective :
  Function.Injective component
  := by
  intro i j h
  have hnames : (Place.component i).names = (Place.component j).names := congrArg pathNames h
  rw [Place.names_component, Place.names_component] at hnames
  apply Integer.text_injective
  injection hnames with _ htexts
  injection htexts

theorem component_ne_column (i : Nat) (c : Column) :
  component i ≠ c.name
  := by
  intro h
  have hnames : (Place.component i).names = (Place.column c).names := congrArg pathNames h
  rw [Place.names_component, Place.names_column] at hnames
  injection hnames with _ htexts
  cases htexts

theorem distinct_replacing (depth index : Nat) (v : Value) :
  Fields.Distinct ((component index, v)
    :: ((List.range depth).filter fun j => j ≠ index).map (fun j : Nat => (component j, .int32 1))
    ++ [("id", .int32 1), ("value", .int32 1)])
  := by
  have hindices : (index :: (List.range depth).filter fun j => j ≠ index).Nodup := by
    rw [List.nodup_cons]
    exact ⟨by simp, List.nodup_range.filter _⟩
  have hcomponents := hindices.map component_injective
  have hnames : Fields.names ((component index, v)
      :: ((List.range depth).filter fun j => j ≠ index).map
        (fun j : Nat => (component j, Value.int32 1))
      ++ [("id", .int32 1), ("value", .int32 1)])
        = (index :: (List.range depth).filter fun j => j ≠ index).map component
          ++ [Column.id.name, Column.value.name] := by
    simp [Fields.names, Column.name]
  rw [Fields.Distinct, hnames, List.nodup_append]
  refine ⟨hcomponents, by decide, ?_⟩
  rintro _ hcomponent _ hcolumn rfl
  obtain ⟨j, -, heq⟩ := List.mem_map.mp hcomponent
  rcases List.mem_pair.mp hcolumn with h | h
  · exact component_ne_column j _ (heq.trans h)
  · exact component_ne_column j _ (heq.trans h)

/-- Projections that replace a component by equal values are equal. -/
theorem equal_replacing (depth index : Nat) {v w : Value} (h : v.equal w) :
  (replacing depth index v).equal (replacing depth index w)
  := by
  apply Document.equal_single
  apply Value.equal_document
  apply Document.equal_of_aligned (distinct_replacing depth index v)
  rw [List.cons_append, List.cons_append]
  refine .cons ⟨rfl, h⟩ (List.forall₂_same.mpr ?_)
  intro f hf
  use rfl
  rcases List.mem_append.mp hf with hkept | hkept
  · obtain ⟨j, -, rfl⟩ := List.mem_map.mp hkept
    rfl
  · rcases List.mem_pair.mp hkept with rfl | rfl
    · rfl
    · rfl

theorem equal_self_reference (path : String) :
  (reference path).equal (reference path)
  := by
  apply Value.equal_self_of_isScalar rfl

/-- Selections of values at the same place are equal where the values are. -/
theorem equal_in (path : String) {values others : List Value}
    (h : Forall₂ (fun v w => v.equal w) values others) :
  (Document.single "$match" (.document (Document.single path
      (.document (Document.single "$in" (.array values)))))).equal
    (Document.single "$match" (.document (Document.single path
      (.document (Document.single "$in" (.array others))))))
  := by
  apply Document.equal_single
  apply Value.equal_document_single
  apply Value.equal_document_single
  apply Value.equal_array h

theorem forall₂_selecting (depth index : Nat) (subField : SubField) :
  Forall₂ (fun d e => d.equal e) (selecting depth index subField) (selecting depth index subField)
  := by
  have hids : Forall₂ (fun v w => v.equal w) (subField.ids.map Value.string)
      (subField.ids.map .string) := by
    rw [List.forall₂_map_left_iff, List.forall₂_map_right_iff, List.forall₂_same]
    intro id _
    apply Value.equal_self_of_isScalar rfl
  exact .cons (Document.equal_single _ (equal_self_reference _))
    (.cons (equal_in _ hids) (.cons (equal_replacing depth index (equal_self_reference _)) .nil))

/-- Projections to multiples of equal widths are equal. -/
theorem equal_rounding (depth index : Nat) {x y : Binary64} (h : x.equal y) :
  (rounding depth index x).equal (rounding depth index y)
  := by
  have hwidth : (Value.double x).equal (.double y) := h
  have hquotient := Value.equal_array
    (.cons (equal_self_reference (component index)) (.cons hwidth .nil))
  have hmultiple := Value.equal_array
    (.cons (Value.equal_document_single "$trunc" (Value.equal_document_single "$divide" hquotient))
      (.cons hwidth .nil))
  apply equal_replacing depth index (Value.equal_document_single "$multiply" hmultiple)

theorem equal_self_dating (depth index : Nat) (interval : DateInterval) :
  (dating depth index interval).equal (dating depth index interval)
  := by
  apply equal_replacing
  apply Value.equal_document_single
  apply Value.equal_document
  apply Document.equal_of_aligned
  · simp [Fields.Distinct, Fields.names]
  · exact .cons ⟨rfl, Value.equal_self_of_isScalar rfl⟩
      (.cons ⟨rfl, equal_self_reference _⟩ .nil)

/-- What equal levels do before those within them is equal. -/
theorem forall₂_opening (depth index : Nat) {a b : Level} (h : a.equal b) :
  Forall₂ (fun d e => d.equal e) (opening depth index a) (opening depth index b)
  := by
  obtain ⟨-, -, hsub, hbucketing⟩ := (Level.equal_iff a b).mp h
  unfold opening
  apply List.rel_append
  · rw [hsub]
    cases b.subField with
    | none => exact .nil
    | some subField => apply forall₂_selecting
  · cases ha : a.bucketing <;> cases hb : b.bucketing <;> rw [ha, hb] at hbucketing
    case raw.raw => exact .nil
    case histogram.histogram x y => exact .cons (equal_rounding depth index hbucketing) .nil
    case date.date i j =>
      obtain rfl := eq_of_beq hbucketing
      exact .cons (equal_self_dating depth index i) .nil
    all_goals cases hbucketing

theorem equal_self_grouping (depth index : Nat) :
  (grouping depth index).equal (grouping depth index)
  := by
  have hkey : Document.equal
      ((List.range (index + 1)).map fun j : Nat => (Integer.text j, reference (component j)))
      ((List.range (index + 1)).map fun j : Nat => (Integer.text j, reference (component j))) := by
    apply Document.equal_self
    · rw [Fields.Distinct, Fields.names, List.map_map]
      exact List.nodup_range.map fun _ _ h => Integer.text_injective h
    · intro f hf
      obtain ⟨j, -, rfl⟩ := List.mem_map.mp hf
      apply equal_self_reference
  have hempty : (Value.string "").equal (.string "") := by decide
  have hlabel := Value.equal_document_single "$first" (Value.equal_document_single "$ifNull"
    (Value.equal_array (.cons (equal_self_reference (component index)) (.cons hempty .nil))))
  apply Document.equal_single
  apply Value.equal_document
  apply Document.equal_self
  · split
    · simp [Fields.Distinct, Fields.names]
    · simp [Fields.Distinct, Fields.names]
  · rw [List.forall_mem_append, List.forall_mem_cons, List.forall_mem_cons,
      List.forall_mem_singleton]
    refine ⟨⟨Value.equal_document hkey, hlabel, by decide⟩, ?_⟩
    split
    · rw [List.forall_mem_singleton]
      decide
    · simp

/-- What equal levels do after those within them is equal. -/
theorem forall₂_closing (depth index : Nat) {a b : Level} (h : a.equal b) :
  Forall₂ (fun d e => d.equal e) (closing depth index a) (closing depth index b)
  := by
  obtain ⟨-, hvalues, -, -⟩ := (Level.equal_iff a b).mp h
  unfold closing
  apply List.rel_append
  · cases ha : a.values <;> cases hb : b.values <;> rw [ha, hb] at hvalues
    case none.none => exact .nil
    case some.some values others =>
      obtain ⟨hvalues⟩ := hvalues
      exact .cons (equal_in _ hvalues) .nil
    all_goals cases hvalues
  · refine .cons (equal_self_grouping depth index) ?_
    split
    · exact .cons (by decide) .nil
    · exact .nil

theorem equal_source {levels others : List Level}
    (h : Forall₂ (fun a b => a.equal b) levels others) :
  (source levels).equal (source others)
  := by
  have hkey : Document.equal
      (levels.zipIdx.map fun l => (Integer.text l.2, reference l.1.fieldId))
      (others.zipIdx.map fun l => (Integer.text l.2, reference l.1.fieldId)) := by
    apply Document.equal_of_aligned
    · have hindices : (levels.zipIdx.map Prod.snd).Nodup := by
        rw [List.zipIdx_map_snd]
        exact List.nodup_range'
      have hnames : ((levels.zipIdx.map Prod.snd).map fun i : Nat => Integer.text i).Nodup :=
        hindices.map fun _ _ h => Integer.text_injective h
      rw [List.map_map] at hnames
      rw [Fields.Distinct, Fields.names, List.map_map]
      exact hnames
    · rw [Fields.Aligned, List.forall₂_map_left_iff, List.forall₂_map_right_iff]
      apply (forall₂_zipIdx h 0).imp
      rintro ⟨l, i⟩ ⟨m, j⟩ ⟨hlm, rfl⟩
      have hfield := ((Level.equal_iff l m).mp hlm).1
      rw [hfield]
      exact ⟨rfl, equal_self_reference _⟩
  apply Document.equal_single
  apply Value.equal_document
  apply Document.equal_of_aligned
  · simp [Fields.Distinct, Fields.names]
  · exact .cons ⟨rfl, Value.equal_document hkey⟩ (.cons ⟨rfl, by decide⟩ .nil)

theorem forall₂_flat {a b : BucketSpec} (h : a.equal b) :
  Forall₂ (fun d e => d.equal e) (flat a) (flat b)
  := by
  have hlevels := (BucketSpec.equal_iff a b).mp h
  have hdepth : a.depth = b.depth := hlevels.length_eq
  unfold flat
  rw [hdepth]
  refine .cons (equal_source hlevels) ?_
  apply List.rel_append
  · apply List.rel_append
    · apply List.rel_flatMap (forall₂_zipIdx hlevels 0)
      rintro ⟨l, i⟩ ⟨m, j⟩ ⟨hlm, rfl⟩
      apply forall₂_opening _ _ hlm
    · apply List.rel_flatMap (List.rel_reverse (forall₂_zipIdx hlevels 0))
      rintro ⟨l, i⟩ ⟨m, j⟩ ⟨hlm, rfl⟩
      apply forall₂_closing _ _ hlm
  · exact .cons (by decide) .nil

end Layout

/-! ### Stages -/

theorem BucketSpec.equal_stages {a b : BucketSpec} (h : a.equal b) :
  equalList Document.equal (a.stages.map Stage.toDocument) (b.stages.map Stage.toDocument)
  := by
  rw [equalList_iff, map_toDocument_stages_eq_flat, map_toDocument_stages_eq_flat]
  apply Layout.forall₂_flat h

theorem Request.equal_stages (now : Instant) {q r : Request} (h : q.equal r) :
  equalList Document.equal ((q.stages now).map Stage.toDocument)
    ((r.stages now).map Stage.toDocument)
  := by
  cases q with
  | filter c =>
      cases r with
      | filter d =>
          have hfilter := (Criteria.parallel_filter now h).equal
          apply (equalList_iff _ _ _).mpr
          exact .cons (Document.equal_single _ (Value.equal_document hfilter)) .nil
      | buckets b => cases h
  | buckets a =>
      cases r with
      | filter d => cases h
      | buckets b => exact BucketSpec.equal_stages h

theorem equal_pipeline (now : Instant) {requests others : List Request}
    (h : equalList Request.equal requests others) :
  equalList Document.equal ((pipeline now requests).map Stage.toDocument)
    ((pipeline now others).map Stage.toDocument)
  := by
  rw [equalList_iff] at h ⊢
  rw [pipeline, pipeline, List.map_flatMap, List.map_flatMap]
  apply List.rel_flatMap (List.rel_reverse h)
  intro q r hqr
  apply (equalList_iff _ _ _).mp (Request.equal_stages now hqr)

/-! ### All translations -/

/-- An equality is symmetric where a property holds, and transitive. -/
structure IsSymmetricTransitive {α : Type} (equal : α → α → Bool) (P : α → Prop) : Prop where
  symm : ∀ a b, P a → equal a b → equal b a
  trans : ∀ a b c, equal a b → equal b c → equal a c

/-- Equality of lists has the laws of the equality of their elements. -/
theorem IsSymmetricTransitive.list {α : Type} {equal : α → α → Bool} {P : α → Prop}
    (h : IsSymmetricTransitive equal P) :
  IsSymmetricTransitive (equalList equal) fun as => ∀ a ∈ as, P a
  := by
  constructor
  · intro as bs has heq
    rw [equalList_iff] at heq ⊢
    exact forall₂_symm_of_mem heq fun a ha b => h.symm a b (has a ha)
  · intro as bs cs heq heq'
    rw [equalList_iff] at heq heq' ⊢
    exact forall₂_trans_of_mem heq heq' fun a _ b c => h.trans a b c

/-- Equal conditions, groups, criteria, specifications and stacks of requests have equal
translations at every instant.  Equality of each is transitive, and it is symmetric as documents
have every name once. -/
theorem translations_equal (now : Instant) :
  ((∀ c d : Condition, c.equal d → (c.fragment now).equal (d.fragment now))
    ∧ (∀ g h : Group, g.equal h → (g.filter now).equal (h.filter now))
    ∧ (∀ c d : Criteria, c.equal d → (c.filter now).equal (d.filter now))
    ∧ (∀ a b : FilterSpec, a.equal b → (a.find now).equal (b.find now)
      ∧ (a.find now).toDocument.equal (b.find now).toDocument)
    ∧ (∀ a b : BucketSpec, a.equal b →
      equalList Document.equal (a.stages.map Stage.toDocument) (b.stages.map Stage.toDocument))
    ∧ ∀ requests others : List Request, equalList Request.equal requests others →
      equalList Document.equal ((pipeline now requests).map Stage.toDocument)
        ((pipeline now others).map Stage.toDocument))
  ∧ IsSymmetricTransitive Condition.equal Condition.LiteralsDistinct
  ∧ IsSymmetricTransitive Group.equal Group.LiteralsDistinct
  ∧ IsSymmetricTransitive Criteria.equal Criteria.LiteralsDistinct
  ∧ IsSymmetricTransitive FilterSpec.equal FilterSpec.LiteralsDistinct
  ∧ IsSymmetricTransitive BucketSpec.equal BucketSpec.LiteralsDistinct
  ∧ IsSymmetricTransitive (equalList Request.equal) fun requests =>
    ∀ request ∈ requests, request.LiteralsDistinct
  := by
  refine ⟨⟨?_, ?_, ?_, ?_, ?_, ?_⟩, ⟨?_, ?_⟩, ⟨?_, ?_⟩, ⟨?_, ?_⟩, ⟨?_, ?_⟩, ⟨?_, ?_⟩, ?_⟩
  · exact fun _ _ => Condition.equal_fragment now
  · exact fun _ _ h => (Group.parallel_filter now h).equal
  · exact fun _ _ h => (Criteria.parallel_filter now h).equal
  · intro a b h
    have hfind := FilterSpec.equal_find now h
    exact ⟨hfind, FindCommand.equal_toDocument hfind⟩
  · exact fun _ _ => BucketSpec.equal_stages
  · exact fun _ _ => equal_pipeline now
  · exact fun _ _ => Condition.equal_symm
  · exact fun _ _ _ => Condition.equal_trans
  · exact fun _ _ => Group.equal_symm
  · exact fun _ _ _ => Group.equal_trans
  · exact fun _ _ => Criteria.equal_symm
  · exact fun _ _ _ => Criteria.equal_trans
  · exact fun _ _ => FilterSpec.equal_symm
  · exact fun _ _ _ => FilterSpec.equal_trans
  · exact fun _ _ => BucketSpec.equal_symm
  · exact fun _ _ _ => BucketSpec.equal_trans
  · apply IsSymmetricTransitive.list
    constructor
    · exact fun _ _ => Request.equal_symm
    · exact fun _ _ _ => Request.equal_trans

/-- The condition that an element has a given place. -/
def Condition.place (fields : Document) : Condition :=
  .find [("place", .eq (.document fields))]

/-- A place at the level of the sea. -/
def Document.shore : Document :=
  [("name", .string "Galveston"), ("height", .double Binary64.zero)]

/-- The same place with its fields in another order and the other zero. -/
def Document.coast : Document :=
  [("height", .double Binary64.zero.neg), ("name", .string "Galveston")]

/-- The records with a place, counted by it. -/
def Request.visits (fields : Document) : List Request :=
  [.buckets ⟨⟨"place", some [.document fields], none, .raw⟩, []⟩,
    .filter ⟨[[[("stay", .place fields)]]]⟩]

theorem translations_equal_shore :
  (Condition.place .shore).LiteralsDistinct
    ∧ (Condition.place .shore).equal (.place .coast)
    ∧ ((Condition.place .shore).fragment ⟨0⟩).equal ((Condition.place .coast).fragment ⟨0⟩)
    ∧ (Condition.place .coast).equal (.place .shore)
    ∧ (Condition.place .shore).equal (.place .shore)
    ∧ equalList Request.equal (Request.visits .shore) (Request.visits .coast)
    ∧ equalList Document.equal ((pipeline ⟨0⟩ (Request.visits .shore)).map Stage.toDocument)
      ((pipeline ⟨0⟩ (Request.visits .coast)).map Stage.toDocument)
  := by
  have hdistinct : (Condition.place .shore).LiteralsDistinct := by
    refine .find (List.forall_mem_singleton.mpr (.eq (.document ?_ ?_)))
    · simp [Fields.Distinct, Fields.names, Document.shore]
    · exact List.forall_mem_cons.mpr ⟨.scalar rfl, List.forall_mem_singleton.mpr (.double _)⟩
  have hplace : (Condition.place .shore).equal (.place .coast) := by decide
  have hvisits : equalList Request.equal (Request.visits .shore) (Request.visits .coast) := by
    decide
  obtain ⟨⟨hfragment, -, -, -, -, hpipeline⟩, hcondition, -⟩ := translations_equal ⟨0⟩
  have hplace' := hcondition.symm _ _ hdistinct hplace
  exact ⟨hdistinct, hplace, hfragment _ _ hplace, hplace', hcondition.trans _ _ _ hplace hplace',
    hvisits, hpipeline _ _ hvisits⟩

end MongoQuery
