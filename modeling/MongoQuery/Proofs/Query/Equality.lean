import MongoQuery.Proofs.Bson.Equality

/-!
# Equality of queries as a relation

Equality of conditions, groups, criteria, filter specifications, bucket specifications and
requests comes from that of the values in them: it is transitive, and it is symmetric where
the documents among their literals have every name once.
-/

namespace MongoQuery

open List (Forall₂)

/-! ### Conditions -/

namespace Bound

/-- Every document in a bound has every name once. -/
def LiteralsDistinct : Bound → Prop
  | .literal v => v.Distinct
  | .daysAgo _ => True

theorem equal_symm {b e : Bound} (hb : b.LiteralsDistinct) (h : b.equal e) :
  e.equal b
  := by
  cases b <;> cases e <;> simp_all [equal, LiteralsDistinct, Value.equal_symm]

theorem equal_trans {b e f : Bound} (h : b.equal e) (h' : e.equal f) :
  b.equal f
  := by
  cases b <;> cases e <;> cases f <;> simp_all [equal]
  apply Value.equal_trans h h'

end Bound

namespace Condition

theorem equalParts_iff (parts others : List Condition) :
  equalParts parts others ↔ Forall₂ (fun c d => c.equal d) parts others
  := by
  induction parts generalizing others with
  | nil => cases others <;> simp [equalParts]
  | cons c rest ih => cases others <;> simp [equalParts, ih]

theorem equalGroups_iff (g h : Group) :
  equalGroups g h ↔ Fields.Aligned (fun c d => c.equal d) g h
  := by
  rw [Fields.Aligned]
  induction g generalizing h with
  | nil => cases h <;> simp [equalGroups]
  | cons f rest ih => cases h <;> simp [equalGroups, ih]

/-- The ways in which two conditions are equal. -/
inductive Alike : Condition → Condition → Prop where
  | eq {v w : Value} (h : v.equal w) : Alike (.eq v) (.eq w)
  | neq {v w : Value} (h : v.equal w) : Alike (.neq v) (.neq w)
  | order (c : Comparison) {b e : Bound} (h : b.equal e) : Alike (.order c b) (.order c e)
  | startsWith (text : String) : Alike (.startsWith text) (.startsWith text)
  | all {parts others : List Condition} (h : Forall₂ (fun c d => c.equal d) parts others) :
    Alike (.all parts) (.all others)
  | any {parts others : List Condition} (h : Forall₂ (fun c d => c.equal d) parts others) :
    Alike (.any parts) (.any others)
  | find {group other : Group} (h : Fields.Aligned (fun c d => c.equal d) group other) :
    Alike (.find group) (.find other)
  | nfind {group other : Group} (h : Fields.Aligned (fun c d => c.equal d) group other) :
    Alike (.nfind group) (.nfind other)

theorem equal_iff_alike (c d : Condition) :
  c.equal d ↔ Alike c d
  := by
  constructor
  · intro h
    rw [equal.eq_def] at h
    split at h
    · exact .eq h
    · exact .neq h
    · rw [Bool.and_eq_true, beq_iff_eq] at h
      obtain ⟨rfl, h⟩ := h
      exact .order _ h
    · rw [beq_iff_eq] at h
      subst h
      exact .startsWith _
    · exact .all ((equalParts_iff _ _).mp h)
    · exact .any ((equalParts_iff _ _).mp h)
    · exact .find ((equalGroups_iff _ _).mp h)
    · exact .nfind ((equalGroups_iff _ _).mp h)
    · cases h
  · intro h
    cases h with
    | eq h => exact h
    | neq h => exact h
    | order c h => rw [equal, beq_self_eq_true, h, Bool.and_self]
    | startsWith text => rw [equal, beq_self_eq_true]
    | all h => exact (equalParts_iff _ _).mpr h
    | any h => exact (equalParts_iff _ _).mpr h
    | find h => exact (equalGroups_iff _ _).mpr h
    | nfind h => exact (equalGroups_iff _ _).mpr h

/-- To show something of all conditions, it is shown of those with conditions within under
the assumption that it holds of these. -/
theorem induction_within {P : Condition → Prop} (c : Condition) (eq : ∀ v, P (.eq v))
    (neq : ∀ v, P (.neq v)) (order : ∀ comparison bound, P (.order comparison bound))
    (startsWith : ∀ text, P (.startsWith text))
    (all : ∀ parts, (∀ c ∈ parts, P c) → P (.all parts))
    (any : ∀ parts, (∀ c ∈ parts, P c) → P (.any parts))
    (find : ∀ group : Group, (∀ f ∈ group, P f.2) → P (.find group))
    (nfind : ∀ group : Group, (∀ f ∈ group, P f.2) → P (.nfind group)) :
  P c
  := by
  induction hn : sizeOf c using Nat.strongRecOn generalizing c with
  | ind n ih =>
      subst hn
      have hparts : ∀ parts : List Condition, sizeOf parts < sizeOf c → ∀ d ∈ parts, P d := by
        intro parts hparts d hd
        have hsize := List.sizeOf_lt_of_mem hd
        apply ih (sizeOf d) (by omega) d rfl
      have hgroup : ∀ group : Group, sizeOf group < sizeOf c → ∀ f ∈ group, P f.2 := by
        rintro group hgroup ⟨field, d⟩ hf
        have hsize := List.sizeOf_lt_of_mem hf
        rw [Prod.mk.sizeOf_spec] at hsize
        apply ih (sizeOf d) (by omega) d rfl
      cases c with
      | eq v => apply eq
      | neq v => apply neq
      | order comparison bound => apply order
      | startsWith text => apply startsWith
      | all parts => exact all parts (hparts parts (by simp))
      | any parts => exact any parts (hparts parts (by simp))
      | find group => exact find group (hgroup group (by simp))
      | nfind group => exact nfind group (hgroup group (by simp))

theorem equal_trans {c d e : Condition} (h : c.equal d) (h' : d.equal e) :
  c.equal e
  := by
  induction c using induction_within generalizing d e with
  | eq v =>
      cases (equal_iff_alike _ _).mp h with
      | eq hvw =>
          cases (equal_iff_alike _ _).mp h' with
          | eq hwu => exact (equal_iff_alike _ _).mpr (.eq (Value.equal_trans hvw hwu))
  | neq v =>
      cases (equal_iff_alike _ _).mp h with
      | neq hvw =>
          cases (equal_iff_alike _ _).mp h' with
          | neq hwu => exact (equal_iff_alike _ _).mpr (.neq (Value.equal_trans hvw hwu))
  | order comparison b =>
      cases (equal_iff_alike _ _).mp h with
      | order _ hbe =>
          cases (equal_iff_alike _ _).mp h' with
          | order _ hef => exact (equal_iff_alike _ _).mpr (.order _ (Bound.equal_trans hbe hef))
  | startsWith text =>
      cases (equal_iff_alike _ _).mp h with
      | startsWith _ => exact h'
  | all parts ih =>
      cases (equal_iff_alike _ _).mp h with
      | all hparts =>
          cases (equal_iff_alike _ _).mp h' with
          | all hparts' =>
              apply (equal_iff_alike _ _).mpr (.all (forall₂_trans_of_mem hparts hparts' _))
              exact fun c hc _ _ => ih c hc
  | any parts ih =>
      cases (equal_iff_alike _ _).mp h with
      | any hparts =>
          cases (equal_iff_alike _ _).mp h' with
          | any hparts' =>
              apply (equal_iff_alike _ _).mpr (.any (forall₂_trans_of_mem hparts hparts' _))
              exact fun c hc _ _ => ih c hc
  | find group ih =>
      cases (equal_iff_alike _ _).mp h with
      | find hgroup =>
          cases (equal_iff_alike _ _).mp h' with
          | find hgroup' =>
              apply (equal_iff_alike _ _).mpr (.find (hgroup.trans_of_mem hgroup' _))
              exact fun f hf _ _ => ih f hf
  | nfind group ih =>
      cases (equal_iff_alike _ _).mp h with
      | nfind hgroup =>
          cases (equal_iff_alike _ _).mp h' with
          | nfind hgroup' =>
              apply (equal_iff_alike _ _).mpr (.nfind (hgroup.trans_of_mem hgroup' _))
              exact fun f hf _ _ => ih f hf

/-- Every document in a condition, at any depth, has every name once. -/
inductive LiteralsDistinct : Condition → Prop where
  | eq {v : Value} (h : v.Distinct) : LiteralsDistinct (.eq v)
  | neq {v : Value} (h : v.Distinct) : LiteralsDistinct (.neq v)
  | order (c : Comparison) {b : Bound} (h : b.LiteralsDistinct) : LiteralsDistinct (.order c b)
  | startsWith (text : String) : LiteralsDistinct (.startsWith text)
  | all {parts : List Condition} (h : ∀ c ∈ parts, LiteralsDistinct c) :
    LiteralsDistinct (.all parts)
  | any {parts : List Condition} (h : ∀ c ∈ parts, LiteralsDistinct c) :
    LiteralsDistinct (.any parts)
  | find {group : Group} (h : ∀ f ∈ group, LiteralsDistinct f.2) : LiteralsDistinct (.find group)
  | nfind {group : Group} (h : ∀ f ∈ group, LiteralsDistinct f.2) :
    LiteralsDistinct (.nfind group)

theorem equal_symm {c d : Condition} (hc : c.LiteralsDistinct) (h : c.equal d) :
  d.equal c
  := by
  induction hc generalizing d with
  | eq hv =>
      cases (equal_iff_alike _ _).mp h with
      | eq hvw => exact (equal_iff_alike _ _).mpr (.eq (Value.equal_symm hv hvw))
  | neq hv =>
      cases (equal_iff_alike _ _).mp h with
      | neq hvw => exact (equal_iff_alike _ _).mpr (.neq (Value.equal_symm hv hvw))
  | order comparison hb =>
      cases (equal_iff_alike _ _).mp h with
      | order _ hbe => exact (equal_iff_alike _ _).mpr (.order _ (Bound.equal_symm hb hbe))
  | startsWith text =>
      cases (equal_iff_alike _ _).mp h with
      | startsWith _ => exact h
  | all _ ih =>
      cases (equal_iff_alike _ _).mp h with
      | all hparts =>
          apply (equal_iff_alike _ _).mpr (.all (forall₂_symm_of_mem hparts _))
          exact fun c hc _ => ih c hc
  | any _ ih =>
      cases (equal_iff_alike _ _).mp h with
      | any hparts =>
          apply (equal_iff_alike _ _).mpr (.any (forall₂_symm_of_mem hparts _))
          exact fun c hc _ => ih c hc
  | find _ ih =>
      cases (equal_iff_alike _ _).mp h with
      | find hgroup =>
          apply (equal_iff_alike _ _).mpr (.find (hgroup.symm_of_mem _))
          exact fun f hf _ => ih f hf
  | nfind _ ih =>
      cases (equal_iff_alike _ _).mp h with
      | nfind hgroup =>
          apply (equal_iff_alike _ _).mpr (.nfind (hgroup.symm_of_mem _))
          exact fun f hf _ => ih f hf

end Condition

/-! ### Groups and criteria -/

namespace Group

/-- Every document in a group, at any depth, has every name once. -/
def LiteralsDistinct (group : Group) : Prop :=
  ∀ f ∈ group, f.2.LiteralsDistinct

theorem equal_iff (g h : Group) :
  g.equal h ↔ Fields.Aligned (fun c d => c.equal d) g h
  := by
  apply Condition.equalGroups_iff

theorem equal_symm {g h : Group} (hg : g.LiteralsDistinct) (heq : g.equal h) :
  h.equal g
  := by
  rw [equal_iff] at heq ⊢
  exact heq.symm_of_mem fun f hf _ => Condition.equal_symm (hg f hf)

theorem equal_trans {g h k : Group} (heq : g.equal h) (heq' : h.equal k) :
  g.equal k
  := by
  rw [equal_iff] at heq heq' ⊢
  exact heq.trans_of_mem heq' fun _ _ _ _ => Condition.equal_trans

end Group

namespace Criteria

/-- Every document in criteria, at any depth, has every name once. -/
def LiteralsDistinct (criteria : Criteria) : Prop :=
  ∀ statement ∈ criteria.statements, ∀ group ∈ statement, Group.LiteralsDistinct group

theorem equal_iff (c d : Criteria) :
  c.equal d ↔ Forall₂ (Forall₂ fun g h => Group.equal g h) c.statements d.statements
  := by
  rw [equal, equalList_iff]
  simp only [equalList_iff]

theorem equal_symm {c d : Criteria} (hc : c.LiteralsDistinct) (h : c.equal d) :
  d.equal c
  := by
  rw [equal_iff] at h ⊢
  apply forall₂_symm_of_mem h
  intro statement hstatement other heq
  exact forall₂_symm_of_mem heq fun group hgroup _ =>
    Group.equal_symm (hc statement hstatement group hgroup)

theorem equal_trans {c d e : Criteria} (h : c.equal d) (h' : d.equal e) :
  c.equal e
  := by
  rw [equal_iff] at h h' ⊢
  apply forall₂_trans_of_mem h h'
  intro statement _ other another heq heq'
  exact forall₂_trans_of_mem heq heq' fun _ _ _ _ => Group.equal_trans

end Criteria

/-! ### Specifications and requests -/

section Options

variable {α : Type} {R : α → α → Prop} {a b c : Option α}

theorem rel_symm_of_mem (h : Option.Rel R a b) (hsymm : ∀ v ∈ a, ∀ w, R v w → R w v) :
  Option.Rel R b a
  := by
  cases h with
  | none => exact .none
  | some h => exact .some (hsymm _ rfl _ h)

theorem rel_trans_of_mem (h : Option.Rel R a b) (h' : Option.Rel R b c)
    (htrans : ∀ v ∈ a, ∀ w u, R v w → R w u → R v u) :
  Option.Rel R a c
  := by
  cases h with
  | none => exact h'
  | some h =>
      cases h' with
      | some h' => exact .some (htrans _ rfl _ _ h h')

end Options

namespace FilterSpec

/-- Every document in a specification, at any depth, has every name once. -/
structure LiteralsDistinct (spec : FilterSpec) : Prop where
  criteria : spec.criteria.LiteralsDistinct
  cursor : ∀ v ∈ spec.cursor, v.Distinct

theorem equal_iff (a b : FilterSpec) :
  a.equal b ↔ a.criteria.equal b.criteria ∧ a.sort = b.sort ∧ a.limit = b.limit
    ∧ Option.Rel (fun v w => v.equal w) a.cursor b.cursor
  := by
  simp only [equal, Bool.and_eq_true, beq_iff_eq, equalOption_iff, and_assoc]

theorem equal_symm {a b : FilterSpec} (ha : a.LiteralsDistinct) (h : a.equal b) :
  b.equal a
  := by
  rw [equal_iff] at h ⊢
  obtain ⟨hcriteria, hsort, hlimit, hcursor⟩ := h
  exact ⟨Criteria.equal_symm ha.criteria hcriteria, hsort.symm, hlimit.symm,
    rel_symm_of_mem hcursor fun v hv _ => Value.equal_symm (ha.cursor v hv)⟩

theorem equal_trans {a b c : FilterSpec} (h : a.equal b) (h' : b.equal c) :
  a.equal c
  := by
  rw [equal_iff] at h h' ⊢
  obtain ⟨hcriteria, hsort, hlimit, hcursor⟩ := h
  obtain ⟨hcriteria', hsort', hlimit', hcursor'⟩ := h'
  exact ⟨Criteria.equal_trans hcriteria hcriteria', hsort.trans hsort', hlimit.trans hlimit',
    rel_trans_of_mem hcursor hcursor' fun _ _ _ _ => Value.equal_trans⟩

end FilterSpec

namespace Bucketing

theorem equal_symm {x y : Bucketing} (h : x.equal y) :
  y.equal x
  := by
  cases x <;> cases y <;> simp_all [equal, Binary64.equal_symm]

theorem equal_trans {x y z : Bucketing} (h : x.equal y) (h' : y.equal z) :
  x.equal z
  := by
  cases x <;> cases y <;> cases z <;> simp_all [equal]
  apply Binary64.equal_trans h h'

end Bucketing

namespace Level

/-- Every document among the keys that a level selects has every name once. -/
def LiteralsDistinct (level : Level) : Prop :=
  ∀ values ∈ level.values, ∀ v ∈ values, Value.Distinct v

theorem equal_iff (a b : Level) :
  a.equal b ↔ a.fieldId = b.fieldId
    ∧ Option.Rel (Forall₂ fun v w => Value.equal v w) a.values b.values
    ∧ a.subField = b.subField ∧ a.bucketing.equal b.bucketing
  := by
  simp only [equal, Bool.and_eq_true, beq_iff_eq, equalOption_iff, equalList_iff, and_assoc]

theorem equal_symm {a b : Level} (ha : a.LiteralsDistinct) (h : a.equal b) :
  b.equal a
  := by
  rw [equal_iff] at h ⊢
  obtain ⟨hfield, hvalues, hsub, hbucketing⟩ := h
  refine ⟨hfield.symm, rel_symm_of_mem hvalues ?_, hsub.symm, Bucketing.equal_symm hbucketing⟩
  intro values hmem others heq
  exact forall₂_symm_of_mem heq fun v hv _ => Value.equal_symm (ha values hmem v hv)

theorem equal_trans {a b c : Level} (h : a.equal b) (h' : b.equal c) :
  a.equal c
  := by
  rw [equal_iff] at h h' ⊢
  obtain ⟨hfield, hvalues, hsub, hbucketing⟩ := h
  obtain ⟨hfield', hvalues', hsub', hbucketing'⟩ := h'
  refine ⟨hfield.trans hfield', rel_trans_of_mem hvalues hvalues' ?_, hsub.trans hsub',
    Bucketing.equal_trans hbucketing hbucketing'⟩
  intro values _ others another heq heq'
  exact forall₂_trans_of_mem heq heq' fun _ _ _ _ => Value.equal_trans

end Level

namespace BucketSpec

/-- Every document among the keys that a specification selects has every name once. -/
def LiteralsDistinct (spec : BucketSpec) : Prop :=
  ∀ level ∈ spec.levels, level.LiteralsDistinct

theorem equal_iff (a b : BucketSpec) :
  a.equal b ↔ Forall₂ (fun l m => l.equal m) a.levels b.levels
  := by
  apply equalList_iff

theorem equal_symm {a b : BucketSpec} (ha : a.LiteralsDistinct) (h : a.equal b) :
  b.equal a
  := by
  rw [equal_iff] at h ⊢
  exact forall₂_symm_of_mem h fun level hlevel _ => Level.equal_symm (ha level hlevel)

theorem equal_trans {a b c : BucketSpec} (h : a.equal b) (h' : b.equal c) :
  a.equal c
  := by
  rw [equal_iff] at h h' ⊢
  exact forall₂_trans_of_mem h h' fun _ _ _ _ => Level.equal_trans

end BucketSpec

namespace Request

/-- Every document in a request, at any depth, has every name once. -/
def LiteralsDistinct : Request → Prop
  | .filter criteria => criteria.LiteralsDistinct
  | .buckets spec => spec.LiteralsDistinct

theorem equal_symm {q r : Request} (hq : q.LiteralsDistinct) (h : q.equal r) :
  r.equal q
  := by
  cases q with
  | filter c =>
      cases r with
      | filter d => exact Criteria.equal_symm hq h
      | buckets b => cases h
  | buckets a =>
      cases r with
      | filter d => cases h
      | buckets b => exact BucketSpec.equal_symm hq h

theorem equal_trans {q r s : Request} (h : q.equal r) (h' : r.equal s) :
  q.equal s
  := by
  cases q <;> cases r <;> cases s <;> first | cases h | cases h' | skip
  · exact Criteria.equal_trans h h'
  · exact BucketSpec.equal_trans h h'

end Request

end MongoQuery
