import Mathlib.Data.List.Perm.Subperm
import MongoQuery.Proofs.Query.Pointwise

/-!
# Equality of BSON values as a relation

Equality of values is transitive.  It is not reflexive, because of NaN, and it is symmetric
on the values in which every document has every name once.  The order of fields does not
count, so documents are not equal entry by entry; but those that are, and have every name
once, are equal, which is how documents that are built alike are compared.
-/

namespace MongoQuery

open List (Forall₂)

/-! ### Numbers -/

namespace Binary64

theorem equal_iff (x y : Binary64) :
  x.equal y ↔ x.isNaN = false ∧ y.isNaN = false ∧ (x = y ∨ x.isZero ∧ y.isZero)
  := by
  have hbits : x.bits = y.bits ↔ x = y := by
    cases x
    cases y
    simp
  simp [equal, hbits, and_assoc]

theorem equal_symm {x y : Binary64} (h : x.equal y) :
  y.equal x
  := by
  rw [equal_iff] at h ⊢
  obtain ⟨hx, hy, heq | ⟨hzero, hzero'⟩⟩ := h
  · exact ⟨hy, hx, .inl heq.symm⟩
  · exact ⟨hy, hx, .inr ⟨hzero', hzero⟩⟩

theorem equal_trans {x y z : Binary64} (h : x.equal y) (h' : y.equal z) :
  x.equal z
  := by
  rw [equal_iff] at h h' ⊢
  obtain ⟨hx, hy, heq⟩ := h
  obtain ⟨-, hz, heq'⟩ := h'
  refine ⟨hx, hz, ?_⟩
  rcases heq with rfl | ⟨hzero, hzero'⟩
  · exact heq'
  · rcases heq' with rfl | ⟨-, hzero''⟩
    · exact .inr ⟨hzero, hzero'⟩
    · exact .inr ⟨hzero, hzero''⟩

end Binary64

/-! ### Documents -/

namespace Value

theorem equalItems_iff (items others : List Value) :
  equalItems items others ↔ Forall₂ (fun v w => v.equal w) items others
  := by
  induction items generalizing others with
  | nil => cases others <;> simp [equalItems]
  | cons v rest ih => cases others <;> simp [equalItems, ih]

theorem equalFields_iff (d e : Document) :
  equalFields d e ↔ ∀ f ∈ d, ∃ w, e.get? f.1 = some w ∧ f.2.equal w
  := by
  induction d with
  | nil => simp [equalFields]
  | cons f rest ih =>
      obtain ⟨name, v⟩ := f
      rw [equalFields, Bool.and_eq_true, ih, List.forall_mem_cons]
      cases e.get? name with
      | none => simp
      | some w => simp

end Value

namespace Document

theorem equal_iff (d e : Document) :
  d.equal e ↔ d.length = e.length ∧ ∀ f ∈ d, ∃ w, e.get? f.1 = some w ∧ f.2.equal w
  := by
  rw [equal, Bool.and_eq_true, beq_iff_eq, Value.equalFields_iff]

/-- Documents with every name once and equal values entry by entry are equal. -/
theorem equal_of_aligned {d e : Document} (hdistinct : Fields.Distinct d)
    (h : Fields.Aligned (fun v w => v.equal w) d e) :
  d.equal e
  := by
  rw [equal_iff]
  use List.Forall₂.length_eq h
  rintro ⟨name, v⟩ hf
  apply h.exists_get? (Fields.get?_of_mem hdistinct hf)

theorem equal_self {d : Document} (hdistinct : Fields.Distinct d)
    (h : ∀ f ∈ d, f.2.equal f.2) :
  d.equal d
  := by
  apply equal_of_aligned hdistinct
  apply List.forall₂_same.mpr
  intro f hf
  exact ⟨rfl, h f hf⟩

theorem equal_single (name : String) {v w : Value} (h : v.equal w) :
  (single name v).equal (single name w)
  := by
  apply equal_of_aligned
  · apply List.pairwise_singleton
  · exact .cons ⟨rfl, h⟩ .nil

/-- Equality of documents is transitive where that of the values in the first one is. -/
theorem equal_trans_of_mem {d e f : Document} (h : d.equal e) (h' : e.equal f)
    (htrans : ∀ entry ∈ d, ∀ {v w : Value}, entry.2.equal v → v.equal w → entry.2.equal w) :
  d.equal f
  := by
  rw [equal_iff] at h h' ⊢
  use h.1.trans h'.1
  intro entry hentry
  obtain ⟨v, hv, heq⟩ := h.2 entry hentry
  obtain ⟨w, hw, heq'⟩ := h'.2 _ (Fields.mem_of_get? hv)
  use w, hw
  apply htrans entry hentry heq heq'

/-- Equal documents have the same names, in some order. -/
theorem perm_names_of_equal {d e : Document} (hdistinct : Fields.Distinct d) (h : d.equal e) :
  (Fields.names d).Perm (Fields.names e)
  := by
  rw [equal_iff] at h
  have hsubset : Fields.names d ⊆ Fields.names e := by
    intro name hname
    obtain ⟨entry, hentry, rfl⟩ := List.mem_map.mp hname
    obtain ⟨w, hw, -⟩ := h.2 entry hentry
    exact List.mem_map.mpr ⟨_, Fields.mem_of_get? hw, rfl⟩
  apply (List.subperm_of_subset hdistinct hsubset).perm_of_length_le
  rw [Fields.names, Fields.names, List.length_map, List.length_map]
  apply Nat.le_of_eq h.1.symm

/-- Equality of documents is symmetric where that of the values in the first one is. -/
theorem equal_symm_of_mem {d e : Document} (hdistinct : Fields.Distinct d) (h : d.equal e)
    (hsymm : ∀ entry ∈ d, ∀ {v : Value}, entry.2.equal v → v.equal entry.2) :
  e.equal d
  := by
  have hnames := perm_names_of_equal hdistinct h
  have hdistinct' : Fields.Distinct e := hnames.nodup_iff.mp hdistinct
  rw [equal_iff] at h ⊢
  use h.1.symm
  rintro ⟨name, w⟩ hentry
  have hname : name ∈ Fields.names d :=
    hnames.mem_iff.mpr (List.mem_map.mpr ⟨_, hentry, rfl⟩)
  obtain ⟨⟨_, v⟩, hv, rfl⟩ := List.mem_map.mp hname
  obtain ⟨w', hw', heq⟩ := h.2 _ hv
  rw [Fields.get?_of_mem hdistinct' hentry] at hw'
  obtain rfl := Option.some.inj hw'
  exact ⟨v, Fields.get?_of_mem hdistinct hv, hsymm _ hv heq⟩

end Document

/-! ### Values -/

namespace Value

/-- A value is equal to itself alone: it has no values within and is no floating point number. -/
def isScalar : Value → Bool
  | .double _ | .array _ | .document _ | .codeWithScope _ _ => false
  | _ => true

theorem equal_self_of_isScalar {v : Value} (h : v.isScalar) :
  v.equal v
  := by
  cases v <;> simp_all [isScalar, equal]

theorem eq_of_equal {v w : Value} (hv : v.isScalar) (h : v.equal w) :
  w = v
  := by
  rw [equal.eq_def] at h
  split at h
  case h_5 | h_8 | h_9 | h_14 => cases hv
  case h_22 => cases h
  all_goals simp_all only [Bool.and_eq_true, beq_iff_eq]

theorem double_equal_iff (x : Binary64) (w : Value) :
  (double x).equal w ↔ ∃ y, w = .double y ∧ x.equal y
  := by
  cases w <;> simp [equal]

theorem array_equal_iff (items : List Value) (w : Value) :
  (array items).equal w ↔ ∃ others, w = .array others ∧ Forall₂ (fun v w => v.equal w) items others
  := by
  cases w <;> simp [equal, equalItems_iff]

theorem document_equal_iff (d : Document) (w : Value) :
  (document d).equal w ↔ ∃ e : Document, w = .document e ∧ d.equal e
  := by
  cases w <;> simp [equal, Document.equal]

theorem codeWithScope_equal_iff (source : String) (d : Document) (w : Value) :
  (codeWithScope source d).equal w ↔ ∃ e : Document, w = .codeWithScope source e ∧ d.equal e
  := by
  cases w
  case codeWithScope source' e =>
    rw [equal, Bool.and_eq_true, beq_iff_eq]
    constructor
    · rintro ⟨rfl, h⟩
      exact ⟨e, rfl, h⟩
    · rintro ⟨e', heq, h⟩
      cases heq
      exact ⟨rfl, h⟩
  all_goals simp [equal]

/-- To show something of all values, it is shown of those with values within under the
assumption that it holds of these. -/
theorem induction_within {P : Value → Prop} (v : Value) (scalar : ∀ v, v.isScalar → P v)
    (double : ∀ x, P (.double x)) (array : ∀ items, (∀ v ∈ items, P v) → P (.array items))
    (document : ∀ d : Document, (∀ f ∈ d, P f.2) → P (.document d))
    (codeWithScope : ∀ source (d : Document), (∀ f ∈ d, P f.2) → P (.codeWithScope source d)) :
  P v
  := by
  induction hn : sizeOf v using Nat.strongRecOn generalizing v with
  | ind n ih =>
      subst hn
      have hwithin : ∀ d : Document, sizeOf d < sizeOf v → ∀ f ∈ d, P f.2 := by
        rintro d hd ⟨name, w⟩ hf
        have hsize := List.sizeOf_lt_of_mem hf
        rw [Prod.mk.sizeOf_spec] at hsize
        apply ih (sizeOf w) (by omega) w rfl
      cases v
      case double x => apply double
      case array items =>
        apply array
        intro w hw
        have hsize := List.sizeOf_lt_of_mem hw
        apply ih (sizeOf w) (by rw [Value.array.sizeOf_spec]; omega) w rfl
      case document d =>
        apply document
        apply hwithin
        rw [Value.document.sizeOf_spec]
        omega
      case codeWithScope source d =>
        apply codeWithScope
        apply hwithin
        rw [Value.codeWithScope.sizeOf_spec]
        omega
      all_goals
        apply scalar
        rfl

theorem equal_trans {u v w : Value} (h : u.equal v) (h' : v.equal w) :
  u.equal w
  := by
  induction u using induction_within generalizing v w with
  | scalar u hu =>
      rw [eq_of_equal hu h] at h'
      exact h'
  | double x =>
      obtain ⟨y, rfl, hxy⟩ := (double_equal_iff _ _).mp h
      obtain ⟨z, rfl, hyz⟩ := (double_equal_iff _ _).mp h'
      exact (double_equal_iff _ _).mpr ⟨z, rfl, Binary64.equal_trans hxy hyz⟩
  | array items ih =>
      obtain ⟨others, rfl, hxy⟩ := (array_equal_iff _ _).mp h
      obtain ⟨others', rfl, hyz⟩ := (array_equal_iff _ _).mp h'
      refine (array_equal_iff _ _).mpr ⟨others', rfl, forall₂_trans_of_mem hxy hyz ?_⟩
      intro a ha b c
      apply ih a ha
  | document d ih =>
      obtain ⟨e, rfl, hde⟩ := (document_equal_iff _ _).mp h
      obtain ⟨f, rfl, hef⟩ := (document_equal_iff _ _).mp h'
      exact (document_equal_iff _ _).mpr ⟨f, rfl, Document.equal_trans_of_mem hde hef ih⟩
  | codeWithScope source d ih =>
      obtain ⟨e, rfl, hde⟩ := (codeWithScope_equal_iff _ _ _).mp h
      obtain ⟨f, rfl, hef⟩ := (codeWithScope_equal_iff _ _ _).mp h'
      exact (codeWithScope_equal_iff _ _ _).mpr
        ⟨f, rfl, Document.equal_trans_of_mem hde hef ih⟩

/-- Every document in a value, at any depth, has every name once. -/
inductive Distinct : Value → Prop where
  | scalar {v : Value} (h : v.isScalar) : Distinct v
  | double (x : Binary64) : Distinct (.double x)
  | array {items : List Value} (h : ∀ v ∈ items, Distinct v) : Distinct (.array items)
  | document {d : Document} (hnames : Fields.Distinct d) (h : ∀ f ∈ d, Distinct f.2) :
    Distinct (.document d)
  | codeWithScope {source : String} {d : Document} (hnames : Fields.Distinct d)
      (h : ∀ f ∈ d, Distinct f.2) :
    Distinct (.codeWithScope source d)

theorem equal_symm {v w : Value} (hv : v.Distinct) (h : v.equal w) :
  w.equal v
  := by
  induction hv generalizing w with
  | scalar hv =>
      rw [eq_of_equal hv h]
      apply equal_self_of_isScalar hv
  | double x =>
      obtain ⟨y, rfl, hxy⟩ := (double_equal_iff _ _).mp h
      exact (double_equal_iff _ _).mpr ⟨x, rfl, Binary64.equal_symm hxy⟩
  | @array items hitems ih =>
      obtain ⟨others, rfl, hxy⟩ := (array_equal_iff _ _).mp h
      refine (array_equal_iff _ _).mpr ⟨items, rfl, forall₂_symm_of_mem hxy ?_⟩
      intro a ha b
      apply ih a ha
  | @document d hnames hfields ih =>
      obtain ⟨e, rfl, hde⟩ := (document_equal_iff _ _).mp h
      exact (document_equal_iff _ _).mpr ⟨d, rfl, Document.equal_symm_of_mem hnames hde ih⟩
  | @codeWithScope source d hnames hfields ih =>
      obtain ⟨e, rfl, hde⟩ := (codeWithScope_equal_iff _ _ _).mp h
      exact (codeWithScope_equal_iff _ _ _).mpr
        ⟨d, rfl, Document.equal_symm_of_mem hnames hde ih⟩

end Value

end MongoQuery
