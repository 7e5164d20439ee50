import Mathlib.Data.List.Forall2
import MongoQuery.Proofs.Fields
import MongoQuery.Query.Equality

/-!
# Lists and maps that are related entry by entry

`equalList` and `equalOption` compare element by element, so they are symmetric and
transitive as far as the comparison of the elements is.  Two maps are aligned under a
relation when they have the same names in the same order and related entries; building maps
out of aligned settings gives aligned maps.
-/

namespace MongoQuery

open List (Forall₂)

variable {α β : Type}

/-! ### Lists -/

theorem forall₂_imp_of_mem {R S : α → β → Prop} {as : List α} {bs : List β}
    (h : Forall₂ R as bs) (himp : ∀ a ∈ as, ∀ b, R a b → S a b) :
  Forall₂ S as bs
  := by
  have hboth := (List.forall₂_and_left as bs).mpr ⟨himp, h⟩
  apply hboth.imp
  rintro a b ⟨ha, hab⟩
  apply ha b hab

theorem isEmpty_eq_of_forall₂ {R : α → β → Prop} {as : List α} {bs : List β}
    (h : Forall₂ R as bs) :
  as.isEmpty = bs.isEmpty
  := by
  cases h with
  | nil => rfl
  | cons _ _ => rfl

section Lists

variable {R : α → α → Prop} {as bs cs : List α}

theorem forall₂_symm_of_mem (h : Forall₂ R as bs) (hsymm : ∀ a ∈ as, ∀ b, R a b → R b a) :
  Forall₂ R bs as
  := by
  apply List.Forall₂.flip
  apply forall₂_imp_of_mem h hsymm

theorem forall₂_trans_of_mem (h : Forall₂ R as bs) (h' : Forall₂ R bs cs)
    (htrans : ∀ a ∈ as, ∀ b c, R a b → R b c → R a c) :
  Forall₂ R as cs
  := by
  induction h generalizing cs with
  | nil => exact h'
  | cons hhead htail ih =>
      cases h' with
      | cons hhead' htail' =>
          obtain ⟨hfirst, hrest⟩ := List.forall_mem_cons.mp htrans
          exact .cons (hfirst _ _ hhead hhead') (ih htail' hrest)

end Lists

theorem equalList_iff (equal : α → α → Bool) (as bs : List α) :
  equalList equal as bs ↔ Forall₂ (fun a b => equal a b) as bs
  := by
  induction as generalizing bs with
  | nil => cases bs <;> simp [equalList]
  | cons a as ih => cases bs <;> simp [equalList, ih]

theorem equalOption_iff (equal : α → α → Bool) (a b : Option α) :
  equalOption equal a b ↔ Option.Rel (fun a b => equal a b) a b
  := by
  cases a <;> cases b <;> simp [equalOption]

/-! ### Maps -/

namespace Fields

/-- Two maps have the same names in the same order, with related entries. -/
def Aligned (R : α → β → Prop) : Fields α → Fields β → Prop :=
  Forall₂ fun f g => f.1 = g.1 ∧ R f.2 g.2

variable {R : α → β → Prop} {d : Fields α} {e : Fields β}

theorem Aligned.names_eq (h : Aligned R d e) :
  names d = names e
  := by
  induction h with
  | nil => rfl
  | cons hentry hrest ih =>
      unfold names at ih ⊢
      rw [List.map_cons, List.map_cons, hentry.1, ih]

/-- What the one has at a name is related to what the other has there. -/
theorem Aligned.exists_get? (h : Aligned R d e) {name : String} {a : α}
    (hget : get? d name = some a) :
  ∃ b, get? e name = some b ∧ R a b
  := by
  induction h with
  | nil => cases hget
  | @cons f g rest others hentry hrest ih =>
      rw [get?] at hget ⊢
      rw [← hentry.1]
      by_cases hname : f.1 = name
      · rw [if_pos hname] at hget ⊢
        obtain rfl := Option.some.inj hget
        exact ⟨g.2, rfl, hentry.2⟩
      · rw [if_neg hname] at hget ⊢
        apply ih hget

theorem Aligned.get?_eq_none (h : Aligned R d e) {name : String} (hget : get? d name = none) :
  get? e name = none
  := by
  rw [get?_eq_none_iff, ← h.names_eq, ← get?_eq_none_iff]
  apply hget

theorem Aligned.insert (h : Aligned R d e) (name : String) {a : α} {b : β} (hab : R a b) :
  Aligned R (insert d name a) (insert e name b)
  := by
  induction h with
  | nil => exact .cons ⟨rfl, hab⟩ .nil
  | @cons f g rest others hentry hrest ih =>
      rw [Fields.insert, Fields.insert, ← hentry.1]
      by_cases hname : f.1 = name
      · rw [if_pos hname, if_pos hname]
        exact .cons ⟨rfl, hab⟩ hrest
      · rw [if_neg hname, if_neg hname]
        exact .cons ⟨rfl, hentry.2⟩ ih

theorem Aligned.symm_of_mem {R : α → α → Prop} {d e : Fields α} (h : Aligned R d e)
    (hsymm : ∀ f ∈ d, ∀ b, R f.2 b → R b f.2) :
  Aligned R e d
  := by
  apply forall₂_symm_of_mem h
  rintro f hf g ⟨hname, hentry⟩
  exact ⟨hname.symm, hsymm f hf g.2 hentry⟩

theorem Aligned.trans_of_mem {R : α → α → Prop} {d e f : Fields α} (h : Aligned R d e)
    (h' : Aligned R e f) (htrans : ∀ f ∈ d, ∀ b c, R f.2 b → R b c → R f.2 c) :
  Aligned R d f
  := by
  apply forall₂_trans_of_mem h h'
  rintro f hf g k ⟨hname, hentry⟩ ⟨hname', hentry'⟩
  exact ⟨hname.trans hname', htrans f hf g.2 k.2 hentry hentry'⟩

/-- Aligned settings build aligned maps. -/
theorem Aligned.ofList (h : Aligned R d e) :
  Aligned R (ofList d) (ofList e)
  := by
  apply List.rel_foldl (P := Aligned R) _ .nil h
  rintro fields fields' hfields ⟨name, a⟩ ⟨name', b⟩ ⟨hname, hab⟩
  cases hname
  apply hfields.insert name hab

end Fields

end MongoQuery
