import Mathlib.Data.List.Basic
import Mathlib.Tactic.Use

/-!
# Grouping by keys

Items are put together one after the other: an item goes to the first group whose key is
like its own, and begins a new group where there is none.  When likeness is symmetric and
transitive, keys within a group are alike and keys of different groups are not.
-/

namespace MongoQuery

variable {α β κ : Type}

/-- Items put together under a key. -/
structure Bunch (κ α : Type) where
  key : κ
  items : List α

namespace Bunch

/-- Puts an item to the first bunch whose key is like its own, or begins one. -/
def add (like : κ → κ → Bool) (key : κ) (item : α) : List (Bunch κ α) → List (Bunch κ α)
  | [] => [⟨key, [item]⟩]
  | bunch :: rest =>
    if like bunch.key key then ⟨bunch.key, bunch.items ++ [item]⟩ :: rest
    else bunch :: add like key item rest

/-- The bunches of items by their keys. -/
def ofItems (like : κ → κ → Bool) (key : α → κ) (items : List α) : List (Bunch κ α) :=
  items.foldl (fun bunches item => add like (key item) item bunches) []

/-! ### Images of items -/

/-- The bunch of the images of the items. -/
def map (f : α → β) (bunch : Bunch κ α) : Bunch κ β :=
  ⟨bunch.key, bunch.items.map f⟩

theorem add_map (like : κ → κ → Bool) (key : κ) (f : α → β) (item : α)
    (bunches : List (Bunch κ α)) :
  add like key (f item) (bunches.map (map f)) = (add like key item bunches).map (map f)
  := by
  induction bunches with
  | nil => rfl
  | cons bunch rest ih =>
      have hkey : (map f bunch).key = bunch.key := rfl
      rw [List.map_cons, add, add, hkey]
      by_cases h : like bunch.key key
      · rw [if_pos h, if_pos h]
        simp [map]
      · rw [if_neg h, if_neg h, ih]
        rfl

/-- Images are put together as the items are by the keys of their images. -/
theorem ofItems_map (like : κ → κ → Bool) (key : β → κ) (f : α → β) (items : List α) :
  ofItems like key (items.map f) = (ofItems like (key ∘ f) items).map (map f)
  := by
  suffices hfold : ∀ bunches : List (Bunch κ α),
      (items.map f).foldl (fun bunches item => add like (key item) item bunches)
          (bunches.map (map f))
        = (items.foldl (fun bunches item => add like ((key ∘ f) item) item bunches) bunches).map
            (map f) by
    apply hfold []
  induction items with
  | nil =>
      intro bunches
      rfl
  | cons item rest ih =>
      intro bunches
      rw [List.map_cons, List.foldl_cons, List.foldl_cons, add_map]
      apply ih

/-! ### What a grouping gives -/

/-- Bunches hold given items: every bunch is begun by an item of its key, later items of it
have a key like that, and no key of a bunch is like the key of an item of a later bunch. -/
structure Hold (like : κ → κ → Bool) (key : α → κ) (items : List α)
    (bunches : List (Bunch κ α)) : Prop where
  perm : (bunches.flatMap Bunch.items).Perm items
  begun : ∀ bunch ∈ bunches, ∃ first rest, bunch.items = first :: rest ∧ bunch.key = key first
    ∧ ∀ a ∈ rest, like bunch.key (key a)
  later : bunches.Pairwise fun bunch bunch' => ∀ a ∈ bunch'.items, ¬ like bunch.key (key a)

variable {like : κ → κ → Bool} {key : α → κ}

theorem mem_add {k : κ} {item : α} {bunches : List (Bunch κ α)} {bunch : Bunch κ α}
    (h : bunch ∈ add like k item bunches) :
  bunch ∈ bunches ∨ bunch = ⟨k, [item]⟩
    ∨ ∃ old ∈ bunches, like old.key k ∧ bunch = ⟨old.key, old.items ++ [item]⟩
  := by
  induction bunches with
  | nil =>
      right
      left
      apply List.mem_singleton.mp h
  | cons first rest ih =>
      rw [add] at h
      split at h
      · next hlike =>
          rcases List.mem_cons.mp h with rfl | hrest
          · right
            right
            use first, List.mem_cons_self, hlike
          · left
            apply List.mem_cons_of_mem _ hrest
      · rcases List.mem_cons.mp h with rfl | hrest
        · left
          apply List.mem_cons_self
        · rcases ih hrest with hold | hnew | ⟨old, hmem, hlike, hbunch⟩
          · left
            apply List.mem_cons_of_mem _ hold
          · right
            left
            apply hnew
          · right
            right
            use old, List.mem_cons_of_mem _ hmem, hlike, hbunch

theorem flatMap_add (k : κ) (item : α) (bunches : List (Bunch κ α)) :
  ((add like k item bunches).flatMap Bunch.items).Perm (bunches.flatMap Bunch.items ++ [item])
  := by
  induction bunches with
  | nil => apply List.Perm.refl
  | cons first rest ih =>
      rw [add]
      split
      · rw [List.flatMap_cons, List.flatMap_cons, List.append_assoc, List.append_assoc]
        apply List.Perm.append_left
        apply List.perm_append_comm
      · rw [List.flatMap_cons, List.flatMap_cons, List.append_assoc]
        apply List.Perm.append_left _ ih

theorem later_add {item : α} {bunches : List (Bunch κ α)}
    (h : bunches.Pairwise fun bunch bunch' => ∀ a ∈ bunch'.items, ¬ like bunch.key (key a)) :
  (add like (key item) item bunches).Pairwise fun bunch bunch' =>
    ∀ a ∈ bunch'.items, ¬ like bunch.key (key a)
  := by
  induction bunches with
  | nil => apply List.pairwise_singleton
  | cons first rest ih =>
      obtain ⟨hfirst, hrest⟩ := List.pairwise_cons.mp h
      rw [add]
      split
      · apply List.pairwise_cons.mpr
        use hfirst
      · next hunlike =>
          apply List.pairwise_cons.mpr
          constructor
          · intro bunch hmem a ha
            rcases mem_add hmem with hold | rfl | ⟨old, hold, -, rfl⟩
            · apply hfirst bunch hold a ha
            · obtain rfl := List.mem_singleton.mp ha
              apply hunlike
            · rcases List.mem_append.mp ha with ha | ha
              · apply hfirst old hold a ha
              · obtain rfl := List.mem_singleton.mp ha
                apply hunlike
          · apply ih hrest

theorem Hold.add {items : List α} {bunches : List (Bunch κ α)} (h : Hold like key items bunches)
    (item : α) :
  Hold like key (items ++ [item]) (Bunch.add like (key item) item bunches)
  := by
  constructor
  · apply (flatMap_add (key item) item bunches).trans
    apply h.perm.append_right
  · intro bunch hmem
    rcases mem_add hmem with hold | rfl | ⟨old, hold, hlike, rfl⟩
    · apply h.begun bunch hold
    · use item, [], rfl, rfl
      intro a ha
      cases ha
    · obtain ⟨first, rest, hitems, hkey, hrest⟩ := h.begun old hold
      use first, rest ++ [item]
      constructor
      · rw [hitems]
        rfl
      · use hkey
        intro a ha
        rcases List.mem_append.mp ha with ha | ha
        · apply hrest a ha
        · obtain rfl := List.mem_singleton.mp ha
          apply hlike
  · apply later_add h.later

/-- The bunches of items hold these items. -/
theorem hold_ofItems (like : κ → κ → Bool) (key : α → κ) (items : List α) :
  Hold like key items (ofItems like key items)
  := by
  suffices hfold : ∀ (seen : List α) (bunches : List (Bunch κ α)), Hold like key seen bunches →
      Hold like key (seen ++ items)
        (items.foldl (fun bunches item => Bunch.add like (key item) item bunches) bunches) by
    apply hfold [] []
    constructor
    · apply List.Perm.refl
    · intro bunch hmem
      cases hmem
    · apply List.Pairwise.nil
  induction items with
  | nil =>
      intro seen bunches h
      rw [List.append_nil]
      apply h
  | cons item rest ih =>
      intro seen bunches h
      rw [List.foldl_cons, List.append_cons]
      apply ih _ _ (h.add item)

/-- What holds between any two of the items holds between those of a bunch. -/
theorem Hold.pairwise_items {items : List α} {bunches : List (Bunch κ α)}
    (h : Hold like key items bunches) {R : α → α → Prop} (hsymm : ∀ {a a'}, R a a' → R a' a)
    (hitems : items.Pairwise R) {bunch : Bunch κ α} (hmem : bunch ∈ bunches) :
  bunch.items.Pairwise R
  := by
  have hall := (h.perm.pairwise_iff hsymm).mpr hitems
  apply (List.pairwise_flatMap.mp hall).1 bunch hmem

/-! ### Partial equivalences -/

section PartialEquivalence

variable {items : List α} {bunches : List (Bunch κ α)}
variable (hsymm : ∀ k k', like k k' → like k' k)
variable (htrans : ∀ k k' k'', like k k' → like k' k'' → like k k'')

include hsymm htrans in
/-- The keys of different items of a bunch are alike. -/
theorem Hold.within (h : Hold like key items bunches) {bunch : Bunch κ α}
    (hmem : bunch ∈ bunches) :
  bunch.items.Pairwise fun a a' => like (key a) (key a')
  := by
  obtain ⟨first, rest, hitems, hkey, hrest⟩ := h.begun bunch hmem
  rw [hitems, List.pairwise_cons]
  rw [hkey] at hrest
  use hrest
  apply List.pairwise_of_forall_mem_list
  intro a ha a' ha'
  apply htrans _ _ _ (hsymm _ _ (hrest a ha)) (hrest a' ha')

include htrans in
/-- The keys of items of different bunches are not alike. -/
theorem Hold.apart (h : Hold like key items bunches) :
  bunches.Pairwise fun bunch bunch' =>
    ∀ a ∈ bunch.items, ∀ a' ∈ bunch'.items, ¬ like (key a) (key a')
  := by
  apply h.later.imp_of_mem
  intro bunch bunch' hmem _ hlater a ha a' ha' hlike
  apply hlater a' ha'
  obtain ⟨first, rest, hitems, hkey, hrest⟩ := h.begun bunch hmem
  rw [hitems] at ha
  rcases List.mem_cons.mp ha with rfl | ha
  · rw [hkey]
    apply hlike
  · apply htrans _ _ _ (hrest a ha) hlike

end PartialEquivalence

end Bunch

end MongoQuery
