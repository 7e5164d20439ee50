import Mathlib.Data.List.Forall2
import Mathlib.Tactic.Use
import MongoQuery.Fields

/-!
# Faults of readings

A reading gives something or fails with a fault.  Items that are read one after the other give
what each of them gives, and fail with the fault of the first item that has one.
-/

namespace MongoQuery

variable {α β ε : Type}

/-- The fault with which a reading fails. -/
def fault? : Except ε α → Option ε
  | .ok _ => none
  | .error e => some e

theorem fault?_eq_some_iff (r : Except ε α) (e : ε) :
  fault? r = some e ↔ r = .error e
  := by
  cases r with
  | ok a => simp [fault?]
  | error e' => simp [fault?]

theorem fault?_eq_none_iff (r : Except ε α) :
  fault? r = none ↔ ∃ a, r = .ok a
  := by
  cases r with
  | ok a => simp [fault?]
  | error e => simp [fault?]

theorem fault?_map (f : α → β) (r : Except ε α) :
  fault? (r.map f) = fault? r
  := by
  cases r <;> rfl

/-- The fault of what follows a reading counts when the reading itself has none. -/
theorem fault?_bind {r : Except ε α} {f : α → Except ε β} {later : Option ε}
    (h : ∀ a, fault? (f a) = later) :
  fault? (r >>= f) = (fault? r).or later
  := by
  cases r with
  | ok a => apply h
  | error e => rfl

theorem map_eq_ok_iff (f : α → β) (r : Except ε α) (b : β) :
  r.map f = .ok b ↔ ∃ a, r = .ok a ∧ f a = b
  := by
  cases r with
  | ok a => simp [Except.map]
  | error e => simp [Except.map]

theorem bind_eq_ok_iff (r : Except ε α) (f : α → Except ε β) (b : β) :
  r >>= f = .ok b ↔ ∃ a, r = .ok a ∧ f a = .ok b
  := by
  cases r with
  | ok a => simp [bind, Except.bind]
  | error e => simp [bind, Except.bind]

/-! ### Items that are read one after the other -/

theorem findSome?_cons_eq_or (f : α → Option β) (x : α) (rest : List α) :
  (x :: rest).findSome? f = (f x).or (rest.findSome? f)
  := by
  rw [List.findSome?_cons]
  cases f x <;> rfl

/-- What is found first in the parts of items is what is found for the first of the items. -/
theorem findSome?_flatMap_of_forall {γ : Type} {f : β → Option γ} {parts : α → List β}
    {found : α → Option γ} {xs : List α} (h : ∀ x ∈ xs, (parts x).findSome? f = found x) :
  (xs.flatMap parts).findSome? f = xs.findSome? found
  := by
  induction xs with
  | nil => rfl
  | cons x rest ih =>
      rw [List.flatMap_cons, List.findSome?_append, h x List.mem_cons_self, findSome?_cons_eq_or,
        ih fun y hy => h y (List.mem_cons_of_mem x hy)]

variable (f : α → Except ε β)

/-- The fault of items is that of the first item that has one. -/
theorem fault?_mapM (xs : List α) :
  fault? (xs.mapM f) = xs.findSome? fun x => fault? (f x)
  := by
  induction xs with
  | nil => rfl
  | cons x rest ih =>
      have hrest : ∀ y, fault? (rest.mapM f >>= fun ys => pure (y :: ys))
          = rest.findSome? fun x => fault? (f x) := by
        intro y
        have hpure : ∀ ys : List β, fault? (pure (y :: ys) : Except ε (List β)) = none := by
          intro ys
          rfl
        rw [fault?_bind hpure, ih, Option.or_none]
      rw [List.mapM_cons, fault?_bind hrest, findSome?_cons_eq_or]

/-- Items give what each of them gives. -/
theorem mapM_eq_ok_iff (xs : List α) (ys : List β) :
  xs.mapM f = .ok ys ↔ List.Forall₂ (fun x y => f x = .ok y) xs ys
  := by
  induction xs generalizing ys with
  | nil =>
      rw [List.mapM_nil, List.forall₂_nil_left_iff]
      constructor
      · intro h
        cases h
        rfl
      · rintro rfl
        rfl
  | cons x rest ih =>
      rw [List.mapM_cons, bind_eq_ok_iff, List.forall₂_cons_left_iff]
      constructor
      · rintro ⟨y, hy, h⟩
        obtain ⟨others, hothers, h⟩ := (bind_eq_ok_iff _ _ _).mp h
        cases h
        use y, others, hy
        constructor
        · apply (ih others).mp hothers
        · rfl
      · rintro ⟨y, others, hy, hothers, rfl⟩
        use y, hy
        rw [(ih others).mpr hothers]
        rfl

/-- The fault of items has an item before which all others give something. -/
theorem mapM_eq_error_iff (xs : List α) (e : ε) :
  xs.mapM f = .error e ↔ ∃ before x after, xs = before ++ x :: after
    ∧ (∀ other ∈ before, ∃ y, f other = .ok y) ∧ f x = .error e
  := by
  rw [← fault?_eq_some_iff, fault?_mapM, List.findSome?_eq_some_iff]
  simp only [fault?_eq_some_iff, fault?_eq_none_iff]
  constructor
  · rintro ⟨before, x, after, hxs, hx, hbefore⟩
    use before, x, after
  · rintro ⟨before, x, after, hxs, hbefore, hx⟩
    use before, x, after

end MongoQuery
