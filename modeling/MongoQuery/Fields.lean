/-!
# Fields

`Fields α` is a finite map from names to elements of `α` which remembers the order in
which the names were first given.  It is kept as the list of its entries; a map built
by `insert` from the empty one has every name once.  Documents and query groups are
such maps.
-/

namespace MongoQuery

/-- Named entries in the order of their names' first insertion. -/
abbrev Fields (α : Type) := List (String × α)

namespace Fields

variable {α β : Type}

/-- The entry at a name. -/
def get? : Fields α → String → Option α
  | [], _ => none
  | (other, value) :: rest, name => if other = name then some value else get? rest name

/-- The names, in order. -/
def names (fields : Fields α) : List String :=
  fields.map Prod.fst

/-- Sets the entry at a name: in place where the name is present, else at the end. -/
def insert : Fields α → String → α → Fields α
  | [], name, value => [(name, value)]
  | (other, old) :: rest, name, value =>
    if other = name then (other, value) :: rest
    else (other, old) :: insert rest name value

/-- The map that a list of settings builds, later settings of a name replacing earlier ones. -/
def ofList (entries : List (String × α)) : Fields α :=
  entries.foldl (fun fields entry => insert fields entry.1 entry.2) []

/-- No name occurs twice. -/
def Distinct (fields : Fields α) : Prop :=
  (names fields).Nodup

/-! ### Reading back an insertion -/

@[simp]
theorem get?_insert_self (fields : Fields α) (name : String) (value : α) :
  get? (insert fields name value) name = some value
  := by
  fun_induction insert fields name value <;> simp_all [get?]

theorem get?_insert_of_ne (fields : Fields α) {name other : String} (value : α)
    (h : other ≠ name) :
  get? (insert fields name value) other = get? fields other
  := by
  induction fields with
  | nil => simp [insert, get?, h.symm]
  | cons entry rest ih =>
    obtain ⟨first, old⟩ := entry
    by_cases hfirst : first = name
    · subst hfirst
      simp [insert, get?, h.symm]
    · simp [insert, get?, hfirst, ih]

/-! ### Names after an insertion -/

theorem names_insert_of_mem {fields : Fields α} {name : String} (value : α)
    (h : name ∈ names fields) :
  names (insert fields name value) = names fields
  := by
  induction fields with
  | nil => simp [names] at h
  | cons entry rest ih =>
    obtain ⟨first, old⟩ := entry
    by_cases hfirst : first = name
    · simp [insert, names, hfirst]
    · have hrest : name ∈ names rest := by
        simpa [names, Ne.symm hfirst] using h
      have := ih hrest
      simp_all [insert, names]

theorem names_insert_of_not_mem {fields : Fields α} {name : String} (value : α)
    (h : name ∉ names fields) :
  names (insert fields name value) = names fields ++ [name]
  := by
  induction fields with
  | nil => rfl
  | cons entry rest ih =>
    obtain ⟨first, old⟩ := entry
    have hfirst : first ≠ name := by
      intro heq
      simp [names, heq] at h
    have hrest : name ∉ names rest := by
      intro hmem
      exact h (List.mem_cons_of_mem _ hmem)
    have := ih hrest
    simp_all [insert, names]

theorem Distinct.insert {fields : Fields α} (h : Distinct fields) (name : String) (value : α) :
  Distinct (Fields.insert fields name value)
  := by
  unfold Distinct
  by_cases hmem : name ∈ names fields
  · rw [names_insert_of_mem value hmem]
    exact h
  · rw [names_insert_of_not_mem value hmem, List.nodup_append]
    refine ⟨h, by simp, ?_⟩
    intro a ha b hb hab
    simp at hb
    exact hmem (hb ▸ hab ▸ ha)

end Fields

end MongoQuery
