import Mathlib.Data.List.Basic
import Mathlib.Data.List.Induction
import Mathlib.Tactic.Use
import MongoQuery.Fields

/-!
# Maps with ordered fields

An insertion puts an absent name at the end and replaces the first entry of a present one,
so a list of settings of different names is the map that it builds.  `ofSet` is the map of
the fields that are set among optional ones.
-/

namespace MongoQuery.Fields

variable {α : Type}

theorem get?_eq_none_iff (fields : Fields α) (name : String) :
  get? fields name = none ↔ name ∉ names fields
  := by
  induction fields with
  | nil => simp [get?, names]
  | cons entry rest ih =>
    obtain ⟨first, old⟩ := entry
    by_cases hfirst : first = name
    · simp [get?, names, hfirst]
    · simp only [get?, hfirst, if_false, ih, names, List.map_cons, List.mem_cons, not_or]
      constructor
      · intro h
        use Ne.symm hfirst
      · rintro ⟨-, h⟩
        apply h

/-- Where no name occurs twice, every entry is the one at its name. -/
theorem get?_of_mem {fields : Fields α} (h : Distinct fields) {name : String} {value : α}
    (hmem : (name, value) ∈ fields) :
  get? fields name = some value
  := by
  induction fields with
  | nil => cases hmem
  | cons entry rest ih =>
    obtain ⟨first, old⟩ := entry
    obtain ⟨hfirst, hrest⟩ := List.nodup_cons.mp h
    rcases List.mem_cons.mp hmem with heq | hmem'
    · obtain ⟨rfl, rfl⟩ := Prod.mk.inj heq
      rw [get?, if_pos rfl]
    · have hne : first ≠ name := by
        rintro rfl
        apply hfirst (List.mem_map.mpr ⟨(first, value), hmem', rfl⟩)
      rw [get?, if_neg hne, ih hrest hmem']

theorem mem_of_get? {fields : Fields α} {name : String} {value : α}
    (h : get? fields name = some value) :
  (name, value) ∈ fields
  := by
  induction fields with
  | nil => cases h
  | cons entry rest ih =>
    obtain ⟨first, old⟩ := entry
    by_cases hfirst : first = name
    · rw [get?, if_pos hfirst] at h
      rw [hfirst, Option.some.inj h]
      apply List.mem_cons_self
    · rw [get?, if_neg hfirst] at h
      apply List.mem_cons_of_mem _ (ih h)

/-- An entry is smaller than the fields that it is in. -/
theorem sizeOf_lt_of_get? [SizeOf α] {fields : Fields α} {name : String} {value : α}
    (h : get? fields name = some value) :
  sizeOf value < sizeOf fields
  := by
  have hentry := List.sizeOf_lt_of_mem (mem_of_get? h)
  rw [Prod.mk.sizeOf_spec] at hentry
  omega

/-- An entry of another name between others changes nothing. -/
theorem get?_append_cons_of_ne {before after : Fields α} {name other : String} (value : α)
    (h : name ≠ other) :
  get? (before ++ (name, value) :: after) other = get? (before ++ after) other
  := by
  induction before with
  | nil => rw [List.nil_append, List.nil_append, get?, if_neg h]
  | cons entry rest ih =>
    rw [List.cons_append, List.cons_append, get?, get?, ih]

/-- An entry of a name that is not before it is the one at its name. -/
theorem get?_append_cons_self {before : Fields α} {name : String} (value : α)
    (after : Fields α) (h : name ∉ names before) :
  get? (before ++ (name, value) :: after) name = some value
  := by
  induction before with
  | nil => rw [List.nil_append, get?, if_pos rfl]
  | cons entry rest ih =>
    simp only [names, List.map_cons, List.mem_cons, not_or] at h
    rw [List.cons_append, get?, if_neg (Ne.symm h.1), ih h.2]

/-- Where no name occurs twice, the order of the entries does not matter. -/
theorem get?_of_perm {fields fields' : Fields α} (h : Distinct fields)
    (hperm : fields.Perm fields') (name : String) :
  get? fields name = get? fields' name
  := by
  have hnames : (names fields).Perm (names fields') := hperm.map Prod.fst
  cases hget : get? fields name with
  | none =>
      rw [get?_eq_none_iff, hnames.mem_iff, ← get?_eq_none_iff] at hget
      rw [hget]
  | some value =>
      have h' : Distinct fields' := hnames.nodup_iff.mp h
      rw [get?_of_mem h' (hperm.mem_iff.mp (mem_of_get? hget))]

/-- An absent name goes to the end. -/
theorem insert_of_not_mem {fields : Fields α} {name : String} (value : α)
    (h : name ∉ names fields) :
  insert fields name value = fields ++ [(name, value)]
  := by
  induction fields with
  | nil => rfl
  | cons entry rest ih =>
    obtain ⟨first, old⟩ := entry
    simp only [names, List.map_cons, List.mem_cons, not_or] at h
    rw [insert, if_neg (Ne.symm h.1), ih h.2]
    rfl

/-- The first entry at a present name is replaced and all others stay. -/
theorem exists_insert_of_get? {fields : Fields α} {name : String} {old : α} (value : α)
    (h : get? fields name = some old) :
  ∃ before after, fields = before ++ (name, old) :: after ∧
    insert fields name value = before ++ (name, value) :: after
  := by
  induction fields with
  | nil => cases h
  | cons entry rest ih =>
    obtain ⟨first, first'⟩ := entry
    by_cases hfirst : first = name
    · subst hfirst
      rw [get?, if_pos rfl] at h
      obtain rfl := Option.some.inj h
      use [], rest
      simp [insert]
    · rw [get?, if_neg hfirst] at h
      obtain ⟨before, after, hfields, hinsert⟩ := ih h
      use (first, first') :: before, after
      rw [insert, if_neg hfirst, hinsert, hfields]
      constructor
      · rfl
      · rfl

/-- Setting what is there changes nothing. -/
theorem insert_of_get? {fields : Fields α} {name : String} {value : α}
    (h : get? fields name = some value) :
  insert fields name value = fields
  := by
  obtain ⟨before, after, hfields, hinsert⟩ := exists_insert_of_get? value h
  rw [hinsert, hfields]

/-- An insertion replaces what was inserted at the same name before. -/
theorem insert_insert (fields : Fields α) (name : String) (value value' : α) :
  insert (insert fields name value) name value' = insert fields name value'
  := by
  induction fields with
  | nil => simp [insert]
  | cons entry rest ih =>
    obtain ⟨first, old⟩ := entry
    by_cases hfirst : first = name
    · simp [insert, hfirst]
    · simp [insert, hfirst, ih]

/-- The entry at a name is the first one of that name. -/
theorem exists_append_of_get? {fields : Fields α} {name : String} {value : α}
    (h : get? fields name = some value) :
  ∃ before after, fields = before ++ (name, value) :: after ∧ name ∉ names before
  := by
  induction fields with
  | nil => cases h
  | cons entry rest ih =>
    obtain ⟨first, old⟩ := entry
    by_cases hfirst : first = name
    · rw [get?, if_pos hfirst] at h
      obtain rfl := Option.some.inj h
      use [], rest
      simp [hfirst, names]
    · rw [get?, if_neg hfirst] at h
      obtain ⟨before, after, hrest, hname⟩ := ih h
      use (first, old) :: before, after
      rw [hrest]
      simp_all [names, Ne.symm hfirst]

/-- An insertion at a name replaces the first entry of that name. -/
theorem insert_append_cons {before : Fields α} {name : String} (old value : α)
    (after : Fields α) (h : name ∉ names before) :
  insert (before ++ (name, old) :: after) name value = before ++ (name, value) :: after
  := by
  induction before with
  | nil => simp [insert]
  | cons entry rest ih =>
    simp only [names, List.map_cons, List.mem_cons, not_or] at h
    rw [List.cons_append, insert, if_neg (Ne.symm h.1), ih h.2, List.cons_append]

/-- Settings of different names build the map of the settings themselves. -/
theorem ofList_of_distinct {entries : List (String × α)} (h : Distinct entries) :
  ofList entries = entries
  := by
  suffices hfold : ∀ fields : Fields α, Distinct (fields ++ entries) →
      entries.foldl (fun fields entry => insert fields entry.1 entry.2) fields
        = fields ++ entries by
    apply hfold [] h
  clear h
  induction entries with
  | nil => simp
  | cons entry rest ih =>
    intro fields h
    have hname : entry.1 ∉ names fields := by
      unfold Distinct names at h
      rw [List.map_append, List.nodup_append] at h
      intro hmem
      apply h.2.2 _ hmem entry.1 (List.mem_cons_self) rfl
    have hassoc : fields ++ entry :: rest = (fields ++ [entry]) ++ rest := by simp
    rw [List.foldl_cons, insert_of_not_mem _ hname, hassoc]
    apply ih
    rw [← hassoc]
    apply h

/-! ### Settings one after the other -/

theorem ofList_append_single (settings : List (String × α)) (name : String) (value : α) :
  ofList (settings ++ [(name, value)]) = insert (ofList settings) name value
  := by
  rw [ofList, List.foldl_append]
  rfl

/-- The map that settings build has their names in the order of first mention. -/
theorem names_ofList (settings : List (String × α)) :
  names (ofList settings) = (names settings).eraseDups
  := by
  induction settings using List.reverseRecOn with
  | nil => rfl
  | append_singleton rest s ih =>
    obtain ⟨name, value⟩ := s
    have hnames : names (rest ++ [(name, value)]) = names rest ++ [name] := by simp [names]
    rw [ofList_append_single, hnames, List.eraseDups_append, ← ih]
    by_cases hmem : name ∈ names rest
    · have hpresent : name ∈ names (ofList rest) := by
        rw [ih, List.mem_eraseDups]
        apply hmem
      rw [names_insert_of_mem _ hpresent]
      simp [List.removeAll, hmem]
    · have habsent : name ∉ names (ofList rest) := by
        rw [ih, List.mem_eraseDups]
        apply hmem
      rw [names_insert_of_not_mem _ habsent]
      simp [List.removeAll, hmem, List.eraseDups_cons]

/-- The map that settings build has at a name what is set last. -/
theorem get?_ofList (settings : List (String × α)) (name : String) :
  get? (ofList settings) name = get? settings.reverse name
  := by
  induction settings using List.reverseRecOn with
  | nil => rfl
  | append_singleton rest s ih =>
    obtain ⟨last, value⟩ := s
    rw [ofList_append_single, List.reverse_append, List.reverse_singleton, List.singleton_append,
      get?]
    by_cases hlast : last = name
    · rw [if_pos hlast, hlast, get?_insert_self]
    · rw [if_neg hlast, get?_insert_of_ne _ _ (Ne.symm hlast), ih]

theorem distinct_ofList (settings : List (String × α)) :
  Distinct (ofList settings)
  := by
  induction settings using List.reverseRecOn with
  | nil => apply List.nodup_nil
  | append_singleton rest s ih =>
    rw [ofList_append_single]
    apply ih.insert

/-- A map is its names with what is at them. -/
theorem filterMap_names {fields : Fields α} (h : Distinct fields) :
  (names fields).filterMap (fun name => (get? fields name).map fun value => (name, value)) = fields
  := by
  rw [names, List.filterMap_map]
  have hentry : ∀ entry ∈ fields,
      ((fun name => (get? fields name).map fun value => (name, value)) ∘ Prod.fst) entry
        = some entry := by
    intro entry hmem
    rw [Function.comp_apply, get?_of_mem h hmem]
    rfl
  rw [List.filterMap_congr hentry, List.filterMap_some]

/-- The map that settings build is their names in the order of first mention, each with what it
is set to last. -/
theorem ofList_eq_filterMap (settings : List (String × α)) :
  ofList settings = (names settings).eraseDups.filterMap fun name =>
    (get? settings.reverse name).map fun value => (name, value)
  := by
  rw [← filterMap_names (distinct_ofList settings), names_ofList]
  simp only [get?_ofList]

/-! ### Fields that are set -/

/-- The map of the fields that are set. -/
def ofSet (entries : List (String × Option α)) : Fields α :=
  entries.filterMap fun entry => entry.2.map fun value => (entry.1, value)

theorem get?_ofSet_nil (name : String) :
  get? (ofSet ([] : List (String × Option α))) name = none
  := by
  rfl

theorem get?_ofSet_cons (name : String) (value : Option α) (rest : List (String × Option α))
    (other : String) :
  get? (ofSet ((name, value) :: rest)) other
    = if name = other then value.or (get? (ofSet rest) other) else get? (ofSet rest) other
  := by
  cases value with
  | none =>
      change get? (ofSet rest) other = _
      rw [Option.none_or, ite_self]
  | some v =>
      change (if name = other then some v else get? (ofSet rest) other) = _
      rw [Option.some_or]

end MongoQuery.Fields
