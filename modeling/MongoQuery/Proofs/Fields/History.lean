import Mathlib.Data.Finset.Card
import Mathlib.Data.List.Sort
import MongoQuery.Proofs.Fields

/-!
# What settings leave in a map

A history of settings leaves one map: every name that was set has one place in it, the
names stand in the order in which they were set first, and each has what it was set to
last.  A setting moves and changes no other entry.

Main statements: `records_iff`, these laws hold of the map that the settings build and of
no other; and `getElem?_insert_of_ne`, what a single setting leaves alone.
-/

namespace MongoQuery.Fields

variable {α : Type}

/-! ### Order of first mention -/

/-- Among names that are mentioned, the first mention of one is before that of another. -/
def FirstBefore (mentioned : List String) (name other : String) : Prop :=
  mentioned.idxOf name < mentioned.idxOf other

instance (mentioned : List String) : Std.Irrefl (FirstBefore mentioned) :=
  ⟨fun name => Nat.lt_irrefl (mentioned.idxOf name)⟩

instance (mentioned : List String) : Std.Antisymm (FirstBefore mentioned) :=
  ⟨fun _ _ hlt hgt => absurd hgt (Nat.lt_asymm hlt)⟩

/-- Later mentions do not change the order of what has been mentioned. -/
theorem FirstBefore.append {mentioned : List String} {name other : String}
    (h : FirstBefore mentioned name other) (hname : name ∈ mentioned) (hother : other ∈ mentioned)
    (more : List String) :
  FirstBefore (mentioned ++ more) name other
  := by
  rw [FirstBefore, List.idxOf_append_of_mem hname, List.idxOf_append_of_mem hother]
  apply h

/-- What is mentioned for the first time comes after all that has been mentioned. -/
theorem firstBefore_append_single {mentioned : List String} {name other : String}
    (hname : name ∈ mentioned) (hother : other ∉ mentioned) :
  FirstBefore (mentioned ++ [other]) name other
  := by
  have hlt := List.idxOf_lt_length_of_mem hname
  rw [FirstBefore, List.idxOf_append_of_mem hname, List.idxOf_append_of_notMem hother]
  omega

theorem pairwise_firstBefore_eraseDups (mentioned : List String) :
  mentioned.eraseDups.Pairwise (FirstBefore mentioned)
  := by
  induction mentioned using List.reverseRecOn with
  | nil => apply List.Pairwise.nil
  | append_singleton rest last ih =>
      have hrest : rest.eraseDups.Pairwise (FirstBefore (rest ++ [last])) := by
        apply List.Pairwise.imp_of_mem _ ih
        intro name other hname hother h
        apply h.append (List.mem_eraseDups.mp hname) (List.mem_eraseDups.mp hother)
      rw [List.eraseDups_append]
      by_cases hmem : last ∈ rest
      · simpa [List.removeAll, hmem] using hrest
      · have hlast : ([last].removeAll rest).eraseDups = [last] := by
          simp [List.removeAll, hmem, List.eraseDups_cons]
        rw [hlast, List.pairwise_append]
        use hrest, List.pairwise_singleton _ last
        intro name hname other hother
        obtain rfl := List.mem_singleton.mp hother
        apply firstBefore_append_single (List.mem_eraseDups.mp hname) hmem

/-! ### Histories -/

/-- The last one of the settings that are of a name sets it to a value. -/
def LastSet (settings : List (String × α)) (name : String) (value : α) : Prop :=
  ∃ before after, settings = before ++ (name, value) :: after ∧ name ∉ names after

theorem get?_ofList_eq_some_iff (settings : List (String × α)) (name : String) (value : α) :
  get? (ofList settings) name = some value ↔ LastSet settings name value
  := by
  rw [get?_ofList]
  constructor
  · intro h
    obtain ⟨before, after, hreverse, hname⟩ := exists_append_of_get? h
    use after.reverse, before.reverse
    constructor
    · rw [← List.reverse_reverse settings, hreverse]
      simp
    · simpa [names] using hname
  · rintro ⟨before, after, rfl, hname⟩
    rw [List.reverse_append, List.reverse_cons, List.append_assoc, List.singleton_append]
    apply get?_append_cons_self
    simpa [names] using hname

/-- The entries of a map are those that a history of settings leaves. -/
structure Records (settings : List (String × α)) (fields : Fields α) : Prop where
  distinct : Distinct fields
  mem_names_iff : ∀ name, name ∈ names fields ↔ name ∈ names settings
  /-- The names stand in the order of their first settings. -/
  ordered : (names fields).Pairwise (FirstBefore (names settings))
  get?_eq_some_iff : ∀ name value, get? fields name = some value ↔ LastSet settings name value
  get?_eq_none_iff : ∀ name, get? fields name = none ↔ name ∉ names settings
  length_eq : fields.length = (names settings).toFinset.card

theorem length_eq_card {fields : Fields α} (h : Distinct fields) :
  fields.length = (names fields).toFinset.card
  := by
  rw [List.toFinset_card_of_nodup h, names, List.length_map]

theorem records_ofList (settings : List (String × α)) :
  Records settings (ofList settings)
  := by
  have hmem : ∀ name, name ∈ names (ofList settings) ↔ name ∈ names settings := by
    intro name
    rw [names_ofList, List.mem_eraseDups]
  constructor
  · apply distinct_ofList
  · apply hmem
  · rw [names_ofList]
    apply pairwise_firstBefore_eraseDups
  · apply get?_ofList_eq_some_iff
  · intro name
    rw [get?_eq_none_iff, hmem]
  · have hnames : (names (ofList settings)).toFinset = (names settings).toFinset := by
      ext name
      rw [List.mem_toFinset, List.mem_toFinset, hmem]
    rw [length_eq_card (distinct_ofList settings), hnames]

/-- A history leaves no two maps. -/
theorem Records.unique {settings : List (String × α)} {fields fields' : Fields α}
    (h : Records settings fields) (h' : Records settings fields') :
  fields = fields'
  := by
  have hnames : names fields = names fields' := by
    apply h.ordered.eq_of_mem_iff h'.ordered
    intro name
    rw [h.mem_names_iff, h'.mem_names_iff]
  have hget : get? fields = get? fields' := by
    funext name
    apply Option.ext
    intro value
    rw [h.get?_eq_some_iff, h'.get?_eq_some_iff]
  rw [← filterMap_names h.distinct, hnames, hget, filterMap_names h'.distinct]

/-- What a history leaves is the map that its settings build. -/
theorem records_iff (settings : List (String × α)) (fields : Fields α) :
  Records settings fields ↔ fields = ofList settings
  := by
  constructor
  · intro h
    apply h.unique (records_ofList settings)
  · rintro rfl
    apply records_ofList

/-- A name that is set twice keeps its first place. -/
example : ofList [("a", 1), ("b", 2), ("a", 3)] = [("a", 3), ("b", 2)] := by
  decide

/-! ### Single settings -/

/-- A setting neither moves nor changes an entry of another name. -/
theorem getElem?_insert_of_ne (fields : Fields α) {name : String} (value : α)
    {entry : String × α} (h : entry.1 ≠ name) (i : Nat) :
  (insert fields name value)[i]? = some entry ↔ fields[i]? = some entry
  := by
  have hentry : ∀ v, (name, v) ≠ entry := by
    rintro v rfl
    apply h rfl
  induction fields generalizing i with
  | nil =>
      cases i with
      | zero => simp [insert, hentry]
      | succ i => rfl
  | cons first rest ih =>
      obtain ⟨other, old⟩ := first
      by_cases hother : other = name
      · rw [insert, if_pos hother, hother]
        cases i with
        | zero => simp [hentry]
        | succ i => rfl
      · rw [insert, if_neg hother]
        cases i with
        | zero => rfl
        | succ i => apply ih

end MongoQuery.Fields
