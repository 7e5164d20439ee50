import MongoQuery.Proofs.Fields.History
import MongoQuery.Proofs.Filter.Constraints

/-!
# The filter of a group, field by field

The filter of a group is assembled in the order of its fields: a value goes under its
field, and what a composite asks for is collected in clauses, which become the
conjunction at the end.

Main statement: of a group that names every field once, no field is written where there is
something already, and what has been written is in the filter, at its place, except where
the conjunction goes.
-/

namespace MongoQuery

/-- A filter that is being assembled. -/
structure Assembly where
  document : Document
  /-- What is collected for the conjunction. -/
  clauses : List Value

namespace Assembly

/-- The assembly before the first field. -/
def empty : Assembly := ⟨[], []⟩

/-- Adds what the fragment of a field asks for. -/
def add (state : Assembly) (field : String) : Fragment → Assembly
  | .direct v => { state with document := Fields.insert state.document field v }
  | .and parts => { state with clauses := state.clauses ++ Fragment.attachAll field parts }
  | .or parts =>
    let choice := Document.single "$or" (.array (Fragment.attachAll field parts))
    { state with clauses := state.clauses ++ [.document choice] }

/-- The filter of an assembly, with a conjunction if there are any clauses. -/
def close (state : Assembly) : Document :=
  if state.clauses.isEmpty then state.document
  else Fields.insert state.document "$and" (.array state.clauses)

/-- The assembly of the fields of a group. -/
def ofGroup (now : Instant) (group : Group) : Assembly :=
  group.foldl (fun state f => state.add f.1 (f.2.fragment now)) empty

/-! ### Single fields -/

variable {state : Assembly} {field : String}

/-- A field that is not there yet changes nothing of what is there. -/
theorem extends_add (h : field ∉ Fields.names state.document) (fragment : Fragment) :
  state.document <+: (state.add field fragment).document
  := by
  cases fragment with
  | direct v =>
      rw [add, Fields.insert_of_not_mem v h]
      apply List.prefix_append
  | and parts => apply List.prefix_refl
  | or parts => apply List.prefix_refl

/-- The conjunction takes no place but its own. -/
theorem getElem?_close (state : Assembly) {entry : String × Value} (h : entry.1 ≠ "$and")
    (i : Nat) :
  state.close[i]? = some entry ↔ state.document[i]? = some entry
  := by
  unfold close
  split
  · rfl
  · apply Fields.getElem?_insert_of_ne _ _ h

/-! ### Groups -/

variable (now : Instant)

theorem ofGroup_append_single (group : Group) (field : String) (c : Condition) :
  ofGroup now (group ++ [(field, c)]) = (ofGroup now group).add field (c.fragment now)
  := by
  rw [ofGroup, List.foldl_append]
  rfl

/-- What is assembled is the map of the values that go directly under fields, and the clauses
of all others. -/
theorem ofGroup_eq (group : Group) :
  ofGroup now group
    = ⟨Fields.ofList (Fragment.directFields (Condition.fieldFragments now group)),
      Fragment.conjunction (Condition.fieldFragments now group)⟩
  := by
  induction group using List.reverseRecOn with
  | nil => rfl
  | append_singleton rest f ih =>
      obtain ⟨field, c⟩ := f
      have hfragments : Condition.fieldFragments now (rest ++ [(field, c)])
          = Condition.fieldFragments now rest ++ [(field, c.fragment now)] := by
        simp only [Condition.fieldFragments_eq_map, List.map_append, List.map_cons, List.map_nil]
      rw [ofGroup_append_single, ih, hfragments, Fragment.directFields, Fragment.directFields,
        Fragment.conjunction, Fragment.conjunction, List.filterMap_append, List.flatMap_append]
      cases c.fragment now with
      | direct v =>
          simp [add, Fragment.direct?, Fragment.clauses, Fields.ofList_append_single]
      | and parts => simp [add, Fragment.direct?, Fragment.clauses]
      | or parts => simp [add, Fragment.direct?, Fragment.clauses]

theorem close_ofGroup (group : Group) :
  (ofGroup now group).close = group.filter now
  := by
  rw [ofGroup_eq, Group.filter, Fragment.group_eq_insert]
  rfl

theorem mem_names_of_mem_ofGroup {group : Group} {name : String}
    (h : name ∈ Fields.names (ofGroup now group).document) :
  name ∈ Fields.names group
  := by
  rw [ofGroup_eq, Fields.names_ofList, List.mem_eraseDups] at h
  have hfragments := (Fragment.names_directFields_sublist _).mem h
  rw [Condition.fieldFragments_eq_map, Fields.names, List.map_map] at hfragments
  apply hfragments

/-- A field that comes after others of different names is not there yet. -/
theorem not_mem_names_ofGroup {before after : Group} {field : String} {c : Condition}
    (h : Fields.Distinct (before ++ (field, c) :: after)) :
  field ∉ Fields.names (ofGroup now before).document
  := by
  intro hmem
  rw [Fields.Distinct, Fields.names, List.map_append, List.nodup_append] at h
  apply h.2.2 field (mem_names_of_mem_ofGroup now hmem) field List.mem_cons_self rfl

/-- What has been assembled stays while further fields are added. -/
theorem extends_ofGroup {before after : Group} (h : Fields.Distinct (before ++ after)) :
  (ofGroup now before).document <+: (ofGroup now (before ++ after)).document
  := by
  induction after generalizing before with
  | nil => rw [List.append_nil]
  | cons f rest ih =>
      obtain ⟨field, c⟩ := f
      have hassoc : before ++ (field, c) :: rest = (before ++ [(field, c)]) ++ rest := by simp
      have hstep := extends_add (not_mem_names_ofGroup now h) (c.fragment now)
      rw [← ofGroup_append_single] at hstep
      rw [hassoc] at h ⊢
      apply hstep.trans (ih h)

end Assembly

/-! ### The main statement -/

namespace Group

/-- The filter of a group is assembled from its fields, and nothing is overwritten on the way,
except where the conjunction goes. -/
structure WrittenOnce (now : Instant) (group : Group) : Prop where
  assembled : (Assembly.ofGroup now group).close = group.filter now
  /-- A field is absent when its turn comes. -/
  fresh : ∀ before field c after, group = before ++ (field, c) :: after →
    field ∉ Fields.names (Assembly.ofGroup now before).document
  /-- What is there at any time is in the filter, at its place. -/
  kept : ∀ before after, group = before ++ after → ∀ (i : Nat) (entry : String × Value),
    entry.1 ≠ "$and" → (Assembly.ofGroup now before).document[i]? = some entry →
      (group.filter now)[i]? = some entry
  /-- The filter has the values that go directly under fields, and no others. -/
  placed : ∀ field v, field ≠ "$and" → ((group.filter now).get? field = some v
    ↔ ∃ f ∈ group, f.1 = field ∧ f.2.fragment now = .direct v)

theorem writtenOnce_of_distinct (now : Instant) {group : Group} (h : Fields.Distinct group) :
  group.WrittenOnce now
  := by
  constructor
  · apply Assembly.close_ofGroup
  · rintro before field c after rfl
    apply Assembly.not_mem_names_ofGroup now h
  · rintro before after rfl i entry hentry hi
    rw [← Assembly.close_ofGroup]
    apply (Assembly.getElem?_close _ hentry i).mpr
    obtain ⟨later, hlater⟩ := Assembly.extends_ofGroup now h
    obtain ⟨hlt, -⟩ := List.getElem?_eq_some_iff.mp hi
    rw [← hlater, List.getElem?_append_left hlt, hi]
  · intro field v hfield
    apply get?_filter_iff now h v (.inl hfield)

end Group

end MongoQuery
