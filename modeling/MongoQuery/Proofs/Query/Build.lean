import MongoQuery.Proofs.Query.Page

/-!
# Specifications built by calls

A specification is built by calls, one after the other: a call gives a field of the last group
of the last statement a condition, begins a group or a statement after those that are there, or
sets the order or the limit.  Cut where statements begin, and within these where groups begin,
the calls spell the criteria.

Main statement: the calls on the initial specification build the criteria that they spell, and
on any other they change nothing but its last group, and add after it.
-/

namespace MongoQuery

/-! ### Lists that go on -/

/-- A list goes on from another: it has the elements before the last one of that, then one that
comes of the last, and any others after it. -/
def ContinuedBy {α : Type} (R : α → α → Prop) (xs ys : List α) : Prop :=
  ∀ before a, xs = before ++ [a] → ∃ a' after, ys = before ++ a' :: after ∧ R a a'

namespace ContinuedBy

variable {α : Type} {R : α → α → Prop} {xs ys zs : List α}

theorem refl (hrefl : ∀ a, R a a) (xs : List α) :
  ContinuedBy R xs xs
  := by
  intro before a hxs
  use a, [], hxs, hrefl a

theorem append (hrefl : ∀ a, R a a) (xs ys : List α) :
  ContinuedBy R xs (xs ++ ys)
  := by
  rintro before a rfl
  use a, ys
  simp [hrefl a]

theorem trans (htrans : ∀ a a' a'', R a a' → R a' a'' → R a a'')
    (hxy : ContinuedBy R xs ys) (hyz : ContinuedBy R ys zs) :
  ContinuedBy R xs zs
  := by
  intro before a hxs
  obtain ⟨a', after, hys, ha⟩ := hxy before a hxs
  -- Either the element that came of the last one is the last one still, or there are later ones.
  obtain rfl | ⟨after, b, rfl⟩ := List.eq_nil_or_concat' after
  · obtain ⟨a'', later, hzs, ha'⟩ := hyz before a' hys
    use a'', later, hzs, htrans a a' a'' ha ha'
  · have hlast : ys = (before ++ a' :: after) ++ [b] := by
      rw [hys]
      simp
    obtain ⟨b', later, hzs, -⟩ := hyz _ b hlast
    use a', after ++ b' :: later
    rw [hzs]
    simp [ha]

/-- An update of the last element goes on, where the update comes of what was there. -/
theorem updateLast {f : α → α} (hf : ∀ a, R a (f a)) (first : α) (xs : List α) :
  ContinuedBy R xs (MongoQuery.updateLast f first xs)
  := by
  rintro before a rfl
  use f a, []
  rw [updateLast_append_single]
  use rfl, hf a

end ContinuedBy

/-! ### Calls -/

namespace FilterSpec

/-- A call that builds a specification. -/
inductive Call where
  /-- Gives a field of the current group a condition. -/
  | constrain (field : String) (condition : Condition)
  | beginGroup
  | beginStatement
  | sortBy (field : String) (direction : Direction)
  | limitTo (limit : UInt64)

namespace Call

/-- The specification after a call. -/
def apply (spec : FilterSpec) : Call → FilterSpec
  | constrain field condition => spec.constrain field condition
  | beginGroup => spec.beginGroup
  | beginStatement => spec.beginStatement
  | sortBy field direction => spec.sortBy field direction
  | limitTo limit => spec.limitTo limit

/-- Whether a call begins a group. -/
def beginsGroup : Call → Bool
  | beginGroup => true
  | _ => false

/-- Whether a call begins a statement. -/
def beginsStatement : Call → Bool
  | beginStatement => true
  | _ => false

/-- The field that a call gives a condition, and the condition. -/
def setting? : Call → Option (String × Condition)
  | constrain field condition => some (field, condition)
  | _ => none

/-- The sort key that a call sets. -/
def sortKey? : Call → Option SortKey
  | sortBy field direction => some ⟨field, direction⟩
  | _ => none

/-- The limit that a call sets. -/
def limit? : Call → Option UInt64
  | limitTo limit => some limit
  | _ => none

end Call

/-- The specification after calls, one after the other. -/
def build (spec : FilterSpec) (calls : List Call) : FilterSpec :=
  calls.foldl Call.apply spec

end FilterSpec

open FilterSpec

/-! ### What calls spell -/

/-- The group that calls spell: the fields to which they give conditions, in the order of first
mention, each with the last condition given to it. -/
def Group.spelledBy (calls : List Call) : Group :=
  let settings := calls.filterMap Call.setting?
  (Fields.names settings).eraseDups.filterMap fun field =>
    (Fields.get? settings.reverse field).map fun condition => (field, condition)

/-- The statement that calls spell: they are cut where groups begin. -/
def Statement.spelledBy (calls : List Call) : Statement :=
  (calls.splitOnP Call.beginsGroup).map Group.spelledBy

/-- The criteria that calls spell: they are cut where statements begin. -/
def Criteria.spelledBy (calls : List Call) : Criteria :=
  ⟨(calls.splitOnP Call.beginsStatement).map Statement.spelledBy⟩

namespace Group

/-- The fields of a group stand in their order at the beginning of another group. -/
def Opens (group group' : Group) : Prop :=
  Fields.names group <+: Fields.names group'

theorem Opens.refl (group : Group) :
  Opens group group
  := by
  apply List.prefix_refl

theorem Opens.trans (group group' group'' : Group) (h : Opens group group')
    (h' : Opens group' group'') :
  Opens group group''
  := by
  apply List.IsPrefix.trans h h'

theorem opens_insert (group : Group) (field : String) (condition : Condition) :
  Opens group (Fields.insert group field condition)
  := by
  rw [Opens]
  by_cases hmem : field ∈ Fields.names group
  · simp only [Fields.names_insert_of_mem _ hmem, List.prefix_refl]
  · rw [Fields.names_insert_of_not_mem _ hmem]
    apply List.prefix_append

/-- A group with conditions given to fields, one after the other. -/
def constrainAll (group : Group) (calls : List Call) : Group :=
  (calls.filterMap Call.setting?).foldl (fun g s => Fields.insert g s.1 s.2) group

theorem constrainAll_nil (calls : List Call) :
  constrainAll [] calls = spelledBy calls
  := by
  apply Fields.ofList_eq_filterMap

theorem constrainAll_cons (group : Group) (call : Call) (rest : List Call) :
  group.constrainAll (call :: rest) = (group.constrainAll [call]).constrainAll rest
  := by
  cases call with
  | _ => rfl

end Group

namespace FilterSpec

/-! ### Single calls -/

variable {spec : FilterSpec} {before : List Statement} {groups : Statement} {group : Group}

/-- A call that begins nothing gives the last group its condition, if it has one. -/
theorem statements_apply_of_not_begins (h : spec.criteria.statements = before ++ [groups ++ [group]])
    {call : Call} (hgroup : call.beginsGroup = false) (hstatement : call.beginsStatement = false) :
  (call.apply spec).criteria.statements = before ++ [groups ++ [group.constrainAll [call]]]
  := by
  cases call with
  | constrain field condition =>
      rw [Call.apply, constrain, Criteria.constrain, h, updateLast_append_single,
        updateLast_append_single]
      rfl
  | beginGroup => cases hgroup
  | beginStatement => cases hstatement
  | sortBy field direction => apply h
  | limitTo limit => apply h

theorem statements_apply_of_beginsGroup
    (h : spec.criteria.statements = before ++ [groups ++ [group]])
    {call : Call} (hgroup : call.beginsGroup = true) :
  (call.apply spec).criteria.statements = before ++ [(groups ++ [group]) ++ [[]]]
  := by
  cases call with
  | beginGroup => rw [Call.apply, beginGroup, Criteria.beginGroup, h, updateLast_append_single]
  | _ => cases hgroup

theorem statements_apply_of_beginsStatement (spec : FilterSpec) {call : Call}
    (hstatement : call.beginsStatement = true) :
  (call.apply spec).criteria.statements = spec.criteria.statements ++ [[] ++ [[]]]
  := by
  cases call with
  | beginStatement => rfl
  | _ => cases hstatement

/-- A call changes no statement but the last and no group of it but its last one, whose fields
stay where they are. -/
theorem continuedBy_apply (spec : FilterSpec) (call : Call) :
  ContinuedBy (ContinuedBy Group.Opens) spec.criteria.statements
    (call.apply spec).criteria.statements
  := by
  have hrefl := ContinuedBy.refl Group.Opens.refl
  cases call with
  | constrain field condition =>
      apply ContinuedBy.updateLast
      intro statement
      apply ContinuedBy.updateLast
      intro group
      apply Group.opens_insert
  | beginGroup =>
      apply ContinuedBy.updateLast
      intro statement
      apply ContinuedBy.append Group.Opens.refl
  | beginStatement => apply ContinuedBy.append hrefl
  | sortBy field direction => apply ContinuedBy.refl hrefl
  | limitTo limit => apply ContinuedBy.refl hrefl

theorem sort_apply (spec : FilterSpec) (call : Call) :
  (call.apply spec).sort = call.sortKey?.getD spec.sort
  := by
  cases call with
  | _ => rfl

theorem limit_apply (spec : FilterSpec) (call : Call) :
  (call.apply spec).limit = call.limit?.getD spec.limit
  := by
  cases call with
  | _ => rfl

theorem cursor_apply (spec : FilterSpec) (call : Call) :
  (call.apply spec).cursor = spec.cursor
  := by
  cases call with
  | _ => rfl

/-! ### Runs of calls -/

theorem build_cons (spec : FilterSpec) (call : Call) (rest : List Call) :
  spec.build (call :: rest) = (call.apply spec).build rest
  := by
  rfl

theorem continuedBy_build (spec : FilterSpec) (calls : List Call) :
  ContinuedBy (ContinuedBy Group.Opens) spec.criteria.statements
    (spec.build calls).criteria.statements
  := by
  induction calls generalizing spec with
  | nil =>
      apply ContinuedBy.refl
      apply ContinuedBy.refl Group.Opens.refl
  | cons call rest ih =>
      apply ContinuedBy.trans _ (continuedBy_apply spec call) (ih (call.apply spec))
      intro statement statement' statement''
      apply ContinuedBy.trans Group.Opens.trans

/-- Calls give conditions to the fields of the last group until another one begins, and spell
the groups and the statements after it. -/
theorem statements_build {calls part run : List Call} {parts runs : List (List Call)}
    (h : spec.criteria.statements = before ++ [groups ++ [group]])
    (hparts : calls.splitOnP Call.beginsStatement = part :: parts)
    (hruns : part.splitOnP Call.beginsGroup = run :: runs) :
  (spec.build calls).criteria.statements
    = before ++ (groups ++ group.constrainAll run :: runs.map Group.spelledBy)
      :: parts.map Statement.spelledBy
  := by
  -- What is complete grows: a group that begins puts the last one among the complete groups, and
  -- a statement that begins puts the last one among the complete statements.
  induction calls generalizing spec before groups group part run parts runs with
  | nil =>
      obtain ⟨rfl, rfl⟩ := List.cons.inj hparts
      obtain ⟨rfl, rfl⟩ := List.cons.inj hruns
      apply h
  | cons call rest ih =>
      obtain ⟨part', parts', hparts'⟩ :=
        List.exists_cons_of_ne_nil (List.splitOnP_ne_nil Call.beginsStatement rest)
      obtain ⟨run', runs', hruns'⟩ :=
        List.exists_cons_of_ne_nil (List.splitOnP_ne_nil Call.beginsGroup part')
      rw [List.splitOnP_cons_eq_if_modifyHead, hparts'] at hparts
      rw [build_cons]
      cases hstatement : call.beginsStatement with
      | true =>
          rw [if_pos hstatement] at hparts
          obtain ⟨rfl, rfl⟩ := List.cons.inj hparts
          obtain ⟨rfl, rfl⟩ := List.cons.inj hruns
          have hnext := statements_apply_of_beginsStatement spec hstatement
          rw [h] at hnext
          rw [ih hnext hparts' hruns', Group.constrainAll_nil, List.map_cons,
            Statement.spelledBy, hruns']
          simp [Group.constrainAll]
      | false =>
          rw [if_neg (by simp [hstatement]), List.modifyHead_cons] at hparts
          obtain ⟨rfl, rfl⟩ := List.cons.inj hparts
          rw [List.splitOnP_cons_eq_if_modifyHead, hruns'] at hruns
          cases hgroup : call.beginsGroup with
          | true =>
              rw [if_pos hgroup] at hruns
              obtain ⟨rfl, rfl⟩ := List.cons.inj hruns
              rw [ih (statements_apply_of_beginsGroup h hgroup) hparts' hruns',
                Group.constrainAll_nil]
              simp [Group.constrainAll]
          | false =>
              rw [if_neg (by simp [hgroup]), List.modifyHead_cons] at hruns
              obtain ⟨rfl, rfl⟩ := List.cons.inj hruns
              rw [ih (statements_apply_of_not_begins h hgroup hstatement) hparts' hruns',
                ← Group.constrainAll_cons]

/-- What calls leave where each call leaves what it sets, or else what there was, is what is set
last. -/
theorem build_eq_getD {α : Type} {get : FilterSpec → α} {set? : Call → Option α}
    (happly : ∀ (spec : FilterSpec) (call : Call),
      get (call.apply spec) = (set? call).getD (get spec))
    (spec : FilterSpec) (calls : List Call) :
  get (spec.build calls) = (calls.reverse.findSome? set?).getD (get spec)
  := by
  induction calls generalizing spec with
  | nil => rfl
  | cons call rest ih =>
      rw [build_cons, ih, happly, List.reverse_cons, List.findSome?_append]
      cases rest.reverse.findSome? set? with
      | none => simp
      | some a => rfl

theorem cursor_build (spec : FilterSpec) (calls : List Call) :
  (spec.build calls).cursor = spec.cursor
  := by
  induction calls generalizing spec with
  | nil => rfl
  | cons call rest ih =>
      rw [build_cons, ih, cursor_apply]

/-! ### The main statement -/

/-- Calls on the initial specification build the criteria that they spell, with at least one
statement and at least one group in each, the order and the limit that are set last, and no
cursor.  On any specification calls change no statement but the last and no group of it but its
last one, whose fields stay where they are, and add statements and groups only after these. -/
theorem build_spells (calls : List Call) :
  (initial.build calls).criteria = Criteria.spelledBy calls
    ∧ (initial.build calls).criteria.statements ≠ []
    ∧ [] ∉ (initial.build calls).criteria.statements
    ∧ (initial.build calls).sort = (calls.reverse.findSome? Call.sortKey?).getD ⟨"id", .asc⟩
    ∧ (initial.build calls).limit = (calls.reverse.findSome? Call.limit?).getD 50
    ∧ (initial.build calls).cursor = none
    ∧ ∀ spec : FilterSpec, ContinuedBy (ContinuedBy Group.Opens) spec.criteria.statements
      (spec.build calls).criteria.statements
  := by
  have hcriteria : (initial.build calls).criteria = Criteria.spelledBy calls := by
    obtain ⟨part, parts, hparts⟩ :=
      List.exists_cons_of_ne_nil (List.splitOnP_ne_nil Call.beginsStatement calls)
    obtain ⟨run, runs, hruns⟩ :=
      List.exists_cons_of_ne_nil (List.splitOnP_ne_nil Call.beginsGroup part)
    have hinitial : initial.criteria.statements = [] ++ [[] ++ [[]]] := rfl
    have hbuild := statements_build hinitial hparts hruns
    rw [Group.constrainAll_nil] at hbuild
    rw [Criteria.spelledBy, hparts, List.map_cons, Statement.spelledBy, hruns]
    apply congrArg Criteria.mk hbuild
  use hcriteria
  rw [hcriteria]
  constructor
  · simp [Criteria.spelledBy]
  constructor
  · simp [Criteria.spelledBy, Statement.spelledBy]
  constructor
  · apply build_eq_getD sort_apply
  constructor
  · apply build_eq_getD limit_apply
  constructor
  · apply cursor_build
  · intro spec
    apply continuedBy_build

/-- A field keeps its place when it is given another condition, and a statement that is begun last
has a group without fields. -/
example :
  (Criteria.spelledBy [.constrain "a" .isNull, .beginGroup, .constrain "b" .isNull, .limitTo 3,
      .constrain "a" (.eq (.int32 1)), .constrain "b" (.startsWith "x"), .beginStatement]).statements
    = [[[("a", .isNull)], [("b", .startsWith "x"), ("a", .eq (.int32 1))]], [[]]]
  := by
  rfl

end FilterSpec

end MongoQuery
