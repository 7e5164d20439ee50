import MongoQuery.Proofs.Pipeline.Counting
import MongoQuery.Proofs.Pipeline.Reading

/-!
# Rows that a level opens

Before its inner levels run, a level replaces its component of the key: by a property of
selected elements of the component, and then by the key that is formed from it.  An unwinding
multiplies the rows and a projection drops all that it does not name, yet of a key of any
depth only the component of the level changes, and the number of records stays.
-/

namespace MongoQuery

/-! ### Keys with their numbers of records -/

/-- The components of the key of a row and its number of records. -/
structure Keyed where
  components : List (Option Value)
  value : Option Value

namespace Keyed

/-- The component of a number, which may be missing. -/
def component (row : Keyed) (index : Nat) : Option Value :=
  row.components[index]?.join

/-- Puts another value, or none, in the place of a component. -/
def replace (row : Keyed) (index : Nat) (x : Option Value) : Keyed :=
  { row with components := row.components.set index x }

theorem component_replace_self {row : Keyed} {index : Nat} (h : index < row.components.length)
    (x : Option Value) :
  (row.replace index x).component index = x
  := by
  simp [component, replace, h]

/-- The other components stay. -/
theorem component_replace_of_ne (row : Keyed) {index j : Nat} (h : j ≠ index)
    (x : Option Value) :
  (row.replace index x).component j = row.component j
  := by
  simp [component, replace, h.symm]

theorem replace_replace (row : Keyed) (index : Nat) (x y : Option Value) :
  (row.replace index x).replace index y = row.replace index y
  := by
  simp [replace]

theorem replace_component {row : Keyed} {index : Nat} (h : index < row.components.length) :
  row.replace index (row.component index) = row
  := by
  simp [replace, component, h]

end Keyed

/-- The first components of the key of a row, with its number of records. -/
def Document.keyed (depth : Nat) (row : Document) : Keyed :=
  ⟨row.components depth, row.atPlace (.column .value)⟩

theorem Document.lt_length_keyed (row : Document) {depth j : Nat} (h : j < depth) :
  j < (row.keyed depth).components.length
  := by
  rw [keyed, length_components]
  apply h

theorem Document.component_keyed (row : Document) {depth j : Nat} (h : j < depth) :
  (row.keyed depth).component j = row.atPlace (.component j)
  := by
  simp [keyed, Keyed.component, components, h]

/-! ### What a level makes of a key -/

/-- The elements of a value: of an array those that it holds, none of null or a missing value,
and the value itself of any other. -/
def elements : Option Value → List Value
  | some (.array items) => items
  | some .null => []
  | none => []
  | some v => [v]

/-- What is at a path within a value. -/
def Value.member? (v : Value) (path : String) : Option Value :=
  match v with
  | .document fields => Document.at? fields path
  | _ => none

section Opened

variable (E : Engine)

/-- The elements of a value whose `id` is selected. -/
def SubField.selected (subField : SubField) (x : Option Value) : List Value :=
  (elements x).filter fun e => E.among (e.member? "id") (subField.ids.map .string)

/-- The values at which a level looks for one: itself, or a property of its selected
elements. -/
def Level.looked (level : Level) (x : Option Value) : List (Option Value) :=
  match level.subField with
  | some subField => (subField.selected E x).map fun e => e.member? subField.property
  | none => [x]

/-- The keys that a level opens from one: its component is replaced by the key that the level
forms from each value at which it looks. -/
def Level.opened (level : Level) (index : Nat) (row : Keyed) : List Keyed :=
  (level.looked E (row.component index)).map fun x => row.replace index (level.rounded E x)

end Opened

/-! ### Rows of elements -/

namespace Document

/-- A member of a component is a member of the value of the component. -/
theorem atPlace_member (row : Document) (index : Nat) (name : String) :
  row.atPlace (.member index name)
    = (row.atPlace (.component index)).bind fun v => v.member? name
  := by
  obtain ⟨first, others, hnames⟩ := List.exists_cons_of_ne_nil (pathNames_ne_nil name)
  rw [atPlace, Place.names_member, hnames, follow?_cons_cons, follow?_cons_cons,
    atPlace_component, inner, ← hnames]
  cases hvalue : (row.inner "_id").get? (Integer.text index) with
  | none => simp
  | some v =>
      cases v with
      | document fields => rfl
      | _ => simp [Value.member?]

/-- What is put in the place of a component replaces it. -/
theorem keyed_put (row : Document) {depth index : Nat} (v : Value) :
  (row.put (Place.component index).names v).keyed depth
    = (row.keyed depth).replace index (some v)
  := by
  have hvalue : (row.put (Place.component index).names v).atPlace (.column .value)
      = row.atPlace (.column .value) := by
    apply follow?_put_of_apart row v _ _ (Place.apart_component_column index .value)
  have hcomponents : (row.put (Place.component index).names v).components depth
      = (row.components depth).set index (some v) := by
    apply components_eq_set
    · apply follow?_put row v _ (Place.names_ne_nil _)
    · intro j _ hne
      apply follow?_put_of_apart row v _ _ (Place.apart_components hne.symm)
  rw [keyed, hvalue, hcomponents]
  rfl

/-- A row is unwound into one for each element of the value at the place. -/
theorem unwound_eq (row : Document) (p : Place) :
  row.unwound p = (elements (row.atPlace p)).map fun e => row.put p.names e
  := by
  cases hvalue : row.atPlace p with
  | none =>
      rw [unwound, hvalue]
      rfl
  | some v =>
      have hput : row.put p.names v = row := put_of_follow? row v p.names hvalue
      rw [unwound, hvalue]
      cases v with
      | array items => rfl
      | null => rfl
      | _ =>
          -- No array: the row stays as it is, which is the row with its own value put back.
          change [row] = [row.put p.names _]
          rw [hput]

end Document

/-! ### Stages that look at one row at a time -/

namespace Engine

variable (E : Engine)

/-- A stage makes of rows what it makes of each of them alone. -/
def RowWise (stage : Stage) : Prop :=
  ∀ rows, E.step stage rows = rows.flatMap fun row => E.step stage [row]

theorem rowWise_among (p : Place) (values : List Value) :
  E.RowWise (.among p values)
  := by
  intro rows
  have hrows : rows.flatMap (fun row => [row]) = rows := List.flatMap_singleton' rows
  calc E.step (.among p values) rows
      = (rows.flatMap fun row => [row]).filter fun row => E.among (row.atPlace p) values := by
        rw [hrows]
        rfl
    _ = rows.flatMap fun row => E.step (.among p values) [row] := List.filter_flatMap

theorem rowWise_unwind (p : Place) :
  E.RowWise (.unwind p)
  := by
  intro rows
  simp only [step, List.flatMap_singleton]

theorem rowWise_project (places : List (Place × Projection)) :
  E.RowWise (.project places)
  := by
  intro rows
  simp only [step, List.map_eq_flatMap, List.flatMap_singleton]

/-- Stages that look at one row at a time make of rows what they make of each alone. -/
theorem run_eq_flatMap {stages : List Stage} (h : ∀ stage ∈ stages, E.RowWise stage)
    (rows : List Document) :
  E.run stages rows = rows.flatMap fun row => E.run stages [row]
  := by
  induction stages generalizing rows with
  | nil => simp [run]
  | cons stage rest ih =>
      obtain ⟨hstage, hrest⟩ := List.forall_mem_cons.mp h
      calc E.run (stage :: rest) rows
          = E.run rest (E.step stage rows) := rfl
        _ = (E.step stage rows).flatMap fun row => E.run rest [row] := ih hrest _
        _ = rows.flatMap fun row => (E.step stage [row]).flatMap fun row' => E.run rest [row'] := by
          rw [hstage, List.flatMap_assoc]
        _ = rows.flatMap fun row => E.run (stage :: rest) [row] := by
          simp only [← ih hrest]
          rfl

theorem rowWise_keyStages (level : Level) (depth index : Nat) :
  ∀ stage ∈ level.keyStages depth index, E.RowWise stage
  := by
  intro stage hstage
  rcases Level.mem_keyStages hstage with rfl | ⟨ids, rfl⟩ | ⟨e, rfl, -⟩
  · apply rowWise_unwind
  · apply rowWise_among
  · apply rowWise_project

/-! ### Replaced components -/

variable {depth index : Nat}

/-- A projection that replaces a component leaves the rest of the key and the number of
records. -/
theorem keyed_replaced (e : Expr) (row : Document) :
  (E.projectRow (replaced depth index e) row).keyed depth
    = (row.keyed depth).replace index (E.eval row e)
  := by
  rw [Document.keyed, components_replaced, atPlace_value_replaced]
  rfl

/-- The stages that look at a property of selected elements make a row for each of them, with
the property in the place of the component. -/
theorem map_keyed_selectStages (subField : SubField) (row : Document) :
  (E.run (Level.selectStages depth index subField) [row]).map (Document.keyed depth)
    = (subField.selected E (row.atPlace (.component index))).map fun e =>
      (row.keyed depth).replace index (e.member? subField.property)
  := by
  have hmember : ∀ (e : Value) (name : String),
      (row.put (Place.component index).names e).atPlace (.member index name) = e.member? name := by
    intro e name
    have hput : (row.put (Place.component index).names e).atPlace (.component index) = some e :=
      Document.follow?_put row e _ (Place.names_ne_nil _)
    rw [Document.atPlace_member, hput]
    rfl
  have hrun : E.run (Level.selectStages depth index subField) [row]
      = ((row.unwound (.component index)).filter fun r =>
          E.among (r.atPlace (.member index "id")) (subField.ids.map .string)).map
        (E.projectRow (replaced depth index (.place (.member index subField.property)))) := by
    simp only [Level.selectStages, replaceComponent_eq, run, List.foldl_cons, List.foldl_nil,
      step, List.flatMap_singleton]
  rw [hrun, Document.unwound_eq, List.filter_map, List.map_map, List.map_map, SubField.selected]
  simp only [Function.comp_def, hmember, keyed_replaced, eval, Document.keyed_put,
    Keyed.replace_replace]

/-- The stages that put the key of a level in the place of its component. -/
def roundStages (depth index : Nat) (level : Level) : List Stage :=
  match Level.keyExpr? index level.bucketing with
  | some e => [Level.replaceComponent depth index e]
  | none => []

theorem map_keyed_roundStages (h : index < depth) (level : Level) (rows : List Document) :
  (E.run (roundStages depth index level) rows).map (Document.keyed depth)
    = (rows.map (Document.keyed depth)).map fun row =>
      row.replace index (level.rounded E (row.component index))
  := by
  rw [List.map_map]
  cases hexpr : Level.keyExpr? index level.bucketing with
  | none =>
      -- There is no stage, and the key is the component itself, put back in its own place.
      rw [roundStages, hexpr]
      apply List.map_congr_left
      intro row _
      rw [Function.comp_apply, Level.rounded_of_keyExpr? E hexpr,
        Keyed.replace_component (row.lt_length_keyed h)]
  | some e =>
      rw [roundStages, hexpr]
      change (List.map _ rows).map _ = _
      rw [List.map_map]
      apply List.map_congr_left
      intro row _
      change Document.keyed depth (E.projectRow (replaced depth index e) row) = _
      rw [keyed_replaced, Level.eval_of_keyExpr? E hexpr, Function.comp_apply,
        Document.component_keyed row h]

/-- The stages of a level before its inner levels make of a row those that the level opens. -/
theorem map_keyed_keyStages (h : index < depth) (level : Level) (row : Document) :
  (E.run (level.keyStages depth index) [row]).map (Document.keyed depth)
    = level.opened E index (row.keyed depth)
  := by
  rw [Level.opened, Level.looked, Document.component_keyed row h]
  cases hsub : level.subField with
  | none =>
      have hstages : level.keyStages depth index = roundStages depth index level := by
        rw [Level.keyStages, hsub]
        rfl
      rw [hstages, map_keyed_roundStages E h]
      simp [Document.component_keyed row h]
  | some subField =>
      have hstages : level.keyStages depth index
          = Level.selectStages depth index subField ++ roundStages depth index level := by
        rw [Level.keyStages, hsub]
        rfl
      rw [hstages, run_append, map_keyed_roundStages E h, map_keyed_selectStages, List.map_map,
        List.map_map]
      apply List.map_congr_left
      intro e _
      rw [Function.comp_apply, Function.comp_apply,
        Keyed.component_replace_self (row.lt_length_keyed h), Keyed.replace_replace]

end Engine

/-! ### The main statement -/

/-- The rows that a level opens differ from their row in the component of the level only. -/
theorem Level.exists_replace_of_mem_opened {E : Engine} {level : Level} {index : Nat}
    {row row' : Keyed} (h : row' ∈ level.opened E index row) :
  ∃ x, row' = row.replace index x
  := by
  obtain ⟨x, -, rfl⟩ := List.mem_map.mp h
  use level.rounded E x

/-- What a level does before its inner levels it does to each row alone: it makes of the row
those that the level opens, in order, each of them with the number of records and all other
components, missing ones too, that the row has. -/
theorem Level.runDocuments_keyStages (E : Engine) (level : Level) {depth index : Nat}
    (h : index < depth) (rows : List Document) :
  E.runDocuments ((level.keyStages depth index).map Stage.toDocument) rows
      = (rows.flatMap fun row =>
        E.runDocuments ((level.keyStages depth index).map Stage.toDocument) [row])
    ∧ ∀ row : Document,
      (E.runDocuments ((level.keyStages depth index).map Stage.toDocument) [row]).map
          (Document.keyed depth) = level.opened E index (row.keyed depth)
        ∧ ∀ row' ∈ E.runDocuments ((level.keyStages depth index).map Stage.toDocument) [row],
          row'.atPlace (.column .value) = row.atPlace (.column .value)
            ∧ ∀ j, j < depth → j ≠ index →
              row'.atPlace (.component j) = row.atPlace (.component j)
  := by
  simp only [Engine.runDocuments_map_toDocument]
  constructor
  · apply E.run_eq_flatMap (E.rowWise_keyStages level depth index)
  · intro row
    have hkeyed := E.map_keyed_keyStages h level row
    use hkeyed
    intro row' hrow'
    have hmem := List.mem_map_of_mem (f := Document.keyed depth) hrow'
    rw [hkeyed] at hmem
    obtain ⟨x, hx⟩ := exists_replace_of_mem_opened hmem
    constructor
    · apply congrArg Keyed.value hx
    · intro j hj hne
      rw [← Document.component_keyed row' hj, hx, Keyed.component_replace_of_ne _ hne,
        Document.component_keyed row hj]

/-- The labels of colors, which stand at the second level. -/
def Level.colors : Level :=
  ⟨"tags", none, some ⟨["color"], "label"⟩, .raw⟩

/-- A color, a size and a color without a label. -/
def tags : Value :=
  .array [.document [("id", .string "color"), ("label", .string "dark")],
    .document [("id", .string "size"), ("label", .string "xl")],
    .document [("id", .string "color")]]

/-- A row of two records with tags in the second component. -/
def tagRow : Document :=
  [("_id", .document [("0", .string "red"), ("1", tags)]), ("value", .int32 2)]

theorem Level.runDocuments_keyStages_tagRow :
  1 < 2 ∧ (Engine.plain.runDocuments ((colors.keyStages 2 1).map Stage.toDocument) [tagRow]).map
      (Document.keyed 2)
    = [⟨[some (.string "red"), some (.string "dark")], some (.int32 2)⟩,
      ⟨[some (.string "red"), none], some (.int32 2)⟩]
  := by
  use by decide
  rw [((Level.runDocuments_keyStages Engine.plain colors (by decide) [tagRow]).2 tagRow).1]
  have hfirst : Integer.text (0 : Nat) = "0" := by
    decide +kernel
  have hsecond : Integer.text (1 : Nat) = "1" := by
    decide +kernel
  have hkeyed : tagRow.keyed 2 = ⟨[some (.string "red"), some tags], some (.int32 2)⟩ := by
    simp only [Document.keyed, Document.components, List.range_succ, List.range_zero,
      List.nil_append, List.cons_append, List.map_cons, List.map_nil, Document.atPlace_component,
      Document.atPlace_column, hfirst, hsecond]
    rfl
  have hid : pathNames "id" = ["id"] := by
    decide
  have hlabel : pathNames "label" = ["label"] := by
    decide
  rw [hkeyed]
  simp [Level.opened, Level.looked, SubField.selected, Keyed.component, Keyed.replace, colors,
    tags, elements, Value.member?, Document.at?, hid, hlabel, Document.follow?, Fields.get?,
    Engine.plain, Engine.ofEquality, Engine.ofSame, Level.rounded]

end MongoQuery
