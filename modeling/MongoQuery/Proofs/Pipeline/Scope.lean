import Mathlib.Data.List.Perm.Basic
import MongoQuery.Proofs.Pipeline.Levels

/-!
# Scopes of bucket pipelines

A written stage finds in the rows only what the stages before it leave there: some
components of the key, and some columns beside it.  A grouping leaves the components of its
own key and the columns of its own accumulators; a projection leaves what it lists, as far as
it computes it or finds it.  What a stage uses beyond that is missing in every row, and no
fault tells of it.

Main statement: in the pipeline of any specification every stage finds what it uses, every
projection of components lists each of them once, and the grouping of a level leaves the
components up to its own.
-/

namespace MongoQuery

/-- What the rows between two stages have: components of the key, and columns beside it. -/
structure Scope where
  components : List String
  columns : List String

/-! ### What is used -/

namespace Value

mutual

/-- The paths to which a written expression refers, each as its names. -/
def paths : Value → List (List String)
  | .string text =>
    match text.toList with
    | '$' :: path => [pathNames (String.ofList path)]
    | _ => []
  | .array items => pathsOfItems items
  | .document fields => pathsOfFields fields
  | _ => []

/-- The paths to which written expressions refer. -/
def pathsOfItems : List Value → List (List String)
  | [] => []
  | v :: rest => paths v ++ pathsOfItems rest

/-- The paths to which named written expressions refer. -/
def pathsOfFields : List (String × Value) → List (List String)
  | [] => []
  | (_, v) :: rest => paths v ++ pathsOfFields rest

end

/-- Whether a value in a projection keeps what is at a path. -/
def isKeep : Value → Bool
  | .int32 1 => true
  | .bool true => true
  | _ => false

/-- Whether a value in a projection drops what is at a path. -/
def isDrop : Value → Bool
  | .int32 0 => true
  | .bool false => true
  | _ => false

end Value

/-- The component to which a path leads, if it leads just to one. -/
def componentAt? : List String → Option String
  | ["_id", component] => some component
  | _ => none

/-- The column to which a path leads. -/
def columnAt? : List String → Option String
  | [name] => if name = "_id" then none else some name
  | _ => none

/-- The components that a written projection lists. -/
def listedComponents (fields : Document) : List String :=
  fields.filterMap fun field => componentAt? (pathNames field.1)

/-- The names of the first components. -/
def componentNames (n : Nat) : List String :=
  (List.range n).map fun j : Nat => Integer.text j

namespace Scope

/-- The rows have something at a path: its column, or its component of the key. -/
def Has (s : Scope) : List String → Prop
  | [] => False
  | name :: rest =>
    if name = "_id" then ∀ component ∈ rest.head?, component ∈ s.components
    else name ∈ s.columns

/-- The rows have what a written stage uses; a projection that lists components lists each
of as many as the key has once, and keeps only such as the rows have. -/
def Admits (s : Scope) (depth : Nat) : Document → Prop
  | [("$match", .document filter)] => ∀ test ∈ filter, s.Has (pathNames test.1)
  | [("$unwind", reference)] => ∀ path ∈ reference.paths, s.Has path
  | [("$group", .document columns)] => ∀ column ∈ columns, ∀ path ∈ column.2.paths, s.Has path
  | [("$project", .document fields)] =>
    (∀ field ∈ fields, ∀ path ∈ field.2.paths, s.Has path)
      ∧ (∀ field ∈ fields, field.2.isKeep → ∀ component ∈ componentAt? (pathNames field.1),
        component ∈ s.components)
      ∧ (listedComponents fields ≠ [] → (listedComponents fields).Perm (componentNames depth))
  | _ => False

/-- The components that a written projection leaves: those it lists, if there are such, and
else all of them unless it drops the key. -/
def componentsAfter (s : Scope) (fields : Document) : List String :=
  if listedComponents fields ≠ [] then listedComponents fields
  else if fields.any fun field => pathNames field.1 = ["_id"] ∧ field.2.isDrop then []
  else s.components

/-- The columns that a written projection leaves: those that it computes, and those that it
keeps and that are there. -/
def columnsAfter (s : Scope) (fields : Document) : List String :=
  fields.filterMap fun field => do
    let name ← columnAt? (pathNames field.1)
    if field.2.isDrop ∨ field.2.isKeep ∧ name ∉ s.columns then none else some name

/-- What the rows have after a written stage. -/
def after (s : Scope) : Document → Scope
  | [("$group", .document (("_id", .document key) :: columns))] =>
    ⟨Fields.names key, Fields.names columns⟩
  | [("$project", .document fields)] => ⟨s.componentsAfter fields, s.columnsAfter fields⟩
  | _ => s

/-- What the rows have after written stages. -/
def afterAll (s : Scope) (stages : List Document) : Scope :=
  stages.foldl after s

/-- Each of written stages finds what it uses. -/
def AdmitsAll (depth : Nat) : Scope → List Document → Prop
  | _, [] => True
  | s, stage :: rest => s.Admits depth stage ∧ (s.after stage).AdmitsAll depth rest

end Scope

/-- The components of the key of a written grouping. -/
def groupedComponents? : Document → Option (List String)
  | [("$group", .document (("_id", .document key) :: _))] => some (Fields.names key)
  | _ => none

/-- A pipeline that counts records by a key of some depth, works on the rows and closes with a
projection is well scoped. -/
structure WellScoped (depth : Nat) (first : Document) (inner : List Document) (last : Document) :
    Prop where
  /-- After counting the rows have all components and the numbers. -/
  opened : ∀ s : Scope, s.after first = ⟨componentNames depth, ["value"]⟩
  /-- From then on each stage finds what it uses. -/
  admitted : Scope.AdmitsAll depth ⟨componentNames depth, ["value"]⟩ (inner ++ [last])
  /-- After counting the innermost level is grouped first, and each level by the components up
  to its own. -/
  grouped : (first :: inner ++ [last]).filterMap groupedComponents?
    = componentNames depth :: (List.range depth).reverse.map fun i => componentNames (i + 1)
  /-- The last stage keeps only columns that the one before it leaves. -/
  closed : ∃ fields, last = [("$project", .document fields)]
    ∧ ∀ field ∈ fields, field.2.isKeep → ∃ name, columnAt? (pathNames field.1) = some name
      ∧ name ∈ (Scope.afterAll ⟨componentNames depth, ["value"]⟩ inner).columns

/-! ### Paths of references -/

namespace Place

theorem pathNames_path (p : Place) :
  pathNames p.path = p.names
  := by
  rfl

@[simp]
theorem paths_reference (p : Place) :
  p.reference.paths = [p.names]
  := by
  have htext : ("$" ++ p.path).toList = '$' :: p.path.toList := by
    rw [String.toList_append]
    rfl
  rw [reference, Value.paths, htext]
  simp [pathNames_path]

end Place

/-- Every date format begins with the year. -/
theorem DateInterval.paths_format (interval : DateInterval) :
  (Value.string interval.format).paths = []
  := by
  cases interval <;> rfl

/-- The names of the components of a written key. -/
theorem Stage.names_keyFrom (first : Nat) (key : List Expr) :
  Fields.names (keyFrom first key) = (List.range' first key.length).map fun j : Nat => Integer.text j
  := by
  induction key generalizing first with
  | nil => rfl
  | cons e rest ih =>
      have hrest := ih (first + 1)
      rw [keyFrom, List.length_cons, List.range'_succ, List.map_cons, ← hrest]
      rfl

theorem Stage.names_keyDocument (key : List Expr) :
  Fields.names (keyDocument key) = componentNames key.length
  := by
  rw [keyDocument, names_keyFrom, componentNames, List.range_eq_range']

/-- A written key refers to what its expressions refer to. -/
theorem Stage.paths_keyFrom (first : Nat) (key : List Expr) :
  Value.pathsOfFields (keyFrom first key) = key.flatMap fun e => e.toValue.paths
  := by
  induction key generalizing first with
  | nil => rfl
  | cons e rest ih => rw [keyFrom, Value.pathsOfFields, ih, List.flatMap_cons]

/-! ### Stages one after the other -/

namespace Scope

theorem afterAll_append (s : Scope) (stages others : List Document) :
  s.afterAll (stages ++ others) = (s.afterAll stages).afterAll others
  := by
  apply List.foldl_append

theorem admitsAll_append (depth : Nat) (s : Scope) (stages others : List Document) :
  s.AdmitsAll depth (stages ++ others)
    ↔ s.AdmitsAll depth stages ∧ (s.afterAll stages).AdmitsAll depth others
  := by
  induction stages generalizing s with
  | nil => simp [AdmitsAll, afterAll]
  | cons stage rest ih =>
      rw [List.cons_append, AdmitsAll, AdmitsAll, ih, and_assoc]
      rfl

/-- The rows have the first components of the key, and columns. -/
structure Covers (s : Scope) (n : Nat) (columns : List Column) : Prop where
  component : ∀ j < n, Integer.text j ∈ s.components
  column : ∀ c ∈ columns, c.name ∈ s.columns

variable {s : Scope} {n : Nat} {columns : List Column} {p : Place}

theorem Covers.has_component (h : s.Covers n columns) {j : Nat} (hj : j < n) :
  s.Has (Place.component j).names
  := by
  simpa [Has] using h.component j hj

theorem Covers.has_member (h : s.Covers n columns) {j : Nat} (hj : j < n) (name : String) :
  s.Has (Place.member j name).names
  := by
  simpa [Has] using h.component j hj

theorem Covers.has_column (h : s.Covers n columns) {c : Column} (hc : c ∈ columns) :
  s.Has (Place.column c).names
  := by
  have hname : c.name ≠ "_id" := by
    cases c <;> decide
  simpa [Has, hname] using h.column c hc

/-! ### Stages that form keys -/

theorem admits_among (h : s.Has p.names) (depth : Nat) (values : List Value) :
  s.Admits depth (Stage.among p values).toDocument
  := by
  intro test htest
  rw [List.mem_singleton.mp htest]
  apply h

theorem admits_unwind (h : s.Has p.names) (depth : Nat) :
  s.Admits depth (Stage.unwind p).toDocument
  := by
  change ∀ path ∈ p.reference.paths, s.Has path
  rw [Place.paths_reference]
  intro path hpath
  rw [List.mem_singleton.mp hpath]
  apply h

/-- The fields of the written projection that replaces a component. -/
def replacingFields (depth index : Nat) (e : Expr) : Document :=
  ((Place.component index).path, e.toValue)
    :: ((List.range depth).filter fun j => j ≠ index).map
      (fun j => ((Place.component j).path, Value.int32 1))
    ++ [((Place.column .id).path, .int32 1), ((Place.column .value).path, .int32 1)]

theorem toDocument_replaceComponent (depth index : Nat) (e : Expr) :
  (Level.replaceComponent depth index e).toDocument
    = [("$project", .document (replacingFields depth index e))]
  := by
  simp [Level.replaceComponent, Stage.toDocument, replacingFields, Document.single,
    Projection.toValue]

theorem listedComponents_replacingFields (depth index : Nat) (e : Expr) :
  listedComponents (replacingFields depth index e)
    = Integer.text index :: ((List.range depth).filter fun j => j ≠ index).map
      fun j : Nat => Integer.text j
  := by
  simp [listedComponents, replacingFields, Place.pathNames_path, componentAt?, List.filterMap_map]

/-- Replacing a component lists each component once. -/
theorem perm_listedComponents {depth index : Nat} (hindex : index < depth) (e : Expr) :
  (listedComponents (replacingFields depth index e)).Perm (componentNames depth)
  := by
  have herase : (List.range depth).erase index
      = (List.range depth).filter fun j => j ≠ index := by
    rw [List.nodup_range.erase_eq_filter]
    apply List.filter_congr
    intro j _
    rw [decide_not]
    rfl
  have hperm := (List.perm_cons_erase (List.mem_range.mpr hindex)).symm
  rw [herase] at hperm
  rw [listedComponents_replacingFields]
  apply hperm.map fun j : Nat => Integer.text j

/-- The fields of the projection are that of the replaced component, those of the kept ones
and those of two columns. -/
theorem mem_replacingFields {depth index : Nat} {e : Expr} {field : String × Value}
    (h : field ∈ replacingFields depth index e) :
  field = ((Place.component index).path, e.toValue)
    ∨ (∃ j < depth, field = ((Place.component j).path, .int32 1))
    ∨ ∃ c, field = ((Place.column c).path, .int32 1)
  := by
  simp only [replacingFields, List.cons_append, List.mem_cons, List.mem_append, List.mem_map,
    List.mem_filter, List.mem_range, List.not_mem_nil, or_false] at h
  rcases h with rfl | ⟨j, ⟨hj, -⟩, rfl⟩ | rfl | rfl
  · left
    rfl
  · right
    left
    use j, hj
  · right
    right
    use .id
  · right
    right
    use .value

/-- Replacing a component by an expression over the rows finds what it uses. -/
theorem admits_replaceComponent {depth index : Nat} (h : s.Covers depth columns)
    (hindex : index < depth) {e : Expr} (he : ∀ path ∈ e.toValue.paths, s.Has path)
    (hcompute : e.toValue.isKeep = false) :
  s.Admits depth (Level.replaceComponent depth index e).toDocument
  := by
  rw [toDocument_replaceComponent]
  constructor
  · intro field hfield path hpath
    rcases mem_replacingFields hfield with rfl | ⟨j, -, rfl⟩ | ⟨c, rfl⟩
    · apply he path hpath
    · cases hpath
    · cases hpath
  · constructor
    · intro field hfield hkeep component hcomponent
      rw [Option.mem_def] at hcomponent
      rcases mem_replacingFields hfield with rfl | ⟨j, hj, rfl⟩ | ⟨c, rfl⟩
      · rw [hcompute] at hkeep
        cases hkeep
      · rw [Place.pathNames_path, Place.names_component] at hcomponent
        rw [← Option.some.inj hcomponent]
        apply h.component j hj
      · simp [Place.pathNames_path, componentAt?] at hcomponent
    · intro _
      apply perm_listedComponents hindex

/-- Replacing a component leaves all components and the numbers. -/
theorem covers_after_replaceComponent {depth index : Nat} (h : s.Covers depth [.value])
    (hindex : index < depth) (e : Expr) :
  (s.after (Level.replaceComponent depth index e).toDocument).Covers depth [.value]
  := by
  rw [toDocument_replaceComponent]
  constructor
  · intro j hj
    change Integer.text j ∈ s.componentsAfter (replacingFields depth index e)
    have hlisted : listedComponents (replacingFields depth index e) ≠ [] := by
      rw [listedComponents_replacingFields]
      apply List.cons_ne_nil
    rw [componentsAfter, if_pos hlisted, (perm_listedComponents hindex e).mem_iff]
    apply List.mem_map.mpr
    use j, List.mem_range.mpr hj
  · intro c hc
    obtain rfl := List.mem_singleton.mp hc
    have hvalue : "value" ∈ s.columns := h.column .value hc
    change "value" ∈ s.columnsAfter (replacingFields depth index e)
    apply List.mem_filterMap.mpr
    use ((Place.column .value).path, .int32 1)
    constructor
    · simp [replacingFields]
    · have hkept : (Value.int32 1).isDrop = false := rfl
      simp [Place.pathNames_path, columnAt?, Column.name, hkept, hvalue]

/-- The expressions that form keys use just the component of their level. -/
theorem paths_keyExpr {index : Nat} {bucketing : Bucketing} {e : Expr}
    (h : Level.keyExpr? index bucketing = some e) :
  e.toValue.paths = [(Place.component index).names] ∧ e.toValue.isKeep = false
  := by
  cases bucketing with
  | raw => cases h
  | histogram width =>
      obtain rfl := Option.some.inj h
      simp [Expr.toValue, Document.single, Value.paths, Value.pathsOfFields, Value.pathsOfItems,
        Value.isKeep]
  | date interval =>
      obtain rfl := Option.some.inj h
      have hformat := interval.paths_format
      rw [Expr.toValue, Document.single, Value.paths, Value.pathsOfFields, Value.paths,
        Value.pathsOfFields, Value.pathsOfFields, hformat]
      simp [Expr.toValue, Value.pathsOfFields, Value.isKeep]

/-- Stages that find what they use and leave all components and the numbers do so one after
the other. -/
theorem admitsAll_of_forall {depth : Nat} {stages : List Document}
    (hstages : ∀ stage ∈ stages, ∀ s : Scope, s.Covers depth columns →
      s.Admits depth stage ∧ (s.after stage).Covers depth columns)
    (h : s.Covers depth columns) :
  s.AdmitsAll depth stages ∧ (s.afterAll stages).Covers depth columns
  := by
  induction stages generalizing s with
  | nil =>
      constructor
      · apply True.intro
      · apply h
  | cons stage rest ih =>
      obtain ⟨hadmits, hcovers⟩ := hstages stage List.mem_cons_self s h
      have hrest := ih (fun other hother => hstages other (List.mem_cons_of_mem _ hother)) hcovers
      constructor
      · use hadmits
        apply hrest.1
      · apply hrest.2

/-- The stages that replace the component of a level find what they use, and leave all
components and the numbers. -/
theorem admitsAll_keyStages {depth index : Nat} (h : s.Covers depth [.value])
    (hindex : index < depth) (level : Level) :
  s.AdmitsAll depth ((level.keyStages depth index).map Stage.toDocument)
    ∧ (s.afterAll ((level.keyStages depth index).map Stage.toDocument)).Covers depth [.value]
  := by
  apply admitsAll_of_forall _ h
  intro written hwritten s hs
  obtain ⟨stage, hstage, rfl⟩ := List.mem_map.mp hwritten
  rcases Level.mem_keyStages hstage with rfl | ⟨ids, rfl⟩ | ⟨e, rfl, he⟩
  · use admits_unwind (hs.has_component hindex) depth
    apply hs
  · use admits_among (hs.has_member hindex "id") depth ids
    apply hs
  · have hcovers := covers_after_replaceComponent hs hindex e
    rcases he with ⟨property, rfl⟩ | hkey
    · have hpaths : ∀ path ∈ (Expr.place (.member index property)).toValue.paths, s.Has path := by
        intro path hpath
        rw [Expr.toValue, Place.paths_reference] at hpath
        rw [List.mem_singleton.mp hpath]
        apply hs.has_member hindex
      constructor
      · apply admits_replaceComponent hs hindex hpaths rfl
      · apply hcovers
    · obtain ⟨hpath, hkeep⟩ := paths_keyExpr hkey
      have hpaths : ∀ path ∈ e.toValue.paths, s.Has path := by
        intro path hmem
        rw [hpath] at hmem
        rw [List.mem_singleton.mp hmem]
        apply hs.has_component hindex
      constructor
      · apply admits_replaceComponent hs hindex hpaths hkeep
      · apply hcovers

/-! ### Stages that form buckets -/

theorem Covers.of_le {m : Nat} (h : s.Covers n columns) (hm : m ≤ n) :
  s.Covers m columns
  := by
  constructor
  · intro j hj
    apply h.component j (Nat.lt_of_lt_of_le hj hm)
  · apply h.column

/-- The columns that the grouping of a level adds up or collects. -/
def usedColumns (innermost : Bool) : List Column :=
  if innermost then [.value] else [.id, .value, .buckets]

/-- The label of a bucket is made of the component of its level. -/
theorem paths_label (index : Nat) :
  (Accumulator.first (.ifNull (.place (.component index)) .emptyText)).toValue.paths
    = [(Place.component index).names]
  := by
  simp [Accumulator.toValue, Expr.toValue, Document.single, Value.paths, Value.pathsOfFields,
    Value.pathsOfItems]

theorem paths_sum (c : Column) :
  (Accumulator.sum c).toValue.paths = [(Place.column c).names]
  := by
  simp [Accumulator.toValue, Document.single, Value.paths, Value.pathsOfFields]

theorem paths_collect (cs : List Column) :
  (Accumulator.collect cs).toValue.paths = cs.map fun c => (Place.column c).names
  := by
  have hfields : Value.pathsOfFields (cs.map fun c => (c.name, (Place.column c).reference))
      = cs.map fun c => (Place.column c).names := by
    induction cs with
    | nil => rfl
    | cons c rest ih =>
        rw [List.map_cons, Value.pathsOfFields, ih, Place.paths_reference]
        rfl
  simp [Accumulator.toValue, Document.single, Value.paths, Value.pathsOfFields, hfields]

/-- The grouping of a level uses the components up to its own and the columns of the rows that
it puts together. -/
theorem admits_collapse {index : Nat} {innermost : Bool}
    (h : s.Covers (index + 1) (usedColumns innermost)) (depth : Nat) :
  s.Admits depth (Level.collapse index innermost).toDocument
  := by
  intro written hwritten path hpath
  rcases List.mem_cons.mp hwritten with rfl | hwritten
  · rw [Value.paths, Stage.keyDocument, Stage.paths_keyFrom, Stage.ownKey, List.flatMap_map] at hpath
    obtain ⟨j, hj, hpath⟩ := List.mem_flatMap.mp hpath
    rw [Expr.toValue, Place.paths_reference] at hpath
    rw [List.mem_singleton.mp hpath]
    apply h.has_component (List.mem_range.mp hj)
  · obtain ⟨column, hcolumn, rfl⟩ := List.mem_map.mp hwritten
    have hvalue : Column.value ∈ usedColumns innermost := by
      cases innermost <;> decide
    rcases List.mem_append.mp hcolumn with hcolumn | hcolumn
    · simp only [List.mem_cons, List.not_mem_nil, or_false] at hcolumn
      rcases hcolumn with rfl | rfl
      · rw [paths_label] at hpath
        rw [List.mem_singleton.mp hpath]
        apply h.has_component (Nat.lt_succ_self index)
      · rw [paths_sum] at hpath
        rw [List.mem_singleton.mp hpath]
        apply h.has_column hvalue
    · cases innermost with
      | true => cases hcolumn
      | false =>
          rw [List.mem_singleton.mp hcolumn, paths_collect] at hpath
          obtain ⟨c, hc, rfl⟩ := List.mem_map.mp hpath
          apply h.has_column hc

/-- The grouping of a level leaves just the components up to its own. -/
theorem after_collapse (s : Scope) (index : Nat) (innermost : Bool) :
  s.after (Level.collapse index innermost).toDocument
    = ⟨componentNames (index + 1), ["id", "value"] ++ if innermost then [] else ["buckets"]⟩
  := by
  have hkey := Stage.names_keyDocument (Stage.ownKey (index + 1))
  rw [Stage.ownKey, List.length_map, List.length_range] at hkey
  rw [← hkey]
  cases innermost with
  | true => rfl
  | false => rfl

/-- The fields of the written projection that forms the innermost buckets. -/
def leafFields : Document :=
  [(Place.key.path, .int32 1), ((Place.column .id).path, .int32 1),
    ((Place.column .value).path, .int32 1), ((Place.column .buckets).path, .array [])]

theorem toDocument_leaf :
  Level.leaf.toDocument = [("$project", .document leafFields)]
  := by
  rfl

theorem listedComponents_leafFields :
  listedComponents leafFields = []
  := by
  simp [listedComponents, leafFields, Place.pathNames_path, componentAt?]

theorem admits_leaf (s : Scope) (depth : Nat) :
  s.Admits depth Level.leaf.toDocument
  := by
  rw [toDocument_leaf]
  constructor
  · simp [leafFields, Value.paths, Value.pathsOfItems]
  · constructor
    · simp [leafFields, Place.pathNames_path, componentAt?]
    · intro hlisted
      cases hlisted listedComponents_leafFields

/-- Forming the innermost buckets adds the column of buckets. -/
theorem after_leaf {s : Scope} (hid : "id" ∈ s.columns) (hvalue : "value" ∈ s.columns) :
  s.after Level.leaf.toDocument = ⟨s.components, ["id", "value", "buckets"]⟩
  := by
  have hkept : (Value.int32 1).isDrop = false := rfl
  have hcomputed : (Value.array []).isDrop = false ∧ (Value.array []).isKeep = false := by
    use rfl
    rfl
  have hcomponents : s.componentsAfter leafFields = s.components := by
    rw [componentsAfter, listedComponents_leafFields]
    simp [leafFields, Place.pathNames_path, hkept, hcomputed]
  have hcolumns : s.columnsAfter leafFields = ["id", "value", "buckets"] := by
    simp [columnsAfter, leafFields, Place.pathNames_path, columnAt?, Column.name, hkept, hcomputed,
      hid, hvalue]
  rw [toDocument_leaf, ← hcomponents, ← hcolumns]
  rfl

/-- The rows have the first components, and the columns of buckets. -/
theorem covers_componentNames (n : Nat) :
  Covers ⟨componentNames n, ["id", "value", "buckets"]⟩ n [.id, .value, .buckets]
  := by
  constructor
  · intro j hj
    apply List.mem_map.mpr
    use j, List.mem_range.mpr hj
  · intro c _
    cases c <;> simp [Column.name]

/-- The stages that form the buckets of a level find what they use, and leave the components
up to its own and the columns of buckets. -/
theorem admitsAll_bucketStages {index : Nat} {innermost : Bool}
    (h : s.Covers (index + 1) (usedColumns innermost)) (depth : Nat) (level : Level) :
  s.AdmitsAll depth ((level.bucketStages index innermost).map Stage.toDocument)
    ∧ s.afterAll ((level.bucketStages index innermost).map Stage.toDocument)
      = ⟨componentNames (index + 1), ["id", "value", "buckets"]⟩
  := by
  have hvalues : s.AdmitsAll depth ((level.valueStages index).map Stage.toDocument)
      ∧ s.afterAll ((level.valueStages index).map Stage.toDocument) = s := by
    unfold Level.valueStages
    split
    · constructor
      · constructor
        · apply admits_among (h.has_component (Nat.lt_succ_self index))
        · apply True.intro
      · rfl
    · constructor
      · apply True.intro
      · rfl
  have hcollapse := admits_collapse h depth
  rw [Level.bucketStages_eq, List.map_append, admitsAll_append, afterAll_append, hvalues.2,
    List.map_cons, AdmitsAll, afterAll, List.foldl_cons, after_collapse]
  cases innermost with
  | true =>
      constructor
      · use hvalues.1, hcollapse, admits_leaf _ depth
        apply True.intro
      · apply after_leaf (by simp) (by simp)
  | false =>
      constructor
      · use hvalues.1, hcollapse
        apply True.intro
      · rfl

/-- The stages of levels find what they use, and leave the components up to that of the
outermost of them and the columns of buckets. -/
theorem admitsAll_levelStages (depth : Nat) :
    ∀ (within : List Level) (level : Level) (index : Nat) (s : Scope),
      index + (within.length + 1) = depth → s.Covers depth [.value] →
      s.AdmitsAll depth
          ((BucketSpec.levelStages depth index (level :: within)).map Stage.toDocument)
        ∧ s.afterAll ((BucketSpec.levelStages depth index (level :: within)).map Stage.toDocument)
          = ⟨componentNames (index + 1), ["id", "value", "buckets"]⟩
  | within, level, index, s, hdepth, h => by
      have hindex : index < depth := by omega
      obtain ⟨hkeys, hkeyed⟩ := admitsAll_keyStages h hindex level
      simp only [BucketSpec.levelStages, List.map_append, admitsAll_append, afterAll_append]
      cases within with
      | nil =>
          have hused : (s.afterAll ((level.keyStages depth index).map Stage.toDocument)).Covers
              (index + 1) (usedColumns true) := hkeyed.of_le hindex
          obtain ⟨hbuckets, hleft⟩ := admitsAll_bucketStages hused depth level
          use ⟨⟨hkeys, True.intro⟩, hbuckets⟩, hleft
      | cons next rest =>
          have hnext : index + 1 + (rest.length + 1) = depth := by
            rw [← hdepth, List.length_cons]
            omega
          obtain ⟨hinner, hinnerLeft⟩ :=
            admitsAll_levelStages depth rest next (index + 1) _ hnext hkeyed
          have hused : Covers ⟨componentNames (index + 1 + 1), ["id", "value", "buckets"]⟩
              (index + 1) (usedColumns false) :=
            (covers_componentNames (index + 1 + 1)).of_le (Nat.le_succ _)
          obtain ⟨hbuckets, hleft⟩ := admitsAll_bucketStages hused depth level
          rw [hinnerLeft]
          use ⟨⟨hkeys, hinner⟩, hbuckets⟩, hleft

/-! ### Components of groupings -/

/-- The groupings of levels are by the components up to their own, innermost level first. -/
theorem filterMap_groupedComponents_levelStages (depth : Nat) :
    ∀ (levels : List Level) (index : Nat),
      ((BucketSpec.levelStages depth index levels).map Stage.toDocument).filterMap
          groupedComponents?
        = (List.range' index levels.length).reverse.map fun i => componentNames (i + 1)
  | [], _ => rfl
  | level :: inner, index => by
      have hkeys : ((level.keyStages depth index).map Stage.toDocument).filterMap
          groupedComponents? = [] := by
        rw [List.filterMap_eq_nil_iff]
        intro written hwritten
        obtain ⟨stage, hstage, rfl⟩ := List.mem_map.mp hwritten
        rcases Level.mem_keyStages hstage with rfl | ⟨ids, rfl⟩ | ⟨e, rfl, -⟩
        · rfl
        · rfl
        · rfl
      have hvalues : ((level.valueStages index).map Stage.toDocument).filterMap
          groupedComponents? = [] := by
        unfold Level.valueStages
        split
        · rfl
        · rfl
      have hcollapse : groupedComponents? (Level.collapse index inner.isEmpty).toDocument
          = some (componentNames (index + 1)) := by
        have hkey := Stage.names_keyDocument (Stage.ownKey (index + 1))
        rw [Stage.ownKey, List.length_map, List.length_range] at hkey
        rw [← hkey]
        rfl
      have hleaf : ((if inner.isEmpty then [Level.leaf] else []).map Stage.toDocument).filterMap
          groupedComponents? = [] := by
        split
        · rfl
        · rfl
      rw [BucketSpec.levelStages, Level.bucketStages_eq]
      simp only [List.map_append, List.map_cons, List.filterMap_append, List.filterMap_cons, hkeys,
        hvalues, hcollapse, hleaf, filterMap_groupedComponents_levelStages depth inner (index + 1),
        List.length_cons, List.range'_succ, List.reverse_cons, List.map_append, List.map_nil,
        List.nil_append]

/-! ### The first and the last stage -/

/-- Counting records leaves all components and the numbers. -/
theorem after_count (s : Scope) (key : List Expr) :
  s.after (Stage.group key [(.value, .count)]).toDocument = ⟨componentNames key.length, ["value"]⟩
  := by
  rw [← Stage.names_keyDocument]
  rfl

theorem covers_count (n : Nat) :
  Covers ⟨componentNames n, ["value"]⟩ n [.value]
  := by
  constructor
  · intro j hj
    apply List.mem_map.mpr
    use j, List.mem_range.mpr hj
  · intro c hc
    rw [List.mem_singleton.mp hc]
    apply List.mem_singleton_self

/-- The fields of the written projection that closes a pipeline. -/
def closingFields : Document :=
  [(Place.key.path, .int32 0), ((Place.column .id).path, .int32 1),
    ((Place.column .value).path, .int32 1), ((Place.column .buckets).path, .int32 1)]

theorem admits_closing (s : Scope) (depth : Nat) :
  s.Admits depth [("$project", .document closingFields)]
  := by
  have hlisted : listedComponents closingFields = [] := by
    simp [listedComponents, closingFields, Place.pathNames_path, componentAt?]
  constructor
  · simp [closingFields, Value.paths]
  · constructor
    · simp [closingFields, Place.pathNames_path, componentAt?]
    · intro hne
      cases hne hlisted

/-- The projection that closes a pipeline keeps the columns of buckets. -/
theorem exists_columnAt_closing {field : String × Value} (h : field ∈ closingFields)
    (hkeep : field.2.isKeep) :
  ∃ name, columnAt? (pathNames field.1) = some name ∧ name ∈ ["id", "value", "buckets"]
  := by
  simp only [closingFields, List.mem_cons, List.not_mem_nil, or_false] at h
  rcases h with rfl | rfl | rfl | rfl
  · cases hkeep
  · use "id"
    simp [Place.pathNames_path, columnAt?, Column.name]
  · use "value"
    simp [Place.pathNames_path, columnAt?, Column.name]
  · use "buckets"
    simp [Place.pathNames_path, columnAt?, Column.name]

end Scope

/-! ### The main statement -/

/-- The pipeline of any specification counts the records, works on the rows and closes, and it
is well scoped. -/
theorem BucketSpec.exists_wellScoped_stages (spec : BucketSpec) :
  ∃ first inner last, spec.stages.map Stage.toDocument = first :: inner ++ [last]
    ∧ WellScoped spec.depth first inner last
  := by
  have hdepth : 0 + (spec.inner.length + 1) = spec.depth := Nat.zero_add _
  have hkey : spec.sourceKey.length = spec.depth := by
    rw [sourceKey, List.length_map]
    rfl
  have hopened : ∀ s : Scope, s.after (Stage.group spec.sourceKey [(.value, .count)]).toDocument
      = ⟨componentNames spec.depth, ["value"]⟩ := by
    intro s
    rw [Scope.after_count, hkey]
  obtain ⟨hadmits, hleft⟩ := Scope.admitsAll_levelStages spec.depth spec.inner spec.outer 0 _
    hdepth (Scope.covers_count spec.depth)
  use (Stage.group spec.sourceKey [(.value, .count)]).toDocument,
    (levelStages spec.depth 0 spec.levels).map Stage.toDocument,
    [("$project", .document Scope.closingFields)]
  constructor
  · rw [stages, List.map_append]
    rfl
  · constructor
    · apply hopened
    · rw [Scope.admitsAll_append]
      use hadmits, Scope.admits_closing _ spec.depth
      apply True.intro
    · have hfirst : groupedComponents? (Stage.group spec.sourceKey [(.value, .count)]).toDocument
          = some (componentNames spec.depth) := by
        rw [← hkey, ← Stage.names_keyDocument]
        rfl
      have hlevels := Scope.filterMap_groupedComponents_levelStages spec.depth spec.levels 0
      rw [← List.range_eq_range'] at hlevels
      rw [List.cons_append, List.filterMap_cons, hfirst, List.filterMap_append, hlevels]
      simp [groupedComponents?, depth]
    · use Scope.closingFields, rfl
      intro field hfield hkeep
      rw [levels, hleft]
      apply Scope.exists_columnAt_closing hfield hkeep

end MongoQuery
