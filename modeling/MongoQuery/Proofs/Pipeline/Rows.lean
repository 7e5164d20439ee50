import MongoQuery.Pipeline.Buckets
import MongoQuery.Proofs.Pipeline.Run

/-!
# Rows of bucket pipelines

What the stages of a bucket pipeline leave in the places of a row: a grouping puts the
components of its key in order, a replacement computes one component and keeps the others,
and a leaf gets the empty list of buckets.
-/

namespace MongoQuery

namespace Document

/-- The first components of the key of a row. -/
def components (row : Document) (n : Nat) : List (Option Value) :=
  (List.range n).map fun j => row.atPlace (.component j)

theorem length_components (row : Document) (n : Nat) :
  (row.components n).length = n
  := by
  rw [components, List.length_map, List.length_range]

theorem components_eq_iff (row : Document) (components : List (Option Value)) :
  row.components components.length = components
    ↔ ∀ j (h : j < components.length), row.atPlace (.component j) = components[j]
  := by
  constructor
  · intro heq j h
    have hj : (row.components components.length)[j]? = components[j]? := by rw [heq]
    simpa [Document.components, h] using hj
  · intro h
    apply List.ext_getElem
    · apply length_components
    · intro j hj hj'
      simpa [Document.components] using h j hj'

/-- A row with all components of another but one has the key of that with this one set. -/
theorem components_eq_set {row row' : Document} {depth index : Nat} {x : Option Value}
    (hself : row'.atPlace (.component index) = x)
    (hother : ∀ j, j < depth → j ≠ index →
      row'.atPlace (.component j) = row.atPlace (.component j)) :
  row'.components depth = (row.components depth).set index x
  := by
  apply List.ext_getElem
  · rw [List.length_set, length_components, length_components]
  · intro j hj hj'
    rw [length_components] at hj
    simp only [components, List.getElem_map, List.getElem_range, List.getElem_set]
    split
    · next heq =>
        rw [← heq, hself]
    · next hne =>
        apply hother j hj (Ne.symm hne)

/-- A component stands at its number. -/
theorem atPlace_of_components {row : Document} {before after : List (Option Value)}
    {x : Option Value} (h : row.components (before ++ x :: after).length = before ++ x :: after) :
  row.atPlace (.component before.length) = x
  := by
  rw [components_eq_iff] at h
  have hx := h before.length (by simp)
  simpa using hx

/-! ### Setting one place after the other -/

theorem atPlace_setPlace {d : Document} {p : Place} (h : d.atPlace p = none) (x : Option Value) :
  (d.setPlace p x).atPlace p = x
  := by
  cases x with
  | none => apply h
  | some v => apply follow?_put d v p.names p.names_ne_nil

theorem atPlace_setPlace_of_apart (d : Document) {p q : Place} (h : p.Apart q)
    (x : Option Value) :
  (d.setPlace p x).atPlace q = d.atPlace q
  := by
  cases x with
  | none => rfl
  | some v => apply follow?_put_of_apart d v _ _ h

/-- Sets places one after the other. -/
def setPlaces (d : Document) (places : List (Place × Option Value)) : Document :=
  places.foldl (fun out place => out.setPlace place.1 place.2) d

theorem atPlace_setPlaces_of_apart (d : Document) {places : List (Place × Option Value)}
    {q : Place} (h : ∀ place ∈ places, place.1.Apart q) :
  (d.setPlaces places).atPlace q = d.atPlace q
  := by
  induction places generalizing d with
  | nil => rfl
  | cons place rest ih =>
      rw [setPlaces, List.foldl_cons, ← setPlaces,
        ih _ fun other hother => h other (List.mem_cons_of_mem _ hother),
        atPlace_setPlace_of_apart d (h place List.mem_cons_self)]

/-- Of places that are apart each gets what is set there. -/
theorem atPlace_setPlaces {d : Document} {places : List (Place × Option Value)}
    (hapart : places.Pairwise fun p q => p.1.Apart q.1) {place : Place × Option Value}
    (hmem : place ∈ places) (hnone : d.atPlace place.1 = none) :
  (d.setPlaces places).atPlace place.1 = place.2
  := by
  induction places generalizing d with
  | nil => cases hmem
  | cons first rest ih =>
      obtain ⟨hfirst, hrest⟩ := List.pairwise_cons.mp hapart
      rw [setPlaces, List.foldl_cons, ← setPlaces]
      rcases List.mem_cons.mp hmem with rfl | hmem
      · rw [atPlace_setPlaces_of_apart, atPlace_setPlace hnone]
        intro other hother
        apply (hfirst other hother).symm
      · apply ih hrest hmem
        rw [atPlace_setPlace_of_apart d (hfirst place hmem), hnone]

/-! ### Compound keys -/

theorem get?_numbered (components : List (Option Value)) (first n : Nat) :
  Fields.get? (Fields.ofSet (numbered first components)) (Integer.text n)
    = if first ≤ n then (components[n - first]?).join else none
  := by
  induction components generalizing first with
  | nil => simp [numbered, Fields.get?_ofSet_nil]
  | cons x rest ih =>
      rw [numbered, Fields.get?_ofSet_cons, ih]
      by_cases hfirst : first = n
      · have hnext : ¬ first + 1 ≤ n := by omega
        rw [if_pos (congrArg Integer.text (congrArg Nat.cast hfirst)), if_neg hnext, Option.or_none,
          if_pos (Nat.le_of_eq hfirst), hfirst, Nat.sub_self]
        rfl
      · have htext : Integer.text first ≠ Integer.text n := by
          intro heq
          apply hfirst (Integer.text_injective heq)
        rw [if_neg htext]
        by_cases hle : first ≤ n
        · have hindex : n - first = (n - (first + 1)) + 1 := by omega
          have hnext : first + 1 ≤ n := by omega
          rw [if_pos hle, if_pos hnext, hindex, List.getElem?_cons_succ]
        · have hnext : ¬ first + 1 ≤ n := by omega
          rw [if_neg hle, if_neg hnext]

/-- A compound key has the components of which it is made. -/
theorem get?_compound (components : List (Option Value)) (j : Nat) :
  Fields.get? (compound components) (Integer.text j) = (components[j]?).join
  := by
  rw [compound, get?_numbered, if_pos (Nat.zero_le j), Nat.sub_zero]

theorem atPlace_column (row : Document) (c : Column) :
  row.atPlace (.column c) = row.get? c.name
  := by
  rw [atPlace, Place.names_column]
  rfl

theorem atPlace_component (row : Document) (j : Nat) :
  row.atPlace (.component j) = (row.inner "_id").get? (Integer.text j)
  := by
  rw [atPlace, Place.names_component, follow?_cons_cons]
  rfl

end Document

namespace Engine

variable (E : Engine)

theorem key_ownKey (n : Nat) (row : Document) :
  E.key (Stage.ownKey n) row = row.components n
  := by
  rw [key, Stage.ownKey, List.map_map]
  rfl

/-! ### Rows of groups -/

variable (columns : List (Column × Accumulator)) (bunch : Bunch (List (Option Value)) Document)

/-- The row of a group has the components of its key. -/
theorem components_groupRow :
  (E.groupRow columns bunch).components bunch.key.length = bunch.key
  := by
  rw [Document.components_eq_iff]
  intro j h
  have hinner : (E.groupRow columns bunch).inner "_id" = Document.compound bunch.key := rfl
  rw [Document.atPlace_component, hinner, Document.get?_compound]
  simp [h]

/-- The row of a group has in a column what its accumulator computes. -/
theorem atPlace_column_groupRow (c : Column) :
  (E.groupRow columns bunch).atPlace (.column c)
    = (columns.find? fun column => column.1 = c).map fun column => E.accumulate bunch.items column.2
  := by
  have hname : ∀ {c c' : Column}, c.name = c'.name ↔ c = c' := by
    intro c c'
    cases c <;> cases c' <;> decide
  have hkey : "_id" ≠ c.name := by
    cases c <;> decide
  rw [Document.atPlace_column, groupRow, Fields.get?, if_neg hkey]
  induction columns with
  | nil => rfl
  | cons column rest ih =>
      rw [List.map_cons, Fields.get?, List.find?_cons, ih]
      by_cases h : column.1 = c
      · simp [h]
      · simp [h, hname]

/-! ### Replaced components -/

/-- A projection that speaks of the key sets its places on an empty row. -/
theorem projectRow_eq {places : List (Place × Projection)}
    (h : places.any fun place => place.1.inKey) (row : Document) :
  E.projectRow places row = Document.setPlaces []
    (places.map fun place => (place.1, E.projected row place.1 place.2))
  := by
  rw [projectRow, if_pos h, Document.setPlaces, List.foldl_map]

theorem atPlace_nil (p : Place) :
  Document.atPlace [] p = none
  := by
  apply Document.follow?_nil

/-- A projection whose places are apart puts at each of them what it says. -/
theorem atPlace_projectRow {places : List (Place × Projection)}
    (hkey : places.any fun place => place.1.inKey)
    (hapart : places.Pairwise fun p q => p.1.Apart q.1) (row : Document)
    (place : Place × Projection) (hmem : place ∈ places) :
  (E.projectRow places row).atPlace place.1 = E.projected row place.1 place.2
  := by
  have hplaces : (places.map fun place => (place.1, E.projected row place.1 place.2)).Pairwise
      fun p q => p.1.Apart q.1 := by
    apply List.pairwise_map.mpr
    apply hapart
  have hplace := List.mem_map_of_mem (f := fun place : Place × Projection =>
    (place.1, E.projected row place.1 place.2)) hmem
  rw [projectRow_eq E hkey]
  apply Document.atPlace_setPlaces hplaces hplace (atPlace_nil place.1)

/-- The places of the projection that replaces a component. -/
def replaced (depth index : Nat) (e : Expr) : List (Place × Projection) :=
  (.component index, .compute e)
    :: ((List.range depth).filter fun j => j ≠ index).map
      (fun j => (Place.component j, Projection.keep))
    ++ [(.column .id, .keep), (.column .value, .keep)]

theorem replaceComponent_eq (depth index : Nat) (e : Expr) :
  Level.replaceComponent depth index e = .project (replaced depth index e)
  := by
  rfl

theorem apart_replaced (depth index : Nat) (e : Expr) :
  (replaced depth index e).Pairwise fun p q => p.1.Apart q.1
  := by
  rw [replaced, List.pairwise_append, List.pairwise_cons]
  constructor
  · constructor
    · intro place hplace
      obtain ⟨j, hj, rfl⟩ := List.mem_map.mp hplace
      have hne := (List.mem_filter.mp hj).2
      rw [decide_eq_true_eq] at hne
      apply Place.apart_components (Ne.symm hne)
    · apply List.pairwise_map.mpr
      apply List.Pairwise.filter
      apply List.nodup_range.imp
      intro i j hne
      apply Place.apart_components hne
  · constructor
    · simp [Place.apart_columns]
    · intro p hp q hq
      have hcolumn : ∃ c, q.1 = .column c := by
        simp only [List.mem_cons, List.not_mem_nil, or_false] at hq
        rcases hq with rfl | rfl
        · use .id
        · use .value
      obtain ⟨c, hc⟩ := hcolumn
      rw [hc]
      rcases List.mem_cons.mp hp with rfl | hp
      · apply Place.apart_component_column
      · obtain ⟨j, -, rfl⟩ := List.mem_map.mp hp
        apply Place.apart_component_column

variable {depth index : Nat} (e : Expr) (row : Document)

theorem replaced_inKey :
  (replaced depth index e).any fun place => place.1.inKey
  := by
  rfl

/-- The replaced component is computed. -/
theorem atPlace_component_replaced_self :
  (E.projectRow (replaced depth index e) row).atPlace (.component index) = E.eval row e
  := by
  apply E.atPlace_projectRow (replaced_inKey e) (apart_replaced depth index e) row
    (.component index, .compute e)
  apply List.mem_cons_self

/-- The other components are kept. -/
theorem atPlace_component_replaced_of_ne {j : Nat} (hj : j < depth) (hne : j ≠ index) :
  (E.projectRow (replaced depth index e) row).atPlace (.component j)
    = row.atPlace (.component j)
  := by
  apply E.atPlace_projectRow (replaced_inKey e) (apart_replaced depth index e) row
    (.component j, .keep)
  apply List.mem_append_left
  apply List.mem_cons_of_mem
  apply List.mem_map.mpr
  use j
  simp [hj, hne]

/-- The number of records is kept. -/
theorem atPlace_value_replaced :
  (E.projectRow (replaced depth index e) row).atPlace (.column .value)
    = row.atPlace (.column .value)
  := by
  apply E.atPlace_projectRow (replaced_inKey e) (apart_replaced depth index e) row
    (.column .value, .keep)
  apply List.mem_append_right
  simp

theorem components_replaced :
  (E.projectRow (replaced depth index e) row).components depth
    = (row.components depth).set index (E.eval row e)
  := by
  apply Document.components_eq_set
  · apply atPlace_component_replaced_self
  · intro j hj hne
    apply atPlace_component_replaced_of_ne E e row hj hne

/-! ### Rows of innermost buckets -/

/-- The places of the projection that forms the innermost buckets. -/
def leafPlaces : List (Place × Projection) :=
  [(.key, .keep), (.column .id, .keep), (.column .value, .keep), (.column .buckets, .emptyList)]

theorem leaf_eq :
  Level.leaf = .project leafPlaces
  := by
  rfl

theorem apart_leafPlaces :
  leafPlaces.Pairwise fun p q => p.1.Apart q.1
  := by
  simp [leafPlaces, Place.apart_key_column, Place.apart_columns]

/-- The innermost bucket has at a place that is kept what was there. -/
theorem atPlace_leaf {p : Place} (h : (p, Projection.keep) ∈ leafPlaces) :
  (E.projectRow leafPlaces row).atPlace p = row.atPlace p
  := by
  apply E.atPlace_projectRow (by rfl) apart_leafPlaces row (p, .keep) h

theorem atPlace_buckets_leaf :
  (E.projectRow leafPlaces row).atPlace (.column .buckets) = some (.array [])
  := by
  apply E.atPlace_projectRow (by rfl) apart_leafPlaces row (.column .buckets, .emptyList)
  simp [leafPlaces]

/-- The innermost bucket has the components that its row had. -/
theorem components_leaf (n : Nat) :
  (E.projectRow leafPlaces row).components n = row.components n
  := by
  have hinner : (E.projectRow leafPlaces row).inner "_id" = row.inner "_id" := by
    have hkey := E.atPlace_leaf row (p := .key) (by simp [leafPlaces])
    have hget : ∀ d : Document, d.atPlace .key = d.get? "_id" := by
      intro d
      rw [Document.atPlace, Place.names_key]
      rfl
    rw [hget, hget] at hkey
    rw [Document.inner, Document.inner, hkey]
  simp only [Document.components, Document.atPlace_component, hinner]

end Engine

end MongoQuery
