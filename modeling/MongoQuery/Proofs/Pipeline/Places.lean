import Mathlib.Data.List.Basic
import Mathlib.Tactic.Use
import MongoQuery.Pipeline.Stage
import MongoQuery.Proofs.Fields
import MongoQuery.Query.FilterSpec

/-!
# Places in rows

`Document.put` sets the value at a path, making documents on the way where there are none.
What is set is read back, and what is read at a path that neither extends the set one nor
is extended by it stays.  The components of a key are numbered in decimal text, so different
components have such paths, and so have a component and a column.
-/

namespace MongoQuery

/-! ### Numbers as names -/

namespace Digit

theorem toChar_injective :
  Function.Injective toChar
  := by
  unfold Function.Injective
  decide

theorem toChar_ne_point (d : Digit) :
  d.toChar ≠ '.'
  := by
  revert d
  decide

/-- The decimal text of a number has no point. -/
theorem point_not_mem_ofNatText (n : Nat) :
  '.' ∉ ofNatText n
  := by
  intro hmem
  obtain ⟨d, -, hd⟩ := List.mem_map.mp hmem
  apply toChar_ne_point d hd

end Digit

namespace Integer

theorem text_natCast (n : Nat) :
  text n = String.ofList (Digit.ofNatText n)
  := by
  have hsign : ¬ (n : Int) < 0 := by omega
  rw [text, if_neg hsign, Int.natAbs_natCast]

/-- Different numbers have different texts. -/
theorem text_injective {m n : Nat} (h : text m = text n) :
  m = n
  := by
  rw [text_natCast, text_natCast, String.ofList_inj] at h
  have hdigits : Digit.ofNat m = Digit.ofNat n := by
    apply List.map_injective_iff.mpr Digit.toChar_injective h
  rw [← Digit.value_ofNat m, hdigits, Digit.value_ofNat]

end Integer

/-! ### Names on paths -/

theorem Text.splitChars_of_not_mem {separator : Char} {cs : List Char} (h : separator ∉ cs) :
  splitChars separator cs = [cs]
  := by
  induction cs with
  | nil => rfl
  | cons c rest ih =>
      rw [List.mem_cons, not_or] at h
      rw [splitChars, ih h.2]
      simp [Ne.symm h.1]

theorem Text.splitChars_ne_nil (separator : Char) (cs : List Char) :
  splitChars separator cs ≠ []
  := by
  cases cs with
  | nil => apply List.cons_ne_nil
  | cons c rest =>
      rw [splitChars]
      split
      · apply List.cons_ne_nil
      · split
        · apply List.cons_ne_nil
        · apply List.cons_ne_nil

/-- Before a separator there is a part of its own. -/
theorem Text.splitChars_append_cons {separator : Char} {cs : List Char} (h : separator ∉ cs)
    (rest : List Char) :
  splitChars separator (cs ++ separator :: rest) = cs :: splitChars separator rest
  := by
  induction cs with
  | nil =>
      obtain ⟨first, others, hsplit⟩ :=
        List.exists_cons_of_ne_nil (splitChars_ne_nil separator rest)
      rw [List.nil_append, splitChars, hsplit]
      apply if_pos rfl
  | cons c more ih =>
      rw [List.mem_cons, not_or] at h
      rw [List.cons_append, splitChars, ih h.2]
      simp [Ne.symm h.1]

theorem pathNames_ne_nil (path : String) :
  pathNames path ≠ []
  := by
  rw [pathNames, Text.split, Ne, List.map_eq_nil_iff]
  apply Text.splitChars_ne_nil

namespace Place

/-- The names on the path of a place. -/
def names (p : Place) : List String :=
  pathNames p.path

@[simp]
theorem names_key :
  key.names = ["_id"]
  := by
  decide

@[simp]
theorem names_component (index : Nat) :
  (component index).names = ["_id", Integer.text index]
  := by
  have hpath : (component index).path.toList
      = '_' :: 'i' :: 'd' :: '.' :: Digit.ofNatText index := by
    simp [path, Integer.text_natCast]
  rw [names, pathNames, Text.split, hpath, Integer.text_natCast]
  simp [Text.splitChars, Text.splitChars_of_not_mem (Digit.point_not_mem_ofNatText index)]

@[simp]
theorem names_member (index : Nat) (name : String) :
  (member index name).names = "_id" :: Integer.text index :: pathNames name
  := by
  have hpath : (member index name).path.toList
      = '_' :: 'i' :: 'd' :: '.' :: (Digit.ofNatText index ++ '.' :: name.toList) := by
    simp [path, Integer.text_natCast]
  rw [names, pathNames, pathNames, Text.split, Text.split, hpath, Integer.text_natCast]
  simp [Text.splitChars, Text.splitChars_append_cons (Digit.point_not_mem_ofNatText index)]

/-- The paths of the key and of what is within it begin with its name. -/
theorem head?_pathNames_of_key {path : String} {cs : List Char}
    (h : path.toList = '_' :: 'i' :: 'd' :: '.' :: cs) :
  (pathNames path).head? = some "_id"
  := by
  rw [pathNames, Text.split, h]
  cases hsplit : Text.splitChars '.' cs with
  | nil => apply (Text.splitChars_ne_nil '.' cs hsplit).elim
  | cons first others => simp [Text.splitChars, hsplit]

@[simp]
theorem names_column (c : Column) :
  (column c).names = [c.name]
  := by
  cases c <;> decide

end Place

/-! ### Setting the value at a path -/

namespace Document

/-- The document that a field holds, or the empty one. -/
def inner (d : Document) (name : String) : Document :=
  match d.get? name with
  | some (.document fields) => fields
  | _ => []

/-- Sets the value at the end of some names, making the documents on the way. -/
def put (d : Document) : List String → Value → Document
  | [], _ => d
  | [name], v => Fields.insert d name v
  | name :: next :: rest, v =>
    Fields.insert d name (.document (put (d.inner name) (next :: rest) v))

@[simp]
theorem follow?_nil (names : List String) :
  follow? [] names = none
  := by
  cases names with
  | nil => rfl
  | cons name rest =>
      cases rest with
      | nil => rfl
      | cons next more => rfl

theorem follow?_cons_cons (d : Document) (name next : String) (rest : List String) :
  d.follow? (name :: next :: rest) = (d.inner name).follow? (next :: rest)
  := by
  change (match d.get? name with
    | some (.document inner) => follow? inner (next :: rest)
    | _ => none) = _
  rw [inner]
  split
  · rfl
  · rw [follow?_nil]

theorem inner_insert_self (d : Document) (name : String) (fields : Document) :
  inner (Fields.insert d name (.document fields)) name = fields
  := by
  rw [inner, Fields.get?_insert_self]

/-- What is set at a path is read there. -/
theorem follow?_put (d : Document) (v : Value) :
    ∀ names : List String, names ≠ [] → (d.put names v).follow? names = some v
  | [], h => (h rfl).elim
  | [name], _ => by
      apply Fields.get?_insert_self
  | name :: next :: rest, _ => by
      rw [put, follow?_cons_cons, inner_insert_self]
      apply follow?_put (d.inner name) v (next :: rest)
      apply List.cons_ne_nil

/-- Neither of two paths extends the other. -/
def Apart (names names' : List String) : Prop :=
  ¬ names <+: names' ∧ ¬ names' <+: names

theorem Apart.symm {names names' : List String} (h : Apart names names') :
  Apart names' names
  := by
  use h.2
  apply h.1

theorem follow?_insert_of_ne (d : Document) (v : Value) {name other : String} (h : other ≠ name)
    (rest : List String) :
  follow? (Fields.insert d name v) (other :: rest) = d.follow? (other :: rest)
  := by
  cases rest with
  | nil =>
      apply Fields.get?_insert_of_ne d v h
  | cons next more =>
      have hinner : inner (Fields.insert d name v) other = d.inner other := by
        rw [inner, Fields.get?_insert_of_ne d v h]
        rfl
      rw [follow?_cons_cons, follow?_cons_cons, hinner]

/-- What is read apart from the path that is set stays. -/
theorem follow?_put_of_apart (d : Document) (v : Value) :
    ∀ names names' : List String, Apart names names' →
      (d.put names v).follow? names' = d.follow? names'
  | [], names', h => (h.1 List.nil_prefix).elim
  | names, [], h => (h.2 List.nil_prefix).elim
  | [name], name' :: rest', h => by
      have hname : name' ≠ name := by
        rintro rfl
        apply h.1
        apply List.cons_prefix_cons.mpr
        use rfl
        apply List.nil_prefix
      apply follow?_insert_of_ne d v hname
  | name :: next :: rest, name' :: rest', h => by
      by_cases hname : name' = name
      · subst hname
        cases rest' with
        | nil =>
            apply (h.2 _).elim
            apply List.cons_prefix_cons.mpr
            use rfl
            apply List.nil_prefix
        | cons next' more' =>
            have hapart : Apart (next :: rest) (next' :: more') := by
              simpa [Apart, List.cons_prefix_cons] using h
            rw [put, follow?_cons_cons, follow?_cons_cons, inner_insert_self]
            apply follow?_put_of_apart (d.inner name') v _ _ hapart
      · apply follow?_insert_of_ne d _ hname

theorem get?_of_follow?_cons_cons {d : Document} {name next : String} {rest : List String}
    {v : Value} (h : d.follow? (name :: next :: rest) = some v) :
  d.get? name = some (.document (d.inner name))
  := by
  rw [follow?_cons_cons] at h
  cases hget : d.get? name with
  | none =>
      rw [inner, hget, follow?_nil] at h
      cases h
  | some found =>
      cases found with
      | document fields => rw [inner, hget]
      | _ =>
          rw [inner, hget, follow?_nil] at h
          cases h

/-- Setting at a path what is there changes nothing. -/
theorem put_of_follow? (d : Document) (v : Value) :
    ∀ names : List String, d.follow? names = some v → d.put names v = d
  | [], h => by
      cases h
  | [name], h => by
      apply Fields.insert_of_get? h
  | name :: next :: rest, h => by
      have hget := get?_of_follow?_cons_cons h
      rw [follow?_cons_cons] at h
      rw [put, put_of_follow? (d.inner name) v (next :: rest) h, Fields.insert_of_get? hget]

end Document

/-! ### Places apart -/

namespace Place

/-- Two places neither of which is within the other. -/
def Apart (p q : Place) : Prop :=
  Document.Apart p.names q.names

theorem apart_components {i j : Nat} (h : i ≠ j) :
  Apart (component i) (component j)
  := by
  have htext : Integer.text i ≠ Integer.text j := by
    intro heq
    apply h (Integer.text_injective heq)
  simp [Apart, Document.Apart, htext, htext.symm]

theorem apart_component_column (i : Nat) (c : Column) :
  Apart (component i) (column c)
  := by
  cases c <;> simp [Apart, Document.Apart, Column.name]

theorem apart_key_column (c : Column) :
  Apart key (column c)
  := by
  cases c <;> simp [Apart, Document.Apart, Column.name]

theorem apart_columns {c c' : Column} (h : c ≠ c') :
  Apart (column c) (column c')
  := by
  cases c <;> cases c' <;> simp_all [Apart, Document.Apart, Column.name]

theorem names_ne_nil (p : Place) :
  p.names ≠ []
  := by
  apply pathNames_ne_nil

end Place

end MongoQuery
