import Mathlib.Data.List.Basic
import Mathlib.Tactic.Use
import MongoQuery.Query.FilterSpec

/-!
# Paths through documents

A path is some names with a point between each two.  Names lead from a document to a value
when each of them but the last is the name of a document within the one before, and the last
is the name of the value.  What is read at a path is the value to which its names lead.
-/

namespace MongoQuery

/-! ### Text between points -/

namespace Text

theorem splitChars_eq_splitOn (separator : Char) (cs : List Char) :
  splitChars separator cs = cs.splitOn separator
  := by
  induction cs with
  | nil => rfl
  | cons c rest ih =>
      obtain ⟨first, others, hsplit⟩ :=
        List.exists_cons_of_ne_nil (List.splitOn_ne_nil separator rest)
      rw [splitChars, List.splitOn_cons_eq_if_modifyHead, ih, hsplit]
      by_cases hc : c = separator
      · simp [hc]
      · simp [hc]

theorem not_mem_of_mem_splitOn {separator : Char} {cs part : List Char}
    (h : part ∈ cs.splitOn separator) :
  separator ∉ part
  := by
  induction cs generalizing part with
  | nil =>
      obtain rfl := List.mem_singleton.mp h
      apply List.not_mem_nil
  | cons c rest ih =>
      obtain ⟨first, others, hsplit⟩ :=
        List.exists_cons_of_ne_nil (List.splitOn_ne_nil separator rest)
      rw [List.splitOn_cons_eq_if_modifyHead, hsplit] at h
      rw [hsplit] at ih
      by_cases hc : c = separator
      · rw [if_pos (by simpa using hc)] at h
        rcases List.mem_cons.mp h with rfl | hpart
        · apply List.not_mem_nil
        · apply ih hpart
      · rw [if_neg (by simpa using hc), List.modifyHead_cons] at h
        rcases List.mem_cons.mp h with rfl | hpart
        · rw [List.mem_cons, not_or]
          use Ne.symm hc
          apply ih List.mem_cons_self
        · apply ih (List.mem_cons_of_mem first hpart)

/-- The parts of a text are the texts without separators that make it with a separator between
each two. -/
theorem split_eq_iff (separator : Char) (text : String) (parts : List String) :
  split separator text = parts
    ↔ parts ≠ [] ∧ (∀ part ∈ parts, separator ∉ part.toList)
      ∧ text = (String.singleton separator).intercalate parts
  := by
  have htext : text = (String.singleton separator).intercalate parts
      ↔ text.toList = [separator].intercalate (parts.map String.toList) := by
    rw [← String.toList_inj, String.toList_intercalate, String.toList_singleton]
  rw [htext, split, splitChars_eq_splitOn]
  constructor
  · rintro rfl
    have hlists : ((text.toList.splitOn separator).map String.ofList).map String.toList
        = text.toList.splitOn separator := by
      simp
    constructor
    · simp
    constructor
    · rw [List.forall_mem_map]
      intro part hpart
      rw [String.toList_ofList]
      apply not_mem_of_mem_splitOn hpart
    · rw [hlists, List.intercalate_splitOn]
  · rintro ⟨hne, hparts, hlist⟩
    have hsplit : text.toList.splitOn separator = parts.map String.toList := by
      rw [hlist, List.splitOn_intercalate separator _ (by simpa using hne)]
      simpa using hparts
    rw [hsplit]
    simp

end Text

namespace Document

/-- Names lead from a document to a value. -/
inductive Leads : Document → List String → Value → Prop
  | last {d : Document} {name : String} {v : Value} (h : d.get? name = some v) : Leads d [name] v
  | through {d inner : Document} {name : String} {names : List String} {v : Value}
      (h : d.get? name = some (.document inner)) (hinner : Leads inner names v) :
    Leads d (name :: names) v

/-- A path leads from a document to a value: the names between its points do. -/
def LeadsTo (d : Document) (path : String) (v : Value) : Prop :=
  ∃ names : List String, (∀ name ∈ names, '.' ∉ name.toList) ∧ path = ".".intercalate names
    ∧ Leads d names v

theorem Leads.ne_nil {d : Document} {names : List String} {v : Value} (h : Leads d names v) :
  names ≠ []
  := by
  cases h with
  | last h => apply List.cons_ne_nil
  | through h hinner => apply List.cons_ne_nil

/-- What is at the end of some names is the value to which they lead. -/
theorem follow?_eq_some_iff (d : Document) (names : List String) (v : Value) :
  d.follow? names = some v ↔ Leads d names v
  := by
  constructor
  · intro h
    fun_induction follow? d names with
    | case1 => cases h
    | case2 d name => exact .last h
    | case3 d name rest hne inner hinner ih => exact .through hinner (ih h)
    | case4 => cases h
  · intro h
    induction h with
    | last h => apply h
    | @through d inner name names v h hinner ih =>
        obtain ⟨next, rest, rfl⟩ := List.exists_cons_of_ne_nil hinner.ne_nil
        rw [follow?, h]
        · apply ih
        · simp

/-- What is read at a path is the value to which it leads. -/
theorem at?_eq_some_iff (d : Document) (path : String) (v : Value) :
  d.at? path = some v ↔ d.LeadsTo path v
  := by
  have hpoint : String.singleton '.' = "." := rfl
  rw [at?, follow?_eq_some_iff]
  constructor
  · intro h
    obtain ⟨-, hparts, hpath⟩ := (Text.split_eq_iff '.' path _).mp rfl
    use pathNames path, hparts
    use hpath
  · rintro ⟨names, hparts, hpath, h⟩
    have hnames : pathNames path = names := by
      apply (Text.split_eq_iff '.' path names).mpr
      use h.ne_nil, hparts
      apply hpath
    rw [hnames]
    apply h

end Document

end MongoQuery
