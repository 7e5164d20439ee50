import MongoQuery.Proofs.Filter.Assembly
import MongoQuery.Proofs.Wire.Agreement
import MongoQuery.Proofs.Wire.Faults

/-!
# Groups as maps with an order

A group is built by giving fields conditions, one after the other, and reading a group is
such a building: the fields of the document are given their conditions in the order in
which they stand there.

Main statement: what is built is a map in the order of first insertions, whose filter
therefore overwrites nothing, except where the conjunction goes; and a group that is read
has the fields of its document in their order.
-/

namespace MongoQuery.Group

/-! ### Reading field by field -/

/-- Reads the fields of a document one after the other and gives each its condition in a
group. -/
def readOnto (group : Group) : Document → Except DecodeError Group
  | [] => .ok group
  | (field, v) :: rest => do
    let c ← Condition.ofValue (Condition.notCondition field) v
    readOnto (Fields.insert group field c) rest

/-- Fields that are read one after the other give a group the conditions that the document
says. -/
theorem readOnto_eq (group : Group) (d : Document) :
  group.readOnto d = (decode d).map fun settings =>
    settings.foldl (fun g s => Fields.insert g s.1 s.2) group
  := by
  induction d generalizing group with
  | nil => rfl
  | cons entry rest ih =>
      obtain ⟨field, v⟩ := entry
      rw [readOnto, decode, Condition.groupOfFields]
      cases Condition.ofValue (Condition.notCondition field) v with
      | error e => rfl
      | ok c =>
          apply (ih (Fields.insert group field c)).trans
          rw [decode]
          cases Condition.groupOfFields rest <;> rfl

/-- A group has the fields of the document from which it is read. -/
theorem names_decode {d : Document} {group : Group} (h : decode d = .ok group) :
  Fields.names group = Fields.names d
  := by
  rw [decode, Condition.groupOfFields_eq, mapM_eq_ok_iff] at h
  induction h with
  | nil => rfl
  | cons hfield _ ih =>
      obtain ⟨c, -, rfl⟩ := (map_eq_ok_iff _ _ _).mp hfield
      apply congrArg (List.cons _) ih

/-- A document that names every field once is read field by field. -/
theorem readOnto_nil {d : Document} (h : Fields.Distinct d) :
  readOnto [] d = decode d
  := by
  rw [readOnto_eq]
  cases hdecode : decode d with
  | error e => rfl
  | ok group =>
      have hdistinct : Fields.Distinct group := by
        rw [Fields.Distinct, names_decode hdecode]
        apply h
      apply congrArg Except.ok (Fields.ofList_of_distinct hdistinct)

/-! ### The main statement -/

/-- Conditions that are given to the fields of a new group leave the map that records them, a
further one leaves all other fields as they are and where they are, and the filter of what is
built overwrites nothing, except where the conjunction goes.  A group that is read has the
fields of its document in their order; where the document names every field once, reading it is
such a building. -/
theorem insertion_ordered (now : Instant) :
  (∀ settings : List (String × Condition),
    (∀ group : Group, Fields.Records settings group ↔ group = Fields.ofList settings)
    ∧ (∀ field c (i : Nat) (entry : String × Condition), entry.1 ≠ field →
      ((Fields.insert (Fields.ofList settings) field c)[i]? = some entry
        ↔ (Fields.ofList settings)[i]? = some entry))
    ∧ WrittenOnce now (Fields.ofList settings))
  ∧ (∀ (d : Document) (group : Group), decode d = .ok group →
    Fields.names group = Fields.names d)
  ∧ ∀ d : Document, Fields.Distinct d → readOnto [] d = decode d
    ∧ ∀ group, decode d = .ok group → group.WrittenOnce now
  := by
  constructor
  · intro settings
    constructor
    · apply Fields.records_iff
    constructor
    · intro field c i entry hentry
      apply Fields.getElem?_insert_of_ne _ c hentry
    · apply writtenOnce_of_distinct now (Fields.distinct_ofList settings)
  constructor
  · intro d group hgroup
    apply names_decode hgroup
  · intro d hd
    use readOnto_nil hd
    intro group hgroup
    apply writtenOnce_of_distinct
    rw [Fields.Distinct, names_decode hgroup]
    apply hd

/-- Conditions on residents, the first of which is replaced. -/
def residentSettings : List (String × Condition) :=
  [("name", .eq (.string "bob")),
    ("age", .all [.compare .gte (.int32 18), .compare .lt (.int32 65)]),
    ("city", .isNull),
    ("name", .startsWith "b")]

/-- The document of the conditions that count. -/
def residentDocument : Document :=
  [("name", .document [("op", .string "PREFIX"), ("value", .string "b")]),
    ("age", .document [("op", .string "ALL"), ("value", .array
      [.document [("op", .string "GTE"), ("value", .int32 18)],
        .document [("op", .string "LT"), ("value", .int32 65)]])]),
    ("city", .document [("op", .string "EQ")])]

theorem insertion_ordered_residents :
  Fields.Records residentSettings (Fields.ofList residentSettings)
    ∧ (Fields.insert (Fields.ofList residentSettings) "age" .isNull)[2]? = some ("city", .isNull)
    ∧ Fields.Distinct residentDocument
    ∧ decode residentDocument = .ok (Fields.ofList residentSettings)
    ∧ Fields.names (Fields.ofList residentSettings) = ["name", "age", "city"]
    ∧ WrittenOnce ⟨0⟩ (Fields.ofList residentSettings)
  := by
  obtain ⟨hbuilt, hnames, hread⟩ := insertion_ordered ⟨0⟩
  obtain ⟨hrecords, hothers, -⟩ := hbuilt residentSettings
  have hdistinct : Fields.Distinct residentDocument := by
    simp [residentDocument, Fields.Distinct, Fields.names]
  have hdecode : decode residentDocument = .ok (Fields.ofList residentSettings) := rfl
  constructor
  · apply (hrecords _).mpr rfl
  constructor
  · apply (hothers "age" .isNull 2 ("city", .isNull) (by decide)).mpr rfl
  use hdistinct, hdecode, hnames residentDocument _ hdecode
  apply (hread residentDocument hdistinct).2 _ hdecode

end MongoQuery.Group
