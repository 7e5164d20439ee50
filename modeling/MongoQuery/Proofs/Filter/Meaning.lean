import MongoQuery.Proofs.Filter.Combination
import MongoQuery.Proofs.Query.Plain

/-!
# The meaning of filters and of criteria

A reading of records says which records are elements of the array at a field and which
tests a field passes.  It gives a meaning to filters, `Reading.Meets`: the operator
`$elemMatch` asks for an element that meets the filter behind it, `$not` before it for the
absence of one, and every other test is up to the reading.  It also gives a meaning to
conditions, `Condition.Holds`, by recursion over the condition.

Main statement: a record meets the filter of plain criteria exactly when every statement
that has groups has one whose conditions all hold of the record at their fields.
-/

namespace MongoQuery

/-- How records are read. -/
structure Reading (ρ : Type) where
  /-- Whether the last record is an element of the array that the first has at a field. -/
  element : ρ → String → ρ → Prop
  /-- Whether a field of a record passes a test. -/
  test : ρ → String → Value → Prop

variable {ρ : Type}

namespace Reading

mutual

/-- A record meets a filter when it meets all clauses. -/
def Meets (R : Reading ρ) : List (String × Value) → ρ → Prop
  | [], _ => True
  | (name, v) :: rest, r => MeetsClause R name v r ∧ Meets R rest r

/-- A record meets a clause: a connective by the filters that it connects, an element match
by an element of the array, and all else by the test of the field. -/
def MeetsClause (R : Reading ρ) (name : String) : Value → ρ → Prop
  | .array items, r =>
    if Filter.areDocuments items ∧ name = "$and" then MeetsAll R items r
    else if Filter.areDocuments items ∧ name = "$or" then MeetsSome R items r
    else R.test r name (.array items)
  | .document [(operator, .document d)], r =>
    if operator = "$elemMatch" then ∃ e, R.element r name e ∧ Meets R d e
    else if operator = "$not" then MeetsNegation R name d r
    else R.test r name (.document [(operator, .document d)])
  | v, r => R.test r name v

/-- A record meets the negation of an element match when no element of the array does;
every other negation is a test. -/
def MeetsNegation (R : Reading ρ) (name : String) : List (String × Value) → ρ → Prop
  | [(operator, .document d)], r =>
    if operator = "$elemMatch" then ¬ ∃ e, R.element r name e ∧ Meets R d e
    else R.test r name (.document [("$not", .document [(operator, .document d)])])
  | d, r => R.test r name (.document [("$not", .document d)])

/-- A record meets all filters of a list. -/
def MeetsAll (R : Reading ρ) : List Value → ρ → Prop
  | [], _ => True
  | v :: rest, r => MeetsValue R v r ∧ MeetsAll R rest r

/-- A record meets some filter of a list. -/
def MeetsSome (R : Reading ρ) : List Value → ρ → Prop
  | [], _ => False
  | v :: rest, r => MeetsValue R v r ∨ MeetsSome R rest r

/-- A record meets a value that is a filter. -/
def MeetsValue (R : Reading ρ) : Value → ρ → Prop
  | .document d, r => Meets R d r
  | _, _ => False

end

/-- What the fields of one record pass, element matches included. -/
def fieldTest (R : Reading ρ) (r : ρ) : String → Value → Prop :=
  fun field v => R.MeetsClause field v r

variable (R : Reading ρ)

mutual

/-- To meet a filter is that it holds under the tests of the record's fields. -/
theorem meets_iff_holds (r : ρ) :
    ∀ d : List (String × Value), R.Meets d r ↔ Filter.Holds (R.fieldTest r) d
  | [] => Iff.rfl
  | (name, v) :: rest => by
      rw [Meets, Filter.Holds, meetsClause_iff_holds r name v, meets_iff_holds r rest]

theorem meetsClause_iff_holds (r : ρ) (name : String) :
    ∀ v : Value, R.MeetsClause name v r ↔ Filter.HoldsClause (R.fieldTest r) name v
  | .array items => by
      rw [Filter.HoldsClause]
      by_cases hand : Filter.areDocuments items ∧ name = "$and"
      · rw [if_pos hand, MeetsClause, if_pos hand, meetsAll_iff_holds r items]
      · rw [if_neg hand]
        by_cases hor : Filter.areDocuments items ∧ name = "$or"
        · rw [if_pos hor, MeetsClause, if_neg hand, if_pos hor, meetsSome_iff_holds r items]
        · rw [if_neg hor, fieldTest]
  | .document _ => Iff.rfl
  | .null | .bool _ | .int32 _ | .int64 _ | .double _ | .decimal128 _ | .string _ | .objectId _
  | .date _ | .symbol _ | .code _ | .codeWithScope _ _ | .timestamp _ _ | .regex _ _ | .binary _ _
  | .dbPointer _ _ | .minKey | .maxKey | .undefined => Iff.rfl

theorem meetsAll_iff_holds (r : ρ) :
    ∀ items : List Value, R.MeetsAll items r ↔ Filter.HoldAll (R.fieldTest r) items
  | [] => Iff.rfl
  | v :: rest => by
      rw [MeetsAll, Filter.HoldAll, meetsValue_iff_holds r v, meetsAll_iff_holds r rest]

theorem meetsSome_iff_holds (r : ρ) :
    ∀ items : List Value, R.MeetsSome items r ↔ Filter.HoldsSome (R.fieldTest r) items
  | [] => Iff.rfl
  | v :: rest => by
      rw [MeetsSome, Filter.HoldsSome, meetsValue_iff_holds r v, meetsSome_iff_holds r rest]

theorem meetsValue_iff_holds (r : ρ) :
    ∀ v : Value, R.MeetsValue v r ↔ Filter.HoldsValue (R.fieldTest r) v
  | .document d => meets_iff_holds r d
  | .array _ => Iff.rfl
  | .null | .bool _ | .int32 _ | .int64 _ | .double _ | .decimal128 _ | .string _ | .objectId _
  | .date _ | .symbol _ | .code _ | .codeWithScope _ _ | .timestamp _ _ | .regex _ _ | .binary _ _
  | .dbPointer _ _ | .minKey | .maxKey | .undefined => Iff.rfl

end

/-! ### The tests of single conditions -/

theorem fieldTest_elementMatch (r : ρ) (field : String) (d : Document) :
  R.fieldTest r field (.document (Document.single "$elemMatch" (.document d)))
    ↔ ∃ e, R.element r field e ∧ R.Meets d e
  := by
  rw [fieldTest, Document.single, MeetsClause, if_pos rfl]

theorem fieldTest_noElementMatch (r : ρ) (field : String) (d : Document) :
  R.fieldTest r field (.document (Document.single "$not"
      (.document (Document.single "$elemMatch" (.document d)))))
    ↔ ¬ ∃ e, R.element r field e ∧ R.Meets d e
  := by
  rw [fieldTest, Document.single, Document.single, MeetsClause, if_neg (by simp), if_pos rfl,
    MeetsNegation, if_pos rfl]

/-- An operator other than those of element matches leaves the test to the reading. -/
theorem fieldTest_operation (r : ρ) (field : String) {operator : String} (v : Value)
    (hmatch : operator ≠ "$elemMatch") (hnot : operator ≠ "$not") :
  R.fieldTest r field (.document (Document.single operator v))
    ↔ R.test r field (.document (Document.single operator v))
  := by
  cases v with
  | document d => rw [fieldTest, Document.single, MeetsClause, if_neg hmatch, if_neg hnot]
  | _ => rfl

/-- A value that begins with no operator is a test of a field. -/
theorem fieldTest_literal (r : ρ) {field : String} (hfield : isOperatorName field = false)
    {v : Value} (hv : v.isOperation = false) :
  R.fieldTest r field v ↔ R.test r field v
  := by
  rw [fieldTest]
  unfold MeetsClause
  split
  · next items => rw [if_neg (by simp [ne_and_of_field hfield]),
      if_neg (by simp [ne_or_of_field hfield])]
  · next operator d =>
      have hmatch : operator ≠ "$elemMatch" := by
        rintro rfl
        change isOperatorName "$elemMatch" = false at hv
        exact absurd hv (by decide)
      have hnot : operator ≠ "$not" := by
        rintro rfl
        change isOperatorName "$not" = false at hv
        exact absurd hv (by decide)
      rw [if_neg hmatch, if_neg hnot]
  · rfl

end Reading

/-! ### The meaning of conditions -/

namespace Condition

mutual

/-- A condition holds of a record at a field: that of a composite by its parts at the same
field, one that asks for an element by the elements of the array, and a single one by the
test that it makes of the field. -/
def Holds (R : Reading ρ) (now : Instant) : Condition → String → ρ → Prop
  | .eq value, field, r => R.test r field value
  | .neq value, field, r => R.test r field (.document (Document.single "$ne" value))
  | .order comparison bound, field, r =>
    R.test r field (.document (Document.single comparison.operator (bound.resolve now)))
  | .startsWith text, field, r =>
    R.test r field (.document
      [("$regex", .string (Pattern.startingWith text)), ("$options", .string "i")])
  | .all parts, field, r => HoldAll R now parts field r
  | .any parts, field, r => HoldsSome R now parts field r
  | .find group, field, r => ∃ e, R.element r field e ∧ HoldFields R now group e
  | .nfind group, field, r => ¬ ∃ e, R.element r field e ∧ HoldFields R now group e

/-- All conditions of a list hold of a record at a field. -/
def HoldAll (R : Reading ρ) (now : Instant) : List Condition → String → ρ → Prop
  | [], _, _ => True
  | c :: rest, field, r => Holds R now c field r ∧ HoldAll R now rest field r

/-- Some condition of a list holds of a record at a field. -/
def HoldsSome (R : Reading ρ) (now : Instant) : List Condition → String → ρ → Prop
  | [], _, _ => False
  | c :: rest, field, r => Holds R now c field r ∨ HoldsSome R now rest field r

/-- The conditions of a group hold of a record, each at its field. -/
def HoldFields (R : Reading ρ) (now : Instant) : List (String × Condition) → ρ → Prop
  | [], _ => True
  | (field, c) :: rest, r => Holds R now c field r ∧ HoldFields R now rest r

end

variable (R : Reading ρ) (now : Instant)

theorem holdFields_iff (r : ρ) (group : List (String × Condition)) :
  HoldFields R now group r ↔ ∀ f ∈ group, Holds R now f.2 f.1 r
  := by
  induction group with
  | nil => simp [HoldFields]
  | cons f rest ih => rw [HoldFields, ih, List.forall_mem_cons]

/-- The elements that meet the filter of a group are those of which its conditions hold. -/
theorem exists_meets_iff {group : Group} (hregular : group.Regular)
    (ih : ∀ e : ρ, (∀ f ∈ group, (f.2.fragment now).Holds (R.fieldTest e f.1))
      ↔ HoldFields R now group e) (r : ρ) (field : String) :
  (∃ e, R.element r field e ∧ R.Meets (group.filter now) e)
    ↔ ∃ e, R.element r field e ∧ HoldFields R now group e
  := by
  simp only [R.meets_iff_holds, Group.holds_filter now _ hregular, ih]

mutual

/-- The fragment of a plain condition holds under the tests of a record's field exactly when
the condition holds of the record at the field. -/
theorem holds_fragment_iff (r : ρ) {field : String} (hfield : isOperatorName field = false) :
    ∀ c : Condition, c.Distinct → c.Plain →
      ((c.fragment now).Holds (R.fieldTest r field) ↔ Holds R now c field r)
  | .eq value, _, hplain => by
      rw [fragment, Fragment.Holds, Holds]
      apply R.fieldTest_literal r hfield hplain
  | .neq value, _, _ => by
      rw [fragment, Fragment.Holds, Holds]
      apply R.fieldTest_operation r field value
      · decide
      · decide
  | .order comparison bound, _, _ => by
      rw [fragment, Fragment.Holds, Holds]
      apply R.fieldTest_operation r field _ comparison.operator_ne_elemMatch
        comparison.operator_ne_not
  | .startsWith text, _, _ => Iff.rfl
  | .all parts, hdistinct, hplain => by
      rw [fragment, Fragment.Holds, Holds]
      apply holdAll_fragments_iff r hfield parts hdistinct hplain
  | .any parts, hdistinct, hplain => by
      rw [fragment, Fragment.Holds, Holds]
      apply holdsSome_fragments_iff r hfield parts hdistinct hplain
  | .find group, hdistinct, hplain => by
      have ih := fun e => holdFields_fragments_iff e group hdistinct.2 hplain
      have hregular := Group.Regular.of_plain hdistinct.1 hplain
      rw [fragment, Fragment.Holds, Holds, ← exists_meets_iff R now hregular ih]
      apply R.fieldTest_elementMatch
  | .nfind group, hdistinct, hplain => by
      have ih := fun e => holdFields_fragments_iff e group hdistinct.2 hplain
      have hregular := Group.Regular.of_plain hdistinct.1 hplain
      rw [fragment, Fragment.Holds, Holds, ← exists_meets_iff R now hregular ih]
      apply R.fieldTest_noElementMatch

theorem holdAll_fragments_iff (r : ρ) {field : String} (hfield : isOperatorName field = false) :
    ∀ parts : List Condition, DistinctParts parts → PlainParts parts →
      (Fragment.HoldAll (R.fieldTest r field) (fragments now parts) ↔ HoldAll R now parts field r)
  | [], _, _ => Iff.rfl
  | c :: rest, hdistinct, hplain => by
      rw [fragments, Fragment.HoldAll, HoldAll,
        holds_fragment_iff r hfield c hdistinct.1 hplain.1,
        holdAll_fragments_iff r hfield rest hdistinct.2 hplain.2]

theorem holdsSome_fragments_iff (r : ρ) {field : String} (hfield : isOperatorName field = false) :
    ∀ parts : List Condition, DistinctParts parts → PlainParts parts →
      (Fragment.HoldsSome (R.fieldTest r field) (fragments now parts)
        ↔ HoldsSome R now parts field r)
  | [], _, _ => Iff.rfl
  | c :: rest, hdistinct, hplain => by
      rw [fragments, Fragment.HoldsSome, HoldsSome,
        holds_fragment_iff r hfield c hdistinct.1 hplain.1,
        holdsSome_fragments_iff r hfield rest hdistinct.2 hplain.2]

theorem holdFields_fragments_iff (r : ρ) :
    ∀ group : List (String × Condition), DistinctFields group → PlainFields group →
      ((∀ f ∈ group, (f.2.fragment now).Holds (R.fieldTest r f.1)) ↔ HoldFields R now group r)
  | [], _, _ => by simp [HoldFields]
  | (field, c) :: rest, hdistinct, hplain => by
      rw [List.forall_mem_cons, HoldFields,
        holds_fragment_iff r hplain.1.1 c hdistinct.1 hplain.1.2,
        holdFields_fragments_iff r rest hdistinct.2 hplain.2]

end

end Condition

/-- A record meets the filter of a plain group exactly when the conditions of the group hold
of it at their fields. -/
theorem Group.meets_filter (R : Reading ρ) (now : Instant) {group : Group}
    (hdistinct : group.Distinct) (hplain : group.Plain) (r : ρ) :
  R.Meets (group.filter now) r ↔ ∀ f ∈ group, Condition.Holds R now f.2 f.1 r
  := by
  rw [R.meets_iff_holds,
    Group.holds_filter now _ (Group.Regular.of_plain hdistinct.names hplain),
    Condition.holdFields_fragments_iff R now r group hdistinct.inner hplain,
    Condition.holdFields_iff]

/-! ### The main statement -/

/-- Documents read by their paths: the documents in the array at a path are its elements, and
a path passes the test of a value when it leads to that value. -/
def Reading.ofPaths : Reading Document where
  element d field e := ∃ items, d.at? field = some (.array items) ∧ .document e ∈ items
  test d field v := d.at? field = some v

/-- Criteria with two statements, of one group and of two. -/
def Criteria.sample : Criteria :=
  ⟨[[[("lists", .all [.find [("id", .eq (.string "a"))], .nfind [("id", .eq (.string "b"))]])]],
    [[("age", .eq (.int32 3))], [("name", .any [.eq .null, .eq (.string "bob")])]]]⟩

theorem Criteria.sample_distinct :
  sample.Distinct
  := by
  have hsingle : ∀ (field : String) (c : Condition), c.Distinct → Group.Distinct [(field, c)] :=
    Group.distinct_single
  have hlists : ∀ (field : String) (c : Condition), Fields.Distinct [(field, c)] := by
    intro field c
    apply List.nodup_singleton
  simp only [sample, Criteria.Distinct, List.forall_mem_cons, List.not_mem_nil, false_implies,
    implies_true, and_true]
  constructor
  · apply hsingle
    simp [Condition.Distinct, Condition.DistinctParts, Condition.DistinctFields, hlists]
  · constructor
    · apply hsingle
      apply True.intro
    · apply hsingle
      simp [Condition.Distinct, Condition.DistinctParts]

theorem Criteria.sample_plain :
  sample.Plain
  := by
  simp [sample, Plain, Group.Plain, Condition.PlainFields, Condition.Plain, Condition.PlainParts,
    isOperatorName, Value.isOperation]

/-- A record meets the filter of plain criteria exactly when every statement that has groups
has one whose conditions all hold of the record at their fields. -/
theorem Criteria.meets_filter_iff (R : Reading ρ) (now : Instant) (criteria : Criteria)
    (hdistinct : criteria.Distinct) (hplain : criteria.Plain) (r : ρ) :
  R.Meets (criteria.filter now) r ↔ ∀ statement ∈ criteria.statements, statement ≠ [] →
    ∃ group ∈ statement, ∀ f ∈ group, Condition.Holds R now f.2 f.1 r
  := by
  rw [R.meets_iff_holds,
    Criteria.holds_filter_iff_groups now _ (criteria.regular hdistinct hplain)]
  simp only [← R.meets_iff_holds]
  constructor
  · intro h statement hs hne
    obtain ⟨group, hg, hmeets⟩ := h statement hs hne
    use group, hg
    apply (Group.meets_filter R now (hdistinct _ hs _ hg) (hplain _ hs _ hg) r).mp hmeets
  · intro h statement hs hne
    obtain ⟨group, hg, hholds⟩ := h statement hs hne
    use group, hg
    apply (Group.meets_filter R now (hdistinct _ hs _ hg) (hplain _ hs _ hg) r).mpr hholds

/-- A record whose list holds an element `a` and no other meets the sample by its name. -/
theorem Criteria.meets_filter_sample :
  sample.Distinct ∧ sample.Plain ∧ Reading.ofPaths.Meets (sample.filter ⟨0⟩)
    [("name", .string "bob"), ("lists", .array [.document [("id", .string "a")]])]
  := by
  use sample_distinct, sample_plain
  apply (Criteria.meets_filter_iff Reading.ofPaths ⟨0⟩ sample sample_distinct sample_plain _).mpr
  have hlists : Document.at? [("name", .string "bob"),
      ("lists", .array [.document [("id", .string "a")]])] "lists"
        = some (.array [.document [("id", .string "a")]]) := rfl
  have hid : Document.at? [("id", .string "a")] "id" = some (.string "a") := rfl
  have hname : Document.at? [("name", .string "bob"),
      ("lists", .array [.document [("id", .string "a")]])] "name" = some (.string "bob") := rfl
  simp [sample, Condition.Holds, Condition.HoldAll, Condition.HoldsSome, Condition.HoldFields,
    Reading.ofPaths, hlists, hid, hname]
end MongoQuery
