import Mathlib.Tactic.Use
import MongoQuery.Proofs.Wire.Form

/-!
# Reading back what is written

Conditions and groups are read back from their written forms when they are unambiguous, and
so are filters without a cursor whose limit is a signed number; bucket specifications are
read back when their widths are positive.  Requests are read back when what they consist of
is.
-/

namespace MongoQuery

/-- Items that are read back one by one are read back together. -/
theorem mapM_map_of_forall {α β ε : Type} {write : α → β} {read : β → Except ε α} :
    ∀ {items : List α}, (∀ a ∈ items, read (write a) = .ok a) →
      (items.map write).mapM read = .ok items
  | [], _ => rfl
  | a :: rest, h => by
      have ih := mapM_map_of_forall fun b hb => h b (List.mem_cons_of_mem a hb)
      rw [List.map_cons, List.mapM_cons, h a List.mem_cons_self, ih]
      rfl

/-! ### Conditions and groups -/

/-- A bound that is unambiguous is read back. -/
theorem Condition.boundOf_form :
    ∀ {bound : Bound}, bound.Unambiguous → boundOf bound.form = .ok bound
  | .daysAgo days, _ => rfl
  | .literal v, h => by
      cases v with
      | document fields =>
          change Fields.get? fields "daysAgo" = none at h
          change boundOf (.document fields) = _
          rw [boundOf, h]
      | _ => rfl

namespace Condition

/-- The operator of a condition. -/
def operator : Condition → Operator
  | .eq _ => .eq
  | .neq _ => .neq
  | .order comparison _ => .order comparison
  | .startsWith _ => .startsWith
  | .all _ => .all
  | .any _ => .any
  | .find _ => .find
  | .nfind _ => .nfind

theorem ofName?_opName (c : Condition) :
  Operator.ofName? c.opName = some c.operator
  := by
  cases c with
  | order comparison bound =>
      cases comparison <;> rfl
  | _ => rfl

/-- A written condition is read from its operator and its operand. -/
theorem ofValue_documentOf (fault : DecodeError) (c : Condition) :
  ofValue fault (.document (documentOf c.opName c.operand)) = ofOperand c.operator c.operand
  := by
  have hop : Operator.ofDocument? (documentOf c.opName c.operand) = some c.operator := by
    rw [← ofName?_opName]
    rfl
  rw [ofValue, hop]
  simp [documentOf, ofFields]

/-- An operand of a comparison is read as its bound. -/
theorem ofOperand_order (comparison : Comparison) (v : Value) :
  ofOperand (.order comparison) v = (boundOf v).map (.order comparison)
  := by
  cases v <;> rfl

mutual

/-- An unambiguous condition is read back from its operator and its operand. -/
theorem ofOperand_operand :
    ∀ c : Condition, c.Unambiguous → ofOperand c.operator c.operand = .ok c
  | .eq v, _ => by
      cases v <;> rfl
  | .neq v, _ => by
      cases v <;> rfl
  | .order comparison bound, h => by
      change ofOperand (.order comparison) bound.form = _
      rw [ofOperand_order, boundOf_form h]
      rfl
  | .startsWith text, _ => rfl
  | .all parts, h => by
      have ih := ofItems_formParts parts h
      change ofOperand .all (.array (formParts parts)) = _
      rw [ofOperand, ih]
      rfl
  | .any parts, h => by
      have ih := ofItems_formParts parts h
      change ofOperand .any (.array (formParts parts)) = _
      rw [ofOperand, ih]
      rfl
  | .find group, h => by
      have ih := groupOfFields_formFields group h
      change ofOperand .find (.document (formFields group)) = _
      rw [ofOperand, ih]
      rfl
  | .nfind group, h => by
      have ih := groupOfFields_formFields group h
      change ofOperand .nfind (.document (formFields group)) = _
      rw [ofOperand, ih]
      rfl

theorem ofItems_formParts :
    ∀ parts : List Condition, UnambiguousParts parts → ofItems (formParts parts) = .ok parts
  | [], _ => rfl
  | c :: rest, h => by
      obtain ⟨hc, hrest⟩ := h
      rw [formParts, ofItems, ofValue_documentOf, ofOperand_operand c hc,
        ofItems_formParts rest hrest]
      rfl

theorem groupOfFields_formFields :
    ∀ group : List (String × Condition), UnambiguousFields group →
      groupOfFields (formFields group) = .ok group
  | [], _ => rfl
  | (field, c) :: rest, h => by
      obtain ⟨hc, hrest⟩ := h
      rw [formFields, groupOfFields, ofValue_documentOf, ofOperand_operand c hc,
        groupOfFields_formFields rest hrest]
      rfl

end

/-- An unambiguous condition is read back. -/
theorem decode_form {c : Condition} (h : c.Unambiguous) :
  decode c.form = .ok c
  := by
  rw [decode, form, ofValue_documentOf]
  apply ofOperand_operand c h

end Condition

/-- A group of unambiguous conditions is read back. -/
theorem Group.decode_form {group : Group} (h : Condition.UnambiguousFields group) :
  decode group.form = .ok group
  := by
  apply Condition.groupOfFields_formFields group h

/-! ### Filters -/

/-- Unambiguous criteria are read back from any document that has them as its statements. -/
theorem Criteria.decode_of_get? {d : Document} {criteria : Criteria} (h : criteria.Unambiguous)
    (hd : d.get? "statements" = some criteria.form) :
  decode d = .ok criteria
  := by
  have hstatement : ∀ statement ∈ criteria.statements,
      statementOf (Statement.form statement) = .ok statement := by
    intro statement hs
    apply mapM_map_of_forall
    intro group hg
    apply Group.decode_form (h statement hs group hg)
  have hpresent : d.present? "statements" = some criteria.form := by
    rw [Document.present?, hd]
    rfl
  rw [decode, hpresent]
  change ((criteria.statements.map Statement.form).mapM statementOf).map mk = _
  rw [mapM_map_of_forall hstatement]
  rfl

namespace FilterSpec

/-- A limit in the signed range is read back. -/
theorem limitOf_int64 {limit : UInt64} (h : limit.toNat ≤ Int64.maxValue.toInt) :
  limitOf (.int64 (Int64.ofNat limit.toNat)) = .ok limit
  := by
  have hlt : limit.toNat < 2 ^ 63 := by
    rw [Int64.toInt_maxValue] at h
    omega
  have hpos : 0 ≤ (Int64.ofNat limit.toNat).toInt := by
    rw [Int64.toInt_ofNat_of_lt hlt]
    apply Int.natCast_nonneg
  have hint : (Value.int64 (Int64.ofNat limit.toNat)).integer?
      = some (Int64.ofNat limit.toNat) := rfl
  rw [limitOf, hint]
  simp only [if_pos hpos]
  rw [Int64.toUInt64_ofNat', UInt64.ofNat_toNat]

/-- A filter without a cursor is read back when its criteria are unambiguous and its limit
is in the signed range. -/
theorem decode_form {spec : FilterSpec} (h : spec.criteria.Unambiguous)
    (hcursor : spec.cursor = none) (hlimit : spec.limit.toNat ≤ Int64.maxValue.toInt) :
  decode spec.form = .ok spec
  := by
  obtain ⟨criteria, ⟨field, direction⟩, limit, cursor⟩ := spec
  obtain rfl := hcursor
  have hcriteria : Criteria.decode (form ⟨criteria, ⟨field, direction⟩, limit, none⟩)
      = .ok criteria := by
    apply Criteria.decode_of_get? h
    rfl
  have hlimitOf : limitOf (.int64 (Int64.ofNat limit.toNat)) = .ok limit :=
    limitOf_int64 hlimit
  rw [decode, hcriteria]
  simp only [Document.present?, form, Fields.get?, String.reduceEq, ↓reduceIte, requireString,
    hlimitOf, bind_pure_comp, bind_assoc]
  cases direction with
  | asc => rfl
  | desc => rfl

end FilterSpec

/-! ### Buckets -/

namespace Level

/-- A document has the fields in which a level, and what is within it, are written. -/
structure WrittenIn (level : Level) (inner : Option Document) (d : Document) : Prop where
  fieldId : d.get? "fieldId" = some (.string level.fieldId)
  values : d.get? "values" = level.values.map .array
  subFieldIds : d.get? "subFieldIds" = level.subField.map fun s => .array (s.ids.map .string)
  subFieldProp : d.get? "subFieldProp" = level.subField.map fun s => .string s.property
  interval : d.get? "interval" = level.bucketing.width?.map .double
  dateInterval : d.get? "dateInterval" = level.bucketing.interval?.map fun i => .string i.name
  subBuckets : d.get? "subBuckets" = inner.map .document

theorem writtenIn_form (level : Level) (inner : Option Document) :
  level.WrittenIn inner (level.form inner)
  := by
  constructor <;> simp [form, Fields.get?_ofSet_cons, Fields.get?_ofSet_nil]

/-- A field of another name in front changes nothing. -/
theorem WrittenIn.cons {level : Level} {inner : Option Document} {d : Document}
    (h : level.WrittenIn inner d) (v : Value) :
  level.WrittenIn inner (("type", v) :: d)
  := by
  constructor
  · apply h.fieldId
  · apply h.values
  · apply h.subFieldIds
  · apply h.subFieldProp
  · apply h.interval
  · apply h.dateInterval
  · apply h.subBuckets

variable {level : Level} {inner : Option Document} {d : Document}

theorem WrittenIn.fieldIdOf (h : level.WrittenIn inner d) :
  Level.fieldIdOf d = .ok level.fieldId
  := by
  rw [Level.fieldIdOf, Document.present?, h.fieldId]
  rfl

theorem WrittenIn.valuesOf (h : level.WrittenIn inner d) :
  Level.valuesOf d = .ok level.values
  := by
  rw [Level.valuesOf, Document.present?, h.values]
  cases level.values with
  | none => rfl
  | some values => rfl

theorem WrittenIn.subFieldOf (h : level.WrittenIn inner d) :
  Level.subFieldOf d = .ok level.subField
  := by
  rw [Level.subFieldOf, Document.present?, Document.present?, h.subFieldIds, h.subFieldProp]
  cases level.subField with
  | none => rfl
  | some subField =>
      have hids : (subField.ids.map Value.string).mapM idOf = .ok subField.ids := by
        apply mapM_map_of_forall
        intro id _
        rfl
      simp only [Option.map_some, hids]
      rfl

theorem WrittenIn.bucketingOf (h : level.WrittenIn inner d)
    (hpositive : ∀ width, level.bucketing = .histogram width → width.isPositive) :
  Level.bucketingOf d = .ok level.bucketing
  := by
  rw [Level.bucketingOf, Document.present?, Document.present?, h.interval, h.dateInterval]
  cases hbucketing : level.bucketing with
  | raw => rfl
  | histogram width =>
      change (widthOf (.double width)).map Bucketing.histogram = _
      simp [widthOf, Value.real?, hpositive width hbucketing, Except.map]
  | date interval =>
      cases interval <;> rfl

end Level

namespace BucketSpec

/-- The levels within are read from the field `subBuckets`. -/
theorem innerOfFields_eq :
    ∀ d : Document, innerOfFields d = match d.get? "subBuckets" with
      | none => .ok []
      | some v => innerOfValue v
  | [] => rfl
  | (name, v) :: rest => by
      rw [innerOfFields, innerOfFields_eq rest, Fields.get?]
      split
      · rfl
      · rfl

/-- A level is read back from the fields in which it is written when the levels within it
are read back. -/
theorem ofLevel_of_writtenIn {level : Level} {inner : Option Document} {d : Document}
    {levels : List Level} (h : level.WrittenIn inner d)
    (hpositive : ∀ width, level.bucketing = .histogram width → width.isPositive) :
  ofLevel d (.ok levels) = .ok ⟨level, levels⟩
  := by
  rw [ofLevel, h.fieldIdOf, h.valuesOf, h.subFieldOf, h.bucketingOf hpositive]
  rfl

/-- Levels whose widths are positive are read back from the fields in which they are
written. -/
theorem decode_of_writtenIn :
    ∀ {level : Level} {inner : List Level} {d : Document}, Positive ⟨level, inner⟩ →
      level.WrittenIn (formInner inner) d → decode d = .ok ⟨level, inner⟩
  | level, [], d, hpositive, h => by
      rw [decode, innerOfFields_eq, h.subBuckets]
      apply ofLevel_of_writtenIn h (hpositive level List.mem_cons_self)
  | level, next :: rest, d, hpositive, h => by
      have hinner : decode (next.form (formInner rest)) = .ok ⟨next, rest⟩ := by
        apply decode_of_writtenIn
        · intro other hother
          apply hpositive other (List.mem_cons_of_mem level hother)
        · apply Level.writtenIn_form
      rw [decode] at hinner
      rw [decode, innerOfFields_eq, h.subBuckets]
      change ofLevel d (innerOfValue (.document (next.form (formInner rest)))) = _
      rw [innerOfValue, hinner]
      apply ofLevel_of_writtenIn h (hpositive level List.mem_cons_self)

/-- A bucket specification whose widths are positive is read back. -/
theorem decode_form {spec : BucketSpec} (h : spec.Positive) :
  decode spec.form = .ok spec
  := by
  apply decode_of_writtenIn h
  apply Level.writtenIn_form

end BucketSpec

/-! ### Requests -/

/-- A request is read back when what it consists of is. -/
theorem Request.decode_form :
    ∀ {request : Request}, request.Readable → decode request.form = .ok request
  | .filter criteria, h => by
      have hcriteria : Criteria.decode (form (.filter criteria)) = .ok criteria := by
        apply Criteria.decode_of_get? h
        rfl
      change (Criteria.decode (form (.filter criteria))).map Request.filter = _
      rw [hcriteria]
      rfl
  | .buckets spec, h => by
      have hspec : BucketSpec.decode (form (.buckets spec)) = .ok spec := by
        apply BucketSpec.decode_of_writtenIn h
        apply Level.WrittenIn.cons
        apply Level.writtenIn_form
      change (BucketSpec.decode (form (.buckets spec))).map Request.buckets = _
      rw [hspec]
      rfl

/-! ### The main statement -/

/-- What can be written down is read back from its written form. -/
theorem forms_read_back :
  (∀ c : Condition, c.Unambiguous → Condition.decode c.form = .ok c)
    ∧ (∀ group : Group, Condition.UnambiguousFields group → Group.decode group.form = .ok group)
    ∧ (∀ spec : FilterSpec, spec.criteria.Unambiguous → spec.cursor = none →
        spec.limit.toNat ≤ Int64.maxValue.toInt → FilterSpec.decode spec.form = .ok spec)
    ∧ (∀ spec : BucketSpec, spec.Positive → BucketSpec.decode spec.form = .ok spec)
    ∧ ∀ request : Request, request.Readable → Request.decode request.form = .ok request
  := by
  constructor
  · intro c h
    apply Condition.decode_form h
  · constructor
    · intro group h
      apply Group.decode_form h
    · constructor
      · intro spec h hcursor hlimit
        apply FilterSpec.decode_form h hcursor hlimit
      · constructor
        · intro spec h
          apply BucketSpec.decode_form h
        · intro request h
          apply Request.decode_form h

/-- A group that asks for an element which is due or has no date. -/
def Group.sample : Group :=
  [("lists", .find [("due", .any [.daysAgo .lt 3, .eq .null, .compare .gt (.document [])])])]

/-- Prices in steps of ten, and within each step the months of chosen years. -/
def BucketSpec.sample : BucketSpec :=
  ⟨⟨"lists", none, some ⟨["a", "b"], "price"⟩, .histogram (Binary64.ofInt 10)⟩,
    [⟨"date", some [.null, .int32 2024], none, .date .month⟩]⟩

theorem BucketSpec.sample_positive :
  sample.Positive
  := by
  intro level hlevel width hwidth
  rcases List.mem_cons.mp hlevel with rfl | hlevel
  · cases hwidth
    decide
  · obtain rfl := List.mem_singleton.mp hlevel
    cases hwidth

/-- The samples, and a filter of an empty statement and one with two groups, are read back. -/
theorem forms_read_back_sample :
  Condition.UnambiguousFields Group.sample ∧ BucketSpec.sample.Positive
    ∧ Condition.decode (Condition.nfind Group.sample).form = .ok (.nfind Group.sample)
    ∧ Group.decode Group.sample.form = .ok Group.sample
    ∧ FilterSpec.decode (FilterSpec.form ⟨⟨[[], [Group.sample, []]]⟩, ⟨"id", .desc⟩, 7, none⟩)
      = .ok ⟨⟨[[], [Group.sample, []]]⟩, ⟨"id", .desc⟩, 7, none⟩
    ∧ BucketSpec.decode BucketSpec.sample.form = .ok BucketSpec.sample
    ∧ Request.decode (Request.form (.buckets BucketSpec.sample))
      = .ok (.buckets BucketSpec.sample)
  := by
  have hgroup : Condition.UnambiguousFields Group.sample := by
    simp [Group.sample, Condition.UnambiguousFields, Condition.Unambiguous,
      Condition.UnambiguousParts, Condition.daysAgo, Condition.compare, Bound.Unambiguous,
      Fields.get?]
  have hcriteria : Criteria.Unambiguous ⟨[[], [Group.sample, []]]⟩ := by
    simp [Criteria.Unambiguous, hgroup, Condition.UnambiguousFields]
  obtain ⟨hconditions, hgroups, hfilters, hbuckets, hrequests⟩ := forms_read_back
  use hgroup, BucketSpec.sample_positive, hconditions _ hgroup, hgroups _ hgroup,
    hfilters _ hcriteria rfl (by decide), hbuckets _ BucketSpec.sample_positive
  apply hrequests (.buckets BucketSpec.sample) BucketSpec.sample_positive

end MongoQuery
