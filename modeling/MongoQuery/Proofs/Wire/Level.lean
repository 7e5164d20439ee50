import MongoQuery.Proofs.Number.Rational
import MongoQuery.Proofs.Wire.Faults
import MongoQuery.Wire.Aggregation

/-!
# Documents of levels

The document of a level is valid by its own fields and says by them what the level is.  Some of
its faults count before the levels within it are read and some after; a document is valid when
it has none.
-/

namespace MongoQuery

/-! ### Documents of levels -/

namespace Level

/-- The fields of a document are those of a level; what is absent or null is not set. -/
structure Valid (d : Document) : Prop where
  fieldId : ∃ s, d.present? "fieldId" = some (.string s)
  values : ∀ v, d.present? "values" = some v → ∃ items, v = .array items
  subBuckets : ∀ v, d.present? "subBuckets" = some v → ∃ inner, v = .document inner
  /-- A selector has ids and a property; of one without the other nothing is asked. -/
  subField : ∀ ids property, d.present? "subFieldIds" = some ids →
    d.present? "subFieldProp" = some property →
      (∃ texts : List String, ids = .array (texts.map .string)) ∧ ∃ s, property = .string s
  bucketing : d.present? "interval" = none ∨ d.present? "dateInterval" = none
  interval : ∀ v, d.present? "interval" = some v → v.IsPositive
  dateInterval : ∀ v, d.present? "dateInterval" = some v → ∃ i : DateInterval, v = .string i.name

/-- A level is what a document says of it. -/
structure SaidBy (level : Level) (d : Document) : Prop where
  fieldId : d.present? "fieldId" = some (.string level.fieldId)
  values : d.present? "values" = level.values.map .array
  subField : ∀ s : SubField, level.subField = some s
    ↔ d.present? "subFieldIds" = some (.array (s.ids.map .string))
      ∧ d.present? "subFieldProp" = some (.string s.property)
  /-- The width is the floating point number nearest to the interval. -/
  interval : ∀ width, level.bucketing = .histogram width
    ↔ ∃ v, d.present? "interval" = some v ∧ v.real? = some width
  dateInterval : ∀ i, level.bucketing = .date i ↔ d.present? "dateInterval" = some (.string i.name)

/-- A document says of only one level what it is. -/
theorem SaidBy.unique {level level' : Level} {d : Document} (h : level.SaidBy d)
    (h' : level'.SaidBy d) :
  level = level'
  := by
  have hfieldId : level.fieldId = level'.fieldId := by
    simpa [h.fieldId] using h'.fieldId
  have hvalues : level.values = level'.values := by
    apply Option.map_injective (f := Value.array)
    · intro items items' heq
      apply Value.array.inj heq
    · rw [← h.values, h'.values]
  have hsubField : level.subField = level'.subField := by
    apply Option.ext
    intro s
    rw [h.subField, h'.subField]
  have hbucketing : level.bucketing = level'.bucketing := by
    cases hb : level.bucketing with
    | histogram width =>
        apply Eq.symm
        rw [h'.interval, ← h.interval, hb]
    | date i =>
        apply Eq.symm
        rw [h'.dateInterval, ← h.dateInterval, hb]
    | raw =>
        cases hb' : level'.bucketing with
        | histogram width =>
            rw [h'.interval, ← h.interval, hb] at hb'
            cases hb'
        | date i =>
            rw [h'.dateInterval, ← h.dateInterval, hb] at hb'
            cases hb'
        | raw => rfl
  cases level
  cases level'
  simp_all

/-! ### Faults of a document -/

/-- A level has to name a field. -/
def fieldIdFault? (d : Document) : Option DecodeError :=
  match d.present? "fieldId" with
  | none => some (.missingField "fieldId" "bucket spec")
  | some (.string _) => none
  | some _ => some (.invalidField "fieldId" "a string")

/-- The chosen keys are an array, if they are given. -/
def valuesFault? (d : Document) : Option DecodeError :=
  match d.present? "values" with
  | none => none
  | some (.array _) => none
  | some _ => some (.invalidField "values" "an array")

/-- The levels within are a document, if they are given. -/
def subBucketsFault? (d : Document) : Option DecodeError :=
  match d.present? "subBuckets" with
  | none => none
  | some (.document _) => none
  | some _ => some (.invalidField "subBuckets" "a bucket spec document")

/-- Whether a value is a string. -/
def isText : Value → Bool
  | .string _ => true
  | _ => false

/-- The ids of a selector are an array of strings. -/
def idsFault? : Value → Option DecodeError
  | .array ids =>
    if ids.all isText then none else some (.invalidField "subFieldIds" "an array of strings")
  | _ => some (.invalidField "subFieldIds" "an array of strings")

/-- The property of a selector is a string. -/
def propertyFault? : Value → Option DecodeError
  | .string _ => none
  | _ => some (.invalidField "subFieldProp" "a string")

/-- The fault of a selector, of which both parts are given: the ids count before the property. -/
def subFieldFault? (d : Document) : Option DecodeError :=
  match d.present? "subFieldIds", d.present? "subFieldProp" with
  | some ids, some property => (idsFault? ids).or (propertyFault? property)
  | _, _ => none

/-- The fault of how keys are formed: by intervals or by dates, and not by both. -/
def bucketingFault? (d : Document) : Option DecodeError :=
  match d.present? "interval", d.present? "dateInterval" with
  | none, none => none
  | some v, none =>
    if v.IsPositive then none else some (.invalidField "interval" "a positive number")
  | none, some (.string name) =>
    if name ∈ DateInterval.all.map DateInterval.name then none
    else some (.unknownDateInterval name)
  | none, some _ => some (.invalidField "dateInterval" "a string")
  | some _, some _ => some (.conflictingBucketing d)

/-- The fault that counts before the levels within are read. -/
def earlyFault? (d : Document) : Option DecodeError :=
  (fieldIdFault? d).or ((valuesFault? d).or (subBucketsFault? d))

/-- The fault that counts after the levels within are read. -/
def lateFault? (d : Document) : Option DecodeError :=
  (subFieldFault? d).or (bucketingFault? d)

end Level

/-! ### What is read of a level -/

theorem requireString_eq_ok_iff (field : String) (v : Value) (s : String) :
  requireString field v = .ok s ↔ v = .string s
  := by
  cases v <;> simp [requireString]

namespace Level

variable {d : Document}

theorem fault?_fieldIdOf (d : Document) :
  fault? (fieldIdOf d) = fieldIdFault? d
  := by
  rw [fieldIdOf, fieldIdFault?]
  cases d.present? "fieldId" with
  | none => rfl
  | some v => cases v <;> rfl

theorem fieldIdOf_eq_ok_iff (fieldId : String) :
  fieldIdOf d = .ok fieldId ↔ d.present? "fieldId" = some (.string fieldId)
  := by
  rw [fieldIdOf]
  cases d.present? "fieldId" with
  | none => simp
  | some v => simp [requireString_eq_ok_iff]

theorem fault?_valuesOf (d : Document) :
  fault? (valuesOf d) = valuesFault? d
  := by
  rw [valuesOf, valuesFault?]
  cases d.present? "values" with
  | none => rfl
  | some v => cases v <;> rfl

theorem valuesOf_eq_ok_iff (values : Option (List Value)) :
  valuesOf d = .ok values ↔ d.present? "values" = values.map .array
  := by
  rw [valuesOf]
  cases d.present? "values" with
  | none => cases values <;> simp
  | some v => cases v <;> cases values <;> simp [eq_comm]

theorem idOf_eq_ok_iff (v : Value) (s : String) :
  idOf v = .ok s ↔ v = .string s
  := by
  cases v <;> simp [idOf]

/-- Ids are read from the array of the strings that they are. -/
theorem mapM_idOf_eq_ok_iff (items : List Value) (ids : List String) :
  items.mapM idOf = .ok ids ↔ items = ids.map .string
  := by
  simp only [mapM_eq_ok_iff, idOf_eq_ok_iff]
  rw [← List.forall₂_eq_eq_eq, List.forall₂_map_right_iff]

theorem fault?_mapM_idOf (items : List Value) :
  fault? (items.mapM idOf) = idsFault? (.array items)
  := by
  rw [fault?_mapM, idsFault?]
  induction items with
  | nil => rfl
  | cons v rest ih =>
      rw [List.findSome?_cons, List.all_cons, ih]
      cases v <;> rfl

theorem fault?_subFieldOf (d : Document) :
  fault? (subFieldOf d) = subFieldFault? d
  := by
  rw [subFieldOf, subFieldFault?]
  cases d.present? "subFieldIds" with
  | none => rfl
  | some ids =>
      cases d.present? "subFieldProp" with
      | none => rfl
      | some property =>
          have hproperty : ∀ ids, fault? (do
              let property ← requireString "subFieldProp" property
              pure (some (SubField.mk ids property))) = propertyFault? property := by
            intro ids
            cases property <;> rfl
          cases ids with
          | array items =>
              change fault? (items.mapM idOf >>= _) = _
              rw [fault?_bind hproperty, fault?_mapM_idOf]
          | _ => rfl

theorem subField_of_subFieldOf {subField : Option SubField} (h : subFieldOf d = .ok subField)
    (s : SubField) :
  subField = some s
    ↔ d.present? "subFieldIds" = some (.array (s.ids.map .string))
      ∧ d.present? "subFieldProp" = some (.string s.property)
  := by
  rw [subFieldOf] at h
  split at h
  · next ids property hids hproperty =>
      cases ids with
      | array items =>
          obtain ⟨texts, htexts, h⟩ := (bind_eq_ok_iff _ _ _).mp h
          rw [mapM_idOf_eq_ok_iff] at htexts
          cases property with
          | string text =>
              cases h
              obtain ⟨ids, property⟩ := s
              have htexts' : texts.map Value.string = ids.map Value.string ↔ texts = ids := by
                apply List.map_inj_right
                simp
              simp [hids, hproperty, htexts, htexts']
          | _ => cases h
      | _ => cases h
  · next hmissing =>
      cases h
      constructor
      · intro hs
        cases hs
      · rintro ⟨hids, hproperty⟩
        cases hmissing _ _ hids hproperty

end Level

namespace DateInterval

theorem ofName?_eq_some_iff (s : String) (i : DateInterval) :
  ofName? s = some i ↔ s = i.name
  := by
  constructor
  · intro h
    have hname := List.find?_some h
    apply (of_decide_eq_true hname).symm
  · rintro rfl
    cases i <;> rfl

theorem name_inj {i j : DateInterval} :
  i.name = j.name ↔ i = j
  := by
  constructor
  · intro h
    have hi := (ofName?_eq_some_iff _ i).mpr rfl
    rw [h, (ofName?_eq_some_iff _ j).mpr rfl] at hi
    apply (Option.some.inj hi).symm
  · rintro rfl
    rfl

theorem decode_eq_ok_iff (s : String) (i : DateInterval) :
  decode s = .ok i ↔ s = i.name
  := by
  rw [decode, ← ofName?_eq_some_iff]
  cases ofName? s <;> simp

theorem mem_names_iff (s : String) :
  s ∈ all.map name ↔ ∃ i : DateInterval, s = i.name
  := by
  rw [List.mem_map]
  constructor
  · rintro ⟨i, -, rfl⟩
    use i
  · rintro ⟨i, rfl⟩
    use i
    cases i <;> decide

theorem fault?_decode (s : String) :
  fault? (decode s) = if s ∈ all.map name then none else some (.unknownDateInterval s)
  := by
  rw [decode]
  cases h : ofName? s with
  | some i =>
      have hmem : s ∈ all.map name := by
        rw [mem_names_iff]
        use i
        apply (ofName?_eq_some_iff s i).mp h
      rw [if_pos hmem]
      rfl
  | none =>
      have hmem : s ∉ all.map name := by
        rw [mem_names_iff]
        rintro ⟨i, hi⟩
        rw [(ofName?_eq_some_iff s i).mpr hi] at h
        cases h
      rw [if_neg hmem]
      rfl

end DateInterval

namespace Level

variable {d : Document}

theorem widthOf_eq_ok_iff (v : Value) (width : Binary64) :
  widthOf v = .ok width ↔ v.real? = some width ∧ width.isPositive
  := by
  rw [widthOf]
  cases v.real? with
  | none => simp
  | some x =>
      simp only [Option.some.injEq]
      split
      · next hx =>
          simp only [Except.ok.injEq]
          constructor
          · rintro rfl
            use rfl
          · rintro ⟨hwidth, -⟩
            apply hwidth
      · next hx =>
          constructor
          · intro h
            cases h
          · rintro ⟨rfl, hwidth⟩
            cases hx hwidth

theorem fault?_widthOf (v : Value) :
  fault? (widthOf v)
    = if v.IsPositive then none else some (.invalidField "interval" "a positive number")
  := by
  simp only [v.isPositive_iff_any]
  rw [widthOf]
  cases v.real? with
  | none => rfl
  | some x =>
      simp only [Option.any_some]
      split
      · rfl
      · rfl

theorem fault?_bucketingOf (d : Document) :
  fault? (bucketingOf d) = bucketingFault? d
  := by
  rw [bucketingOf, bucketingFault?]
  cases d.present? "interval" with
  | none =>
      cases d.present? "dateInterval" with
      | none => rfl
      | some v =>
          cases v with
          | string name =>
              have hpure : ∀ i, fault? (pure (Bucketing.date i) : Except DecodeError Bucketing)
                  = none := by
                intro i
                rfl
              change fault? (DateInterval.decode name >>= fun i => pure (Bucketing.date i)) = _
              rw [fault?_bind hpure, DateInterval.fault?_decode, Option.or_none]
          | _ => rfl
  | some v =>
      cases d.present? "dateInterval" with
      | none =>
          change fault? ((widthOf v).map Bucketing.histogram) = _
          rw [fault?_map, fault?_widthOf]
      | some w => cases w <;> rfl

/-- How keys are formed is what the two fields say of it, and widths are greater than zero. -/
theorem bucketing_of_bucketingOf {bucketing : Bucketing} (h : bucketingOf d = .ok bucketing) :
  (∀ width, bucketing = .histogram width
      ↔ ∃ v, d.present? "interval" = some v ∧ v.real? = some width)
    ∧ (∀ i, bucketing = .date i ↔ d.present? "dateInterval" = some (.string i.name))
    ∧ ∀ width, bucketing = .histogram width → width.isPositive
  := by
  rw [bucketingOf] at h
  split at h
  · cases h
  · next v hinterval hdate =>
      obtain ⟨width, hwidth, rfl⟩ := (map_eq_ok_iff _ _ _).mp h
      rw [widthOf_eq_ok_iff] at hwidth
      simp [hinterval, hdate, hwidth]
  · next v hinterval hdate =>
      obtain ⟨name, hname, h⟩ := (bind_eq_ok_iff _ _ _).mp h
      obtain ⟨i, hi, h⟩ := (bind_eq_ok_iff _ _ _).mp h
      cases h
      rw [requireString_eq_ok_iff] at hname
      rw [DateInterval.decode_eq_ok_iff] at hi
      simp [hinterval, hdate, hname, hi, DateInterval.name_inj]
  · next hinterval hdate =>
      cases h
      simp [hinterval, hdate]

/-- A level that is read from the fields of a document is what the document says. -/
theorem saidBy_of_read {level : Level} {d : Document} (hfieldId : fieldIdOf d = .ok level.fieldId)
    (hvalues : valuesOf d = .ok level.values) (hsubField : subFieldOf d = .ok level.subField)
    (hbucketing : bucketingOf d = .ok level.bucketing) :
  level.SaidBy d
  := by
  obtain ⟨hinterval, hdateInterval, -⟩ := bucketing_of_bucketingOf hbucketing
  constructor
  · apply (fieldIdOf_eq_ok_iff _).mp hfieldId
  · apply (valuesOf_eq_ok_iff _).mp hvalues
  · apply subField_of_subFieldOf hsubField
  · apply hinterval
  · apply hdateInterval

/-! ### Valid documents -/

theorem fieldIdFault?_eq_none_iff (d : Document) :
  fieldIdFault? d = none ↔ ∃ s, d.present? "fieldId" = some (.string s)
  := by
  rw [← fault?_fieldIdOf, fault?_eq_none_iff]
  simp only [fieldIdOf_eq_ok_iff]

theorem valuesFault?_eq_none_iff (d : Document) :
  valuesFault? d = none ↔ ∀ v, d.present? "values" = some v → ∃ items, v = .array items
  := by
  rw [valuesFault?]
  cases d.present? "values" with
  | none => simp
  | some v => cases v <;> simp

theorem subBucketsFault?_eq_none_iff (d : Document) :
  subBucketsFault? d = none ↔ ∀ v, d.present? "subBuckets" = some v → ∃ inner, v = .document inner
  := by
  rw [subBucketsFault?]
  cases d.present? "subBuckets" with
  | none => simp
  | some v => cases v <;> simp

theorem idsFault?_eq_none_iff (v : Value) :
  idsFault? v = none ↔ ∃ texts : List String, v = .array (texts.map .string)
  := by
  cases v with
  | array items =>
      rw [← fault?_mapM_idOf, fault?_eq_none_iff]
      simp [mapM_idOf_eq_ok_iff]
  | _ => simp [idsFault?]

theorem propertyFault?_eq_none_iff (v : Value) :
  propertyFault? v = none ↔ ∃ s, v = .string s
  := by
  cases v <;> simp [propertyFault?]

theorem subFieldFault?_eq_none_iff (d : Document) :
  subFieldFault? d = none ↔ ∀ ids property, d.present? "subFieldIds" = some ids →
    d.present? "subFieldProp" = some property →
      (∃ texts : List String, ids = .array (texts.map .string)) ∧ ∃ s, property = .string s
  := by
  rw [subFieldFault?]
  cases d.present? "subFieldIds" with
  | none => simp
  | some ids =>
      cases d.present? "subFieldProp" with
      | none => simp
      | some property => simp [idsFault?_eq_none_iff, propertyFault?_eq_none_iff]

theorem bucketingFault?_eq_none_iff (d : Document) :
  bucketingFault? d = none
    ↔ (d.present? "interval" = none ∨ d.present? "dateInterval" = none)
      ∧ (∀ v, d.present? "interval" = some v → v.IsPositive)
      ∧ ∀ v, d.present? "dateInterval" = some v → ∃ i : DateInterval, v = .string i.name
  := by
  rw [bucketingFault?]
  cases d.present? "interval" with
  | none =>
      cases d.present? "dateInterval" with
      | none => simp
      | some v =>
          cases v with
          | string name => simp [-List.mem_map, DateInterval.mem_names_iff]
          | _ => simp
  | some v =>
      cases d.present? "dateInterval" with
      | none => simp
      | some w => simp

/-- A document is valid when it has no fault. -/
theorem valid_iff (d : Document) :
  Valid d ↔ earlyFault? d = none ∧ lateFault? d = none
  := by
  rw [earlyFault?, lateFault?, Option.or_eq_none_iff, Option.or_eq_none_iff, Option.or_eq_none_iff,
    fieldIdFault?_eq_none_iff, valuesFault?_eq_none_iff, subBucketsFault?_eq_none_iff,
    subFieldFault?_eq_none_iff, bucketingFault?_eq_none_iff]
  constructor
  · rintro ⟨hfieldId, hvalues, hsubBuckets, hsubField, hbucketing, hinterval, hdateInterval⟩
    use ⟨hfieldId, hvalues, hsubBuckets⟩, hsubField, hbucketing, hinterval
  · rintro ⟨⟨hfieldId, hvalues, hsubBuckets⟩, hsubField, hbucketing, hinterval, hdateInterval⟩
    use hfieldId, hvalues, hsubBuckets, hsubField, hbucketing, hinterval

end Level

end MongoQuery
