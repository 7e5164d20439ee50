import MongoQuery.Proofs.Wire.RoundTrip

/-!
# Readings that agree

Two readings agree when they give the same, or fail with faults that are the same but for the
documents that they show.  Each decoder looks up the fields that it names, takes null for
absent, and reads what is within it in turn, so its readings of two documents agree when the
named fields are the same in both, or are documents whose readings agree.
-/

namespace MongoQuery

/-! ### Results that agree -/

/-- A fault without the documents that it shows. -/
def DecodeError.bare : DecodeError → DecodeError
  | .unsupportedOperator _ => .unsupportedOperator []
  | .unsupportedAggregationType _ => .unsupportedAggregationType []
  | .conflictingBucketing _ => .conflictingBucketing []
  | e => e

variable {α β : Type}

/-- Two readings give the same, or fail with faults that are the same but for the documents
that they show. -/
def Agree : Except DecodeError α → Except DecodeError α → Prop
  | .ok a, .ok a' => a = a'
  | .error e, .error e' => e.bare = e'.bare
  | _, _ => False

namespace Agree

variable {r r' r'' : Except DecodeError α}

theorem refl (r : Except DecodeError α) :
  Agree r r
  := by
  cases r <;> rfl

theorem of_eq (h : r = r') :
  Agree r r'
  := by
  rw [h]
  apply refl

theorem symm (h : Agree r r') :
  Agree r' r
  := by
  cases r <;> cases r'
  · apply Eq.symm h
  · apply h
  · apply h
  · apply Eq.symm h

theorem trans (h : Agree r r') (h' : Agree r' r'') :
  Agree r r''
  := by
  cases r <;> cases r' <;> cases r''
  · apply Eq.trans h h'
  · apply h'
  · apply h.elim
  · apply h.elim
  · apply h.elim
  · apply h.elim
  · apply h'
  · apply Eq.trans h h'

/-- Readings agree when their first parts do and what follows them does. -/
theorem bind (h : Agree r r') {f f' : α → Except DecodeError β} (hf : ∀ a, Agree (f a) (f' a)) :
  Agree (r >>= f) (r' >>= f')
  := by
  cases r <;> cases r'
  · apply h
  · apply h.elim
  · apply h.elim
  · obtain rfl : _ = _ := h
    apply hf

theorem map (f : α → β) (h : Agree r r') :
  Agree (r.map f) (r'.map f)
  := by
  cases r <;> cases r'
  · apply h
  · apply h.elim
  · apply h.elim
  · apply congrArg f h

/-- Readings of items one after the other agree when one item is read alike. -/
theorem mapM_item {f : β → Except DecodeError α} {x x' : β} (h : Agree (f x) (f x'))
    (before after : List β) :
  Agree ((before ++ x :: after).mapM f) ((before ++ x' :: after).mapM f)
  := by
  induction before with
  | nil =>
      rw [List.nil_append, List.nil_append, List.mapM_cons, List.mapM_cons]
      apply bind h
      intro a
      apply refl
  | cons first rest ih =>
      rw [List.cons_append, List.cons_append, List.mapM_cons, List.mapM_cons]
      apply bind (refl _)
      intro a
      apply bind ih
      intro others
      apply refl

end Agree

/-! ### Fields that are looked up -/

/-- The text of a field that is a string. -/
def textOf? : Option Value → Option String
  | some (.string s) => some s
  | _ => none

namespace Document

variable {d d' : Document} {name : String}

/-- The text at a name. -/
def text? (d : Document) (name : String) : Option String :=
  textOf? (d.get? name)

theorem present?_congr (h : d.get? name = d'.get? name) :
  d.present? name = d'.present? name
  := by
  rw [present?, present?, h]

theorem present?_insert_of_ne (d : Document) (v : Value) {other : String} (h : other ≠ name) :
  present? (Fields.insert d name v) other = d.present? other
  := by
  rw [present?, present?, Fields.get?_insert_of_ne d v h]

/-- A field that is null is as good as none. -/
theorem present?_append_null {before after : Document}
    (h : name ∉ Fields.names (before ++ after)) (other : String) :
  present? (before ++ (name, .null) :: after) other = present? (before ++ after) other
  := by
  by_cases hother : name = other
  · subst hother
    have hbefore : name ∉ Fields.names before := by
      intro hmem
      apply h
      rw [Fields.names, List.map_append]
      apply List.mem_append_left _ hmem
    rw [present?, present?, Fields.get?_append_cons_self _ _ hbefore,
      (Fields.get?_eq_none_iff _ _).mpr h]
  · apply present?_congr
    apply Fields.get?_append_cons_of_ne _ hother

/-- What takes null for absent sees of a field only whether it is present. -/
theorem congr_present? (f : Option Value → β) (hnull : f (some .null) = f none)
    (h : d.present? name = d'.present? name) :
  f (d.get? name) = f (d'.get? name)
  := by
  have hpresent : ∀ d : Document, f (d.get? name) = f (d.present? name) := by
    intro d
    rw [present?]
    split
    · next hget => rw [hget, hnull]
    · rfl
  rw [hpresent, hpresent, h]

theorem text?_congr (h : d.present? name = d'.present? name) :
  d.text? name = d'.text? name
  := by
  apply congr_present? textOf? rfl h

end Document

/-! ### Conditions and groups -/

namespace Operator

theorem ofDocument?_eq (d : Document) :
  ofDocument? d = (d.text? "op").bind ofName?
  := by
  rw [ofDocument?, Document.text?]
  cases d.get? "op" with
  | none => rfl
  | some v => cases v <;> rfl

theorem ofDocument?_congr {d d' : Document} (h : d.present? "op" = d'.present? "op") :
  ofDocument? d = ofDocument? d'
  := by
  rw [ofDocument?_eq, ofDocument?_eq, Document.text?_congr h]

end Operator

namespace Condition

variable {d d' : Document}

/-- A document is read as a condition whatever the fault of other values is. -/
theorem ofValue_document (fault : DecodeError) (d : Document) :
  ofValue fault (.document d) = decode d
  := by
  rw [decode, ofValue, ofValue]

theorem decode_eq (d : Document) :
  decode d = match Operator.ofDocument? d with
    | some op => ofFields op d
    | none => .error (.unsupportedOperator d)
  := by
  cases hop : Operator.ofDocument? d with
  | none => rw [decode, ofValue, hop]
  | some op => rw [decode, ofValue, hop]

theorem ofOperand_null (op : Operator) :
  ofOperand op .null = withoutOperand op
  := by
  cases op <;> rfl

/-- The operand is read from the field `value`. -/
theorem ofFields_eq (op : Operator) :
    ∀ d : Document, ofFields op d = match d.get? "value" with
      | none => withoutOperand op
      | some v => ofOperand op v
  | [] => by
      rw [ofFields, Fields.get?]
  | (name, v) :: rest => by
      rw [ofFields, ofFields_eq op rest, Fields.get?]
      split
      · rfl
      · rfl

theorem ofFields_congr (op : Operator) (h : d.present? "value" = d'.present? "value") :
  ofFields op d = ofFields op d'
  := by
  rw [ofFields_eq, ofFields_eq]
  have hread := Document.congr_present?
    (fun | none => withoutOperand op | some v => ofOperand op v) (ofOperand_null op) h
  apply hread

/-- Conditions are read alike when their operators and operands are the same. -/
theorem agree_decode (hop : d.present? "op" = d'.present? "op")
    (hvalue : d.present? "value" = d'.present? "value") :
  Agree (decode d) (decode d')
  := by
  rw [decode_eq, decode_eq, Operator.ofDocument?_congr hop]
  cases Operator.ofDocument? d' with
  | none => rfl
  | some op => apply Agree.of_eq (ofFields_congr op hvalue)

/-- A condition whose operand is set is read from its operator and this operand. -/
theorem decode_insert_value {op : Operator} (hop : Operator.ofDocument? d = some op) (v : Value) :
  decode (Fields.insert d "value" v) = ofOperand op v
  := by
  have hinsert : Operator.ofDocument? (Fields.insert d "value" v) = some op := by
    rw [← hop, Operator.ofDocument?, Operator.ofDocument?,
      Fields.get?_insert_of_ne d v (by decide)]
  rw [decode_eq, hinsert]
  change ofFields op _ = _
  rw [ofFields_eq, Fields.get?_insert_self]

theorem ofItems_eq (items : List Value) :
  ofItems items = items.mapM (ofValue notConditions)
  := by
  induction items with
  | nil => rfl
  | cons v rest ih => rw [ofItems, List.mapM_cons, ih]

/-- The field that a field of a document gives a group. -/
def fieldOf (field : String × Value) : Except DecodeError (String × Condition) :=
  (ofValue (notCondition field.1) field.2).map (Prod.mk field.1)

theorem groupOfFields_eq (d : Document) :
  groupOfFields d = d.mapM fieldOf
  := by
  induction d with
  | nil => rfl
  | cons entry rest ih =>
      obtain ⟨field, v⟩ := entry
      rw [groupOfFields, List.mapM_cons, ih, fieldOf]
      cases ofValue (notCondition field) v <;> rfl

/-- Conditions are read alike when one of them is. -/
theorem agree_ofItems (h : Agree (decode d) (decode d')) (before after : List Value) :
  Agree (ofItems (before ++ .document d :: after)) (ofItems (before ++ .document d' :: after))
  := by
  rw [ofItems_eq, ofItems_eq]
  apply Agree.mapM_item
  rw [ofValue_document, ofValue_document]
  apply h

/-- Groups are read alike when one of their conditions is. -/
theorem agree_groupOfFields (h : Agree (decode d) (decode d')) (field : String)
    (before after : Document) :
  Agree (groupOfFields (before ++ (field, .document d) :: after))
    (groupOfFields (before ++ (field, .document d') :: after))
  := by
  rw [groupOfFields_eq, groupOfFields_eq]
  apply Agree.mapM_item
  rw [fieldOf, fieldOf, ofValue_document, ofValue_document]
  apply h.map

end Condition

/-! ### Filters -/

theorem Criteria.agree_decode {d d' : Document}
    (h : d.present? "statements" = d'.present? "statements") :
  Agree (decode d) (decode d')
  := by
  apply Agree.of_eq
  rw [decode, decode, h]

/-- Criteria are read alike when a group in their statements is. -/
theorem Criteria.agree_decode_insert {d d' : Document}
    (h : Agree (Group.decode d) (Group.decode d')) (outer : Document)
    (before after groups others : List Value) :
  Agree
    (decode (Fields.insert outer "statements"
      (.array (before ++ .array (groups ++ .document d :: others) :: after))))
    (decode (Fields.insert outer "statements"
      (.array (before ++ .array (groups ++ .document d' :: others) :: after))))
  := by
  rw [decode, decode, Document.present?, Document.present?, Fields.get?_insert_self,
    Fields.get?_insert_self]
  have hgroup : Agree (groupOf (.document d)) (groupOf (.document d')) := h
  have hstatement : Agree (statementOf (.array (groups ++ .document d :: others)))
      (statementOf (.array (groups ++ .document d' :: others))) :=
    hgroup.mapM_item groups others
  apply (hstatement.mapM_item before after).map

/-- Filters are read alike when their criteria are and their other fields are the same. -/
theorem FilterSpec.agree_decode {d d' : Document}
    (hcriteria : Agree (Criteria.decode d) (Criteria.decode d'))
    (h : ∀ name ∈ ["sortFieldId", "sortDirection", "limit"], d.present? name = d'.present? name) :
  Agree (decode d) (decode d')
  := by
  rw [decode, decode, h "sortFieldId" (by simp), h "sortDirection" (by simp),
    h "limit" (by simp)]
  apply hcriteria.bind
  intro criteria
  apply Agree.refl

/-! ### Buckets -/

/-- The fields of a level beside the levels within it. -/
def Level.names : List String :=
  ["fieldId", "values", "subFieldIds", "subFieldProp", "interval", "dateInterval"]

/-- Levels are read alike when their fields are the same and the levels within are read
alike. -/
theorem BucketSpec.agree_ofLevel {d d' : Document} {inner inner' : Except DecodeError (List Level)}
    (h : ∀ name ∈ Level.names, d.present? name = d'.present? name) (hinner : Agree inner inner') :
  Agree (ofLevel d inner) (ofLevel d' inner')
  := by
  have hbucketing : Agree (Level.bucketingOf d) (Level.bucketingOf d') := by
    rw [Level.bucketingOf, Level.bucketingOf, h "interval" (by simp [Level.names]),
      h "dateInterval" (by simp [Level.names])]
    split
    · rfl
    · apply Agree.refl
    · apply Agree.refl
    · rfl
  rw [ofLevel, ofLevel, Level.fieldIdOf, Level.fieldIdOf, Level.valuesOf, Level.valuesOf,
    Level.subFieldOf, Level.subFieldOf, h "fieldId" (by simp [Level.names]),
    h "values" (by simp [Level.names]), h "subFieldIds" (by simp [Level.names]),
    h "subFieldProp" (by simp [Level.names])]
  apply Agree.bind (Agree.refl _)
  intro fieldId
  apply Agree.bind (Agree.refl _)
  intro values
  apply hinner.bind
  intro levels
  apply Agree.bind (Agree.refl _)
  intro subField
  apply hbucketing.bind
  intro bucketing
  apply Agree.refl

theorem BucketSpec.innerOfFields_congr {d d' : Document}
    (h : d.present? "subBuckets" = d'.present? "subBuckets") :
  innerOfFields d = innerOfFields d'
  := by
  rw [innerOfFields_eq, innerOfFields_eq]
  have hread := Document.congr_present?
    (fun | none => Except.ok [] | some v => innerOfValue v) rfl h
  apply hread

theorem BucketSpec.agree_decode {d d' : Document}
    (h : ∀ name ∈ "subBuckets" :: Level.names, d.present? name = d'.present? name) :
  Agree (decode d) (decode d')
  := by
  apply agree_ofLevel
  · intro name hname
    apply h name (List.mem_cons_of_mem _ hname)
  · apply Agree.of_eq
    apply innerOfFields_congr (h "subBuckets" List.mem_cons_self)

/-- Specifications are read alike when the levels within the outermost one are. -/
theorem BucketSpec.agree_decode_insert {d d' : Document} (h : Agree (decode d) (decode d'))
    (outer : Document) :
  Agree (decode (Fields.insert outer "subBuckets" (.document d)))
    (decode (Fields.insert outer "subBuckets" (.document d')))
  := by
  apply agree_ofLevel
  · intro name hname
    have hne : name ≠ "subBuckets" := by
      rintro rfl
      revert hname
      decide
    rw [Document.present?_insert_of_ne outer _ hne, Document.present?_insert_of_ne outer _ hne]
  · rw [innerOfFields_eq, innerOfFields_eq, Fields.get?_insert_self, Fields.get?_insert_self]
    change Agree (innerOfValue _) (innerOfValue _)
    rw [innerOfValue, innerOfValue]
    apply h.map

/-! ### Requests -/

namespace Request

/-- The name of the kind of a request document. -/
def kind? (d : Document) : Option String :=
  d.text? "type"

theorem kind?_insert_of_ne (d : Document) (v : Value) {name : String} (h : "type" ≠ name) :
  kind? (Fields.insert d name v) = kind? d
  := by
  rw [kind?, kind?, Document.text?, Document.text?, Fields.get?_insert_of_ne d v h]

theorem decode_eq (d : Document) :
  decode d = if kind? d = some "filter" then (Criteria.decode d).map .filter
    else if kind? d = some "buckets" then (BucketSpec.decode d).map .buckets
    else .error (.unsupportedAggregationType d)
  := by
  rw [decode, kind?, Document.text?]
  cases d.get? "type" with
  | none => rfl
  | some v =>
      cases v with
      | string kind => simp [textOf?]
      | _ => rfl

/-- Requests of the same kind are read alike when what they consist of is. -/
theorem agree_decode {d d' : Document} (hkind : kind? d = kind? d')
    (hfilter : kind? d = some "filter" → Agree (Criteria.decode d) (Criteria.decode d'))
    (hbuckets : kind? d = some "buckets" → Agree (BucketSpec.decode d) (BucketSpec.decode d')) :
  Agree (decode d) (decode d')
  := by
  rw [decode_eq, decode_eq, ← hkind]
  split
  · next h => apply (hfilter h).map
  · split
    · next h => apply (hbuckets h).map
    · rfl

theorem agree_decode_of_filter {d d' : Document} (hd : kind? d = some "filter")
    (hd' : kind? d' = some "filter") (h : Agree (Criteria.decode d) (Criteria.decode d')) :
  Agree (decode d) (decode d')
  := by
  apply agree_decode
  · rw [hd, hd']
  · intro _
    apply h
  · intro hbuckets
    simp [hd] at hbuckets

theorem agree_decode_of_buckets {d d' : Document} (hd : kind? d = some "buckets")
    (hd' : kind? d' = some "buckets") (h : Agree (BucketSpec.decode d) (BucketSpec.decode d')) :
  Agree (decode d) (decode d')
  := by
  apply agree_decode
  · rw [hd, hd']
  · intro hfilter
    simp [hd] at hfilter
  · intro _
    apply h

end Request

end MongoQuery
