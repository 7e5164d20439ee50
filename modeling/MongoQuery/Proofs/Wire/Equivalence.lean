import Mathlib.Logic.Relation
import MongoQuery.Proofs.Wire.Agreement

/-!
# Requests that read the same

A request is read at positions: there are conditions in groups, groups in statements, levels
in levels, and the decoder of each position names some fields.  At a position a document may
have other fields, named fields that are null, and its fields in any order; only a group is
read field by field, and an operand of a comparison is a literal unless it has a field
`daysAgo`.

Main statement: the readings of documents that differ in this way, at any positions within
them, agree.
-/

namespace MongoQuery

/-! ### Positions -/

/-- The positions of requests at which documents are read. -/
inductive Position where
  | condition
  | group
  /-- An operand of a comparison, given as a number of days ago. -/
  | bound
  | filter
  | criteria
  | buckets
  | request

namespace Position

/-- What is read at a position. -/
def Tree : Position → Type
  | .condition => Condition
  | .group => Group
  | .bound => Bound
  | .filter => FilterSpec
  | .criteria => Criteria
  | .buckets => BucketSpec
  | .request => Request

/-- Reads the document at a position. -/
def decode : (p : Position) → Document → Except DecodeError p.Tree
  | .condition => Condition.decode
  | .group => Group.decode
  | .bound => fun d => Condition.boundOf (.document d)
  | .filter => FilterSpec.decode
  | .criteria => Criteria.decode
  | .buckets => BucketSpec.decode
  | .request => Request.decode

/-- The fields that are named at a position; those of a request depend on its kind. -/
def names : Position → Document → List String
  | .condition, _ => ["op", "value"]
  | .group, _ => []
  | .bound, _ => ["daysAgo"]
  | .filter, _ => ["statements", "sortFieldId", "sortDirection", "limit"]
  | .criteria, _ => ["statements"]
  | .buckets, _ => "subBuckets" :: Level.names
  | .request, d => "type" ::
    if Request.kind? d = some "filter" then ["statements"]
    else if Request.kind? d = some "buckets" then "subBuckets" :: Level.names
    else []

/-- The document at a position may have other fields, and its fields in any order: it is no
group, and no literal. -/
def Open : Position → Document → Prop
  | .group, _ => False
  | .bound, d => "daysAgo" ∈ Fields.names d
  | _, _ => True

/-- The statements of a document are read at a position. -/
def ReadsStatements : Position → Document → Prop
  | .filter, _ => True
  | .criteria, _ => True
  | .request, d => Request.kind? d = some "filter"
  | _, _ => False

/-- The levels within a document are read at a position. -/
def ReadsSubBuckets : Position → Document → Prop
  | .buckets, _ => True
  | .request, d => Request.kind? d = some "buckets"
  | _, _ => False

end Position

/-- The position of an operand that is a document. -/
def Operator.operandPosition? : Operator → Option Position
  | .order _ => some .bound
  | .find => some .group
  | .nfind => some .group
  | _ => none

/-- The document at a position has a document at another position within it; the function gives
the former from the latter. -/
inductive Context : Position → Position → (Document → Document) → Prop
  /-- A condition among those that an operator puts together. -/
  | part {outer : Document} {op : Operator} (hop : Operator.ofDocument? outer = some op)
      (hjoins : op = .all ∨ op = .any) (before after : List Value) :
      Context .condition .condition fun d =>
        Fields.insert outer "value" (.array (before ++ .document d :: after))
  /-- The operand of a condition. -/
  | operand {outer : Document} {op : Operator} (hop : Operator.ofDocument? outer = some op)
      {p : Position} (hp : op.operandPosition? = some p) :
      Context .condition p fun d => Fields.insert outer "value" (.document d)
  /-- The condition of a field of a group. -/
  | field (name : String) (before after : Document) :
      Context .group .condition fun d => before ++ (name, .document d) :: after
  /-- A group in one of the statements. -/
  | statement {p : Position} {outer : Document} (hreads : p.ReadsStatements outer)
      (before after groups others : List Value) :
      Context p .group fun d => Fields.insert outer "statements"
        (.array (before ++ .array (groups ++ .document d :: others) :: after))
  /-- The levels within a level. -/
  | subBuckets {p : Position} {outer : Document} (hreads : p.ReadsSubBuckets outer) :
      Context p .buckets fun d => Fields.insert outer "subBuckets" (.document d)

/-- One change of the document at a position. -/
inductive Change : Position → Document → Document → Prop
  /-- A field that is not named is added. -/
  | other {p : Position} {before after : Document} (hopen : p.Open (before ++ after))
      {name : String} (hname : name ∉ p.names (before ++ after)) (v : Value) :
      Change p (before ++ after) (before ++ (name, v) :: after)
  /-- A field is added that is null, but not to an operand of a comparison, where a number of
  days ago that is null is a fault. -/
  | null {p : Position} {before after : Document} (hopen : p.Open (before ++ after))
      (hbound : p ≠ .bound) {name : String} (hname : name ∉ Fields.names (before ++ after)) :
      Change p (before ++ after) (before ++ (name, .null) :: after)
  /-- The fields are put in another order; a document has no two fields of one name. -/
  | order {p : Position} {d d' : Document} (hopen : p.Open d) (hdistinct : Fields.Distinct d)
      (hperm : d.Perm d') :
      Change p d d'
  /-- A document within is changed. -/
  | within {p q : Position} {fill : Document → Document} (hcontext : Context p q fill)
      {d d' : Document} (h : Change q d d') :
      Change p (fill d) (fill d')

/-- Documents are equivalent at a position when changes, made or undone, lead from one to the
other. -/
def Position.Equivalent (p : Position) : Document → Document → Prop :=
  Relation.EqvGen (Change p)

/-! ### Changes of fields -/

namespace Position

variable {p : Position} {d d' : Document}

/-- Readings agree when named fields are the same but for null. -/
theorem agree_of_present? (hopen : p.Open d) (hbound : p ≠ .bound)
    (h : ∀ name ∈ p.names d, d.present? name = d'.present? name) :
  Agree (p.decode d) (p.decode d')
  := by
  cases p with
  | condition =>
      apply Condition.agree_decode
      · apply h "op"
        simp [names]
      · apply h "value"
        simp [names]
  | group => cases hopen
  | bound => cases hbound rfl
  | filter =>
      apply FilterSpec.agree_decode
      · apply Criteria.agree_decode
        apply h "statements"
        simp [names]
      · intro name hname
        apply h name
        apply List.mem_cons_of_mem _ hname
  | criteria =>
      apply Criteria.agree_decode
      apply h "statements"
      simp [names]
  | buckets =>
      apply BucketSpec.agree_decode
      apply h
  | request =>
      apply Request.agree_decode
      · apply Document.text?_congr
        apply h "type"
        apply List.mem_cons_self
      · intro hkind
        apply Criteria.agree_decode
        apply h "statements"
        simp [names, hkind]
      · intro hkind
        apply BucketSpec.agree_decode
        intro name hname
        apply h name
        apply List.mem_cons_of_mem
        simpa [hkind] using hname

/-- Readings agree when named fields are the same. -/
theorem agree_of_get? (hopen : p.Open d) (h : ∀ name ∈ p.names d, d.get? name = d'.get? name) :
  Agree (p.decode d) (p.decode d')
  := by
  by_cases hbound : p = .bound
  · subst hbound
    have hdays := h "daysAgo" List.mem_cons_self
    change Agree (Condition.boundOf (.document d)) (Condition.boundOf (.document d'))
    rw [Condition.boundOf, Condition.boundOf, ← hdays]
    cases hget : d.get? "daysAgo" with
    | none =>
        rw [Fields.get?_eq_none_iff] at hget
        cases hget hopen
    | some v => apply Agree.refl
  · apply agree_of_present? hopen hbound
    intro name hname
    apply Document.present?_congr (h name hname)

end Position

/-! ### Changes within -/

namespace Position

variable {p : Position} {d d' outer : Document}

/-- Readings of conditions that are put together agree when those of one of them do. -/
theorem agree_part {op : Operator} (hop : Operator.ofDocument? outer = some op)
    (hjoins : op = .all ∨ op = .any) (h : Agree (Condition.decode d) (Condition.decode d'))
    (before after : List Value) :
  Agree (Condition.decode (Fields.insert outer "value" (.array (before ++ .document d :: after))))
    (Condition.decode (Fields.insert outer "value" (.array (before ++ .document d' :: after))))
  := by
  have hitems := Condition.agree_ofItems h before after
  rw [Condition.decode_insert_value hop, Condition.decode_insert_value hop]
  rcases hjoins with rfl | rfl
  · rw [Condition.ofOperand, Condition.ofOperand]
    apply hitems.map
  · rw [Condition.ofOperand, Condition.ofOperand]
    apply hitems.map

/-- Readings of conditions agree when those of their operands do. -/
theorem agree_operand {op : Operator} (hop : Operator.ofDocument? outer = some op)
    (hp : op.operandPosition? = some p) (h : Agree (p.decode d) (p.decode d')) :
  Agree (Condition.decode (Fields.insert outer "value" (.document d)))
    (Condition.decode (Fields.insert outer "value" (.document d')))
  := by
  rw [Condition.decode_insert_value hop, Condition.decode_insert_value hop]
  cases op with
  | order comparison =>
      cases hp
      rw [Condition.ofOperand_order, Condition.ofOperand_order]
      apply Agree.map _ h
  | find =>
      cases hp
      rw [Condition.ofOperand, Condition.ofOperand]
      apply Agree.map _ h
  | nfind =>
      cases hp
      rw [Condition.ofOperand, Condition.ofOperand]
      apply Agree.map _ h
  | _ => cases hp

/-- Readings of documents whose statements are read agree when those of a group in them do. -/
theorem agree_statement (hreads : p.ReadsStatements outer)
    (h : Agree (Group.decode d) (Group.decode d')) (before after groups others : List Value) :
  Agree
    (p.decode (Fields.insert outer "statements"
      (.array (before ++ .array (groups ++ .document d :: others) :: after))))
    (p.decode (Fields.insert outer "statements"
      (.array (before ++ .array (groups ++ .document d' :: others) :: after))))
  := by
  have hcriteria := Criteria.agree_decode_insert h outer before after groups others
  cases p with
  | filter =>
      apply FilterSpec.agree_decode hcriteria
      intro name hname
      have hne : name ≠ "statements" := by
        rintro rfl
        revert hname
        decide
      rw [Document.present?_insert_of_ne outer _ hne, Document.present?_insert_of_ne outer _ hne]
  | criteria => apply hcriteria
  | request =>
      apply Request.agree_decode_of_filter _ _ hcriteria
      · rw [Request.kind?_insert_of_ne outer _ (by decide), hreads]
      · rw [Request.kind?_insert_of_ne outer _ (by decide), hreads]
  | _ => cases hreads

/-- Readings of documents with levels within agree when those of these levels do. -/
theorem agree_subBuckets (hreads : p.ReadsSubBuckets outer)
    (h : Agree (BucketSpec.decode d) (BucketSpec.decode d')) :
  Agree (p.decode (Fields.insert outer "subBuckets" (.document d)))
    (p.decode (Fields.insert outer "subBuckets" (.document d')))
  := by
  have hbuckets := BucketSpec.agree_decode_insert h outer
  cases p with
  | buckets => apply hbuckets
  | request =>
      apply Request.agree_decode_of_buckets _ _ hbuckets
      · rw [Request.kind?_insert_of_ne outer _ (by decide), hreads]
      · rw [Request.kind?_insert_of_ne outer _ (by decide), hreads]
  | _ => cases hreads

end Position

/-- Readings of what is around agree when those of what is within do. -/
theorem Context.agree {p q : Position} {fill : Document → Document} (hcontext : Context p q fill)
    {d d' : Document} (h : Agree (q.decode d) (q.decode d')) :
  Agree (p.decode (fill d)) (p.decode (fill d'))
  := by
  cases hcontext with
  | part hop hjoins before after => apply Position.agree_part hop hjoins h
  | operand hop hp => apply Position.agree_operand hop hp h
  | field name before after => apply Condition.agree_groupOfFields h
  | statement hreads before after groups others => apply Position.agree_statement hreads h
  | subBuckets hreads => apply Position.agree_subBuckets hreads h

/-! ### The main statement -/

/-- Readings before and after a change agree. -/
theorem Change.agree {p : Position} {d d' : Document} (h : Change p d d') :
  Agree (p.decode d) (p.decode d')
  := by
  induction h with
  | @other p before after hopen name hname v =>
      apply Position.agree_of_get? hopen
      intro other hother
      have hne : name ≠ other := by
        rintro rfl
        apply hname hother
      apply (Fields.get?_append_cons_of_ne v hne).symm
  | @null p before after hopen hbound name hname =>
      apply Position.agree_of_present? hopen hbound
      intro other _
      rw [Document.present?_append_null hname]
  | @order p d d' hopen hdistinct hperm =>
      apply Position.agree_of_get? hopen
      intro name _
      apply Fields.get?_of_perm hdistinct hperm
  | within hcontext _ ih => apply hcontext.agree ih

/-- Readings of equivalent documents agree. -/
theorem Position.agree_of_equivalent {p : Position} {d d' : Document} (h : p.Equivalent d d') :
  Agree (p.decode d) (p.decode d')
  := by
  induction h with
  | rel d d' h => apply h.agree
  | refl d => apply Agree.refl
  | symm d d' _ ih => apply ih.symm
  | trans d d' d'' _ _ ih ih' => apply ih.trans ih'

/-- A filter for the records whose field `due` meets a condition. -/
def FilterSpec.dueDocument (condition : Document) : Document :=
  [("statements", .array [.array [.document [("due", .document condition)]]])]

/-- What is more than three days old, with some fields before the number of days. -/
def Condition.agedDocument (others : Document) : Document :=
  [("op", .string "LT"), ("value", .document (others ++ [("daysAgo", .int32 3)]))]

/-- The condition of such a filter may change. -/
theorem Change.dueDocument {condition condition' : Document}
    (h : Change .condition condition condition') :
  Change .filter (FilterSpec.dueDocument condition) (FilterSpec.dueDocument condition')
  := by
  have hgroup := Change.within (Context.field "due" [] []) h
  have hreads : Position.filter.ReadsStatements [] := trivial
  apply Change.within (Context.statement hreads [] [] [] []) hgroup

/-- A filter that says the same in other words: with a note beside the number of days, the
operator after the operand and a limit that is null. -/
def FilterSpec.dueOtherwise : Document :=
  ("limit", .null) :: dueDocument (Condition.agedDocument [("note", .string "late")]).reverse

theorem Position.agree_of_equivalent_due :
  Position.filter.Equivalent (FilterSpec.dueDocument (Condition.agedDocument []))
      FilterSpec.dueOtherwise
    ∧ Agree (FilterSpec.decode (FilterSpec.dueDocument (Condition.agedDocument [])))
      (FilterSpec.decode FilterSpec.dueOtherwise)
  := by
  have hnote : Change .condition (Condition.agedDocument [])
      (Condition.agedDocument [("note", .string "late")]) := by
    have hop : Operator.ofDocument? [("op", .string "LT")] = some (.order .lt) := rfl
    have hopen : Position.bound.Open ([] ++ [("daysAgo", .int32 3)]) := List.mem_cons_self
    have hname : "note" ∉ Position.bound.names ([] ++ [("daysAgo", .int32 3)]) := by
      simp [names]
    apply Change.within (Context.operand hop rfl) (Change.other hopen hname (.string "late"))
  have horder : Change .condition (Condition.agedDocument [("note", .string "late")])
      (Condition.agedDocument [("note", .string "late")]).reverse := by
    apply @Change.order .condition _ _ trivial
    · simp [Fields.Distinct, Fields.names, Condition.agedDocument]
    · apply (List.reverse_perm _).symm
  have hlimit : Change .filter
      (FilterSpec.dueDocument (Condition.agedDocument [("note", .string "late")]).reverse)
      FilterSpec.dueOtherwise := by
    apply @Change.null .filter [] _ trivial
    · intro hbound
      cases hbound
    · simp [Fields.names]
  have hequivalent : Position.filter.Equivalent
      (FilterSpec.dueDocument (Condition.agedDocument [])) FilterSpec.dueOtherwise := by
    apply Relation.EqvGen.trans _ _ _ (.rel _ _ hnote.dueDocument)
    apply Relation.EqvGen.trans _ _ _ (.rel _ _ horder.dueDocument)
    apply Relation.EqvGen.rel _ _ hlimit
  use hequivalent
  apply agree_of_equivalent hequivalent

end MongoQuery
