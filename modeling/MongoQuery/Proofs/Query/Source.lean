import Mathlib.Data.List.Basic
import MongoQuery.Filter.Find
import MongoQuery.Proofs.Filter.Holds

/-!
# Sources of records

A source holds records and answers find commands: it keeps the records for which the filter
holds, in the order of the sort document, up to the limit.  Of the order of values it is
known what is less than what, and strict comparisons in filters go by it; all other tests
are the source's own.
-/

namespace MongoQuery

/-- The sort document of a sort key. -/
def SortKey.document (key : SortKey) : Document :=
  Document.single key.field (.int32 key.direction.sign)

/-! ### Orders of records -/

namespace Document

variable (less : Value → Value → Prop)

/-- The value of a record at a path is less than that of another. -/
def Below (path : String) (r r' : Document) : Prop :=
  ∃ v v', r.at? path = some v ∧ r'.at? path = some v' ∧ less v v'

/-- Of the values of two records at a path neither is less. -/
def Ties (path : String) (r r' : Document) : Prop :=
  ¬ Below less path r r' ∧ ¬ Below less path r' r

/-- A sort document puts a record strictly before another. -/
def Precedes : Document → Document → Document → Prop
  | [(path, .int32 sign)], r, r' =>
    if 0 < sign.toInt then Below less path r r' else Below less path r' r
  | _, _, _ => False

/-- Records have values of one totally ordered kind at a path, values of which neither is
less counting as the same place in the order. -/
structure Ordered (records : List Document) (path : String) : Prop where
  value : ∀ r ∈ records, ∃ v, r.at? path = some v
  asymm : ∀ r ∈ records, ∀ r' ∈ records, Below less path r r' → ¬ Below less path r' r
  total : ∀ r ∈ records, ∀ r' ∈ records, ∀ r'' ∈ records,
    Below less path r r'' → Below less path r r' ∨ Below less path r' r''

variable {less} {records : List Document}

/-- The sort document of a key compares in the direction of the key. -/
theorem precedes_document_iff (key : SortKey) (r r' : Document) :
  Precedes less key.document r r' ↔ match key.direction with
    | .asc => Below less key.field r r'
    | .desc => Below less key.field r' r
  := by
  obtain ⟨field, direction⟩ := key
  cases direction with
  | asc => rfl
  | desc => rfl

theorem Ordered.precedes_asymm {key : SortKey} (h : Ordered less records key.field)
    {r r' : Document} (hr : r ∈ records) (hr' : r' ∈ records)
    (hbefore : Precedes less key.document r r') :
  ¬ Precedes less key.document r' r
  := by
  rw [precedes_document_iff] at hbefore ⊢
  obtain ⟨field, direction⟩ := key
  cases direction with
  | asc => apply h.asymm r hr r' hr' hbefore
  | desc => apply h.asymm r' hr' r hr hbefore

theorem Ordered.precedes_irrefl {key : SortKey} (h : Ordered less records key.field)
    {r : Document} (hr : r ∈ records) :
  ¬ Precedes less key.document r r
  := by
  intro hbefore
  apply h.precedes_asymm hr hr hbefore hbefore

/-- Of two records the one that precedes the other precedes or is preceded by any third. -/
theorem Ordered.precedes_or_precedes {key : SortKey} (h : Ordered less records key.field)
    {r r' r'' : Document} (hr : r ∈ records) (hr' : r' ∈ records) (hr'' : r'' ∈ records)
    (hbefore : Precedes less key.document r r'') :
  Precedes less key.document r r' ∨ Precedes less key.document r' r''
  := by
  simp only [precedes_document_iff] at hbefore ⊢
  obtain ⟨field, direction⟩ := key
  cases direction with
  | asc => apply h.total r hr r' hr' r'' hr'' hbefore
  | desc =>
      symm
      apply h.total r'' hr'' r' hr' r hr hbefore

/-- Records neither of which precedes the other tie. -/
theorem ties_of_not_precedes {key : SortKey} {r r' : Document}
    (h : ¬ Precedes less key.document r r') (h' : ¬ Precedes less key.document r' r) :
  Ties less key.field r r'
  := by
  rw [precedes_document_iff] at h h'
  obtain ⟨field, direction⟩ := key
  cases direction with
  | asc => use h, h'
  | desc => use h', h

end Document

/-! ### Sources -/

/-- What answers find commands. -/
structure Source where
  records : List Document
  /-- Whether a value is less than another. -/
  less : Value → Value → Prop
  /-- Whether a field of a record passes a test other than a strict comparison. -/
  otherTest : Document → String → Value → Prop
  /-- The records in the order of a sort document, ties in an order of the source's own. -/
  sorted : Document → List Document
  perm : ∀ sort, (sorted sort).Perm records
  ordered : ∀ key : SortKey, Document.Ordered less records key.field →
    (sorted key.document).Pairwise fun r r' => ¬ Document.Precedes less key.document r' r

namespace Source

/-- Whether a field of a record passes a test: a strict comparison by the order of the
values, all else as the source says. -/
def test (S : Source) (r : Document) (field : String) : Value → Prop
  | .document [(operator, bound)] =>
    if operator = "$gt" then ∃ v, r.at? field = some v ∧ S.less bound v
    else if operator = "$lt" then ∃ v, r.at? field = some v ∧ S.less v bound
    else S.otherTest r field (.document [(operator, bound)])
  | v => S.otherTest r field v

/-- A filter holds for a record. -/
def Matches (S : Source) (filter : Document) (r : Document) : Prop :=
  Filter.Holds (S.test r) filter

open Classical in
/-- The records for which the filter of a command holds, in the order of its sort document. -/
noncomputable def matching (S : Source) (command : FindCommand) : List Document :=
  (S.sorted command.sort).filter fun r => S.Matches command.filter r

/-- The answer to a command: the matching records up to the limit. -/
noncomputable def answer (S : Source) (command : FindCommand) : List Document :=
  (S.matching command).take command.limit.toInt.toNat

theorem mem_matching {S : Source} {command : FindCommand} {r : Document} :
  r ∈ S.matching command ↔ r ∈ S.records ∧ S.Matches command.filter r
  := by
  simp [matching, List.mem_filter, (S.perm command.sort).mem_iff]

/-! ### Records in memory -/

section Memory

open Classical

/-- Records in the order of a sort document. -/
noncomputable def sortRecords (less : Value → Value → Prop) (records : List Document)
    (sort : Document) : List Document :=
  (records.attach.mergeSort fun r r' => !decide (Document.Precedes less sort r'.1 r.1)).map (·.1)

variable {less : Value → Value → Prop} {records : List Document}

theorem sortRecords_perm (sort : Document) :
  (sortRecords less records sort).Perm records
  := by
  have hperm := (List.mergeSort_perm records.attach
    fun r r' => !decide (Document.Precedes less sort r'.1 r.1)).map (·.1)
  rw [List.attach_map_subtype_val] at hperm
  apply hperm

theorem sortRecords_ordered (key : SortKey) (h : Document.Ordered less records key.field) :
  (sortRecords less records key.document).Pairwise fun r r' =>
    ¬ Document.Precedes less key.document r' r
  := by
  apply List.pairwise_map.mpr
  have hpairwise := @List.pairwise_mergeSort { r // r ∈ records }
    (fun r r' => !decide (Document.Precedes less key.document r'.1 r.1)) ?_ ?_ records.attach
  · simpa using hpairwise
  · intro a b c hab hbc
    simp only [Bool.not_eq_true', decide_eq_false_iff_not] at hab hbc ⊢
    intro hca
    rcases h.precedes_or_precedes c.2 b.2 a.2 hca with hcb | hba
    · apply hbc hcb
    · apply hab hba
  · intro a b
    rw [Bool.or_eq_true, Bool.not_eq_true', Bool.not_eq_true', decide_eq_false_iff_not,
      decide_eq_false_iff_not]
    by_cases hba : Document.Precedes less key.document b.1 a.1
    · right
      apply h.precedes_asymm b.2 a.2 hba
    · left
      apply hba

/-- The source that holds given records and sorts them by an order of values. -/
noncomputable def ofRecords (records : List Document) (less : Value → Value → Prop)
    (otherTest : Document → String → Value → Prop) : Source where
  records := records
  less := less
  otherTest := otherTest
  sorted := sortRecords less records
  perm := sortRecords_perm
  ordered := sortRecords_ordered

end Memory

end Source

end MongoQuery
