import MongoQuery.Proofs.Wire.Level
import MongoQuery.Proofs.Wire.RoundTrip

/-!
# Chains of levels

The document of a bucket specification begins a chain: each document of it holds the next one
as its field `subBuckets`.

Main statement: a specification is read exactly when all documents of its chain are valid, its
levels are what they say one by one, and else its fault is the first early one from the
outermost document in, or if there is none the first late one from the innermost document out.
-/

namespace MongoQuery

/-! ### Chains -/

namespace BucketSpec

mutual

/-- The documents that follow in the chain the document of some fields. -/
def laterDocuments : List (String × Value) → List Document
  | [] => []
  | (name, v) :: rest => if name = "subBuckets" then documentsOf v else laterDocuments rest

/-- The documents of the chain that a value begins. -/
def documentsOf : Value → List Document
  | .document fields => fields :: laterDocuments fields
  | _ => []

end

/-- The documents of a chain, outermost first. -/
def chain (d : Document) : List Document :=
  d :: laterDocuments d

theorem laterDocuments_eq :
    ∀ d : Document, laterDocuments d = match d.get? "subBuckets" with
      | none => []
      | some v => documentsOf v
  | [] => rfl
  | (name, v) :: rest => by
      rw [laterDocuments, laterDocuments_eq rest, Fields.get?]
      split
      · rfl
      · rfl

/-- The chain goes on with the document that is the field `subBuckets`. -/
theorem chain_eq (d : Document) :
  chain d = d :: match d.present? "subBuckets" with
    | some (.document inner) => chain inner
    | _ => []
  := by
  rw [chain, laterDocuments_eq, Document.present?]
  cases d.get? "subBuckets" with
  | none => rfl
  | some v => cases v <;> rfl

theorem sizeOf_lt_of_present? {d inner : Document} {name : String}
    (h : d.present? name = some (.document inner)) :
  sizeOf inner < sizeOf d
  := by
  have hget : d.get? name = some (.document inner) := by
    rw [Document.present?] at h
    split at h
    · cases h
    · apply h
  have hsize := Fields.sizeOf_lt_of_get? hget
  rw [Value.document.sizeOf_spec] at hsize
  omega

/-- What holds of a document when it holds of the next one in its chain holds of all. -/
theorem chain_induction {P : Document → Prop}
    (h : ∀ d, (∀ inner, d.present? "subBuckets" = some (.document inner) → P inner) → P d)
    (d : Document) :
  P d
  := by
  apply h
  intro inner hinner
  have hsize := sizeOf_lt_of_present? hinner
  apply chain_induction h inner
termination_by sizeOf d

/-! ### Reading a chain -/

/-- The levels within are those of the specification in the field `subBuckets`. -/
theorem decode_eq_ofLevel (d : Document) :
  decode d = ofLevel d (match d.present? "subBuckets" with
    | none => .ok []
    | some (.document inner) => (decode inner).map levels
    | some _ => .error (.invalidField "subBuckets" "a bucket spec document"))
  := by
  rw [decode, innerOfFields_eq, Document.present?]
  cases d.get? "subBuckets" with
  | none => rfl
  | some v =>
      cases v with
      | document inner =>
          change ofLevel d (innerOfValue (.document inner)) = _
          rw [innerOfValue]
          rfl
      | _ => rfl

/-- The fault of a level is its early one, that of the levels within, or its late one. -/
theorem fault?_ofLevel (d : Document) (inner : Except DecodeError (List Level)) :
  fault? (ofLevel d inner) = (Level.fieldIdFault? d).or ((Level.valuesFault? d).or
    ((fault? inner).or (Level.lateFault? d)))
  := by
  rw [ofLevel, Level.lateFault?, ← Level.fault?_fieldIdOf, ← Level.fault?_valuesOf,
    ← Level.fault?_subFieldOf, ← Level.fault?_bucketingOf]
  apply fault?_bind
  intro fieldId
  apply fault?_bind
  intro values
  apply fault?_bind
  intro levels
  apply fault?_bind
  intro subField
  rw [← Option.or_none (o := fault? (Level.bucketingOf d))]
  apply fault?_bind
  intro bucketing
  rfl

/-- The fault of a specification is the first early one of its chain, or else the first late one
from the end of the chain. -/
theorem fault?_decode_eq (d : Document) :
  fault? (decode d) = ((chain d).findSome? Level.earlyFault?).or
    ((chain d).reverse.findSome? Level.lateFault?)
  := by
  -- The faults of the levels within stand between the early and the late fault of a document.
  induction d using chain_induction with
  | h d ih =>
      rw [decode_eq_ofLevel, fault?_ofLevel, chain_eq, findSome?_cons_eq_or, List.reverse_cons,
        List.findSome?_append, List.findSome?_singleton, Level.earlyFault?, Level.subBucketsFault?]
      cases hsub : d.present? "subBuckets" with
      | none => simp [fault?, Option.or_assoc]
      | some v =>
          cases v with
          | document inner => simp [fault?_map, ih inner hsub, Option.or_assoc]
          | _ => simp [fault?]

/-- A level is read when each part of it is. -/
theorem ofLevel_eq_ok_iff (d : Document) (inner : Except DecodeError (List Level))
    (spec : BucketSpec) :
  ofLevel d inner = .ok spec
    ↔ Level.fieldIdOf d = .ok spec.outer.fieldId ∧ Level.valuesOf d = .ok spec.outer.values
      ∧ inner = .ok spec.inner ∧ Level.subFieldOf d = .ok spec.outer.subField
      ∧ Level.bucketingOf d = .ok spec.outer.bucketing
  := by
  simp only [ofLevel, bind_eq_ok_iff]
  constructor
  · rintro ⟨fieldId, hfieldId, values, hvalues, levels, hinner, subField, hsubField, bucketing,
      hbucketing, h⟩
    cases h
    use hfieldId, hvalues, hinner, hsubField
  · rintro ⟨hfieldId, hvalues, hinner, hsubField, hbucketing⟩
    use spec.outer.fieldId, hfieldId, spec.outer.values, hvalues, spec.inner, hinner,
      spec.outer.subField, hsubField, spec.outer.bucketing, hbucketing
    rfl

/-- The levels of a specification that is read are what the documents of its chain say, and their
widths are greater than zero. -/
theorem saidBy_of_decode (d : Document) :
  ∀ spec, decode d = .ok spec → List.Forall₂ Level.SaidBy spec.levels (chain d) ∧ spec.Positive
  := by
  induction d using chain_induction with
  | h d ih =>
      intro spec hspec
      rw [decode_eq_ofLevel, ofLevel_eq_ok_iff] at hspec
      obtain ⟨hfieldId, hvalues, hinner, hsubField, hbucketing⟩ := hspec
      have houter := Level.saidBy_of_read hfieldId hvalues hsubField hbucketing
      obtain ⟨-, -, hpositive⟩ := Level.bucketing_of_bucketingOf hbucketing
      obtain ⟨later, hchain, hlater, hlaterPositive⟩ : ∃ later, chain d = d :: later
          ∧ List.Forall₂ Level.SaidBy spec.inner later
          ∧ ∀ level ∈ spec.inner, ∀ width, level.bucketing = .histogram width →
            width.isPositive := by
        rw [chain_eq]
        cases hsub : d.present? "subBuckets" with
        | none =>
            rw [hsub] at hinner
            rw [← Except.ok.inj hinner]
            use [], rfl, .nil
            simp
        | some v =>
            rw [hsub] at hinner
            cases v with
            | document inner =>
                obtain ⟨sub, hsubSpec, hlevels⟩ := (map_eq_ok_iff _ _ _).mp hinner
                rw [← hlevels]
                use chain inner, rfl
                apply ih inner hsub sub hsubSpec
            | _ => cases hinner
      constructor
      · rw [hchain]
        apply List.Forall₂.cons houter hlater
      · intro level hlevel
        rcases List.mem_cons.mp hlevel with rfl | hlevel
        · apply hpositive
        · apply hlaterPositive level hlevel

/-! ### The main statement -/

/-- A specification is read exactly when the documents of its chain are valid.  Then its levels
are the only ones that these documents say, one by one and as many, and all widths are greater
than zero.  Else its fault is the first early one from the outermost document in, or if no
document has an early one the first late one from the innermost document out. -/
theorem decode_along_chain (d : Document) :
  ((∃ spec, decode d = .ok spec) ↔ ∀ document ∈ chain d, Level.Valid document)
    ∧ (∀ spec, decode d = .ok spec →
      (∀ levels, List.Forall₂ Level.SaidBy levels (chain d) ↔ levels = spec.levels)
        ∧ spec.depth = (chain d).length ∧ spec.Positive)
    ∧ ∀ e, decode d = .error e
      ↔ ((chain d).findSome? Level.earlyFault?).or ((chain d).reverse.findSome? Level.lateFault?)
        = some e
  := by
  constructor
  · rw [← fault?_eq_none_iff, fault?_decode_eq, Option.or_eq_none_iff,
      List.findSome?_eq_none_iff, List.findSome?_eq_none_iff]
    simp only [List.mem_reverse, Level.valid_iff, ← forall₂_and]
  constructor
  · intro spec hspec
    obtain ⟨hlevels, hpositive⟩ := saidBy_of_decode d spec hspec
    constructor
    · intro levels
      constructor
      · intro h
        apply List.left_unique_forall₂' _ h hlevels
        intro level document level' hlevel hlevel'
        apply hlevel.unique hlevel'
      · rintro rfl
        apply hlevels
    · use hlevels.length_eq
  · intro e
    rw [← fault?_decode_eq, fault?_eq_some_iff]

/-- The document of prices in steps of ten, of which half a selector is given, and within each
step of the months of chosen years. -/
def pricesDocument : Document :=
  [("fieldId", .string "price"), ("values", .null), ("interval", .int32 10),
    ("subFieldIds", .array [.string "a"]),
    ("subBuckets", .document
      [("fieldId", .string "date"), ("dateInterval", .string "month"),
        ("values", .array [.null, .int32 2024]), ("subBuckets", .null)])]

/-- The specification of prices in steps of ten is read from the two documents of its chain. -/
theorem decode_along_chain_prices :
  decode pricesDocument = .ok ⟨⟨"price", none, none, .histogram (.ofInt 10)⟩,
      [⟨"date", some [.null, .int32 2024], none, .date .month⟩]⟩
    ∧ (chain pricesDocument).length = 2
    ∧ ∀ document ∈ chain pricesDocument, Level.Valid document
  := by
  have hdecode : decode pricesDocument = .ok ⟨⟨"price", none, none, .histogram (.ofInt 10)⟩,
      [⟨"date", some [.null, .int32 2024], none, .date .month⟩]⟩ := rfl
  obtain ⟨hvalid, hread, -⟩ := decode_along_chain pricesDocument
  obtain ⟨-, hdepth, -⟩ := hread _ hdecode
  use hdecode, hdepth.symm, hvalid.mp ⟨_, hdecode⟩

end BucketSpec

end MongoQuery
