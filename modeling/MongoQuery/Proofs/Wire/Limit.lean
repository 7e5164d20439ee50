import MongoQuery.Filter.Find
import MongoQuery.Proofs.Number.Rational
import MongoQuery.Proofs.Wire.Agreement
import MongoQuery.Proofs.Wire.Faults

/-!
# Limits

The limit of a filter may be given in any type of number.  It goes through a signed word, an
unsigned one and a signed one again, and each step keeps the integer, as long as it is neither
negative nor past the signed range; everything else is refused in the first step or the
second.  It is read after all other fields, so it alone decides where these have no fault.

Main statement: where a filter has no fault beside its limit, its find command has the number
that the limit is exactly, and there is no command when that is not an integer in the range.
-/

namespace MongoQuery

/-- A number is exactly an integer that is neither negative nor past the signed range of 64
bits. -/
def Value.IsLimit (v : Value) (n : Int) : Prop :=
  v.IsNumber n ∧ 0 ≤ n ∧ n < 2 ^ 63

namespace FilterSpec

/-- The fault of a limit that is not an integer in the range. -/
def notLimit : DecodeError := .invalidField "limit" "a non-negative integer"

/-! ### Words -/

theorem toNat_toUInt64 {n : Int64} (h : 0 ≤ n.toInt) :
  (n.toUInt64.toNat : Int) = n.toInt
  := by
  have hle : 0 ≤ n := by
    rw [Int64.le_iff_toInt_le, Int64.toInt_zero]
    apply h
  rw [Int64.toNat_toUInt64_of_le hle, Int64.toNatClampNeg, Int.toNat_of_nonneg h]

/-- An integer in the range is that of an unsigned word. -/
theorem exists_toNat_eq {n : Int} (hnonneg : 0 ≤ n) (hlt : n < 2 ^ 63) :
  ∃ limit : UInt64, (limit.toNat : Int) = n
  := by
  use UInt64.ofNat n.toNat
  have hsize : n.toNat < UInt64.size := by
    rw [UInt64.size]
    omega
  rw [UInt64.toNat_ofNat_of_lt' hsize, Int.toNat_of_nonneg hnonneg]

theorem toInt_toInt64 {limit : UInt64} (h : (limit.toNat : Int) < 2 ^ 63) :
  limit.toInt64.toInt = limit.toNat
  := by
  have hbits : 2 * limit.toBitVec.toNat < 2 ^ 64 := by
    change 2 * limit.toNat < 2 ^ 64
    omega
  apply BitVec.toInt_eq_toNat_of_lt hbits

/-! ### Limits that are read -/

/-- A limit is read when it is exactly its integer. -/
theorem limitOf_eq_ok_iff (v : Value) (limit : UInt64) :
  limitOf v = .ok limit ↔ v.IsLimit limit.toNat
  := by
  rw [limitOf]
  constructor
  · intro h
    split at h
    · next n hn =>
        split at h
        · next hnonneg =>
            obtain rfl := Except.ok.inj h
            rw [Value.integer?_eq_some_iff, ← Value.isNumber_iff] at hn
            rw [Value.IsLimit, toNat_toUInt64 hnonneg]
            use hn, hnonneg, n.toInt_lt
        · cases h
    · cases h
  · rintro ⟨hnumber, hnonneg, hlt⟩
    have hint : v.integer? = some limit.toInt64 := by
      rw [Value.integer?_eq_some_iff, ← Value.isNumber_iff, toInt_toInt64 hlt]
      apply hnumber
    rw [hint]
    simp [toInt_toInt64 hlt]

/-- There is one fault only. -/
theorem limitOf_eq_error {v : Value} (h : ∀ limit, limitOf v ≠ .ok limit) :
  limitOf v = .error notLimit
  := by
  rw [limitOf] at h ⊢
  split
  · next n hn =>
      rw [hn] at h
      split
      · next hnonneg => apply (h n.toUInt64 (if_pos hnonneg)).elim
      · rfl
  · rfl

/-! ### The fields beside the limit -/

/-- The field to sort by that a document gives. -/
def sortFieldOf (d : Document) : Except DecodeError String :=
  match d.present? "sortFieldId" with
  | none => .ok initial.sort.field
  | some v => requireString "sortFieldId" v

/-- The direction that a document gives. -/
def directionOf (d : Document) : Except DecodeError Direction :=
  match d.present? "sortDirection" with
  | none => .ok initial.sort.direction
  | some v => requireString "sortDirection" v >>= Direction.decode

/-- The limit that a document gives. -/
def limitField (d : Document) : Except DecodeError UInt64 :=
  match d.present? "limit" with
  | none => .ok initial.limit
  | some v => limitOf v

/-- The fields of a filter are read one after the other, the limit last. -/
theorem decode_eq (d : Document) :
  decode d = do
    let criteria ← Criteria.decode d
    let field ← sortFieldOf d
    let direction ← directionOf d
    let limit ← limitField d
    return { criteria, sort := ⟨field, direction⟩, limit, cursor := none }
  := by
  rw [decode, sortFieldOf, directionOf, limitField]
  cases Criteria.decode d with
  | error e => rfl
  | ok criteria =>
      cases d.present? "sortFieldId" <;> cases d.present? "sortDirection"
        <;> cases d.present? "limit" <;> rfl

/-- The filter that a document gives beside its limit. -/
def decodeOthers (d : Document) : Except DecodeError FilterSpec :=
  decode (Fields.insert d "limit" .null)

/-- What is read of the other fields does not depend on the limit. -/
theorem decode_eq_bind (d : Document) :
  decode d = decodeOthers d >>= fun spec => (limitField d).map spec.limitTo
  := by
  have hlimit : limitField (Fields.insert d "limit" .null) = .ok initial.limit := by
    rw [limitField, Document.present?, Fields.get?_insert_self]
  have hcriteria : Criteria.decode (Fields.insert d "limit" .null) = Criteria.decode d := by
    rw [Criteria.decode, Criteria.decode, Document.present?_insert_of_ne d _ (by decide)]
  have hfield : sortFieldOf (Fields.insert d "limit" .null) = sortFieldOf d := by
    rw [sortFieldOf, sortFieldOf, Document.present?_insert_of_ne d _ (by decide)]
  have hdirection : directionOf (Fields.insert d "limit" .null) = directionOf d := by
    rw [directionOf, directionOf, Document.present?_insert_of_ne d _ (by decide)]
  rw [decodeOthers, decode_eq, decode_eq, hcriteria, hfield, hdirection, hlimit]
  cases Criteria.decode d <;> cases sortFieldOf d <;> cases directionOf d
    <;> cases limitField d <;> rfl

theorem decodeOthers_insert (d : Document) (v : Value) :
  decodeOthers (Fields.insert d "limit" v) = decodeOthers d
  := by
  rw [decodeOthers, decodeOthers, Fields.insert_insert]

/-- A filter whose other fields have no fault is read with its limit. -/
theorem decode_of_insert {request : Document} {v w : Value} {other : FilterSpec}
    (hlimit : request.present? "limit" = some v)
    (hvalid : decode (Fields.insert request "limit" w) = .ok other) :
  decode request = (limitOf v).map other.limitTo
  := by
  rw [decode_eq_bind, decodeOthers_insert, bind_eq_ok_iff] at hvalid
  obtain ⟨spec, hspec, hother⟩ := hvalid
  obtain ⟨limit, -, rfl⟩ := (map_eq_ok_iff _ _ _).mp hother
  rw [decode_eq_bind, hspec, limitField, hlimit]
  rfl

/-- A limit in the signed range is that of the find command. -/
theorem find_limitTo (now : Instant) (spec : FilterSpec) {limit : UInt64}
    (h : (limit.toNat : Int) < 2 ^ 63) :
  (spec.limitTo limit).find now = { spec.find now with limit := limit.toInt64 }
  := by
  have hclamp : Int64.ofIntClamp limit.toNat = limit.toInt64 := by
    rw [← toInt_toInt64 h, Int64.ofIntClamp_toInt]
  rw [← hclamp]
  rfl

end FilterSpec

namespace Document

variable {now : Instant} {request : Document} {v w : Value} {spec : FilterSpec}

/-- A request whose other fields have no fault has the find command of its limit. -/
theorem find_of_insert (hlimit : request.present? "limit" = some v)
    (hvalid : FilterSpec.decode (Fields.insert request "limit" w) = .ok spec) :
  find now request = (FilterSpec.limitOf v).map fun limit => (spec.limitTo limit).find now
  := by
  rw [find, FilterSpec.decode_of_insert hlimit hvalid]
  cases FilterSpec.limitOf v <;> rfl

theorem find_of_isLimit (hlimit : request.present? "limit" = some v)
    (hvalid : FilterSpec.decode (Fields.insert request "limit" w) = .ok spec) {n : Int}
    (h : v.IsLimit n) :
  ∃ limit : Int64, limit.toInt = n ∧ find now request = .ok { spec.find now with limit }
  := by
  obtain ⟨limit, rfl⟩ := FilterSpec.exists_toNat_eq h.2.1 h.2.2
  use limit.toInt64, FilterSpec.toInt_toInt64 h.2.2
  rw [find_of_insert hlimit hvalid, (FilterSpec.limitOf_eq_ok_iff v limit).mpr h,
    ← FilterSpec.find_limitTo now spec h.2.2]
  rfl

theorem find_of_not_isLimit (hlimit : request.present? "limit" = some v)
    (hvalid : FilterSpec.decode (Fields.insert request "limit" w) = .ok spec)
    (h : ∀ n, ¬ v.IsLimit n) :
  find now request = .error FilterSpec.notLimit
  := by
  have hfault : FilterSpec.limitOf v = .error FilterSpec.notLimit := by
    apply FilterSpec.limitOf_eq_error
    intro limit hlimitOf
    apply h _ ((FilterSpec.limitOf_eq_ok_iff v limit).mp hlimitOf)
  rw [find_of_insert hlimit hvalid, hfault]
  rfl

/-! ### The main statement -/

/-- Let a filter request have a limit, and let it have a find command with some other limit in
its place.  Then it has a find command exactly when its limit is exactly an integer that is
neither negative nor past the signed range.  The command has this integer for its limit and is
the other one but for that, and in all other cases the limit is reported. -/
theorem find_takes_limit (now : Instant) {request : Document} {v w : Value}
    {other : FindCommand} (hlimit : request.present? "limit" = some v)
    (hvalid : find now (Fields.insert request "limit" w) = .ok other) :
  ((∃ command, find now request = .ok command) ↔ ∃ n, v.IsLimit n)
    ∧ (∀ n, v.IsLimit n →
      ∃ limit : Int64, limit.toInt = n ∧ find now request = .ok { other with limit })
    ∧ ((∀ n, ¬ v.IsLimit n) →
      find now request = .error (.invalidField "limit" "a non-negative integer"))
  := by
  obtain ⟨spec, hspec, rfl⟩ := (map_eq_ok_iff _ _ _).mp hvalid
  constructor
  · constructor
    · rintro ⟨command, hcommand⟩
      by_contra hnone
      rw [find_of_not_isLimit hlimit hspec (not_exists.mp hnone)] at hcommand
      cases hcommand
    · rintro ⟨n, hn⟩
      obtain ⟨limit, -, hcommand⟩ := find_of_isLimit hlimit hspec hn
      use { spec.find now with limit }
  constructor
  · intro n hn
    apply find_of_isLimit hlimit hspec hn
  · apply find_of_not_isLimit hlimit hspec

/-- A request for the active records up to a limit. -/
def activeUpTo (limit : Value) : Document :=
  [("statements", .array [.array [.document [("status",
    .document [("op", .string "EQ"), ("value", .string "active")])]]]), ("limit", limit)]

/-- The command of the request without a limit. -/
def activeFirst : FindCommand :=
  ⟨[("status", .string "active")], [("id", .int32 1)], 50⟩

/-- The greatest floating point number below the end of the signed range. -/
def greatestLimit : Value :=
  .double ⟨0x43dfffffffffffff⟩

theorem isLimit_greatestLimit :
  greatestLimit.IsLimit 9223372036854774784
  := by
  have hdenotes := @Binary64.Denotes.normal ⟨0x43dfffffffffffff⟩ 0 1085 (2 ^ 52 - 1) (by decide)
    (by decide) (by decide) (by decide) (by decide +kernel)
  constructor
  · apply Value.IsNumber.double
    norm_num at hdenotes
    apply hdenotes
  · decide

/-- The next floating point number, which is the first one past the signed range. -/
def firstPastLimit : Value :=
  .double ⟨0x43e0000000000000⟩

theorem not_isLimit_firstPastLimit (n : Int) :
  ¬ firstPastLimit.IsLimit n
  := by
  rintro ⟨hnumber, -, hlt⟩
  have hdenotes := @Binary64.Denotes.normal ⟨0x43e0000000000000⟩ 0 1086 0 (by decide)
    (by decide) (by decide) (by decide) (by decide +kernel)
  cases hnumber with
  | double h =>
      have heq := h.eq_toRat.2.trans hdenotes.eq_toRat.2.symm
      norm_num at heq
      have hn : n = 9223372036854775808 := by
        exact_mod_cast heq
      omega

/-- The greatest limit reaches the find command as it is, and the next one is refused. -/
theorem find_takes_limit_greatest :
  (activeUpTo greatestLimit).present? "limit" = some greatestLimit
    ∧ greatestLimit.IsLimit 9223372036854774784
    ∧ find ⟨0⟩ (activeUpTo .null) = .ok activeFirst
    ∧ (∃ limit : Int64, limit.toInt = 9223372036854774784
      ∧ find ⟨0⟩ (activeUpTo greatestLimit) = .ok { activeFirst with limit })
    ∧ find ⟨0⟩ (activeUpTo firstPastLimit)
      = .error (.invalidField "limit" "a non-negative integer")
  := by
  have hother : find ⟨0⟩ (activeUpTo .null) = .ok activeFirst := by rfl
  obtain ⟨-, htakes, -⟩ := find_takes_limit ⟨0⟩ (w := .null)
    (rfl : (activeUpTo greatestLimit).present? "limit" = some greatestLimit) hother
  obtain ⟨-, -, hrefuses⟩ := find_takes_limit ⟨0⟩ (w := .null)
    (rfl : (activeUpTo firstPastLimit).present? "limit" = some firstPastLimit) hother
  use rfl, isLimit_greatestLimit, hother, htakes _ isLimit_greatestLimit
  apply hrefuses not_isLimit_firstPastLimit

end Document

end MongoQuery
