import Mathlib.Data.List.Forall2
import MongoQuery.Proofs.Pipeline.Run
import MongoQuery.Query.Aggregation

/-!
# Nested counts

The key of a record at a level is the value of the level's field, cut to a multiple of a
width or to the beginning of a date interval where the level says so.  Buckets count records
by the keys of some levels when there is one for each different key at the first of these
levels, which shows the key and has the number of the records with it, and its inner buckets
count these records by the keys of the levels within.
-/

namespace MongoQuery

variable (E : Engine)

/-! ### Keys of records -/

namespace Level

/-- The value that a level takes from a record. -/
def source (level : Level) (r : Document) : Option Value :=
  r.at? level.fieldId

/-- The key that a level forms from a value. -/
def rounded (level : Level) (x : Option Value) : Option Value :=
  match level.bucketing with
  | .raw => x
  | .histogram width =>
    E.multiply (E.truncate (E.divide x (some (.double width)))) (some (.double width))
  | .date interval => E.dateText interval.format x

/-- The key of a record at a level. -/
def key (level : Level) (r : Document) : Option Value :=
  level.rounded E (level.source r)

/-- Whether a level keeps a record: its key is among the selected ones, if some are. -/
def keeps (level : Level) (r : Document) : Bool :=
  match level.values with
  | some values => E.among (level.key E r) values
  | none => true

end Level

/-- An engine respects a level: the keys that the level forms of like values are alike, and of
like keys it selects both or neither. -/
structure Level.RespectedBy (E : Engine) (level : Level) : Prop where
  rounded : ∀ x y, E.alike x y → E.alike (level.rounded E x) (level.rounded E y)
  selected : ∀ values, level.values = some values →
    ∀ x y, E.alike x y → E.among x values = E.among y values

/-- Where only equal values are the same key, every level is respected. -/
theorem Level.respectedBy_ofEquality (level : Level) (satisfies : Document → Document → Bool)
    (among : Option Value → List Value → Bool)
    (multiply divide : Option Value → Option Value → Option Value)
    (truncate : Option Value → Option Value) (dateText : String → Option Value → Option Value) :
  level.RespectedBy (.ofEquality satisfies among multiply divide truncate dateText)
  := by
  constructor
  · intro x y h
    rw [(Engine.alikeBy_eq_iff x y).mp h]
    apply (Engine.alikeBy_eq_iff _ _).mpr rfl
  · intro values _ x y h
    rw [(Engine.alikeBy_eq_iff x y).mp h]

/-- The value that shows a key: the empty text for null and for a missing key. -/
def shown : Option Value → Value
  | none => .string ""
  | some .null => .string ""
  | some v => v

/-! ### Counting by keys -/

/-- Groups split items: they have the items between them, each has some, items of one group
are alike and items of different groups are not. -/
structure Splits {α : Type} (alike : α → α → Prop) (items : List α) (groups : List (List α)) :
    Prop where
  perm : groups.flatten.Perm items
  nonempty : ∀ group ∈ groups, group ≠ []
  within : ∀ group ∈ groups, group.Pairwise alike
  apart : groups.Pairwise fun group group' => ∀ a ∈ group, ∀ a' ∈ group', ¬ alike a a'

/-- The document of a bucket. -/
def bucketDocument (id value : Value) (inner : List Value) : Document :=
  [("id", id), ("value", value), ("buckets", .array inner)]

/-- Buckets count records by the keys of levels. -/
def CountedBy : List Level → List Document → List Value → Prop
  | [], _, buckets => buckets = []
  | level :: within, records, buckets => ∃ groups : List (List Document),
    Splits (fun r r' => E.alike (level.key E r) (level.key E r')) records groups
      ∧ List.Forall₂ (fun group bucket => ∃ r ∈ group, ∃ inner : List Value,
          bucket = .document
            (bucketDocument (shown (level.key E r)) (E.number group.length) inner)
          ∧ CountedBy within group inner) groups buckets

end MongoQuery
