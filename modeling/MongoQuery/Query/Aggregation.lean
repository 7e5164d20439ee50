import MongoQuery.Query.Criteria

/-!
# Aggregation requests

A step of an aggregation keeps the records that satisfy criteria, or counts records in
buckets.  A bucket specification asks for records to be counted by the value of a field, and
within each bucket by the value of another, to any depth.  It is a list of levels, outermost
first, that has at least one.  A level may keep selected keys only, may look at one
property of selected elements of an array, and may round numbers or dates to form keys.
-/

namespace MongoQuery

/-- A period of the calendar. -/
inductive DateInterval where
  | year
  | month
  | day
  | hour
  | minutes
  | seconds
  | milliseconds
deriving DecidableEq, Repr

namespace DateInterval

/-- All intervals, from long to short. -/
def all : List DateInterval := [.year, .month, .day, .hour, .minutes, .seconds, .milliseconds]

/-- The name of an interval in requests. -/
def name : DateInterval → String
  | .year => "year"
  | .month => "month"
  | .day => "day"
  | .hour => "hour"
  | .minutes => "minutes"
  | .seconds => "seconds"
  | .milliseconds => "milliseconds"

/-- The interval with a given name. -/
def ofName? (s : String) : Option DateInterval :=
  all.find? fun i => i.name = s

/-- The format that writes the beginning of the interval in which a date lies. -/
def format : DateInterval → String
  | .year => "%Y-01-01T00:00:00.000"
  | .month => "%Y-%m-01T00:00:00.000"
  | .day => "%Y-%m-%dT00:00:00.000"
  | .hour => "%Y-%m-%dT%H:00:00.000"
  | .minutes => "%Y-%m-%dT%H:%M:00.000"
  | .seconds => "%Y-%m-%dT%H:%M:%S.000"
  | .milliseconds => "%Y-%m-%dT%H:%M:%S.%L"

end DateInterval

/-- How the values of a field become keys. -/
inductive Bucketing where
  /-- The value is the key. -/
  | raw
  /-- Numbers are cut to multiples of a width, toward zero. -/
  | histogram (width : Binary64)
  /-- Dates are cut to the beginning of their interval. -/
  | date (interval : DateInterval)
deriving DecidableEq, Repr

/-- Elements of an array, selected by their `id`, and the property of them to look at. -/
structure SubField where
  ids : List String
  property : String
deriving DecidableEq, Repr

/-- One level of grouping. -/
structure Level where
  fieldId : String
  values : Option (List Value)
  subField : Option SubField
  bucketing : Bucketing

/-- The levels of a nested grouping. -/
structure BucketSpec where
  outer : Level
  inner : List Level

namespace BucketSpec

/-- The grouping by the values of one field. -/
def ofField (fieldId : String) : BucketSpec :=
  ⟨⟨fieldId, none, none, .raw⟩, []⟩

/-- The levels, outermost first. -/
def levels (spec : BucketSpec) : List Level :=
  spec.outer :: spec.inner

/-- The number of levels. -/
def depth (spec : BucketSpec) : Nat :=
  spec.levels.length

/-- Keeps only the outermost buckets with the given keys. -/
def keepValues (spec : BucketSpec) (values : List Value) : BucketSpec :=
  { spec with outer := { spec.outer with values := some values } }

/-- Groups within each outermost bucket. -/
def withSubBuckets (spec sub : BucketSpec) : BucketSpec :=
  { spec with inner := sub.levels }

/-- Looks at a property of selected array elements at the outermost level. -/
def withSubField (spec : BucketSpec) (ids : List String) (property : String) : BucketSpec :=
  { spec with outer := { spec.outer with subField := some ⟨ids, property⟩ } }

/-- Sets how the keys of the outermost level are formed. -/
def withBucketing (spec : BucketSpec) (bucketing : Bucketing) : BucketSpec :=
  { spec with outer := { spec.outer with bucketing } }

/-! ### Level by level

A specification is also its outermost level with, in each of its buckets, another
specification or none. -/

/-- The grouping within each outermost bucket, where there is one. -/
def subBuckets? (spec : BucketSpec) : Option BucketSpec :=
  match spec.inner with
  | [] => none
  | outer :: inner => some ⟨outer, inner⟩

/-- The grouping that many levels further in. -/
def within? (spec : BucketSpec) : Nat → Option BucketSpec
  | 0 => some spec
  | n + 1 => spec.subBuckets? >>= fun sub => sub.within? n

theorem subBuckets?_withSubBuckets (spec sub : BucketSpec) :
  (spec.withSubBuckets sub).subBuckets? = some sub
  := rfl

/-- The outermost level and what stands within it are the whole specification. -/
theorem eq_of_subBuckets? {spec other : BucketSpec} (houter : spec.outer = other.outer)
    (hsub : spec.subBuckets? = other.subBuckets?) :
  spec = other
  := by
  obtain ⟨outer, inner⟩ := spec
  obtain ⟨outer', inner'⟩ := other
  cases houter
  cases inner <;> cases inner' <;> cases hsub <;> rfl

/-- The levels are the outermost one and then those of the grouping within it. -/
theorem levels_eq (spec : BucketSpec) :
  spec.levels = spec.outer :: (spec.subBuckets?.map levels).getD []
  := by
  obtain ⟨outer, inner⟩ := spec
  cases inner <;> rfl

/-- The depth is one more than that of the grouping within. -/
theorem depth_eq (spec : BucketSpec) :
  spec.depth = 1 + (spec.subBuckets?.map depth).getD 0
  := by
  rw [depth, levels_eq, List.length_cons, Nat.add_comm]
  cases spec.subBuckets? <;> rfl

/-- The levels are met one by one on the way from a grouping to the one within it. -/
theorem getElem?_levels (spec : BucketSpec) (n : Nat) :
  spec.levels[n]? = (spec.within? n).map outer
  := by
  induction n generalizing spec with
  | zero => rw [within?, levels, List.getElem?_cons_zero, Option.map_some]
  | succ n ih =>
      rw [within?, levels_eq, List.getElem?_cons_succ]
      cases hsub : spec.subBuckets? with
      | none => rfl
      | some sub =>
          rw [Option.map_some, Option.getD_some, ih sub]
          rfl

/-- What is passed on from the grouping within to the whole holds of every specification. -/
theorem induction_subBuckets {P : BucketSpec → Prop}
    (hwhole : ∀ spec, (∀ sub, spec.subBuckets? = some sub → P sub) → P spec)
    (spec : BucketSpec) :
  P spec
  := by
  obtain ⟨outer, inner⟩ := spec
  induction inner generalizing outer with
  | nil =>
      apply hwhole
      intro sub hsub
      cases hsub
  | cons next rest ih =>
      apply hwhole
      intro sub hsub
      cases hsub
      apply ih

end BucketSpec

/-- A step of an aggregation. -/
inductive Request where
  | filter (criteria : Criteria)
  | buckets (spec : BucketSpec)

/-- The name of the kind of a step in requests. -/
def Request.kind : Request → String
  | .filter _ => "filter"
  | .buckets _ => "buckets"

end MongoQuery
