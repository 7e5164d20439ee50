import MongoQuery.Proofs.Pipeline.Grouping
import MongoQuery.Proofs.Pipeline.Places

/-!
# Running pipelines

An engine runs stages on rows, which are documents.  A place is read at its path, and what
is missing stays missing: it is left out of compound keys and of collected rows, and a
projection puts nothing in its place.  What engines may differ in are parameters: which
values are the same key, which filters and lists of values are met, and what the operators
on numbers and dates give.
-/

namespace MongoQuery

/-- Two values, either of which may be missing, are both missing or the same. -/
def alikeBy (same : Value → Value → Bool) : Option Value → Option Value → Bool
  | none, none => true
  | some v, some w => same v w
  | _, _ => false

/-- What runs pipelines: being the same key is symmetric and transitive, a filter with a list
is met by what is among its values, and counts and sums are exact. -/
structure Engine where
  /-- Whether two values are the same key. -/
  same : Value → Value → Bool
  /-- Whether a record satisfies a filter. -/
  satisfies : Document → Document → Bool
  /-- Whether a value is among given ones. -/
  among : Option Value → List Value → Bool
  multiply : Option Value → Option Value → Option Value
  divide : Option Value → Option Value → Option Value
  truncate : Option Value → Option Value
  /-- The text of a date in a format. -/
  dateText : String → Option Value → Option Value
  /-- The value of a number. -/
  number : Nat → Value
  /-- The sum of values. -/
  sum : List (Option Value) → Value
  same_symm : ∀ v w, same v w → same w v
  same_trans : ∀ u v w, same u v → same v w → same u w
  satisfies_among : ∀ path values record,
    satisfies [(path, .document [("$in", .array values)])] record = among (record.at? path) values
  sum_ones : ∀ n, sum (List.replicate n (some (.int32 1))) = number n
  sum_numbers : ∀ ns : List Nat, sum (ns.map fun n => some (number n))
    = number (ns.foldr (· + ·) 0)

/-- Whether a place is the key or within it. -/
def Place.inKey : Place → Bool
  | .column _ => false
  | _ => true

/-- The paths of the key and of what is within it are those that begin with its name. -/
theorem Place.head?_pathNames_path (p : Place) :
  decide ((pathNames p.path).head? = some "_id") = p.inKey
  := by
  cases p with
  | key => decide
  | component index =>
      apply decide_eq_true
      apply head?_pathNames_of_key
      rw [path, String.toList_append]
      rfl
  | member index name =>
      apply decide_eq_true
      apply head?_pathNames_of_key
      rw [path, String.toList_append, String.toList_append, String.toList_append]
      rfl
  | column c =>
      cases c <;> decide

namespace Document

/-- The value at a place. -/
def atPlace (row : Document) (p : Place) : Option Value :=
  row.follow? p.names

/-- Puts a value at a place, and nothing where it is missing. -/
def setPlace (row : Document) (p : Place) : Option Value → Document
  | some v => row.put p.names v
  | none => row

/-- The fields of a compound key whose components have numbers from a first one. -/
def numbered (first : Nat) : List (Option Value) → List (String × Option Value)
  | [] => []
  | x :: rest => (Integer.text first, x) :: numbered (first + 1) rest

/-- The compound key of some components. -/
def compound (components : List (Option Value)) : Document :=
  Fields.ofSet (numbered 0 components)

/-- The row that a collection has for a row: some of its columns. -/
def collected (columns : List Column) (row : Document) : Document :=
  Fields.ofSet (columns.map fun c => (c.name, row.atPlace (.column c)))

/-- The rows into which the array at a place turns a row, one for each element; what is no
array is its own only element. -/
def unwound (p : Place) (row : Document) : List Document :=
  match row.atPlace p with
  | some (.array items) => items.map fun item => row.put p.names item
  | some .null => []
  | none => []
  | some _ => [row]

end Document

namespace Engine

variable (E : Engine)

/-- Two values, either of which may be missing, are both missing or the same. -/
def alike (x y : Option Value) : Bool :=
  alikeBy E.same x y

/-- Two compound keys have components that are alike, one by one. -/
def alikeKeys : List (Option Value) → List (Option Value) → Bool
  | [], [] => true
  | x :: xs, y :: ys => E.alike x y && alikeKeys xs ys
  | _, _ => false

/-- The value of an expression on a row. -/
def eval (row : Document) : Expr → Option Value
  | .field fieldId => row.at? fieldId
  | .place p => row.atPlace p
  | .number x => some (.double x)
  | .emptyText => some (.string "")
  | .ifNull e fallback =>
    match eval row e with
    | none => eval row fallback
    | some .null => eval row fallback
    | found => found
  | .multiply e f => E.multiply (eval row e) (eval row f)
  | .divide e f => E.divide (eval row e) (eval row f)
  | .truncate e => E.truncate (eval row e)
  | .dateText format e => E.dateText format (eval row e)

/-- The components of the key of a row. -/
def key (es : List Expr) (row : Document) : List (Option Value) :=
  es.map (E.eval row)

/-- What an accumulator computes from rows. -/
def accumulate (rows : List Document) : Accumulator → Value
  | .count => E.sum (rows.map fun _ => some (.int32 1))
  | .sum c => E.sum (rows.map fun row => row.atPlace (.column c))
  | .first e => (rows.head?.bind fun row => E.eval row e).getD .null
  | .collect columns => .array (rows.map fun row => .document (row.collected columns))

/-- The row of a bunch of rows with a key. -/
def groupRow (columns : List (Column × Accumulator))
    (bunch : Bunch (List (Option Value)) Document) : Document :=
  ("_id", .document (Document.compound bunch.key))
    :: columns.map fun column => (column.1.name, E.accumulate bunch.items column.2)

/-- What a projection puts at a place. -/
def projected (row : Document) (p : Place) : Projection → Option Value
  | .keep => row.atPlace p
  | .drop => none
  | .compute e => E.eval row e
  | .emptyList => some (.array [])

/-- The row that a projection forms; a key that it does not speak of is kept. -/
def projectRow (places : List (Place × Projection)) (row : Document) : Document :=
  let start := if places.any fun place => place.1.inKey then []
    else Document.setPlace [] .key (row.atPlace .key)
  places.foldl (fun out place => out.setPlace place.1 (E.projected row place.1 place.2)) start

/-- The rows that a stage makes of rows. -/
def step : Stage → List Document → List Document
  | .satisfying filter, rows => rows.filter (E.satisfies filter)
  | .among p values, rows => rows.filter fun row => E.among (row.atPlace p) values
  | .unwind p, rows => rows.flatMap (Document.unwound p)
  | .group es columns, rows => (Bunch.ofItems E.alikeKeys (E.key es) rows).map (E.groupRow columns)
  | .project places, rows => rows.map (E.projectRow places)

/-- The rows that a pipeline makes of rows. -/
def run (stages : List Stage) (rows : List Document) : List Document :=
  stages.foldl (fun rows stage => E.step stage rows) rows

/-! ### Keys that are equal -/

/-- The addend that a value is in a sum. -/
def addend : Option Value → Int64
  | some (.int32 n) => n.toInt64
  | some (.int64 n) => n
  | _ => 0

/-- The sum of integers. -/
def total (values : List (Option Value)) : Int64 :=
  values.foldr (fun x n => addend x + n) 0

theorem total_ones (n : Nat) :
  total (List.replicate n (some (.int32 1))) = Int64.ofNat n
  := by
  induction n with
  | zero => rfl
  | succ n ih =>
      rw [List.replicate_succ, total, List.foldr_cons, ← total, ih, Nat.add_comm, Int64.ofNat_add]
      rfl

theorem total_numbers (ns : List Nat) :
  total (ns.map fun n => some (.int64 (Int64.ofNat n))) = Int64.ofNat (ns.foldr (· + ·) 0)
  := by
  induction ns with
  | nil => rfl
  | cons n rest ih =>
      rw [List.map_cons, total, List.foldr_cons, ← total, ih, List.foldr_cons, Int64.ofNat_add]
      rfl

open Classical in
theorem alikeBy_eq_iff (x y : Option Value) :
  alikeBy (fun v w => decide (v = w)) x y ↔ x = y
  := by
  cases x <;> cases y <;> simp [alikeBy]

/-- The engine with any relation for being the same key and any operators on values, which
counts and sums in integers of 64 bits. -/
def ofSame (same : Value → Value → Bool) (hsymm : ∀ v w, same v w → same w v)
    (htrans : ∀ u v w, same u v → same v w → same u w)
    (satisfies : Document → Document → Bool) (among : Option Value → List Value → Bool)
    (multiply divide : Option Value → Option Value → Option Value)
    (truncate : Option Value → Option Value) (dateText : String → Option Value → Option Value) :
    Engine where
  same := same
  satisfies filter record :=
    match filter with
    | [(path, .document [("$in", .array values)])] => among (record.at? path) values
    | _ => satisfies filter record
  among := among
  multiply := multiply
  divide := divide
  truncate := truncate
  dateText := dateText
  number n := .int64 (Int64.ofNat n)
  sum values := .int64 (total values)
  same_symm := hsymm
  same_trans := htrans
  satisfies_among := by
    intro path values record
    rfl
  sum_ones := by
    intro n
    rw [total_ones]
  sum_numbers := by
    intro ns
    rw [total_numbers]

open Classical in
/-- The engine for which only equal values are the same key, with any operators on values. -/
noncomputable def ofEquality (satisfies : Document → Document → Bool)
    (among : Option Value → List Value → Bool)
    (multiply divide : Option Value → Option Value → Option Value)
    (truncate : Option Value → Option Value) (dateText : String → Option Value → Option Value) :
    Engine :=
  ofSame (fun v w => decide (v = w))
    (fun _ _ h => decide_eq_true (of_decide_eq_true h).symm)
    (fun _ _ _ h h' => decide_eq_true ((of_decide_eq_true h).trans (of_decide_eq_true h')))
    satisfies among multiply divide truncate dateText

open Classical in
/-- An engine that finds values among others by equality. -/
noncomputable def plain : Engine :=
  ofEquality (fun _ _ => true) (fun x values => values.any fun v => decide (x = some v))
    (fun _ _ => none) (fun _ _ => none) (fun _ => none) (fun _ _ => none)

end Engine

end MongoQuery
