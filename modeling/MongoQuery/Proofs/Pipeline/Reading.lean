import MongoQuery.Proofs.Filter.Holds
import MongoQuery.Proofs.Pipeline.Run

/-!
# Reading stages from documents

An engine is given a pipeline as documents.  In an expression a text that begins with a
dollar sign is the path of a place, a document whose first name begins with one applies an
operator, and any other document forms a document, from which what is missing is left out.
Running the documents of the stages of a bucket pipeline is running these stages.
-/

namespace MongoQuery

namespace Engine

variable (E : Engine)

/-! ### Expressions -/

/-- What an operator gives from its arguments. -/
def operate : String → List (Option Value) → Option Value
  | "$ifNull", [x, fallback] =>
    match x with
    | none => fallback
    | some .null => fallback
    | found => found
  | "$multiply", [x, y] => E.multiply x y
  | "$divide", [x, y] => E.divide x y
  | "$trunc", [x] => E.truncate x
  | _, _ => none

/-- The value of a text: of the place at its path, or the text itself. -/
def evalText (row : Document) (text : String) : Option Value :=
  match text.toList with
  | '$' :: path => row.at? (String.ofList path)
  | _ => some (.string text)

mutual

/-- The value of a written expression. -/
def evalValue (row : Document) : Value → Option Value
  | .string text => evalText row text
  | .array items => some (.array ((evalItems row items).map fun x => x.getD .null))
  | .document [] => some (.document [])
  | .document ((name, arg) :: rest) =>
    if name = "$dateToString" then
      match arg with
      | .document [("format", .string format), ("date", date)] =>
        E.dateText format (evalValue row date)
      | _ => none
    else if isOperatorName name then
      match arg with
      | .array items => E.operate name (evalItems row items)
      | v => E.operate name [evalValue row v]
    else some (.document (Fields.ofSet ((name, evalValue row arg) :: evalFields row rest)))
  | v => some v

/-- The values of written expressions. -/
def evalItems (row : Document) : List Value → List (Option Value)
  | [] => []
  | v :: rest => evalValue row v :: evalItems row rest

/-- The values of named written expressions. -/
def evalFields (row : Document) : List (String × Value) → List (String × Option Value)
  | [] => []
  | (name, v) :: rest => (name, evalValue row v) :: evalFields row rest

end

/-! ### Stages -/

/-- What a written accumulator computes from rows. -/
def accumulateValue (rows : List Document) : Value → Value
  | .document [("$sum", arg)] => E.sum (rows.map fun row => E.evalValue row arg)
  | .document [("$first", arg)] => (rows.head?.bind fun row => E.evalValue row arg).getD .null
  | .document [("$push", arg)] => .array (rows.map fun row => (E.evalValue row arg).getD .null)
  | _ => .null

/-- The key of a row for a written compound key. -/
def keyOfFields (fields : Document) (row : Document) : List (Option Value) :=
  (E.evalFields row fields).map Prod.snd

/-- The row of a bunch of rows for a written compound key and written columns. -/
def groupRowOfFields (fields columns : Document) (bunch : Bunch (List (Option Value)) Document) :
    Document :=
  ("_id", .document (Fields.ofSet ((Fields.names fields).zip bunch.key)))
    :: columns.map fun column => (column.1, E.accumulateValue bunch.items column.2)

/-- What a written projection puts at a path. -/
def projectedValue (row : Document) (path : String) : Value → Option Value
  | .int32 1 => row.at? path
  | .bool true => row.at? path
  | .int32 0 => none
  | .bool false => none
  | v => E.evalValue row v

/-- Puts a value at a path, and nothing where it is missing. -/
def setPath (row : Document) (path : String) : Option Value → Document
  | some v => row.put (pathNames path) v
  | none => row

/-- The row that a written projection forms; a key that it does not speak of is kept. -/
def projectRowOfFields (fields : Document) (row : Document) : Document :=
  let start := if fields.any fun field => (pathNames field.1).head? = some "_id" then []
    else setPath [] "_id" (row.at? "_id")
  fields.foldl (fun out field => setPath out field.1 (E.projectedValue row field.1 field.2)) start

/-- The rows into which the array at a path turns a row. -/
def unwoundAt (path : String) (row : Document) : List Document :=
  match row.at? path with
  | some (.array items) => items.map fun item => row.put (pathNames path) item
  | some .null => []
  | none => []
  | some _ => [row]

/-- The rows that a written stage makes of rows. -/
def stepDocument (rows : List Document) : Document → List Document
  | [("$match", .document filter)] => rows.filter (E.satisfies filter)
  | [("$unwind", .string reference)] =>
    match reference.toList with
    | '$' :: path => rows.flatMap (unwoundAt (String.ofList path))
    | _ => rows
  | [("$group", .document (("_id", .document fields) :: columns))] =>
    (Bunch.ofItems E.alikeKeys (E.keyOfFields fields) rows).map (E.groupRowOfFields fields columns)
  | [("$project", .document fields)] => rows.map (E.projectRowOfFields fields)
  | _ => rows

/-- The rows that a written pipeline makes of rows. -/
def runDocuments (stages : List Document) (rows : List Document) : List Document :=
  stages.foldl E.stepDocument rows

/-! ### Written expressions -/

theorem toList_reference (path : String) :
  ("$" ++ path).toList = '$' :: path.toList
  := by
  rw [String.toList_append]
  rfl

theorem evalText_reference (row : Document) (path : String) :
  evalText row ("$" ++ path) = row.at? path
  := by
  rw [evalText, toList_reference]
  simp

theorem evalValue_reference (row : Document) (p : Place) :
  E.evalValue row p.reference = row.atPlace p
  := by
  rw [Place.reference, evalValue, evalText_reference]
  rfl

/-- An operator is applied to the values of its two arguments. -/
theorem evalValue_pair (row : Document) {name : String} (v w : Value)
    (hname : isOperatorName name) (hdate : name ≠ "$dateToString") :
  E.evalValue row (.document (Document.single name (.array [v, w])))
    = E.operate name [E.evalValue row v, E.evalValue row w]
  := by
  rw [Document.single, evalValue, if_neg hdate, if_pos hname]
  rfl

/-- A written expression has the value of the expression. -/
theorem evalValue_toValue (row : Document) (e : Expr) :
  E.evalValue row e.toValue = E.eval row e
  := by
  induction e with
  | field fieldId =>
      rw [Expr.toValue, evalValue, evalText_reference]
      rfl
  | place p => apply E.evalValue_reference
  | number x => rfl
  | emptyText => rfl
  | ifNull e fallback ihe ihf =>
      rw [Expr.toValue, E.evalValue_pair row _ _ rfl (by decide), ihe, ihf]
      rfl
  | multiply e f ihe ihf =>
      rw [Expr.toValue, E.evalValue_pair row _ _ rfl (by decide), ihe, ihf]
      rfl
  | divide e f ihe ihf =>
      rw [Expr.toValue, E.evalValue_pair row _ _ rfl (by decide), ihe, ihf]
      rfl
  | truncate e ih =>
      have hvalue : E.evalValue row (.document (Document.single "$trunc" e.toValue))
          = E.operate "$trunc" [E.evalValue row e.toValue] := by
        cases e <;> rfl
      rw [Expr.toValue, hvalue, ih]
      rfl
  | dateText format e ih =>
      have hvalue : E.evalValue row (Expr.dateText format e).toValue
          = E.dateText format (E.evalValue row e.toValue) := by
        rfl
      rw [hvalue, ih]
      rfl

/-! ### Written stages -/

theorem evalFields_columns (row : Document) (columns : List Column) :
  E.evalFields row (columns.map fun c => (c.name, (Place.column c).reference))
    = columns.map fun c => (c.name, row.atPlace (.column c))
  := by
  induction columns with
  | nil => rfl
  | cons c rest ih =>
      rw [List.map_cons, evalFields, evalValue_reference, ih]
      rfl

/-- A written row of columns is the row with these columns. -/
theorem evalValue_columns (row : Document) (columns : List Column) :
  E.evalValue row (.document (columns.map fun c => (c.name, (Place.column c).reference)))
    = some (.document (row.collected columns))
  := by
  have hfields := E.evalFields_columns row columns
  cases columns with
  | nil => rfl
  | cons c rest =>
      have hdate : c.name ≠ "$dateToString" := by
        cases c <;> decide
      have hname : ¬ isOperatorName c.name := by
        cases c <;> decide
      rw [List.map_cons, evalValue, if_neg hdate, if_neg hname, Document.collected, ← hfields]
      · rfl
      · intro format date heq
        cases heq
      · intro items heq
        cases heq

/-- A written accumulator computes what the accumulator does. -/
theorem accumulateValue_toValue (rows : List Document) (a : Accumulator) :
  E.accumulateValue rows a.toValue = E.accumulate rows a
  := by
  cases a with
  | count => rfl
  | sum c =>
      change E.sum (rows.map fun row => E.evalValue row (Place.column c).reference) = _
      simp only [evalValue_reference]
      rfl
  | first e =>
      change (rows.head?.bind fun row => E.evalValue row e.toValue).getD .null = _
      simp only [evalValue_toValue]
      rfl
  | collect columns =>
      change Value.array (rows.map fun row => (E.evalValue row (.document (columns.map fun c =>
        (c.name, (Place.column c).reference)))).getD .null) = _
      simp only [evalValue_columns]
      rfl

theorem map_evalFields_keyFrom (row : Document) (first : Nat) (es : List Expr) :
  (E.evalFields row (Stage.keyFrom first es)).map Prod.snd = E.key es row
  := by
  induction es generalizing first with
  | nil => rfl
  | cons e rest ih =>
      rw [Stage.keyFrom, evalFields, List.map_cons, ih, evalValue_toValue]
      rfl

theorem zip_names_keyFrom (first : Nat) (es : List Expr) (components : List (Option Value))
    (h : components.length = es.length) :
  (Fields.names (Stage.keyFrom first es)).zip components = Document.numbered first components
  := by
  induction components generalizing first es with
  | nil => apply List.zip_nil_right
  | cons x xs ih =>
      cases es with
      | nil => cases h
      | cons e rest =>
          have hrest := ih (first + 1) rest (Nat.succ.inj h)
          rw [Document.numbered, ← hrest]
          rfl

/-- A written grouping makes the rows that the grouping does. -/
theorem stepDocument_group (es : List Expr) (columns : List (Column × Accumulator))
    (rows : List Document) :
  E.stepDocument rows (Stage.group es columns).toDocument = E.step (.group es columns) rows
  := by
  have hkey : E.keyOfFields (Stage.keyDocument es) = E.key es := by
    funext row
    apply E.map_evalFields_keyFrom
  have hhold := Bunch.hold_ofItems E.alikeKeys (E.key es) rows
  change (Bunch.ofItems E.alikeKeys (E.keyOfFields (Stage.keyDocument es)) rows).map
    (E.groupRowOfFields (Stage.keyDocument es)
      (columns.map fun column => (column.1.name, column.2.toValue))) = _
  rw [hkey]
  apply List.map_congr_left
  intro bunch hbunch
  obtain ⟨row, rest, -, hrow, -⟩ := hhold.begun bunch hbunch
  have hlength : bunch.key.length = es.length := by
    rw [hrow, key, List.length_map]
  rw [groupRowOfFields, groupRow, Stage.keyDocument, zip_names_keyFrom 0 es _ hlength,
    List.map_map]
  simp only [Function.comp_def, accumulateValue_toValue]
  rfl

/-- A written projection puts at a place what the projection does. -/
theorem projectedValue_toValue (row : Document) (p : Place) (projection : Projection) :
  E.projectedValue row p.path projection.toValue = E.projected row p projection
  := by
  cases projection with
  | keep => rfl
  | drop => rfl
  | emptyList => rfl
  | compute e =>
      have hvalue : E.projectedValue row p.path e.toValue = E.evalValue row e.toValue := by
        cases e <;> rfl
      change E.projectedValue row p.path e.toValue = _
      rw [hvalue, evalValue_toValue]
      rfl

/-- A written projection makes the rows that the projection does. -/
theorem stepDocument_project (places : List (Place × Projection)) (rows : List Document) :
  E.stepDocument rows (Stage.project places).toDocument = E.step (.project places) rows
  := by
  apply List.map_congr_left
  intro row _
  have hany : (places.map fun place => (place.1.path, place.2.toValue)).any
      (fun field => (pathNames field.1).head? = some "_id")
        = places.any fun place => place.1.inKey := by
    rw [List.any_map]
    congr 1
    funext place
    apply Place.head?_pathNames_path
  rw [projectRowOfFields, hany, List.foldl_map]
  simp only [projectedValue_toValue]
  rfl

/-- Running a written stage is running the stage. -/
theorem stepDocument_toDocument (rows : List Document) (stage : Stage) :
  E.stepDocument rows stage.toDocument = E.step stage rows
  := by
  cases stage with
  | satisfying filter => rfl
  | among p values =>
      apply List.filter_congr
      intro row _
      apply E.satisfies_among
  | unwind p =>
      change (match ("$" ++ p.path).toList with
        | '$' :: path => rows.flatMap (unwoundAt (String.ofList path))
        | _ => rows) = _
      rw [toList_reference]
      simp only [String.ofList_toList]
      rfl
  | group es columns => apply E.stepDocument_group
  | project places => apply E.stepDocument_project

/-- Running a written pipeline is running the pipeline. -/
theorem runDocuments_map_toDocument (stages : List Stage) (rows : List Document) :
  E.runDocuments (stages.map Stage.toDocument) rows = E.run stages rows
  := by
  rw [runDocuments, List.foldl_map]
  simp only [stepDocument_toDocument]
  rfl

end Engine

end MongoQuery
