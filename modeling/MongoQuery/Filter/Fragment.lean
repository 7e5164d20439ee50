import MongoQuery.Bson.Value

/-!
# Fragments of filters

A filter cannot say of a field that several things hold of it, or one of several, except
by naming the field again in each.  A fragment is what a condition says before it is
attached to a field: a value to put under the field, or several fragments to be attached
one by one.  `Fragment.group` attaches fragments to different fields in one document.
-/

namespace MongoQuery

/-- A condition in the language of filters, not yet attached to a field. -/
inductive Fragment where
  /-- An operator document or a literal. -/
  | direct (value : Value)
  /-- Each of the fragments holds. -/
  | and (parts : List Fragment)
  /-- One of the fragments holds. -/
  | or (parts : List Fragment)

namespace Fragment

mutual

/-- The clause that attaches a fragment to a field. -/
def attach (field : String) : Fragment → Document
  | .direct value => Document.single field value
  | .and parts => Document.single "$and" (.array (attachAll field parts))
  | .or parts => Document.single "$or" (.array (attachAll field parts))

/-- The clauses that attach fragments to a field one by one. -/
def attachAll (field : String) : List Fragment → List Value
  | [] => []
  | part :: rest => .document (attach field part) :: attachAll field rest

end

/-- The value that goes directly under a field. -/
def direct? : Fragment → Option Value
  | .direct value => some value
  | _ => none

/-- The clauses that a fragment contributes to the conjunction of a group: one for each
part that must hold, and a single one for a choice. -/
def clauses (field : String) : Fragment → List Value
  | .direct _ => []
  | .and parts => attachAll field parts
  | .or parts => [.document (Document.single "$or" (.array (attachAll field parts)))]

/-- The document in which every field has its fragment: the direct ones under their
fields, and the clauses of all others in one conjunction, if there are any. -/
def group (fragments : List (String × Fragment)) : Document :=
  let fields := Fields.ofList (fragments.filterMap fun f => f.2.direct?.map fun v => (f.1, v))
  let conjunction := fragments.flatMap fun f => f.2.clauses f.1
  if conjunction.isEmpty then fields else fields.insert "$and" (.array conjunction)

end Fragment

end MongoQuery
