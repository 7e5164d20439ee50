import MongoQuery.Proofs.Number.Rational
import MongoQuery.Proofs.Wire.Agreement

/-!
# The grammar of conditions and groups

A condition is a document with the name of an operator and an operand of the kind that the
operator asks for; a group is a document of conditions.  What a document says is one condition
at most: the operator by its name, and the parts one by one as they stand in the operand.  The
nodes of a document are the condition that it is and what stands in the place of conditions
within it, from the top, left to right; each node has a fault of its own or none.
-/

namespace MongoQuery

/-! ### Operands -/

/-- An integer of 64 bits in any of the three types of number. -/
def Value.IsInteger (v : Value) : Prop :=
  ∃ n : Int64, v.rational? = some (n.toInt : ℚ)

theorem Value.isInteger_iff (v : Value) :
  v.IsInteger ↔ v.integer?.isSome
  := by
  rw [Option.isSome_iff_exists]
  simp only [integer?_eq_some_iff]
  rfl

instance (v : Value) : Decidable v.IsInteger :=
  decidable_of_iff _ v.isInteger_iff.symm

/-- What an operator asks its operand to be. -/
inductive OperandKind where
  | anything
  | bound
  | text
  | conditions
  | group
deriving DecidableEq, Repr

namespace OperandKind

/-- What the operator of a given name asks for; other names are not known. -/
def ofTag? (tag : String) : Option OperandKind :=
  if tag ∈ ["EQ", "NEQ"] then some .anything
  else if tag ∈ ["LT", "GT", "LTE", "GTE"] then some .bound
  else if tag = "PREFIX" then some .text
  else if tag ∈ ["ALL", "ANY"] then some .conditions
  else if tag ∈ ["FIND", "NFIND"] then some .group
  else none

end OperandKind

namespace Condition

/-- What the operator of a document asks for, if the document has an operator that is known. -/
def kindOf? (d : Document) : Option OperandKind :=
  (d.text? "op").bind OperandKind.ofTag?

/-- The operand of a document: null where it has none. -/
def operandOf (d : Document) : Value :=
  (d.get? "value").getD .null

end Condition

/-! ### The grammar -/

/-- A value that is compared with: of a number of days ago the number is an integer of 64 bits. -/
def IsBound (v : Value) : Prop :=
  ∀ fields, v = .document fields →
    ∀ days, Fields.get? fields "daysAgo" = some days → days.IsInteger

mutual

/-- A condition: a document with an operator that is known and an operand of its kind. -/
inductive IsCondition : Document → Prop
  | anything {d : Document} : Condition.kindOf? d = some .anything → IsCondition d
  | bound {d : Document} :
      Condition.kindOf? d = some .bound → IsBound (Condition.operandOf d) → IsCondition d
  | text {d : Document} {s : String} :
      Condition.kindOf? d = some .text → Condition.operandOf d = .string s → IsCondition d
  | conditions {d : Document} {items : List Value} :
      Condition.kindOf? d = some .conditions → Condition.operandOf d = .array items →
        AreConditions items → IsCondition d
  | group {d fields : Document} :
      Condition.kindOf? d = some .group → Condition.operandOf d = .document fields →
        IsGroup fields → IsCondition d

/-- A list of conditions. -/
inductive AreConditions : List Value → Prop
  | nil : AreConditions []
  | cons {d : Document} {rest : List Value} :
      IsCondition d → AreConditions rest → AreConditions (.document d :: rest)

/-- A group: a document whose fields are conditions. -/
inductive IsGroup : Document → Prop
  | nil : IsGroup []
  | cons {name : String} {d rest : Document} :
      IsCondition d → IsGroup rest → IsGroup ((name, .document d) :: rest)

end

/-! ### What documents say -/

/-- A bound is what a value says: a number of days ago where there is one, else the value. -/
def Bound.SaidBy : Bound → Value → Prop
  | .literal w, v => v = w ∧ Unambiguous (.literal v)
  | .daysAgo n, v => ∃ fields days, v = .document fields
      ∧ Fields.get? fields "daysAgo" = some days ∧ days.rational? = some (n.toInt : ℚ)

namespace Condition

mutual

/-- What a condition consists of is what an operand says. -/
def HasOperand : Condition → Value → Prop
  | .eq w, v => v = w
  | .neq w, v => v = w
  | .order _ bound, v => bound.SaidBy v
  | .startsWith text, v => v = .string text
  | .all parts, v => ∃ items, v = .array items ∧ PartsSaidBy parts items
  | .any parts, v => ∃ items, v = .array items ∧ PartsSaidBy parts items
  | .find group, v => ∃ fields, v = .document fields ∧ FieldsSaidBy group fields
  | .nfind group, v => ∃ fields, v = .document fields ∧ FieldsSaidBy group fields

/-- Conditions are what the items of an array say, each by its operator and its operand. -/
def PartsSaidBy : List Condition → List Value → Prop
  | [], items => items = []
  | c :: rest, items => ∃ d others, items = .document d :: others
      ∧ (Document.text? d "op" = some c.opName ∧ c.HasOperand (operandOf d))
      ∧ PartsSaidBy rest others

/-- The fields of a group are what the fields of a document of the same names say. -/
def FieldsSaidBy : List (String × Condition) → Document → Prop
  | [], fields => fields = []
  | (name, c) :: rest, fields => ∃ d others, fields = (name, .document d) :: others
      ∧ (Document.text? d "op" = some c.opName ∧ c.HasOperand (operandOf d))
      ∧ FieldsSaidBy rest others

end

/-- A condition is what a document says: it has its operator and consists of what its operand
says. -/
def SaidBy (c : Condition) (d : Document) : Prop :=
  d.text? "op" = some c.opName ∧ c.HasOperand (operandOf d)

end Condition

/-- A group is what a document says. -/
def Group.SaidBy (group : Group) (d : Document) : Prop :=
  Condition.FieldsSaidBy group d

/-! ### Nodes -/

/-- What stands in the place of a condition. -/
inductive Node where
  | condition (d : Document)
  /-- An item of a list of conditions which is not a document. -/
  | strayItem
  /-- A field of a group which is not a document. -/
  | strayField (name : String)

namespace Node

/-- The node that an item of a list of conditions is. -/
def ofItem : Value → Node
  | .document d => .condition d
  | _ => .strayItem

/-- The node that a field of a group is. -/
def ofField : String × Value → Node
  | (_, .document d) => .condition d
  | (name, _) => .strayField name

end Node

namespace OperandKind

/-- The fault of an operand that is not of a kind, whatever stands within it. -/
def mismatch? : OperandKind → Value → Option DecodeError
  | .bound, .document fields =>
    match Fields.get? fields "daysAgo" with
    | none => none
    | some days => if days.IsInteger then none else some (.invalidField "daysAgo" "an integer")
  | .text, .string _ => none
  | .text, _ => some (.invalidField "value" "a string for PREFIX")
  | .conditions, .array _ => none
  | .conditions, _ => some (.invalidField "value" "an array of condition documents")
  | .group, .document _ => none
  | .group, _ => some (.invalidField "value" "a query document")
  | _, _ => none

/-- The nodes that stand in an operand of a kind. -/
def nodes : OperandKind → Value → List Node
  | .conditions, .array items => items.map Node.ofItem
  | .group, .document fields => fields.map Node.ofField
  | _, _ => []

end OperandKind

namespace Node

/-- The fault of a node itself: that of its operator, or else that of its operand. -/
def ownFault? : Node → Option DecodeError
  | .condition d =>
    match Condition.kindOf? d with
    | none => some (.unsupportedOperator d)
    | some kind => kind.mismatch? (Condition.operandOf d)
  | .strayItem => some (.invalidField "value" "an array of condition documents")
  | .strayField name => some (.invalidField name "a condition document")

/-- The nodes that stand directly within a node, in order. -/
def children : Node → List Node
  | .condition d =>
    match Condition.kindOf? d with
    | none => []
    | some kind => kind.nodes (Condition.operandOf d)
  | _ => []

theorem sizeOf_ofItem_le (v : Value) :
  sizeOf (ofItem v) ≤ sizeOf v
  := by
  cases v <;> simp [ofItem] <;> omega

theorem sizeOf_ofField_le (field : String × Value) :
  sizeOf (ofField field) ≤ sizeOf field
  := by
  obtain ⟨name, v⟩ := field
  cases v <;> simp [ofField]

theorem sizeOf_operandOf_le (d : Document) :
  sizeOf (Condition.operandOf d) ≤ sizeOf d
  := by
  rw [Condition.operandOf]
  cases h : d.get? "value" with
  | none =>
      cases d with
      | nil => simp
      | cons entry rest =>
          simp only [Option.getD_none, Value.null.sizeOf_spec, List.cons.sizeOf_spec]
          omega
  | some v =>
      rw [Option.getD_some]
      apply (Fields.sizeOf_lt_of_get? h).le

/-- What stands in an operand is smaller than it. -/
theorem sizeOf_lt_of_mem_nodes {kind : OperandKind} {v : Value} {node : Node}
    (h : node ∈ kind.nodes v) :
  sizeOf node < sizeOf v
  := by
  cases kind with
  | conditions =>
      cases v with
      | array items =>
          obtain ⟨item, hitem, rfl⟩ := List.mem_map.mp h
          have hsize := List.sizeOf_lt_of_mem hitem
          have hnode := sizeOf_ofItem_le item
          simp only [Value.array.sizeOf_spec]
          omega
      | _ => cases h
  | group =>
      cases v with
      | document fields =>
          obtain ⟨field, hfield, rfl⟩ := List.mem_map.mp h
          have hsize := List.sizeOf_lt_of_mem hfield
          have hnode := sizeOf_ofField_le field
          simp only [Value.document.sizeOf_spec]
          omega
      | _ => cases h
  | _ => cases h

/-- What stands within a node is smaller than it. -/
theorem sizeOf_lt_of_mem_children {n child : Node} (h : child ∈ n.children) :
  sizeOf child < sizeOf n
  := by
  cases n with
  | condition d =>
      rw [children] at h
      split at h
      · cases h
      · have hchild := sizeOf_lt_of_mem_nodes h
        have hoperand := sizeOf_operandOf_le d
        simp only [condition.sizeOf_spec]
        omega
  | _ => cases h

/-- The nodes that are visited from a node: itself, and then what stands within it from left to
right. -/
def visits (n : Node) : List Node :=
  n :: n.children.attach.flatMap fun child => visits child.val
termination_by sizeOf n
decreasing_by
  exact sizeOf_lt_of_mem_children child.property

theorem visits_eq (n : Node) :
  n.visits = n :: n.children.flatMap visits
  := by
  rw [visits, ← List.flatMap_map, List.attach_map_subtype_val]

/-- What holds of a node when it holds of the nodes directly within it holds of all. -/
theorem children_induction {P : Node → Prop}
    (h : ∀ n : Node, (∀ child ∈ n.children, P child) → P n) (n : Node) :
  P n
  := by
  induction n using visits.induct with
  | case1 n ih =>
      apply h
      intro child hchild
      apply ih ⟨child, hchild⟩

end Node

end MongoQuery
