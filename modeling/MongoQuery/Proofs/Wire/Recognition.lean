import MongoQuery.Proofs.Wire.Faults
import MongoQuery.Proofs.Wire.Grammar

/-!
# Which documents are conditions and groups

Main statement: exactly the documents of the grammar are read, what is read is what they say,
and other documents fail with the fault of the first node that has one, from the top, left to
right; where that is a fault of an operator it shows the document of this very node.
-/

namespace MongoQuery

/-! ### Operators -/

namespace Operator

/-- What an operator asks its operand to be. -/
def kind : Operator → OperandKind
  | .eq => .anything
  | .neq => .anything
  | .order _ => .bound
  | .startsWith => .text
  | .all => .conditions
  | .any => .conditions
  | .find => .group
  | .nfind => .group

/-- The names of the operators. -/
def names : List String :=
  ["EQ", "NEQ", "LT", "GT", "LTE", "GTE", "PREFIX", "ALL", "ANY", "FIND", "NFIND"]

/-- Other names are not known. -/
theorem unknown_of_not_mem_names {s : String} (h : s ∉ names) :
  ofName? s = none ∧ OperandKind.ofTag? s = none
  := by
  simp only [names, List.mem_cons, List.not_mem_nil, or_false, not_or] at h
  simp [ofName?, OperandKind.ofTag?, Comparison.ofName?, Comparison.all, Comparison.name, h,
    Ne.symm]

theorem map_kind_ofName? (s : String) :
  (ofName? s).map kind = OperandKind.ofTag? s
  := by
  by_cases h : s ∈ names
  · revert s
    decide
  · obtain ⟨hname, htag⟩ := unknown_of_not_mem_names h
    rw [hname, htag]
    rfl

/-- An operator has only one name. -/
theorem ofName?_inj {s t : String} {op : Operator} (hs : ofName? s = some op)
    (ht : ofName? t = some op) :
  s = t
  := by
  have hmem : ∀ {s}, ofName? s = some op → s ∈ names := by
    intro s hs
    by_contra h
    rw [(unknown_of_not_mem_names h).1] at hs
    cases hs
  have hinj : ∀ s ∈ names, ∀ t ∈ names, ofName? s = ofName? t → s = t := by
    decide
  apply hinj s (hmem hs) t (hmem ht)
  rw [hs, ht]

theorem ofName?_eq_some_iff (s : String) (c : Condition) :
  ofName? s = some c.operator ↔ s = c.opName
  := by
  constructor
  · intro h
    apply ofName?_inj h c.ofName?_opName
  · rintro rfl
    apply c.ofName?_opName

end Operator

namespace Condition

theorem kindOf?_eq (d : Document) :
  kindOf? d = (Operator.ofDocument? d).map Operator.kind
  := by
  rw [Operator.ofDocument?_eq, kindOf?, Option.map_bind]
  congr 1
  funext s
  apply (Operator.map_kind_ofName? s).symm

/-- The operator of a document is that of a condition when its name is. -/
theorem ofDocument?_eq_some_iff (d : Document) (c : Condition) :
  Operator.ofDocument? d = some c.operator ↔ d.text? "op" = some c.opName
  := by
  rw [Operator.ofDocument?_eq, Option.bind_eq_some_iff]
  simp only [Operator.ofName?_eq_some_iff]
  simp

/-- A condition is read from its operator and its operand. -/
theorem decode_eq_ofOperand (d : Document) :
  decode d = match Operator.ofDocument? d with
    | some op => ofOperand op (operandOf d)
    | none => .error (.unsupportedOperator d)
  := by
  rw [decode_eq]
  cases Operator.ofDocument? d with
  | none => rfl
  | some op =>
      simp only
      rw [ofFields_eq, operandOf]
      cases d.get? "value" with
      | none => apply (ofOperand_null op).symm
      | some v => rfl

/-- The conditions that an operand gives. -/
def partsOf : Value → Except DecodeError (List Condition)
  | .array items => ofItems items
  | _ => .error notConditions

/-- The group that an operand gives. -/
def groupOf : Value → Except DecodeError (List (String × Condition))
  | .document fields => groupOfFields fields
  | _ => .error notGroup

theorem ofOperand_all (v : Value) :
  ofOperand .all v = (partsOf v).map .all
  := by
  cases v <;> rfl

theorem ofOperand_any (v : Value) :
  ofOperand .any v = (partsOf v).map .any
  := by
  cases v <;> rfl

theorem ofOperand_find (v : Value) :
  ofOperand .find v = (groupOf v).map .find
  := by
  cases v <;> rfl

theorem ofOperand_nfind (v : Value) :
  ofOperand .nfind v = (groupOf v).map .nfind
  := by
  cases v <;> rfl

end Condition

/-! ### Nodes that are read -/

namespace Node

/-- Reads the condition of a node. -/
def decode : Node → Except DecodeError Condition
  | .condition d => Condition.decode d
  | .strayItem => .error Condition.notConditions
  | .strayField name => .error (Condition.notCondition name)

theorem decode_ofItem (v : Value) :
  (ofItem v).decode = Condition.ofValue Condition.notConditions v
  := by
  cases v <;> rfl

theorem decode_ofField (field : String × Value) :
  (ofField field).decode = Condition.ofValue (Condition.notCondition field.1) field.2
  := by
  obtain ⟨name, v⟩ := field
  cases v with
  | document d =>
      rw [Condition.ofValue_document]
      rfl
  | _ => rfl

end Node

/-! ### Faults -/

namespace Condition

/-- The fault of the conditions that an operand gives is its own, or else that of the first node
within it. -/
theorem fault?_partsOf (v : Value) :
  fault? (partsOf v) = (OperandKind.conditions.mismatch? v).or
    ((OperandKind.conditions.nodes v).findSome? fun node => fault? node.decode)
  := by
  cases v with
  | array items =>
      simp only [partsOf, OperandKind.mismatch?, OperandKind.nodes, ofItems_eq, fault?_mapM,
        List.findSome?_map, Function.comp_def, Node.decode_ofItem, Option.none_or]
  | _ => rfl

theorem fault?_groupOf (v : Value) :
  fault? (groupOf v) = (OperandKind.group.mismatch? v).or
    ((OperandKind.group.nodes v).findSome? fun node => fault? node.decode)
  := by
  cases v with
  | document fields =>
      simp only [groupOf, OperandKind.mismatch?, OperandKind.nodes, groupOfFields_eq, fault?_mapM,
        List.findSome?_map, Function.comp_def, fieldOf, fault?_map, Node.decode_ofField,
        Option.none_or]
  | _ => rfl

theorem fault?_boundOf (v : Value) :
  fault? (boundOf v) = OperandKind.bound.mismatch? v
  := by
  cases v with
  | document fields =>
      rw [boundOf, OperandKind.mismatch?]
      cases Fields.get? fields "daysAgo" with
      | none => rfl
      | some days =>
          simp only [Value.isInteger_iff]
          cases days.integer? <;> rfl
  | _ => rfl

/-- The fault of an operand is that of its own, or else that of the first node within it. -/
theorem fault?_ofOperand (op : Operator) (v : Value) :
  fault? (ofOperand op v)
    = (op.kind.mismatch? v).or ((op.kind.nodes v).findSome? fun node => fault? node.decode)
  := by
  cases op with
  | order comparison =>
      rw [ofOperand_order, fault?_map, fault?_boundOf]
      apply Option.or_none.symm
  | all => rw [ofOperand_all, fault?_map, fault?_partsOf, Operator.kind]
  | any => rw [ofOperand_any, fault?_map, fault?_partsOf, Operator.kind]
  | find => rw [ofOperand_find, fault?_map, fault?_groupOf, Operator.kind]
  | nfind => rw [ofOperand_nfind, fault?_map, fault?_groupOf, Operator.kind]
  | _ => cases v <;> rfl

end Condition

namespace Node

/-- The fault of a node is its own, or else that of the first node directly within it. -/
theorem fault?_decode (n : Node) :
  fault? n.decode = n.ownFault?.or (n.children.findSome? fun child => fault? child.decode)
  := by
  cases n with
  | condition d =>
      change fault? (Condition.decode d) = _
      rw [Condition.decode_eq_ofOperand, ownFault?, children, Condition.kindOf?_eq]
      cases Operator.ofDocument? d with
      | none => rfl
      | some op => apply Condition.fault?_ofOperand
  | _ => rfl

/-- The fault of a node is that of the first node visited from it which has one. -/
theorem fault?_decode_eq_visits (n : Node) :
  fault? n.decode = n.visits.findSome? ownFault?
  := by
  induction n using children_induction with
  | h n ih =>
      have hchildren : (n.children.flatMap visits).findSome? ownFault?
          = n.children.findSome? fun child => fault? child.decode := by
        apply findSome?_flatMap_of_forall
        intro child hchild
        apply (ih child hchild).symm
      rw [fault?_decode, visits_eq, findSome?_cons_eq_or, hchildren]

end Node

/-! ### The grammar -/

namespace Node

/-- A node is in the grammar when it is a condition. -/
def InGrammar : Node → Prop
  | .condition d => IsCondition d
  | _ => False

end Node

theorem areConditions_iff (items : List Value) :
  AreConditions items ↔ ∀ node ∈ items.map Node.ofItem, node.InGrammar
  := by
  induction items with
  | nil => simp [AreConditions.nil]
  | cons v rest ih =>
      rw [List.map_cons, List.forall_mem_cons, ← ih]
      constructor
      · intro h
        cases h with
        | cons hd hrest => use hd
      · rintro ⟨hv, hrest⟩
        cases v with
        | document d => apply AreConditions.cons hv hrest
        | _ => cases hv

theorem isGroup_iff (d : Document) :
  IsGroup d ↔ ∀ node ∈ d.map Node.ofField, node.InGrammar
  := by
  induction d with
  | nil => simp [IsGroup.nil]
  | cons field rest ih =>
      obtain ⟨name, v⟩ := field
      rw [List.map_cons, List.forall_mem_cons, ← ih]
      constructor
      · intro h
        cases h with
        | cons hd hrest => use hd
      · rintro ⟨hv, hrest⟩
        cases v with
        | document d => apply IsGroup.cons hv hrest
        | _ => cases hv

namespace OperandKind

/-- An operand is of a kind, and so is what stands within it. -/
def Admits : OperandKind → Value → Prop
  | .anything, _ => True
  | .bound, v => IsBound v
  | .text, v => ∃ s, v = .string s
  | .conditions, v => ∃ items, v = .array items ∧ AreConditions items
  | .group, v => ∃ fields, v = .document fields ∧ IsGroup fields

theorem mismatch?_bound_eq_none_iff (v : Value) :
  OperandKind.bound.mismatch? v = none ↔ IsBound v
  := by
  cases v with
  | document fields =>
      rw [mismatch?]
      cases h : Fields.get? fields "daysAgo" with
      | none => simp [IsBound, h]
      | some days => simp [IsBound, h]
  | _ => simp [mismatch?, IsBound]

/-- An operand is of a kind when it has no fault itself and the nodes within it are in the
grammar. -/
theorem admits_iff (kind : OperandKind) (v : Value) :
  kind.Admits v ↔ kind.mismatch? v = none ∧ ∀ node ∈ kind.nodes v, node.InGrammar
  := by
  cases kind with
  | anything => simp [Admits, mismatch?, nodes]
  | bound => simp [Admits, mismatch?_bound_eq_none_iff, nodes]
  | text => cases v <;> simp [Admits, mismatch?, nodes]
  | conditions =>
      cases v with
      | array items => simp [Admits, mismatch?, nodes, areConditions_iff]
      | _ => simp [Admits, mismatch?]
  | group =>
      cases v with
      | document fields => simp [Admits, mismatch?, nodes, isGroup_iff]
      | _ => simp [Admits, mismatch?]

end OperandKind

theorem isCondition_iff (d : Document) :
  IsCondition d ↔ ∃ kind, Condition.kindOf? d = some kind ∧ kind.Admits (Condition.operandOf d)
  := by
  constructor
  · intro h
    cases h with
    | anything hkind =>
        use .anything, hkind
        trivial
    | bound hkind hbound => use .bound, hkind, hbound
    | @text _ s hkind hoperand => use .text, hkind, s, hoperand
    | @conditions _ items hkind hoperand hitems => use .conditions, hkind, items, hoperand, hitems
    | @group _ fields hkind hoperand hfields => use .group, hkind, fields, hoperand, hfields
  · rintro ⟨kind, hkind, hoperand⟩
    cases kind with
    | anything => apply IsCondition.anything hkind
    | bound => apply IsCondition.bound hkind hoperand
    | text =>
        obtain ⟨s, hs⟩ := hoperand
        apply IsCondition.text hkind hs
    | conditions =>
        obtain ⟨items, hitems, h⟩ := hoperand
        apply IsCondition.conditions hkind hitems h
    | group =>
        obtain ⟨fields, hfields, h⟩ := hoperand
        apply IsCondition.group hkind hfields h

/-- A node is in the grammar when it has no fault itself and the nodes directly within it are in
the grammar. -/
theorem Node.inGrammar_iff (n : Node) :
  n.InGrammar ↔ n.ownFault? = none ∧ ∀ child ∈ n.children, child.InGrammar
  := by
  cases n with
  | condition d =>
      change IsCondition d ↔ _
      rw [isCondition_iff, ownFault?, children]
      cases Condition.kindOf? d with
      | none => simp
      | some kind => simp [OperandKind.admits_iff]
  | _ => simp [InGrammar, ownFault?]

/-- A node is in the grammar when its reading has no fault. -/
theorem Node.inGrammar_iff_fault? (n : Node) :
  n.InGrammar ↔ fault? n.decode = none
  := by
  induction n using children_induction with
  | h n ih =>
      rw [inGrammar_iff, fault?_decode, Option.or_eq_none_iff, List.findSome?_eq_none_iff]
      apply and_congr_right
      intro _
      apply forall₂_congr ih

/-! ### What is read -/

namespace Condition

theorem boundOf_eq_ok_iff (v : Value) (bound : Bound) :
  boundOf v = .ok bound ↔ bound.SaidBy v
  := by
  cases v with
  | document fields =>
      rw [boundOf]
      cases h : Fields.get? fields "daysAgo" with
      | none => cases bound <;> simp [Bound.SaidBy, Bound.Unambiguous, h]
      | some days =>
          cases bound with
          | literal w =>
              cases hdays : days.integer? <;> simp [Bound.SaidBy, Bound.Unambiguous, h, hdays]
          | daysAgo n =>
              simp only [Bound.SaidBy, Value.document.injEq, exists_and_left, exists_eq_left', h,
                Option.some.injEq, ← Value.integer?_eq_some_iff]
              cases days.integer? <;> simp
  | _ => cases bound <;> simp [boundOf, Bound.SaidBy, Bound.Unambiguous]

theorem partsOf_eq_ok_iff (v : Value) (parts : List Condition) :
  partsOf v = .ok parts ↔ ∃ items, v = .array items ∧ ofItems items = .ok parts
  := by
  cases v <;> simp [partsOf]

theorem groupOf_eq_ok_iff (v : Value) (group : List (String × Condition)) :
  groupOf v = .ok group ↔ ∃ fields, v = .document fields ∧ groupOfFields fields = .ok group
  := by
  cases v <;> simp [groupOf]

/-- An operand is read as a condition of its own operator. -/
theorem operator_of_ofOperand {op : Operator} {v : Value} {c : Condition}
    (h : ofOperand op v = .ok c) :
  op = c.operator
  := by
  cases op with
  | order comparison =>
      rw [ofOperand_order, map_eq_ok_iff] at h
      obtain ⟨bound, -, rfl⟩ := h
      rfl
  | all =>
      rw [ofOperand_all, map_eq_ok_iff] at h
      obtain ⟨parts, -, rfl⟩ := h
      rfl
  | any =>
      rw [ofOperand_any, map_eq_ok_iff] at h
      obtain ⟨parts, -, rfl⟩ := h
      rfl
  | find =>
      rw [ofOperand_find, map_eq_ok_iff] at h
      obtain ⟨group, -, rfl⟩ := h
      rfl
  | nfind =>
      rw [ofOperand_nfind, map_eq_ok_iff] at h
      obtain ⟨group, -, rfl⟩ := h
      rfl
  | _ => cases v <;> cases h <;> rfl

/-- A document is read as the condition that it says when its operand is. -/
theorem decode_eq_ok_iff_of {c : Condition}
    (h : ∀ v, ofOperand c.operator v = .ok c ↔ c.HasOperand v) (d : Document) :
  decode d = .ok c ↔ c.SaidBy d
  := by
  rw [decode_eq_ofOperand, SaidBy, ← ofDocument?_eq_some_iff, ← h]
  cases hop : Operator.ofDocument? d with
  | none => simp
  | some op =>
      constructor
      · intro hc
        obtain rfl := operator_of_ofOperand hc
        use rfl
      · rintro ⟨hop', hc⟩
        rw [Option.some.inj hop']
        apply hc

theorem ofValue_eq_ok_iff (fault : DecodeError) (v : Value) (c : Condition) :
  ofValue fault v = .ok c ↔ ∃ d, v = .document d ∧ decode d = .ok c
  := by
  cases v with
  | document d => simp [ofValue_document]
  | _ => simp [ofValue]

/-- Items are read when the first of them and the others are. -/
theorem ofItems_eq_cons_iff (items : List Value) (c : Condition) (rest : List Condition) :
  ofItems items = .ok (c :: rest)
    ↔ ∃ d others, items = .document d :: others ∧ decode d = .ok c ∧ ofItems others = .ok rest
  := by
  simp only [ofItems_eq, mapM_eq_ok_iff, List.forall₂_cons_right_iff]
  constructor
  · rintro ⟨v, others, hv, hothers, rfl⟩
    obtain ⟨d, rfl, hd⟩ := (ofValue_eq_ok_iff _ _ _).mp hv
    use d, others
  · rintro ⟨d, others, rfl, hd, hothers⟩
    use .document d, others
    rw [ofValue_document]
    use hd

theorem groupOfFields_eq_cons_iff (fields : Document) (name : String) (c : Condition)
    (rest : List (String × Condition)) :
  groupOfFields fields = .ok ((name, c) :: rest)
    ↔ ∃ d others, fields = (name, .document d) :: others ∧ decode d = .ok c
      ∧ groupOfFields others = .ok rest
  := by
  simp only [groupOfFields_eq, mapM_eq_ok_iff, List.forall₂_cons_right_iff]
  constructor
  · rintro ⟨field, others, hfield, hothers, rfl⟩
    obtain ⟨c', hc, hpair⟩ := (map_eq_ok_iff _ _ _).mp hfield
    obtain ⟨d, hd, hdecode⟩ := (ofValue_eq_ok_iff _ _ _).mp hc
    obtain ⟨name', v⟩ := field
    obtain rfl : v = .document d := hd
    obtain ⟨rfl, rfl⟩ := Prod.mk.inj hpair
    use d, others
  · rintro ⟨d, others, rfl, hd, hothers⟩
    use (name, .document d), others
    rw [fieldOf, ofValue_document, hd]
    use rfl

-- The recursion is on the condition: what a document says of a part is settled by the reading of
-- the operand of that part.
mutual

/-- An operand is read as what it says. -/
theorem ofOperand_eq_ok_iff :
    ∀ (c : Condition) (v : Value), ofOperand c.operator v = .ok c ↔ c.HasOperand v
  | .eq w, v => by
      cases v <;> simp [ofOperand, operator, withoutOperand, HasOperand]
  | .neq w, v => by
      cases v <;> simp [ofOperand, operator, withoutOperand, HasOperand]
  | .order comparison bound, v => by
      change ofOperand (.order comparison) v = _ ↔ _
      rw [ofOperand_order, map_eq_ok_iff, HasOperand, ← boundOf_eq_ok_iff]
      simp
  | .startsWith text, v => by
      cases v <;> simp [ofOperand, operator, withoutOperand, HasOperand]
  | .all parts, v => by
      have ih := ofItems_eq_ok_iff parts
      simp [operator, ofOperand_all, map_eq_ok_iff, partsOf_eq_ok_iff, ih, HasOperand]
  | .any parts, v => by
      have ih := ofItems_eq_ok_iff parts
      simp [operator, ofOperand_any, map_eq_ok_iff, partsOf_eq_ok_iff, ih, HasOperand]
  | .find group, v => by
      have ih := groupOfFields_eq_ok_iff group
      simp [operator, ofOperand_find, map_eq_ok_iff, groupOf_eq_ok_iff, ih, HasOperand]
  | .nfind group, v => by
      have ih := groupOfFields_eq_ok_iff group
      simp [operator, ofOperand_nfind, map_eq_ok_iff, groupOf_eq_ok_iff, ih, HasOperand]

theorem ofItems_eq_ok_iff :
    ∀ (parts : List Condition) (items : List Value),
      ofItems items = .ok parts ↔ PartsSaidBy parts items
  | [], items => by
      rw [ofItems_eq, mapM_eq_ok_iff, List.forall₂_nil_right_iff, PartsSaidBy]
  | c :: rest, items => by
      have hdecode := decode_eq_ok_iff_of (ofOperand_eq_ok_iff c)
      have ih := ofItems_eq_ok_iff rest
      simp only [ofItems_eq_cons_iff, hdecode, ih, PartsSaidBy, SaidBy]

theorem groupOfFields_eq_ok_iff :
    ∀ (group : List (String × Condition)) (fields : Document),
      groupOfFields fields = .ok group ↔ FieldsSaidBy group fields
  | [], fields => by
      rw [groupOfFields_eq, mapM_eq_ok_iff, List.forall₂_nil_right_iff, FieldsSaidBy]
  | (name, c) :: rest, fields => by
      have hdecode := decode_eq_ok_iff_of (ofOperand_eq_ok_iff c)
      have ih := groupOfFields_eq_ok_iff rest
      simp only [groupOfFields_eq_cons_iff, hdecode, ih, FieldsSaidBy, SaidBy]

end

end Condition

/-! ### The main statement -/

/-- A reading gives what is said where that is admitted, and only then; else it fails with the
fault of the first node that has one, and a fault of an operator shows the document of that
node. -/
structure Recognizes {α : Type} (reading : Except DecodeError α) (admitted : Prop)
    (Said : α → Prop) (nodes : List Node) : Prop where
  succeeds_iff : (∃ a, reading = .ok a) ↔ admitted
  eq_ok_iff : ∀ a, reading = .ok a ↔ Said a
  eq_error_iff : ∀ e, reading = .error e ↔ nodes.findSome? Node.ownFault? = some e
  unsupported_iff : ∀ shown, reading = .error (.unsupportedOperator shown)
    ↔ ∃ before after, nodes = before ++ .condition shown :: after
      ∧ (∀ node ∈ before, node.ownFault? = none) ∧ Condition.kindOf? shown = none

/-- The fault of an operand shows no document. -/
theorem OperandKind.mismatch?_ne_unsupported (kind : OperandKind) (v : Value) (shown : Document) :
  kind.mismatch? v ≠ some (.unsupportedOperator shown)
  := by
  cases kind with
  | bound =>
      cases v with
      | document fields =>
          rw [mismatch?]
          cases Fields.get? fields "daysAgo" with
          | none => simp
          | some days => by_cases h : days.IsInteger <;> simp [h]
      | _ => simp [mismatch?]
  | _ => cases v <;> simp [mismatch?]

/-- The fault of an operator is that of the node which is the document that it shows. -/
theorem Node.ownFault?_eq_unsupported_iff (n : Node) (shown : Document) :
  n.ownFault? = some (.unsupportedOperator shown)
    ↔ n = .condition shown ∧ Condition.kindOf? shown = none
  := by
  cases n with
  | condition d =>
      rw [ownFault?]
      cases hkind : Condition.kindOf? d with
      | none =>
          simp only [Option.some.injEq, DecodeError.unsupportedOperator.injEq, condition.injEq]
          constructor
          · rintro rfl
            use rfl
          · rintro ⟨rfl, -⟩
            rfl
      | some kind =>
          simp only [kind.mismatch?_ne_unsupported, condition.injEq, false_iff, not_and]
          rintro rfl
          simp [hkind]
  | _ => simp [ownFault?]

/-- A reading whose faults are those of nodes is recognized by what it gives. -/
theorem Recognizes.of_nodes {α : Type} {reading : Except DecodeError α} {admitted : Prop}
    {Said : α → Prop} {nodes : List Node} (hadmitted : admitted ↔ fault? reading = none)
    (hsaid : ∀ a, reading = .ok a ↔ Said a)
    (hfault : fault? reading = nodes.findSome? Node.ownFault?) :
  Recognizes reading admitted Said nodes
  := by
  constructor
  · rw [hadmitted, fault?_eq_none_iff]
  · apply hsaid
  · intro e
    rw [← hfault, fault?_eq_some_iff]
  · intro shown
    rw [← fault?_eq_some_iff, hfault, List.findSome?_eq_some_iff]
    simp only [Node.ownFault?_eq_unsupported_iff]
    constructor
    · rintro ⟨before, n, after, hnodes, ⟨rfl, hkind⟩, hbefore⟩
      use before, after
    · rintro ⟨before, after, hnodes, hbefore, hkind⟩
      use before, .condition shown, after

/-- Exactly the conditions and the groups of the grammar are read, as what they say; other
documents fail with the fault of the first node visited which has one. -/
theorem decode_recognizes (d : Document) :
  Recognizes (Condition.decode d) (IsCondition d) (fun c => c.SaidBy d) (Node.condition d).visits
    ∧ Recognizes (Group.decode d) (IsGroup d) (fun group => Group.SaidBy group d)
      ((d.map Node.ofField).flatMap Node.visits)
  := by
  constructor
  · apply Recognizes.of_nodes
    · apply (Node.condition d).inGrammar_iff_fault?
    · intro c
      apply Condition.decode_eq_ok_iff_of (Condition.ofOperand_eq_ok_iff c)
    · apply (Node.condition d).fault?_decode_eq_visits
  · have hfault : fault? (Group.decode d)
        = (d.map Node.ofField).findSome? fun node => fault? node.decode :=
      Condition.fault?_groupOf (.document d)
    apply Recognizes.of_nodes
    · rw [isGroup_iff, hfault, List.findSome?_eq_none_iff]
      apply forall₂_congr
      intro node _
      apply node.inGrammar_iff_fault?
    · intro group
      apply Condition.groupOfFields_eq_ok_iff
    · rw [hfault]
      apply Eq.symm
      apply findSome?_flatMap_of_forall
      intro node _
      apply node.fault?_decode_eq_visits.symm

/-- A condition whose operator is not known. -/
def Condition.unknownDocument : Document :=
  [("op", .string "NOPE"), ("value", .int32 1)]

/-- A list of conditions: one that is read, one with an unknown operator deep within, and what is
no condition. -/
def Condition.faultyDocument : Document :=
  [("op", .string "ALL"), ("value", .array
    [.document [("op", .string "LT"), ("value", .document [("daysAgo", .int32 3)])],
      .document [("op", .string "FIND"), ("value", .document
        [("due", .document Condition.unknownDocument)])],
      .int32 7])]

/-- The fault of the list is that of the unknown operator, whose document it shows. -/
theorem decode_recognizes_faulty :
  Condition.decode Condition.faultyDocument
      = .error (.unsupportedOperator Condition.unknownDocument)
    ∧ ¬ IsCondition Condition.faultyDocument
    ∧ .condition Condition.unknownDocument ∈ (Node.condition Condition.faultyDocument).visits
  := by
  have hdecode : Condition.decode Condition.faultyDocument
      = .error (.unsupportedOperator Condition.unknownDocument) := rfl
  obtain ⟨hrecognizes, -⟩ := decode_recognizes Condition.faultyDocument
  use hdecode
  constructor
  · rw [← hrecognizes.succeeds_iff, hdecode]
    simp
  · obtain ⟨before, after, hvisits, -⟩ := (hrecognizes.unsupported_iff _).mp hdecode
    rw [hvisits]
    simp

end MongoQuery
