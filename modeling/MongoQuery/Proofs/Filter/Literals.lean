import MongoQuery.Proofs.Filter.Congruence
import MongoQuery.Proofs.Query.Plain

/-!
# Equalities and documents of operators

An equality puts its value bare where all other conditions put the document of an operator,
so the two can be told apart exactly when the value is no such document.  Values that do not
begin with an operator never are.

Main statement: an equality has the translation of another condition exactly when its value
is the document of an operator, and a translation that is equal to that of another condition, as
BSON values are, exactly when its value is equal to such a document.
-/

namespace MongoQuery

namespace Condition

/-- Whether a condition is an equality. -/
def isEquality : Condition → Bool
  | .eq _ => true
  | _ => false

end Condition

/-- A value is the document of an operator: of an inequality or a comparison with any value, of
the pattern of a beginning, or of a match for elements by the filter of a group. -/
inductive Value.IsOperator (now : Instant) : Value → Prop
  | differs (v : Value) : IsOperator now (.document [("$ne", v)])
  | compares (comparison : Comparison) (v : Value) :
      IsOperator now (.document [(comparison.operator, v)])
  | startsWith (text : String) :
      IsOperator now
        (.document [("$regex", .string (Pattern.startingWith text)), ("$options", .string "i")])
  | hasElement {group : Group} : group.Distinct →
      IsOperator now (.document [("$elemMatch", .document (group.filter now))])
  | hasNoElement {group : Group} : group.Distinct →
      IsOperator now
        (.document [("$not", .document [("$elemMatch", .document (group.filter now))])])

namespace Value.IsOperator

variable {now : Instant}

/-- The document of an operator begins with it. -/
theorem isOperation {v : Value} (h : IsOperator now v) :
  v.isOperation
  := by
  cases h with
  | compares comparison v =>
      cases comparison <;> rfl
  | _ => rfl

/-- A condition other than an equality puts the document of an operator under its field. -/
theorem of_fragment :
    ∀ {c : Condition} {v : Value}, c.Distinct → c.isEquality = false →
      c.fragment now = .direct v → IsOperator now v
  | .neq w, _, _, _, h => by
      obtain rfl := Fragment.direct.inj h
      apply differs
  | .order comparison bound, _, _, _, h => by
      obtain rfl := Fragment.direct.inj h
      apply compares
  | .startsWith text, _, _, _, h => by
      obtain rfl := Fragment.direct.inj h
      apply startsWith
  | .find _, _, hdistinct, _, h => by
      obtain rfl := Fragment.direct.inj h
      apply hasElement
      use hdistinct.1, hdistinct.2
  | .nfind _, _, hdistinct, _, h => by
      obtain rfl := Fragment.direct.inj h
      apply hasNoElement
      use hdistinct.1, hdistinct.2

/-- The document of an operator is what some condition other than an equality puts under its
field. -/
theorem exists_fragment {v : Value} (h : IsOperator now v) :
  ∃ c : Condition, c.Distinct ∧ c.isEquality = false ∧ c.fragment now = .direct v
  := by
  cases h with
  | differs w =>
      use .neq w, True.intro, rfl
      rfl
  | compares comparison w =>
      use .compare comparison w, True.intro, rfl
      rfl
  | startsWith text =>
      use .startsWith text, True.intro, rfl
      rfl
  | @hasElement group hdistinct =>
      use .find group, ⟨hdistinct.names, hdistinct.inner⟩, rfl
      rfl
  | @hasNoElement group hdistinct =>
      use .nfind group, ⟨hdistinct.names, hdistinct.inner⟩, rfl
      rfl

end Value.IsOperator

/-- A value is equal to the document of an operator, in which the order of the fields does not
count. -/
def Value.EqualsOperator (now : Instant) (v : Value) : Prop :=
  ∃ w : Value, w.IsOperator now ∧ v.equal w

namespace Value

variable {now : Instant}

/-- All fields of the document of an operator are named as operators are, and there is one. -/
theorem IsOperator.isOperatorName {v : Value} (h : IsOperator now v) :
  ∃ d : Document, v = .document d ∧ d ≠ [] ∧ ∀ f ∈ d, isOperatorName f.1
  := by
  cases h with
  | compares comparison v =>
      use [(comparison.operator, v)], rfl, List.cons_ne_nil _ _
      cases comparison <;> simp [Comparison.operator, MongoQuery.isOperatorName]
  | _ =>
      refine ⟨_, rfl, List.cons_ne_nil _ _, ?_⟩
      simp [MongoQuery.isOperatorName]

/-- What is equal to a document is one. -/
theorem exists_document_of_equal {v : Value} {d : Document} (h : v.equal (.document d)) :
  ∃ e : Document, v = .document e ∧ e.equal d
  := by
  cases v with
  | document e => exact ⟨e, rfl, h⟩
  | _ => simp [equal] at h

/-- A value that is equal to the document of an operator begins with one. -/
theorem EqualsOperator.isOperation {v : Value} (h : v.EqualsOperator now) :
  v.isOperation
  := by
  obtain ⟨w, hw, hvw⟩ := h
  obtain ⟨d, rfl, hne, hnames⟩ := hw.isOperatorName
  obtain ⟨e, rfl, hed⟩ := exists_document_of_equal hvw
  rw [Document.equal_iff] at hed
  cases e with
  | nil => exact absurd (List.length_eq_zero_iff.mp hed.1.symm) hne
  | cons f rest =>
      obtain ⟨u, hu, -⟩ := hed.2 f List.mem_cons_self
      exact hnames (f.1, u) (Fields.mem_of_get? hu)

end Value

/-! ### The main statement -/

/-- The translation of an equality differs from those of all other conditions exactly when its
value is not the document of an operator; a value that does not begin with an operator is
none. -/
theorem Condition.fragment_eq_unlike_iff (now : Instant) (v : Value) :
  ((∀ c : Condition, c.Distinct → c.isEquality = false →
      (Condition.eq v).fragment now ≠ c.fragment now) ↔ ¬ v.IsOperator now)
    ∧ (v.isOperation = false → ¬ v.IsOperator now)
  := by
  constructor
  · constructor
    · intro h hv
      obtain ⟨c, hdistinct, hother, hfragment⟩ := hv.exists_fragment
      apply h c hdistinct hother
      rw [hfragment]
      rfl
    · intro h c hdistinct hother heq
      apply h
      apply Value.IsOperator.of_fragment hdistinct hother
      rw [← heq]
      rfl
  · intro hliteral hv
    rw [hv.isOperation] at hliteral
    cases hliteral

/-- The translation of an equality is not equal to that of any other condition exactly when its
value is not equal to the document of an operator; a value that does not begin with an operator
never is. -/
theorem Condition.fragment_eq_unequal_iff (now : Instant) (v : Value) :
  ((∀ c : Condition, c.Distinct → c.isEquality = false →
      ¬ ((Condition.eq v).fragment now).equal (c.fragment now)) ↔ ¬ v.EqualsOperator now)
    ∧ (v.isOperation = false → ¬ v.EqualsOperator now)
  := by
  constructor
  · constructor
    · rintro h ⟨w, hw, hvw⟩
      obtain ⟨c, hdistinct, hother, hfragment⟩ := hw.exists_fragment
      apply h c hdistinct hother
      rw [hfragment]
      exact (Fragment.direct_equal_iff v _).mpr ⟨w, rfl, hvw⟩
    · intro h c hdistinct hother hequal
      obtain ⟨w, hfragment, hvw⟩ := (Fragment.direct_equal_iff v _).mp hequal
      exact h ⟨w, Value.IsOperator.of_fragment hdistinct hother hfragment, hvw⟩
  · intro hliteral hv
    rw [hv.isOperation] at hliteral
    cases hliteral

-- The fields of the document of a pattern may stand in the other order.
example : ((Condition.eq (.document [("$options", .string "i"), ("$regex", .string "^A")])).fragment
    ⟨0⟩).equal ((Condition.startsWith "A").fragment ⟨0⟩) := by
  decide

/-- A document that names no operator. -/
def Value.austin : Value :=
  .document [("city", .string "Austin")]

/-- An element with a price other than one. -/
def Condition.priced : Condition :=
  .nfind [("price", .neq (.int32 1)), ("id", .any [.eq .null, .startsWith "a"])]

theorem Condition.fragment_eq_unlike_iff_austin :
  Value.austin.isOperation = false ∧ priced.Distinct ∧ priced.isEquality = false
    ∧ (Condition.eq Value.austin).fragment ⟨0⟩ ≠ priced.fragment ⟨0⟩
  := by
  have hdistinct : priced.Distinct := by
    simp [priced, Distinct, DistinctFields, DistinctParts, Fields.Distinct, Fields.names]
  have hunlike := fragment_eq_unlike_iff ⟨0⟩ Value.austin
  use rfl, hdistinct, rfl
  apply hunlike.1.mpr (hunlike.2 rfl) priced hdistinct rfl

/-- The equality with a document that is an inequality cannot be told from the inequality. -/
theorem Condition.not_forall_fragment_eq_ne :
  ¬ ∀ (now : Instant) (v : Value) (c : Condition), c.isEquality = false →
    (Condition.eq v).fragment now ≠ c.fragment now
  := by
  intro h
  apply h ⟨0⟩ (.document [("$ne", .int32 1)]) (.neq (.int32 1)) rfl
  rfl

end MongoQuery
