import MongoQuery.Proofs.Filter.Combination
import MongoQuery.Proofs.Query.Plain

/-!
# The grammar of filters

A filter is a document whose fields are clauses: a connective over at least one filter, or a
field with a predicate.  Predicates are literals, comparisons, patterns and element matches.
The inversion lemmas say what a document in the grammar is made of.
-/

namespace MongoQuery

/-! ### The grammar -/

mutual

/-- A filter: a document of clauses. -/
inductive IsFilter : List (String × Value) → Prop
  | nil : IsFilter []
  | cons {name : String} {v : Value} {rest : List (String × Value)} :
      IsClause name v → IsFilter rest → IsFilter ((name, v) :: rest)

/-- A clause: a connective over at least one filter, or a field with a predicate. -/
inductive IsClause : String → Value → Prop
  | connective {name : String} {items : List Value} :
      name = "$and" ∨ name = "$or" → items ≠ [] → AreFilters items → IsClause name (.array items)
  | field {name : String} {v : Value} :
      isOperatorName name = false → IsPredicate v → IsClause name v

/-- A list of filters. -/
inductive AreFilters : List Value → Prop
  | nil : AreFilters []
  | cons {d : List (String × Value)} {rest : List Value} :
      IsFilter d → AreFilters rest → AreFilters (.document d :: rest)

/-- A predicate of a field. -/
inductive IsPredicate : Value → Prop
  | literal {v : Value} : v.isOperation = false → IsPredicate v
  | differs (v : Value) : IsPredicate (.document [("$ne", v)])
  | compares (comparison : Comparison) (v : Value) :
      IsPredicate (.document [(comparison.operator, v)])
  | matchesPattern (pattern options : String) :
      IsPredicate (.document [("$regex", .string pattern), ("$options", .string options)])
  | hasElement {d : List (String × Value)} :
      IsFilter d → IsPredicate (.document [("$elemMatch", .document d)])
  | hasNoElement {d : List (String × Value)} :
      IsFilter d → IsPredicate (.document [("$not", .document [("$elemMatch", .document d)])])

end

/-! ### Inversion -/

theorem isFilter_cons_iff (name : String) (v : Value) (rest : Document) :
  IsFilter ((name, v) :: rest) ↔ IsClause name v ∧ IsFilter rest
  := by
  constructor
  · intro h
    cases h with
    | cons hclause hrest => use hclause
  · rintro ⟨hclause, hrest⟩
    apply IsFilter.cons hclause hrest

theorem isFilter_append (d e : Document) :
  IsFilter (d ++ e) ↔ IsFilter d ∧ IsFilter e
  := by
  induction d with
  | nil => simp [IsFilter.nil]
  | cons entry rest ih =>
      obtain ⟨name, v⟩ := entry
      rw [List.cons_append, isFilter_cons_iff, ih, isFilter_cons_iff, and_assoc]

theorem isFilter_single (name : String) (v : Value) :
  IsFilter (Document.single name v) ↔ IsClause name v
  := by
  rw [Document.single, isFilter_cons_iff, and_iff_left IsFilter.nil]

theorem areFilters_cons_iff (d : Document) (rest : List Value) :
  AreFilters (.document d :: rest) ↔ IsFilter d ∧ AreFilters rest
  := by
  constructor
  · intro h
    cases h with
    | cons hd hrest => use hd
  · rintro ⟨hd, hrest⟩
    apply AreFilters.cons hd hrest

theorem areFilters_append (items others : List Value) :
  AreFilters (items ++ others) ↔ AreFilters items ∧ AreFilters others
  := by
  induction items with
  | nil => simp [AreFilters.nil]
  | cons v rest ih =>
      constructor
      · intro h
        cases h with
        | cons hd hrest =>
            obtain ⟨hrest, hothers⟩ := ih.mp hrest
            use AreFilters.cons hd hrest
      · rintro ⟨h, hothers⟩
        cases h with
        | cons hd hrest =>
            apply AreFilters.cons hd
            apply ih.mpr
            use hrest

theorem areFilters_map_document {α : Type} (f : α → Document) (items : List α) :
  AreFilters (items.map fun a => .document (f a)) ↔ ∀ a ∈ items, IsFilter (f a)
  := by
  induction items with
  | nil => simp [AreFilters.nil]
  | cons a rest ih => rw [List.map_cons, areFilters_cons_iff, ih, List.forall_mem_cons]

/-- A connective is a clause when it is over at least one filter. -/
theorem isClause_connective_iff {name : String} (h : name = "$and" ∨ name = "$or")
    (items : List Value) :
  IsClause name (.array items) ↔ items ≠ [] ∧ AreFilters items
  := by
  constructor
  · intro hclause
    cases hclause with
    | connective _ hne hitems => use hne
    | field hname _ =>
        rcases h with rfl | rfl
        · exact absurd hname (by decide)
        · exact absurd hname (by decide)
  · rintro ⟨hne, hitems⟩
    apply IsClause.connective h hne hitems

/-- A field is a clause when it has a predicate. -/
theorem isClause_field_iff {field : String} (h : isOperatorName field = false) (v : Value) :
  IsClause field v ↔ IsPredicate v
  := by
  constructor
  · intro hclause
    cases hclause with
    | connective hname _ _ =>
        rcases hname with rfl | rfl
        · exact absurd h (by decide)
        · exact absurd h (by decide)
    | field _ hv => apply hv
  · apply IsClause.field h

/-- The predicates of a single operator, which names itself what stands behind it. -/
theorem IsPredicate.single_cases {operator : String} {v : Value}
    (h : IsPredicate (.document (Document.single operator v))) (hop : isOperatorName operator) :
  operator = "$ne" ∨ (∃ comparison : Comparison, operator = comparison.operator)
    ∨ (operator = "$elemMatch" ∧ ∃ d, v = .document d ∧ IsFilter d)
    ∨ (operator = "$not"
      ∧ ∃ d, v = .document (Document.single "$elemMatch" (.document d)) ∧ IsFilter d)
  := by
  generalize hw : Value.document (Document.single operator v) = w at h
  cases h with
  | literal hliteral =>
      subst hw
      apply (Bool.eq_false_iff.mp hliteral hop).elim
  | differs u =>
      left
      simp_all [Document.single]
  | compares comparison u =>
      right
      left
      use comparison
      simp_all [Document.single]
  | matchesPattern pattern options =>
      simp [Document.single] at hw
  | @hasElement d hd =>
      right
      right
      left
      simp_all [Document.single]
  | @hasNoElement d hd =>
      right
      right
      right
      simp_all [Document.single]

/-- What stands behind an element match is a filter. -/
theorem isPredicate_elementMatch_iff (d : Document) :
  IsPredicate (.document (Document.single "$elemMatch" (.document d))) ↔ IsFilter d
  := by
  constructor
  · intro h
    rcases h.single_cases (by decide) with hne | ⟨comparison, hcompare⟩ | ⟨-, e, he, hfilter⟩
        | ⟨hnot, -⟩
    · exact absurd hne (by decide)
    · apply (comparison.operator_ne_elemMatch hcompare.symm).elim
    · obtain rfl := Value.document.inj he
      apply hfilter
    · exact absurd hnot (by decide)
  · apply IsPredicate.hasElement

/-- What stands behind the negation of an element match is a filter. -/
theorem isPredicate_noElementMatch_iff (d : Document) :
  IsPredicate (.document (Document.single "$not"
      (.document (Document.single "$elemMatch" (.document d))))) ↔ IsFilter d
  := by
  constructor
  · intro h
    rcases h.single_cases (by decide) with hne | ⟨comparison, hcompare⟩ | ⟨hmatch, -⟩
        | ⟨-, e, he, hfilter⟩
    · exact absurd hne (by decide)
    · apply (comparison.operator_ne_not hcompare.symm).elim
    · exact absurd hmatch (by decide)
    · simp only [Document.single, Value.document.injEq, List.cons.injEq, Prod.mk.injEq, true_and,
        and_true] at he
      rw [he]
      apply hfilter
  · apply IsPredicate.hasNoElement

end MongoQuery
