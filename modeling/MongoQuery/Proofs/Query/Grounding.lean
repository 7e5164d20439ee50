import Mathlib.Tactic.Use
import MongoQuery.Bson.Description
import MongoQuery.Filter.Find
import MongoQuery.Pipeline.Request

/-!
# Relative dates and the instant of a request

To ground a query at an instant is to put in the place of every relative date the date that
it is at that instant.  Nothing relative is left then, and the translation of a query in
which nothing is relative is the same at all instants.

Main statement: the translation of a query at an instant is the translation, at any instant,
of the query grounded at the first.
-/

namespace MongoQuery

/-! ### Grounding -/

namespace Bound

/-- A bound with the date in the place of a relative one. -/
def ground (now : Instant) : Bound → Bound
  | .literal value => .literal value
  | .daysAgo days => .literal (.date (now.daysBefore days))

/-- A bound is not a relative date. -/
def Absolute : Bound → Prop
  | .literal _ => True
  | .daysAgo _ => False

/-- A bound that is grounded at an instant has at all instants the value that it had at
that one. -/
theorem resolve_ground (t t' : Instant) (bound : Bound) :
  (bound.ground t).resolve t' = bound.resolve t
  := by
  cases bound with
  | literal value => rfl
  | daysAgo days => rfl

theorem absolute_ground (t : Instant) (bound : Bound) :
  (bound.ground t).Absolute
  := by
  cases bound with
  | literal value => apply True.intro
  | daysAgo days => apply True.intro

theorem ground_of_absolute (t : Instant) {bound : Bound} (h : bound.Absolute) :
  bound.ground t = bound
  := by
  cases bound with
  | literal value => rfl
  | daysAgo days => apply h.elim

end Bound

namespace Condition

mutual

/-- A condition with dates in the place of relative ones, at every depth. -/
def ground (now : Instant) : Condition → Condition
  | .eq value => .eq value
  | .neq value => .neq value
  | .order comparison bound => .order comparison (bound.ground now)
  | .startsWith text => .startsWith text
  | .all parts => .all (groundParts now parts)
  | .any parts => .any (groundParts now parts)
  | .find group => .find (groundFields now group)
  | .nfind group => .nfind (groundFields now group)

/-- The conditions of a list, grounded. -/
def groundParts (now : Instant) : List Condition → List Condition
  | [] => []
  | c :: rest => ground now c :: groundParts now rest

/-- The fields of a group with their conditions grounded. -/
def groundFields (now : Instant) : List (String × Condition) → List (String × Condition)
  | [] => []
  | (field, c) :: rest => (field, ground now c) :: groundFields now rest

end

mutual

/-- No bound of a condition, at any depth, is a relative date. -/
def Absolute : Condition → Prop
  | .order _ bound => bound.Absolute
  | .all parts => AbsoluteParts parts
  | .any parts => AbsoluteParts parts
  | .find group => AbsoluteFields group
  | .nfind group => AbsoluteFields group
  | _ => True

/-- No bound of the conditions of a list is a relative date. -/
def AbsoluteParts : List Condition → Prop
  | [] => True
  | c :: rest => Absolute c ∧ AbsoluteParts rest

/-- No bound of the conditions of a group is a relative date. -/
def AbsoluteFields : List (String × Condition) → Prop
  | [] => True
  | (_, c) :: rest => Absolute c ∧ AbsoluteFields rest

end

variable (t t' : Instant)

/-! ### Conditions -/

mutual

/-- The fragment of a condition that is grounded at an instant is, at all instants, the one
that the condition has at that instant. -/
theorem fragment_ground : ∀ c : Condition, (c.ground t).fragment t' = c.fragment t
  | .eq _ | .neq _ | .startsWith _ => rfl
  | .order comparison bound => by
      rw [ground, fragment, fragment, Bound.resolve_ground]
  | .all parts => by
      rw [ground, fragment, fragment, fragments_groundParts parts]
  | .any parts => by
      rw [ground, fragment, fragment, fragments_groundParts parts]
  | .find group => by
      rw [ground, fragment, fragment, fieldFragments_groundFields group]
  | .nfind group => by
      rw [ground, fragment, fragment, fieldFragments_groundFields group]

theorem fragments_groundParts :
    ∀ parts : List Condition, fragments t' (groundParts t parts) = fragments t parts
  | [] => rfl
  | c :: rest => by
      rw [groundParts, fragments, fragments, fragment_ground c, fragments_groundParts rest]

theorem fieldFragments_groundFields :
    ∀ group : List (String × Condition),
      fieldFragments t' (groundFields t group) = fieldFragments t group
  | [] => rfl
  | (field, c) :: rest => by
      rw [groundFields, fieldFragments, fieldFragments, fragment_ground c,
        fieldFragments_groundFields rest]

end

mutual

/-- Grounding leaves no relative date. -/
theorem absolute_ground : ∀ c : Condition, (c.ground t).Absolute
  | .eq _ | .neq _ | .startsWith _ => True.intro
  | .order _ bound => bound.absolute_ground t
  | .all parts => absoluteParts_groundParts parts
  | .any parts => absoluteParts_groundParts parts
  | .find group => absoluteFields_groundFields group
  | .nfind group => absoluteFields_groundFields group

theorem absoluteParts_groundParts :
    ∀ parts : List Condition, AbsoluteParts (groundParts t parts)
  | [] => True.intro
  | c :: rest => by
      use absolute_ground c
      apply absoluteParts_groundParts rest

theorem absoluteFields_groundFields :
    ∀ group : List (String × Condition), AbsoluteFields (groundFields t group)
  | [] => True.intro
  | (_, c) :: rest => by
      use absolute_ground c
      apply absoluteFields_groundFields rest

end

mutual

/-- Grounding changes nothing where no date is relative. -/
theorem ground_of_absolute : ∀ c : Condition, c.Absolute → c.ground t = c
  | .eq _, _ | .neq _, _ | .startsWith _, _ => rfl
  | .order _ _, h => by
      rw [ground, Bound.ground_of_absolute t h]
  | .all parts, h => by
      rw [ground, groundParts_of_absolute parts h]
  | .any parts, h => by
      rw [ground, groundParts_of_absolute parts h]
  | .find group, h => by
      rw [ground, groundFields_of_absolute group h]
  | .nfind group, h => by
      rw [ground, groundFields_of_absolute group h]

theorem groundParts_of_absolute :
    ∀ parts : List Condition, AbsoluteParts parts → groundParts t parts = parts
  | [], _ => rfl
  | c :: rest, h => by
      rw [groundParts, ground_of_absolute c h.1, groundParts_of_absolute rest h.2]

theorem groundFields_of_absolute :
    ∀ group : List (String × Condition), AbsoluteFields group → groundFields t group = group
  | [], _ => rfl
  | (_, c) :: rest, h => by
      rw [groundFields, ground_of_absolute c h.1, groundFields_of_absolute rest h.2]

end

end Condition

/-! ### Groups, statements and criteria -/

/-- A group with its conditions grounded. -/
def Group.ground (now : Instant) (group : Group) : Group :=
  Condition.groundFields now group

/-- No condition of a group has a relative date. -/
def Group.Absolute (group : Group) : Prop :=
  Condition.AbsoluteFields group

theorem Group.filter_ground (t t' : Instant) (group : Group) :
  (group.ground t).filter t' = group.filter t
  := by
  rw [Group.filter, Group.filter, Group.ground, Condition.fieldFragments_groundFields]

theorem Statement.filter_map_ground (t t' : Instant) (statement : Statement) :
  Statement.filter t' (statement.map (Group.ground t)) = Statement.filter t statement
  := by
  match statement with
  | [] => simp only [Statement.filter, List.map_nil]
  | [group] =>
      simp only [Statement.filter, List.map_cons, List.map_nil, Group.filter_ground]
  | first :: second :: rest =>
      simp only [Statement.filter, List.map_cons, List.map_map, Function.comp_def,
        Group.filter_ground]

namespace Criteria

/-- Criteria with the conditions of all groups grounded. -/
def ground (now : Instant) (criteria : Criteria) : Criteria :=
  ⟨criteria.statements.map fun statement => statement.map (Group.ground now)⟩

/-- No condition of criteria has a relative date. -/
def Absolute (criteria : Criteria) : Prop :=
  ∀ statement ∈ criteria.statements, ∀ group ∈ statement, Group.Absolute group

variable (t t' : Instant)

theorem filter_ground (criteria : Criteria) :
  (criteria.ground t).filter t' = criteria.filter t
  := by
  have hkept : (criteria.ground t).statements.filter (fun statement => !statement.isEmpty)
      = (criteria.statements.filter fun statement => !statement.isEmpty).map
          fun statement => statement.map (Group.ground t) := by
    rw [ground, List.filter_map]
    congr 2
    funext statement
    simp
  rw [filter, filter, hkept]
  cases criteria.statements.filter fun statement => !statement.isEmpty with
  | nil => rfl
  | cons base rest =>
      simp only [List.map_cons, List.map_map, Function.comp_def, Statement.filter_map_ground]

theorem absolute_ground (criteria : Criteria) :
  (criteria.ground t).Absolute
  := by
  intro statement hs group hg
  obtain ⟨old, -, rfl⟩ := List.mem_map.mp hs
  obtain ⟨group, -, rfl⟩ := List.mem_map.mp hg
  apply Condition.absoluteFields_groundFields

theorem ground_of_absolute {criteria : Criteria} (h : criteria.Absolute) :
  criteria.ground t = criteria
  := by
  have hgroup : ∀ statement ∈ criteria.statements,
      statement.map (Group.ground t) = id statement := by
    intro statement hs
    apply (List.map_congr_left fun group hg => ?_).trans (List.map_id statement)
    apply Condition.groundFields_of_absolute t group (h statement hs group hg)
  rw [ground, List.map_congr_left hgroup, List.map_id]

end Criteria

/-! ### Requests -/

/-- A specification with its criteria grounded. -/
def FilterSpec.ground (now : Instant) (spec : FilterSpec) : FilterSpec :=
  { spec with criteria := spec.criteria.ground now }

theorem FilterSpec.find_ground (t t' : Instant) (spec : FilterSpec) :
  (spec.ground t).find t' = spec.find t
  := by
  rw [find, find, ground, Criteria.filter_ground]

namespace Request

/-- A request with its criteria grounded; bucket specifications have no dates. -/
def ground (now : Instant) : Request → Request
  | .filter criteria => .filter (criteria.ground now)
  | .buckets spec => .buckets spec

/-- No condition of a request has a relative date. -/
def Absolute : Request → Prop
  | .filter criteria => criteria.Absolute
  | .buckets _ => True

variable (t t' : Instant)

theorem stages_ground (request : Request) :
  (request.ground t).stages t' = request.stages t
  := by
  cases request with
  | filter criteria => rw [ground, stages, stages, Criteria.filter_ground]
  | buckets spec => rfl

theorem absolute_ground (request : Request) :
  (request.ground t).Absolute
  := by
  cases request with
  | filter criteria => apply criteria.absolute_ground
  | buckets spec => apply True.intro

theorem ground_of_absolute {request : Request} (h : request.Absolute) :
  request.ground t = request
  := by
  cases request with
  | filter criteria => rw [ground, Criteria.ground_of_absolute t h]
  | buckets spec => rfl

end Request

theorem pipeline_map_ground (t t' : Instant) (requests : List Request) :
  pipeline t' (requests.map (Request.ground t)) = pipeline t requests
  := by
  rw [pipeline, pipeline, ← List.map_reverse, List.flatMap_map]
  simp only [Request.stages_ground]

/-! ### The main statement -/

/-- The find command of a specification and the pipeline of requests are, at an instant, those
that the grounded ones have at any other, in which nothing is relative.  So what has no
relative date is translated alike at all instants. -/
theorem translations_eq_ground (t t' : Instant) :
  (∀ spec : FilterSpec, (spec.ground t).criteria.Absolute
      ∧ spec.find t = (spec.ground t).find t')
    ∧ (∀ requests : List Request, (∀ request ∈ requests.map (Request.ground t), request.Absolute)
      ∧ pipeline t requests = pipeline t' (requests.map (Request.ground t)))
    ∧ (∀ spec : FilterSpec, spec.criteria.Absolute → spec.find t = spec.find t')
    ∧ (∀ requests : List Request, (∀ request ∈ requests, request.Absolute) →
      pipeline t requests = pipeline t' requests)
  := by
  constructor
  · intro spec
    use spec.criteria.absolute_ground t
    rw [FilterSpec.find_ground]
  constructor
  · intro requests
    constructor
    · intro request hmem
      obtain ⟨old, -, rfl⟩ := List.mem_map.mp hmem
      apply old.absolute_ground
    · rw [pipeline_map_ground]
  constructor
  · intro spec h
    have hspec : spec.ground t = spec := by
      rw [FilterSpec.ground, Criteria.ground_of_absolute t h]
    rw [← FilterSpec.find_ground t t', hspec]
  · intro requests h
    have hrequests : requests.map (Request.ground t) = requests.map id := by
      apply List.map_congr_left
      intro request hmem
      apply Request.ground_of_absolute t (h request hmem)
    rw [← pipeline_map_ground t t', hrequests, List.map_id]

/-- Records of the last three days or of no date, all entries of which are older than a day. -/
def FilterSpec.recent : FilterSpec :=
  (initial.constrain "createdAt" (.any [.daysAgo .gt 3, .isNull])).constrain "entries"
    (.nfind [("at", .daysAgo .gte 1)])

/-- Records that were created before 1970 or have an entry of that time, oldest first. -/
def FilterSpec.early : FilterSpec :=
  ((initial.constrain "createdAt" (.order .lt (.literal (.date ⟨0⟩)))).beginGroup.constrain
    "entries" (.find [("at", .all [.order .lt (.literal (.date ⟨0⟩)), .neq .null])])).sortBy
    "createdAt" .asc

/-- The requests for the records of a filter by status. -/
def FilterSpec.byStatus (spec : FilterSpec) : List Request :=
  [.filter spec.criteria, .buckets (.ofField "status")]

/-- What is relative has other translations a day later; grounded it has the first one still,
and what is absolute has the same. -/
theorem translations_eq_ground_recent :
  (¬ FilterSpec.recent.criteria.Absolute
      ∧ FilterSpec.recent.find ⟨0⟩ ≠ FilterSpec.recent.find ⟨86400000⟩
      ∧ FilterSpec.recent.find ⟨0⟩ = (FilterSpec.recent.ground ⟨0⟩).find ⟨86400000⟩
      ∧ pipeline ⟨0⟩ FilterSpec.recent.byStatus
        = pipeline ⟨86400000⟩ (FilterSpec.recent.byStatus.map (Request.ground ⟨0⟩)))
    ∧ FilterSpec.early.criteria.Absolute
      ∧ (∀ request ∈ FilterSpec.early.byStatus, request.Absolute)
      ∧ FilterSpec.early.find ⟨0⟩ = FilterSpec.early.find ⟨86400000⟩
      ∧ pipeline ⟨0⟩ FilterSpec.early.byStatus = pipeline ⟨86400000⟩ FilterSpec.early.byStatus
  := by
  obtain ⟨hspec, hrequests, habsoluteSpec, habsoluteRequests⟩ :=
    translations_eq_ground ⟨0⟩ ⟨86400000⟩
  have hearly : FilterSpec.early.criteria.Absolute := by
    simp [FilterSpec.early, FilterSpec.initial, FilterSpec.constrain, FilterSpec.beginGroup,
      FilterSpec.sortBy, Criteria.initial, Criteria.constrain, Criteria.beginGroup, updateLast,
      Fields.insert, Group.single, Criteria.Absolute, Group.Absolute, Condition.AbsoluteFields,
      Condition.Absolute, Condition.AbsoluteParts, Bound.Absolute]
  have hrequest : ∀ request ∈ FilterSpec.early.byStatus, request.Absolute := by
    simp [FilterSpec.byStatus, Request.Absolute, hearly]
  constructor
  · refine ⟨?_, ?_, (hspec _).2, (hrequests _).2⟩
    · intro h
      have hgroup := h _ List.mem_cons_self _ List.mem_cons_self
      apply hgroup.1.1
    · intro h
      have htext := congrArg (fun command => command.filter.describe) h
      revert htext
      decide +kernel
  · exact ⟨hearly, hrequest, habsoluteSpec _ hearly, habsoluteRequests _ hrequest⟩

end MongoQuery
