import MongoQuery.Filter.Find
import MongoQuery.Pipeline.Request
import MongoQuery.Proofs.Wire.Faults

/-!
# Stacks of requests

Requests are read from first to last and their stages stand from last to first.  So a stack
that is put on another is run before it, and of several faults that documents have the first
one counts, although its stages would come last.
-/

namespace MongoQuery

variable (now : Instant)

theorem pipeline_append (requests others : List Request) :
  pipeline now (requests ++ others) = pipeline now others ++ pipeline now requests
  := by
  rw [pipeline, List.reverse_append, List.flatMap_append]
  rfl

theorem pipeline_single (request : Request) :
  pipeline now [request] = request.stages now
  := by
  rw [pipeline, List.reverse_singleton, List.flatMap_singleton]

/-- The stages of a stack are those of its requests, one after the other from the last on. -/
theorem pipeline_eq_flatten (requests : List Request) :
  pipeline now requests = (requests.map fun request => pipeline now [request]).reverse.flatten
  := by
  induction requests with
  | nil => rfl
  | cons request rest ih =>
      have hcons : request :: rest = [request] ++ rest := rfl
      rw [hcons, pipeline_append, ih, List.map_append, List.reverse_append, List.flatten_append,
        List.map_singleton, List.reverse_singleton, List.flatten_singleton]

/-- A document alone gives the stages of the request that it is. -/
theorem pipelineOfDocuments_single_eq_ok_iff (d : Document) (stages : List Stage) :
  pipelineOfDocuments now [d] = .ok stages
    ↔ ∃ request, Request.decode d = .ok request ∧ pipeline now [request] = stages
  := by
  rw [pipelineOfDocuments, map_eq_ok_iff]
  simp only [mapM_eq_ok_iff, List.forall₂_cons_left_iff, List.forall₂_nil_left_iff]
  constructor
  · rintro ⟨requests, ⟨request, others, hrequest, rfl, rfl⟩, hstages⟩
    use request, hrequest
  · rintro ⟨request, hrequest, hstages⟩
    use [request]
    constructor
    · use request, [], hrequest
    · apply hstages

/-- Documents give stages exactly when each of them does alone, and then these stages one after
the other, from those of the last document on. -/
theorem pipelineOfDocuments_eq_ok_iff (documents : List Document) (stages : List Stage) :
  pipelineOfDocuments now documents = .ok stages
    ↔ ∃ parts, List.Forall₂ (fun d part => pipelineOfDocuments now [d] = .ok part) documents parts
      ∧ stages = parts.reverse.flatten
  := by
  rw [pipelineOfDocuments, map_eq_ok_iff]
  constructor
  · rintro ⟨requests, hrequests, rfl⟩
    use requests.map fun request => pipeline now [request]
    constructor
    · rw [List.forall₂_map_right_iff]
      apply ((mapM_eq_ok_iff _ _ _).mp hrequests).imp
      intro d request hrequest
      apply (pipelineOfDocuments_single_eq_ok_iff now d _).mpr
      use request
    · apply pipeline_eq_flatten
  · rintro ⟨parts, hparts, rfl⟩
    induction hparts with
    | nil =>
        use []
        constructor
        · rfl
        · rfl
    | @cons d part rest others hpart hrest ih =>
        obtain ⟨request, hrequest, rfl⟩ :=
          (pipelineOfDocuments_single_eq_ok_iff now d part).mp hpart
        obtain ⟨requests, hrequests, hstages⟩ := ih
        use request :: requests
        constructor
        · rw [List.mapM_cons, hrequest]
          change (List.mapM Request.decode rest >>= _) = _
          rw [hrequests]
          rfl
        · have hcons : request :: requests = [request] ++ requests := rfl
          rw [hcons, pipeline_append, hstages, List.reverse_cons, List.flatten_append,
            List.flatten_singleton]

/-- Documents have exactly the fault of the first one that is no request. -/
theorem pipelineOfDocuments_eq_error_iff (documents : List Document) (e : DecodeError) :
  pipelineOfDocuments now documents = .error e
    ↔ ∃ before d after, documents = before ++ d :: after
      ∧ (∀ other ∈ before, ∃ request, Request.decode other = .ok request)
      ∧ Request.decode d = .error e
  := by
  rw [← mapM_eq_error_iff, pipelineOfDocuments, ← fault?_eq_some_iff, fault?_map,
    fault?_eq_some_iff]

/-- Documents fail exactly when one of them is no request. -/
theorem exists_pipelineOfDocuments_eq_error_iff (documents : List Document) :
  (∃ e, pipelineOfDocuments now documents = .error e)
    ↔ ∃ d ∈ documents, ∃ e, Request.decode d = .error e
  := by
  simp only [← fault?_eq_some_iff, ← Option.isSome_iff_exists, pipelineOfDocuments, fault?_map,
    fault?_mapM, List.findSome?_isSome_iff]

/-! ### The main statement -/

/-- A stack on another runs before it, and a filter is one stage, with the filter that the find
command of its criteria has.  Documents fail when one of them is no request, with the fault of the
first such document; else their stages are those of each document alone, those of the last
document first. -/
theorem pipeline_composes :
  (∀ requests others : List Request,
      pipeline now (requests ++ others) = pipeline now others ++ pipeline now requests)
    ∧ (∀ spec : FilterSpec, (pipeline now [.filter spec.criteria]).map Stage.toDocument
      = [Document.single "$match" (.document (spec.find now).filter)])
    ∧ (∀ documents : List Document, (∃ e, pipelineOfDocuments now documents = .error e)
      ↔ ∃ d ∈ documents, ∃ e, Request.decode d = .error e)
    ∧ (∀ (documents : List Document) (e : DecodeError),
      pipelineOfDocuments now documents = .error e
        ↔ ∃ before d after, documents = before ++ d :: after
          ∧ (∀ other ∈ before, ∃ request, Request.decode other = .ok request)
          ∧ Request.decode d = .error e)
    ∧ ∀ (documents : List Document) (stages : List Stage),
      pipelineOfDocuments now documents = .ok stages
        ↔ ∃ parts,
          List.Forall₂ (fun d part => pipelineOfDocuments now [d] = .ok part) documents parts
            ∧ stages = parts.reverse.flatten
  := by
  constructor
  · apply pipeline_append
  constructor
  · intro spec
    rw [pipeline_single]
    rfl
  constructor
  · apply exists_pipelineOfDocuments_eq_error_iff
  constructor
  · apply pipelineOfDocuments_eq_error_iff
  · apply pipelineOfDocuments_eq_ok_iff

end MongoQuery
