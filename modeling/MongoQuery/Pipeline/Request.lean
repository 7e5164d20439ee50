import MongoQuery.Filter.Criteria
import MongoQuery.Pipeline.Buckets
import MongoQuery.Wire.Aggregation

/-!
# Pipelines of requests

Requests are a stack: each wraps those before it, so that the stages of the last request
come first.
-/

namespace MongoQuery

/-- The stages of a request. -/
def Request.stages (now : Instant) : Request → List Stage
  | .filter criteria => [.satisfying (criteria.filter now)]
  | .buckets spec => spec.stages

/-- The pipeline of a stack of requests. -/
def pipeline (now : Instant) (requests : List Request) : List Stage :=
  requests.reverse.flatMap fun request => request.stages now

/-- The pipeline of a stack of request documents. -/
def pipelineOfDocuments (now : Instant) (requests : List Document) :
    Except DecodeError (List Stage) :=
  (requests.mapM Request.decode).map (pipeline now)

end MongoQuery
