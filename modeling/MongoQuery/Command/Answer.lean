import MongoQuery.Bson.Extended
import MongoQuery.Command.Files
import MongoQuery.Command.Settings
import MongoQuery.Filter.Find
import MongoQuery.Json.Writer
import MongoQuery.Pipeline.Request

/-!
# Answers

The text that the program writes for the text of a request: the JSON of a find command or
of a pipeline, and a line feed.
-/

namespace MongoQuery.Command

/-- Why a request has no answer. -/
inductive Failure where
  /-- The input cannot be opened. -/
  | unreadable (path : String) (fault : OpenFault)
  /-- The input is not the JSON of a request.  What the reader of JSON says about the fault
  and its place is in its own words and is not kept. -/
  | invalidJson
  /-- The request has a fault. -/
  | invalidRequest (e : DecodeError)

/-- The message of a failure. -/
def Failure.message : Failure → String
  | .unreadable path fault => "failed to read " ++ path ++ ": " ++ fault.message
  | .invalidJson => "invalid JSON"
  | .invalidRequest e => "invalid request: " ++ e.message

/-- The JSON of an action's result on the text of a request. -/
def result (action : Action) (now : Instant) (request : String) : Except Failure Json :=
  match action with
  | .find =>
    match Document.ofText? request with
    | none => .error .invalidJson
    | some d =>
      match d.find now with
      | .ok command => .ok command.toDocument.toJson
      | .error e => .error (.invalidRequest e)
  | .aggregate =>
    match Document.listOfText? request with
    | none => .error .invalidJson
    | some ds =>
      match pipelineOfDocuments now ds with
      | .ok stages => .ok (.array (stages.map fun stage => stage.toDocument.toJson))
      | .error e => .error (.invalidRequest e)

/-- The text of a result, on one line or on several, with a line feed at its end. -/
def outputText (compact : Bool) (result : Json) : String :=
  (if compact then result.compact else result.pretty) ++ "\n"

/-- The answer to the text of a request. -/
def answer (action : Action) (now : Instant) (compact : Bool) (request : String) :
    Except Failure String :=
  (result action now request).map (outputText compact)

end MongoQuery.Command
