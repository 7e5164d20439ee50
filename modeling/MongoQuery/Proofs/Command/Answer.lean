import MongoQuery.Command.Outcome
import MongoQuery.Proofs.Json.Printing

/-!
# Forms of an answer

Whether the answer is written on one line or on several has no influence on what is answered:
both are the same JSON and fail for the same reason.

Main statement: either both forms fail alike and nothing is written, or both print the same
find body or array of stages and a line feed; in the one form there is no other line break, and
squeezing the other gives it.
-/

namespace MongoQuery.Command

/-- A request has a translation: the body of the find command, or the array of the stages. -/
inductive Translates (now : Instant) (request : String) : Action → Json → Prop
  | find {d : Document} {command : FindCommand} : Document.ofText? request = some d →
    d.find now = .ok command → Translates now request .find command.toDocument.toJson
  | aggregate {ds : List Document} {stages : List Stage} :
    Document.listOfText? request = some ds → pipelineOfDocuments now ds = .ok stages →
    Translates now request .aggregate (.array (stages.map fun stage => stage.toDocument.toJson))

/-- The result of a request is its translation. -/
theorem result_eq_ok_iff (action : Action) (now : Instant) (request : String) (j : Json) :
  result action now request = .ok j ↔ Translates now request action j
  := by
  constructor
  · intro h
    cases action with
    | find =>
        simp only [result] at h
        split at h
        · cases h
        · next d hd =>
            split at h
            · next command hcommand =>
                cases h
                apply Translates.find hd hcommand
            · cases h
    | aggregate =>
        simp only [result] at h
        split at h
        · cases h
        · next ds hds =>
            split at h
            · next stages hstages =>
                cases h
                apply Translates.aggregate hds hstages
            · cases h
  · intro h
    cases h with
    | find hd hcommand => simp only [result, hd, hcommand]
    | aggregate hds hstages => simp only [result, hds, hstages]

/-- A request that fails does so in both forms and nothing is written; else both forms are the
translation of the request and a line feed, one of them without any other line break and the
other with white space between its tokens. -/
theorem answer_forms (action : Action) (now : Instant) (request : String) :
  (∃ e, (∀ j, ¬ Translates now request action j)
      ∧ ∀ compact, answer action now compact request = .error e
        ∧ (Outcome.ofAnswer (answer action now compact request)).stdout = "")
    ∨ ∃ j, Translates now request action j
      ∧ answer action now true request = .ok (j.compact ++ "\n")
      ∧ answer action now false request = .ok (j.pretty ++ "\n")
      ∧ (∀ c ∈ j.compact.toList, c ≠ '\n' ∧ c ≠ '\r')
      ∧ Json.squeeze .outside j.pretty.toList = j.compact.toList
  := by
  cases hresult : result action now request with
  | error e =>
      left
      use e
      constructor
      · intro j hj
        rw [← result_eq_ok_iff, hresult] at hj
        cases hj
      · intro compact
        have hanswer : answer action now compact request = .error e := by
          rw [answer, hresult]
          rfl
        use hanswer
        rw [hanswer]
        rfl
  | ok j =>
      right
      use j, (result_eq_ok_iff action now request j).mp hresult
      constructor
      · rw [answer, hresult]
        rfl
      constructor
      · rw [answer, hresult]
        rfl
      constructor
      · intro c
        apply Json.ne_of_mem_compact
      · apply Json.squeeze_toList_pretty

end MongoQuery.Command
