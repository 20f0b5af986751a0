import SlotNet.Agent.Remote
import SlotNet.Agent.Target

/-!
# A learner with given answers

A transport that answers from a list, one after the other and over and over, and keeps the requests.
-/

namespace SlotNet.Remote

/-- A request as the learner gets it. -/
structure LearnerRequest where
  /-- Path and query. -/
  target : String
  body : String
  deriving DecidableEq, Repr

/-- The learner listens here. -/
def learnerBase : String := "http://127.0.0.1:5555"

/-- The learner with given answers. Its state holds the requests, latest first. -/
def learner (answers : List Response) : Transport (List LearnerRequest) where
  post request state :=
    match Target.ofTail? (request.url.drop learnerBase.length).toString with
    | none => (state, none)
    | some target =>
      (⟨target, request.body⟩ :: state, answers[state.length % answers.length]?)

end SlotNet.Remote
