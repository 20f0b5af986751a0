import SlotNet.Agent

/-!
# Scripted agents

An agent that answers from a list and records what it was told.
-/

namespace SlotNet

/-- Which answer of the list is given. -/
inductive ScriptOrder where
  /-- One after the other, over and over. -/
  | byCall
  /-- By the number of the node. -/
  | byNode
  deriving DecidableEq, Repr

/-- A script. No answer is an error. -/
structure Script where
  order : ScriptOrder
  answers : List (Option Action)
  beginFails : Bool
  finishFails : Bool

/-- What the agent was told, latest first. -/
structure ScriptRecord where
  spaces : Option Spaces
  steps : List Step
  final : Option Step

namespace Script

def silence : ScriptRecord := ⟨none, [], none⟩

/-- The answer to a step that follows `calls` others. -/
def answer (s : Script) (calls : Nat) (step : Step) : Except AgentError Action :=
  let key := match s.order with
    | .byCall => calls
    | .byNode => step.node
  match (s.answers[key % s.answers.length]?).join with
  | some action => .ok action
  | none => .error .scripted

def agent (s : Script) : Agent ScriptRecord where
  begin spaces r :=
    .ok ({ r with spaces := some spaces }, if s.beginFails then .error .scripted else .ok ())
  act step r := .ok ({ r with steps := step :: r.steps }, s.answer r.steps.length step)
  finish step r :=
    .ok ({ r with final := some step }, if s.finishFails then .error .scripted else .ok ())

end Script

end SlotNet
