import SlotNet.Fault

/-!
# Agents

An agent is told the shapes of actions and observations, then asked at each step for the slots of a
node, and told the last step. What goes wrong on its side is an error and no fault of the run.
-/

namespace SlotNet

/-- An entry of an action that chooses no slot. -/
def noSlot : Int := -1

/-- The greatest integer of 64 bits with sign. -/
def greatestInteger : Int := 9223372036854775807

/-- Slots chosen for a node, filled up with `noSlot`. -/
abbrev Action := List Int

/-- A vector of integers within bounds. -/
structure Box where
  low : Int
  high : Int
  shape : List Nat
  deriving DecidableEq, Repr

/-- What an agent is told before the first step. -/
structure Spaces where
  action : Box
  /-- One code for each data slot. -/
  usage : Box
  /-- The bytes for the top destinations. -/
  topKBytes : Box
  deriving DecidableEq, Repr

/-- What a node sees. A slot has code 0 if nobody claims it, `k` if the claimant is the next hop
towards the destination with the `k`-th greatest backlog, and -1 otherwise. -/
structure Observation where
  usage : List Int
  /-- Bytes waiting in the data queue. -/
  queuedBytes : Nat
  /-- Bytes for the top destinations, greatest first, filled up with zeros. -/
  topKBytes : List Nat
  deriving DecidableEq, Repr

/-- The data slots that nobody claims. -/
def Observation.freeSlots (o : Observation) : List Nat :=
  (o.usage.zipIdx.filter fun (code, _) => code == 0).map (·.2)

/-- A step as the agent sees it. -/
structure Step where
  observation : Observation
  reward : Float32
  done : Bool
  node : Nat
  timeNs : Nat
  /-- What each choice of the last action earned. -/
  rewards : List Float32
  throughputBps : Float
  averageDelayMs : Float

inductive AgentError where
  /-- It was scripted to fail. -/
  | scripted
  /-- It could not be reached. -/
  | network
  /-- It refused the request. -/
  | rejected (status : Nat) (body : String)
  /-- It failed on its side. -/
  | failed (status : Nat) (body : String)
  /-- Its answer is no action. -/
  | invalidAction
  deriving DecidableEq, Repr

def AgentError.message : AgentError → String
  | .scripted => "scripted failure"
  | .network => "Network error"
  | .rejected status body => "Agent rejected request (" ++ toString status ++ "): " ++ body
  | .failed status body => "Agent error (" ++ toString status ++ "): " ++ body
  | .invalidAction => "Invalid action response"

structure Agent (σ : Type) where
  begin : Spaces → σ → Except Fault (σ × Except AgentError Unit)
  act : Step → σ → Except Fault (σ × Except AgentError Action)
  finish : Step → σ → Except Fault (σ × Except AgentError Unit)

end SlotNet
