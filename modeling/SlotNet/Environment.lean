import SlotNet.Agent
import SlotNet.Controller

/-!
# The environment

Between the controller and the agent: which node is asked for next, what it sees, and what becomes of
the answer.
-/

namespace SlotNet

structure Environment where
  nodeCount : Nat
  dataSlots : Nat
  topK : Nat
  maxSlots : Nat
  horizon : Time
  /-- Steps taken. -/
  counter : Nat
  deriving DecidableEq, Repr

namespace Environment

def ofConfig (c : Config) : Environment :=
  { nodeCount := c.nodeCount, dataSlots := c.frame.dataSlots, topK := c.environment.topK
    maxSlots := c.reservation.maxSlotsPerAction, horizon := c.duration, counter := 0 }

def spaces (e : Environment) : Spaces :=
  { action := ⟨noSlot, (e.dataSlots : Int) - 1, [e.maxSlots]⟩
    usage := ⟨-1, e.topK, [e.dataSlots]⟩
    topKBytes := ⟨0, greatestInteger, [e.topK]⟩ }

/-- The node of the next step: each in its turn. -/
def currentNode (e : Environment) : Nat :=
  if e.nodeCount = 0 then 0 else e.counter % e.nodeCount

def advance (e : Environment) : Environment := { e with counter := e.counter + 1 }

/-! ## Observing -/

/-- The code of a claim, given the next hops towards the top destinations. -/
def usageCode (node : Nat) (nextHops : List (Option Nat)) (c : Claim) : Int :=
  if !c.isClaimed then 0
  else if c.owner = node then -1
  else match nextHops.findIdx? (· == some c.owner) with
    | some rank => rank + 1
    | none => -1

/-- What a node sees if frames take the next hops that are given. -/
def observeVia (e : Environment) (node : Nat) (c : Controller) (q : TransmitQueue)
    (nextHop : Nat → Nat → Option Nat) : Observation :=
  let top := q.top e.topK
  let nextHops := top.map fun (destination, _) => nextHop node destination
  { usage := (c.usage node).map (usageCode node nextHops)
    queuedBytes := q.queuedBytes
    topKBytes := top.map (·.2) ++ List.replicate (e.topK - top.length) 0 }

def observe (e : Environment) (node : Nat) (c : Controller) (q : TransmitQueue) (routes : Routes) :
    Observation :=
  e.observeVia node c q routes.nextHop

/-- Has the run passed its end? -/
def isDone (e : Environment) (now : Time) : Bool := e.horizon < now

/-- The sum of the rewards in single precision. No rewards sum up to minus zero. -/
def total (rewards : List Float32) : Float32 := rewards.foldl (· + ·) (-0.0)

/-- A step for the agent. -/
def step (node : Nat) (observation : Observation) (rewards : List Float32) (done : Bool)
    (stats : Stats) (now : Time) : Step :=
  { observation, reward := total rewards, done, node, timeNs := now.low64, rewards
    throughputBps := stats.throughput now
    averageDelayMs := stats.averageDelay.seconds * 1000.0 }

/-! ## Acting -/

/-- The data slot that an entry of an action chooses. -/
def slotOf (e : Environment) (entry : Int) : Option Nat :=
  match entry with
  | .ofNat slot => if slot < e.dataSlots then some slot else none
  | .negSucc _ => none

/-- Carries out an action for a node: its choices are reserved. -/
def apply (e : Environment) (node : Nat) (action : Action) (c : Controller) (m : Medium) :
    Except Fault (Controller × Medium × TransmitOutcome) :=
  ((action.filterMap e.slotOf).foldl Controller.choose c).reserve m node

/-- The action that chooses nothing. -/
def idle (e : Environment) : Action := List.replicate e.maxSlots noSlot

end Environment

end SlotNet
