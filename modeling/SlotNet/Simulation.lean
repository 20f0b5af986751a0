import SlotNet.Network
import SlotNet.Report

/-!
# A run

The network with an environment and an agent. Each control slot is followed at once by a step of the
environment: the next node is observed, the agent is asked, and its choice is reserved. The run ends
with the last event that is not later than the horizon; then the agent is told the final step, and
what still waits or is under way is forgotten.
-/

namespace SlotNet

structure Simulation (σ : Type) where
  config : Config
  network : Network
  environment : Environment
  agent : Agent σ
  agentState : σ

namespace Simulation

variable {σ : Type}

def new (config : Config) (agent : Agent σ) (agentState : σ) : Except Fault (Simulation σ) :=
  (Network.ofConfig config config.nodeCount).map fun network =>
    { config, network, environment := Environment.ofConfig config, agent, agentState }

/-- The end of the run. -/
def horizon (s : Simulation σ) : Time := s.config.duration

def now (s : Simulation σ) : Time := s.network.now

def setStats (s : Simulation σ) (stats : Stats) : Simulation σ :=
  { s with network := { s.network with medium := { s.network.medium with stats } } }

/-- Counts an error of the agent, if there was one. -/
def noteError (s : Simulation σ) (failed : Bool) : Except Fault (Simulation σ) :=
  if failed then s.network.medium.stats.recordAgentError.map s.setStats else .ok s

/-! ## Steps of the environment -/

/-- Takes the rewards of a node and makes the step that it sees. -/
def observe (s : Simulation σ) (node : Nat) (station : Station) (done : Bool) :
    Step × Simulation σ :=
  let n := s.network
  let observation := s.environment.observe node n.controller station.queue n.medium.routes
  let (rewards, controller) := n.controller.takeReward node
  (Environment.step node observation rewards done n.medium.stats n.now,
    { s with network := { n with controller } })

/-- Asks the agent. Where it gives no answer, nothing is chosen, and that is counted. -/
def ask (s : Simulation σ) (step : Step) : Except Fault (Simulation σ × Action) := do
  let (agentState, answer) ← s.agent.act step s.agentState
  let s := { s with agentState }
  match answer with
  | .ok action => return (s, action)
  | .error _ => return (← s.noteError true, s.environment.idle)

/-- Carries out an action for a node and counts the step. -/
def act (s : Simulation σ) (node : Nat) (action : Action) : Except Fault (Simulation σ) := do
  let (controller, medium, _) ←
    s.environment.apply node action s.network.controller s.network.medium
  let stats ← medium.stats.recordEnvStep
  return { s with
    network := { s.network with controller, medium := { medium with stats } }
    environment := s.environment.advance }

/-- A step of the environment. A node without a station is passed over, and after the horizon nothing
is asked. -/
def envStep (s : Simulation σ) : Except Fault (Simulation σ) := do
  let node := s.environment.currentNode
  match s.network.stations[node]? with
  | none => return { s with environment := s.environment.advance }
  | some station =>
    let done := s.environment.isDone s.now
    let (step, s) := s.observe node station done
    if done then return s
    else
      let (s, action) ← s.ask step
      s.act node action

/-! ## Events -/

/-- Is the event the beginning of a control slot? -/
def opensControlSlot (s : Simulation σ) : Event → Bool
  | .startFrame => true
  | .runSlot slot => Timing.isControlSlot s.network.stations.length slot
  | _ => false

def dispatch (s : Simulation σ) (event : Event) : Except Fault (Simulation σ) := do
  let (network, handled) ← s.network.handle event
  let stats ← match handled with
    | .merged (.error _) => network.medium.stats.recordMalformed
    | _ => .ok network.medium.stats
  let s := ({ s with network }).setStats stats
  if s.opensControlSlot event then
    let medium ← s.network.medium.schedule 0 .envStep
    return { s with network := { s.network with medium } }
  else if event = .envStep then s.envStep
  else return s

/-- Handles at most so many events up to the horizon. -/
def runEvents : Nat → Simulation σ → Except Fault (Simulation σ)
  | 0, s => .ok s
  | fuel + 1, s =>
    match s.network.popUntil s.horizon with
    | (none, network) => .ok { s with network }
    | (some (_, event), network) => do
      let s ← ({ s with network }).dispatch event
      runEvents fuel s

/-- More events than a run can have. -/
def eventBound : Nat := Nat.pow 10 64

/-- The agent is told the shapes, and the first frame and the first packets are scheduled. -/
def begin (s : Simulation σ) : Except Fault (Simulation σ) := do
  let (agentState, answer) ← s.agent.begin s.environment.spaces s.agentState
  let s ← ({ s with agentState }).noteError answer.toOption.isNone
  let (network, _) ← s.network.start
  let network ← network.startTraffic network.stations.length
  return { s with network }

def tellFinal (s : Simulation σ) : Except Fault (Simulation σ) := do
  let node := s.environment.currentNode
  match s.network.stations[node]? with
  | none => return s
  | some station =>
    let (step, s) := s.observe node station true
    let (agentState, answer) ← s.agent.finish step s.agentState
    ({ s with agentState }).noteError answer.toOption.isNone

/-- The agent is told the final step, and the network is torn down. -/
def finish (s : Simulation σ) : Except Fault (Simulation σ) := do
  let s ← s.tellFinal
  let (_, network) ← s.network.tearDown
  return { s with network }

def report (s : Simulation σ) : Except Fault Report :=
  s.network.controller.frameDuration.map fun frameDuration =>
    Report.of s.network.medium.stats s.config.seed s.network.stations.length
      s.config.frame.dataSlots s.horizon (s.horizon - s.config.trafficStart) frameDuration

def run (s : Simulation σ) : Except Fault (Simulation σ × Report) := do
  let s ← s.begin
  let s ← runEvents eventBound s
  let s ← s.finish
  return (s, ← s.report)

end Simulation

end SlotNet
