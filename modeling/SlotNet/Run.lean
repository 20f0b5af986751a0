import SlotNet.Agent.Learner
import SlotNet.Agent.Random
import SlotNet.Agent.Scripted
import SlotNet.Config.Check
import SlotNet.Simulation

/-!
# Runs of a configuration

The run with the agent that a configuration names, and with others in its place.
-/

namespace SlotNet.Run

/-- The random agent of a configuration. -/
def randomAgent (c : Config) : Except Fault RandomAgent :=
  (Timing.capacity c.frame.slotTime c.frame.dataRate).map fun capacity =>
    RandomAgent.new ((c.seed + 2) % Count.limit) capacity c.reservation.maxSlotsPerAction

def withAgent {σ : Type} (c : Config) (agent : Agent σ) (state : σ) : Except Fault (σ × Report) := do
  let s ← Simulation.new c agent state
  let (s, report) ← s.run
  return (s.agentState, report)

/-- Makes the agent that the configuration names, for some use. Nothing answers a remote one. -/
def withConfigured {α : Type} (c : Config) (use : (σ : Type) → Agent σ → σ → Except Fault α) :
    Except Fault α :=
  match c.environment.agent with
  | .random => do use RandomAgent RandomAgent.agent (← randomAgent c)
  | .remote url _ => use Unit (Remote.agent Remote.unreachable url) ()

def configured (c : Config) : Except Fault Report :=
  withConfigured c fun _ agent state => (withAgent c agent state).map Prod.snd

/-- The run with a scripted agent, and what it was told. -/
def scripted (c : Config) (script : Script) : Except Fault (ScriptRecord × Report) :=
  withAgent c script.agent Script.silence

/-- The run with a remote agent and a learner with given answers, and the requests it got. -/
def learned (c : Config) (answers : List Response) :
    Except Fault (List Remote.LearnerRequest × Report) :=
  withAgent c (Remote.agent (Remote.learner answers) Remote.learnerBase) []

end SlotNet.Run
