import SlotNet.Channel
import SlotNet.Routing

/-!
# What the stations share

The events to come, the channel, where the nodes are, the routes, the counters, and the numbers for
new frames.
-/

namespace SlotNet

/-- The surroundings of a station. -/
structure Medium where
  events : EventQueue Event
  channel : Channel
  positions : List Point
  routes : Routes
  stats : Stats
  /-- The number of the next frame. -/
  nextUid : Nat
  /-- Bits per second on the link. -/
  dataRate : Nat

namespace Medium

def now (m : Medium) : Time := m.events.now

/-- A number for a new frame. -/
def takeUid (m : Medium) : Nat × Medium := (m.nextUid, { m with nextUid := m.nextUid + 1 })

def transmit (m : Medium) (sender : Nat) (frame : Frame) :
    Except Fault (Medium × TransmitOutcome) := do
  let (channel, events, stats, outcome) ←
    m.channel.transmit sender frame m.events m.positions m.stats
  return ({ m with channel, events, stats }, outcome)

def schedule (m : Medium) (delay : Time) (event : Event) : Except Fault Medium :=
  (m.events.schedule delay event).map fun (_, events) => { m with events }

end Medium

end SlotNet
