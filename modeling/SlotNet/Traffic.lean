import SlotNet.Random.Draw
import SlotNet.Station

/-!
# Traffic

Each node makes packets of one size with exponentially distributed gaps, each for a destination that
is drawn among those it has a route to.
-/

namespace SlotNet

open SlotNet.Random (Stream)

/-- The source of all packets. -/
structure Traffic where
  /-- When the nodes begin. -/
  start : Time
  packetSize : Nat
  /-- The mean gap in seconds; none if there is no traffic. -/
  meanGap : Option Float
  stream : Stream

namespace Traffic

/-- The source for some settings. A rate below zero, or none at all, makes no traffic. -/
def new (settings : TrafficSettings) (seed : Nat) : Traffic :=
  { start := (Time.ofSeconds? settings.startSecs).getD 0
    packetSize := settings.packetSize
    meanGap :=
      if settings.enabled ∧ 0.0 ≤ settings.packetsPerSecond then
        some (1.0 / settings.packetsPerSecond)
      else none
    stream := Stream.ofSeed seed.toUInt64 }

/-- The gap to the next packet. Gaps that are no time give no packet. -/
def nextGap (t : Traffic) : Option Time × Traffic :=
  match t.meanGap with
  | none => (none, t)
  | some mean =>
    let (x, stream) := t.stream.exponential Random.patience
    (Time.ofSeconds? (x * mean), { t with stream })

/-- Schedules the first packet of the nodes from `node` on, `count` of them. -/
def scheduleFirst : Nat → Nat → Traffic → EventQueue Event →
    Except Fault (Traffic × EventQueue Event)
  | 0, _, t, events => .ok (t, events)
  | count + 1, node, t, events => do
    let (gap, t) := t.nextGap
    match gap with
    | none => scheduleFirst count (node + 1) t events
    | some gap =>
      let time ← Time.add t.start gap
      scheduleFirst count (node + 1) t (events.scheduleAt time (.arrival node)).2

/-- Schedules the first packet of every node. -/
def begin (t : Traffic) (nodes : Nat) (events : EventQueue Event) :
    Except Fault (Traffic × EventQueue Event) :=
  scheduleFirst nodes 0 t events

/-- A node makes a packet, and its next one is scheduled. Gives the destination; a node without
routes makes none. -/
def arrive (t : Traffic) (s : Station) (m : Medium) (node : Nat) :
    Except Fault (Traffic × Station × Medium × Option Nat) := do
  let (gap, t) := t.nextGap
  let m ← match gap with
    | some gap => m.schedule gap (.arrival node)
    | none => .ok m
  let routes := m.routes.entries node
  if routes.isEmpty then return (t, s, m, none)
  else
    let (i, stream) := t.stream.index routes.length
    let t := { t with stream }
    match routes[i]? with
    | none => return (t, s, m, none)
    | some route =>
      let stats ← m.stats.recordOffer t.packetSize
      let (s, m, _) ← s.send { m with stats } route.destination t.packetSize
      return (t, s, m, some route.destination)

end Traffic

end SlotNet
