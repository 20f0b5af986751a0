import SlotNet.Time
import SlotNet.Geometry

/-!
# The configuration of a run

Each section has defaults, so that an empty configuration is a complete one.
-/

namespace SlotNet

/-- The layout of a frame and its timing. -/
structure FrameLayout where
  /-- Length of a data slot in microseconds. -/
  slotTimeUs : Nat := 1200
  /-- Length of a control slot in microseconds. -/
  controlSlotTimeUs : Nat := 500
  /-- Idle time after every slot in microseconds. -/
  guardTimeUs : Nat := 0
  /-- Idle time between frames in microseconds. -/
  interFrameGapUs : Nat := 0
  /-- Number of data slots after the control slots. -/
  dataSlots : Nat := 32
  /-- Bits per second on the link. -/
  dataRate : Nat := 8000000
  /-- Are the control slots dealt anew at each frame? -/
  rotateControlSlots : Bool := false
  /-- Is the guard time the travel time of light over the range? -/
  guardFromRange : Bool := false

namespace FrameLayout

def slotTime (l : FrameLayout) : Time := Time.ofMicros l.slotTimeUs

def controlSlotTime (l : FrameLayout) : Time := Time.ofMicros l.controlSlotTimeUs

def guardTime (l : FrameLayout) : Time := Time.ofMicros l.guardTimeUs

def interFrameGap (l : FrameLayout) : Time := Time.ofMicros l.interFrameGapUs

end FrameLayout

structure QueueLimits where
  /-- Most frames in each of the two queues. -/
  maxPackets : Nat := 400
  /-- Age in milliseconds at which a frame is dropped. -/
  maxDelayMs : Nat := 10000

def QueueLimits.maxDelay (q : QueueLimits) : Time := Time.ofMillis q.maxDelayMs

structure ReservationRules where
  /-- Claims from others of this priority or a greater one are ignored. -/
  priorityThreshold : Nat := 3
  /-- Added to the reward for each chosen slot that was already claimed. -/
  usedSlotPenalty : Float32 := -10.0
  /-- Most slots that one action claims. -/
  maxSlotsPerAction : Nat := 3

/-- Which agent chooses the slots. -/
inductive AgentChoice where
  /-- Free slots at random, as many as the backlog needs. -/
  | random
  /-- A learner at a URL. -/
  | remote (url : String) (timeoutSecs : Nat)
  deriving DecidableEq

/-- What the agent sees, and who it is. -/
structure EnvironmentSettings where
  /-- Number of destinations that an observation ranks. -/
  topK : Nat := 3
  agent : AgentChoice := .random

structure TrafficSettings where
  enabled : Bool := true
  /-- Seconds before the nodes begin. -/
  startSecs : Float := 1.0
  /-- Payload of a packet in bytes. -/
  packetSize : Nat := 1000
  /-- Mean rate of a node. -/
  packetsPerSecond : Float := 5.0

/-- The area for random positions. -/
structure PlacementArea where
  nodeCount : Nat := 16
  widthM : Float := 500.0
  heightM : Float := 500.0

/-- All settings of a run. -/
structure Config where
  seed : Nat := 42
  durationSecs : Float := 10.0
  frame : FrameLayout := {}
  /-- Metres that a transmission reaches. -/
  maxRangeM : Float := 250.0
  queue : QueueLimits := {}
  reservation : ReservationRules := {}
  environment : EnvironmentSettings := {}
  traffic : TrafficSettings := {}
  placement : PlacementArea := {}
  /-- Given positions; if there are any, the area is not used. -/
  nodes : List Point := []

namespace Config

def nodeCount (c : Config) : Nat :=
  if c.nodes.isEmpty then c.placement.nodeCount else c.nodes.length

def duration (c : Config) : Time := (Time.ofSeconds? c.durationSecs).getD 0

def trafficStart (c : Config) : Time := (Time.ofSeconds? c.traffic.startSecs).getD 0

end Config

end SlotNet
