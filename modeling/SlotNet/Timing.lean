import SlotNet.Config

/-!
# Timing on the radio

Travel and sending times, what fits into a slot, and how long a frame takes.
-/

namespace SlotNet.Timing

/-- The greatest number of nanoseconds that a single time on the radio has. -/
def longest : Nat := Count.greatest

/-- Nanoseconds that a signal takes for a metre. -/
def nanosPerMetre : Float := 3.3

def lightSpeed : Float := 300000000.0

/-- The travel time over a distance in metres, cut to whole nanoseconds. -/
def propagationDelay (metres : Float) : Time := Binary.truncate longest (nanosPerMetre * metres)

/-- The travel time of light over a range in metres, rounded to whole nanoseconds. -/
def guardForRange (metres : Float) : Time := Binary.round longest (metres * 1e9 / lightSpeed)

/-- The time on air of a number of bytes, rounded up to whole nanoseconds. -/
def airtime (bytes rate : Nat) : Time :=
  if rate = 0 then Time.greatest else min longest ((bytes * 8 * Time.second + rate - 1) / rate)

/-- Products of a time and a rate lie below `2 ^ 128`. -/
def productLimit : Nat := Count.limit * Count.limit

/-- The whole bytes that a slot carries. -/
def capacity (slot : Time) (rate : Nat) : Except Fault Nat :=
  if slot * rate < productLimit then .ok (slot * rate / Time.second / 8 % Count.limit)
  else .error .capacityOverflow

/-! ## Slots of a frame -/

/-- One control slot for each node and the data slots. -/
def totalSlots (layout : FrameLayout) (nodes : Nat) : Except Fault Nat :=
  Count.add nodes layout.dataSlots

/-- The control slots come first. -/
def isControlSlot (nodes slot : Nat) : Bool := slot < nodes

/-- The length of a slot without the guard time. -/
def slotDuration (layout : FrameLayout) (nodes slot : Nat) : Time :=
  if isControlSlot nodes slot then layout.controlSlotTime else layout.slotTime

/-- A number of slots as far as it is counted in the length of a frame: its low 32 bits. -/
def low32 (slots : Nat) : Nat := slots % 4294967296

/-- The length of a frame: all slots with their guard times, and the gap. -/
def frameDuration (layout : FrameLayout) (nodes : Nat) : Except Fault Time := do
  let control ← Time.add layout.controlSlotTime layout.guardTime
  let control ← Time.scale control (low32 nodes)
  let data ← Time.add layout.slotTime layout.guardTime
  let data ← Time.scale data (low32 layout.dataSlots)
  let slots ← Time.add control data
  Time.add slots layout.interFrameGap

end SlotNet.Timing
