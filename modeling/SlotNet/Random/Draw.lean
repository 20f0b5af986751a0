import SlotNet.Fault
import SlotNet.Random.Stream
import SlotNet.Random.Layer

/-!
# Draws from the stream

Uniform numbers between bounds are drawn by rejection: words are drawn until one falls where it
gives every result the same chance. Each draw is given `patience` attempts, which no stream uses up.
-/

namespace SlotNet.Random

/-- Attempts given to a draw by rejection. -/
def patience : Nat := 1000

/-! ## Doubles -/

/-- A double from zero up to one, in steps of `2 ^ (-53)`. -/
def Stream.unit (s : Stream) : Float × Stream :=
  let (w, s) := s.word64
  ((w >>> 11).toFloat * Float.ofBits 0x3ca0000000000000, s)

/-- A double from one up to two, from the high 52 bits of a word. -/
def oneToTwo (w : UInt64) : Float := Float.ofBits ((w >>> 12) ||| 0x3ff0000000000000)

/-- Draws a double from zero up to `bound` until it is below the bound. -/
def Stream.belowFloat (bound : Float) : Nat → Stream → Float × Stream
  | 0, s => (0.0, s)
  | fuel + 1, s =>
    let (w, s) := s.word64
    let x := (oneToTwo w - 1.0) * bound
    if x < bound then (x, s) else belowFloat bound fuel s

/-- A coordinate within an extent. Nothing is drawn for an extent that is not above zero, and an
infinite one is a fault. -/
def Stream.coordinate (extent : Float) (s : Stream) : Except Fault (Float × Stream) :=
  if extent > 0.0 then
    if extent.isFinite then .ok (s.belowFloat extent patience) else .error .unboundedRange
  else .ok (0.0, s)

/-! ## Whole numbers -/

/-- The high word of a 32-bit product, if its low word is within the zone of `count`. -/
def pick32 (count : UInt32) (w : UInt32) : Option Nat :=
  let zone := (count <<< (31 - count.log2)) - 1
  let product := w.toUInt64 * count.toUInt64
  if product.toUInt32 ≤ zone then some (product >>> 32).toNat else none

/-- Draws a number below `count`, which is above zero and fits 32 bits. -/
def Stream.below32 (count : UInt32) : Nat → Stream → Nat × Stream
  | 0, s => (0, s)
  | fuel + 1, s =>
    let (w, s) := s.word
    match pick32 count w with
    | some n => (n, s)
    | none => below32 count fuel s

/-- A number from `low` to `high`, which fit 32 bits. -/
def Stream.between (low high : Nat) (s : Stream) : Nat × Stream :=
  let (n, s) := s.below32 (high - low + 1).toUInt32 patience
  (low + n, s)

/-- The high word of a 64-bit product, if its low word is within the zone of `count`. -/
def pick64 (count : UInt64) (w : UInt64) : Option Nat :=
  let zone := (count <<< (63 - count.log2)) - 1
  let product := w.toNat * count.toNat
  if product.toUInt64 ≤ zone then some (product / Count.limit) else none

/-- Draws a number below `count`, which is above zero and fits 64 bits. -/
def Stream.below64 (count : UInt64) : Nat → Stream → Nat × Stream
  | 0, s => (0, s)
  | fuel + 1, s =>
    let (w, s) := s.word64
    match pick64 count w with
    | some n => (n, s)
    | none => below64 count fuel s

def Stream.index (count : Nat) (s : Stream) : Nat × Stream := s.below64 count.toUInt64 patience

/-! ## Exponential gaps -/

/-- Where the tail of the density begins. -/
def tailStart : Float := 7.69711747013104972

/-- An exponentially distributed double of mean one. A layer and a place in it are drawn. Inside the
part of the layer below the density the place is taken at once, in the tail it is drawn anew, and
at the edge of the layer it is taken with the chance that the density gives it. -/
def Stream.exponential : Nat → Stream → Float × Stream
  | 0, s => (0.0, s)
  | fuel + 1, s =>
    let (bits, s) := s.word64
    let i := (bits &&& 255).toNat
    let u := oneToTwo bits - Float.ofBits 0x3fefffffffffffff
    let x := u * Layer.edge i
    if x < Layer.edge (i + 1) then (x, s)
    else if i = 0 then
      let (u, s) := s.unit
      (tailStart - Float.log u, s)
    else
      let (u, s) := s.unit
      if Layer.density (i + 1) + (Layer.density i - Layer.density (i + 1)) * u < Float.exp (-x) then
        (x, s)
      else exponential fuel s

end SlotNet.Random
