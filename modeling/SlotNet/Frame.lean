import SlotNet.Time
import SlotNet.Address

/-!
# Frames

What goes over the air: a header and a payload. Application data is all zeros and is kept as its
size; other payloads are byte strings.
-/

namespace SlotNet

inductive Payload where
  /-- That many zero bytes. -/
  | blank (size : Nat)
  | bytes (content : List UInt8)
  deriving DecidableEq, Repr

namespace Payload

def size : Payload → Nat
  | .blank n => n
  | .bytes bs => bs.length

def toList : Payload → List UInt8
  | .blank n => List.replicate n 0
  | .bytes bs => bs

/-- Does the payload begin with a non-empty byte string that has no leading zero? -/
def startsWith (front : List UInt8) : Payload → Bool
  | .blank _ => false
  | .bytes bs => front.isPrefixOf bs

end Payload

/-- What a frame is for. -/
inductive FrameKind where
  /-- Application data. -/
  | data
  /-- A reservation status. -/
  | reservation
  /-- Control traffic of routing. -/
  | routing
  deriving DecidableEq, Repr

structure Frame where
  /-- The number of the frame within the run. -/
  uid : Nat
  kind : FrameKind
  /-- The station that sends it now. -/
  transmitter : Address
  /-- The next station, or all of them. -/
  receiver : Address
  /-- The node where the payload was made. -/
  source : Nat
  /-- The node for which it is meant. -/
  destination : Nat
  createdAt : Time
  payload : Payload
  deriving DecidableEq, Repr

namespace Frame

/-- Bytes of header and trailer around the payload. -/
def overhead : Nat := 28

/-- The size on air in bytes. -/
def size (f : Frame) : Nat := f.payload.size + overhead

def isData (f : Frame) : Bool := f.kind == .data

end Frame

end SlotNet
