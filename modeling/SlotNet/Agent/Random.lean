import SlotNet.Agent
import SlotNet.Binary
import SlotNet.Random.Sample
import SlotNet.Stats

/-!
# The random agent

It asks for as many free slots as the backlog of the node needs, drawn at random.
-/

namespace SlotNet

open SlotNet.Random (Stream)

structure RandomAgent where
  stream : Stream
  bytesPerSlot : Nat
  maxSlots : Nat

namespace RandomAgent

def new (seed : Nat) (bytesPerSlot maxSlots : Nat) : RandomAgent :=
  ⟨Stream.ofSeed seed.toUInt64, bytesPerSlot, maxSlots⟩

/-- The number of slots that a backlog needs. A slot is worth asking for once it would be filled by
three tenths. -/
def needed (a : RandomAgent) (queuedBytes : Nat) : Except Fault Nat :=
  if a.bytesPerSlot = 0 then .ok a.maxSlots
  else
    let slots := Stats.real queuedBytes / Stats.real a.bytesPerSlot - 0.3
    Count.add (Binary.truncate Count.greatest slots) 1

/-- The number of slots to ask for, of so many free ones. -/
def slotsWanted (a : RandomAgent) (queuedBytes free : Nat) : Except Fault Nat :=
  if queuedBytes = 0 then .ok 0
  else (a.needed queuedBytes).map fun n => min (min n free) a.maxSlots

/-- Cut or filled up to a length. -/
def resize (length : Nat) (action : Action) : Action :=
  action.take length ++ List.replicate (length - action.length) noSlot

/-- A slot number in 32 bits. -/
def slotCode (slot : Nat) : Int := (slot : Int).bmod 4294967296

/-- Chooses free slots, in ascending order. -/
def choose (step : Step) (a : RandomAgent) : Except Fault (RandomAgent × Action) := do
  let free := step.observation.freeSlots
  let count ← a.slotsWanted step.observation.queuedBytes free.length
  let (slots, stream) := a.stream.choose free count
  return ({ a with stream }, resize a.maxSlots ((slots.map slotCode).mergeSort))

/-- The random agent. It takes no more slots than an action holds. -/
def agent : Agent RandomAgent where
  begin spaces a :=
    .ok ({ a with maxSlots := (spaces.action.shape.head?.map (min a.maxSlots)).getD a.maxSlots }, .ok ())
  act step a := (choose step a).map fun (a, action) => (a, .ok action)
  finish _ a := .ok (a, .ok ())

end RandomAgent

end SlotNet
