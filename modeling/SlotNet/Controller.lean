import SlotNet.ClaimTable
import SlotNet.Medium
import SlotNet.StatusMessage

/-!
# The slot controller

A frame has one control slot for each node and then the data slots. The controller knows which nodes
may send in which slot, and keeps every node's view of the claims on the data slots. At the first data
slot the claims of the current frame become those of the previous one.

A node *reserves* in its control slot: the slots that were chosen for it become its own claims, it
broadcasts its view, and it may send in the data slots that it claims in both generations. A node that
hears a status message *merges* it into its view; where another node claims a slot that it holds
itself, it gives way.
-/

namespace SlotNet

structure Controller where
  layout : FrameLayout
  nodeCount : Nat
  rules : ReservationRules
  started : Bool
  /-- Number of frames begun. -/
  frameIndex : Nat
  claims : ClaimTable
  /-- The nodes that may send in each slot of the frame. -/
  slotMap : List (List Nat)
  /-- The node of each control slot. -/
  controlOrder : List Nat
  /-- Slots chosen for the next reservation. -/
  chosen : List Nat
  /-- For each node what its choices earned since they were last asked for. -/
  rewards : List (List Float32)

namespace Controller

def firstFrameDelay : Time := 10

/-- The control slots belong to the nodes in their order. -/
def assignControlSlots (c : Controller) : Controller :=
  { c with slotMap := c.controlOrder.map ([·]) ++ c.slotMap.drop c.nodeCount }

/-- The bytes of a slot in the slot map, without the nodes themselves. -/
def slotBytes : Nat := 24

/-- The bytes of a reward. -/
def rewardBytes : Nat := 4

/-- The controller with so many slots in a frame and a table of claims, before the first frame. -/
def fresh (config : Config) (total : Nat) (claims : ClaimTable) : Controller :=
  assignControlSlots
    { layout := config.frame, nodeCount := config.nodeCount, rules := config.reservation
      started := false, frameIndex := 0, claims, slotMap := List.replicate total []
      controlOrder := List.range config.nodeCount, chosen := []
      rewards := List.replicate config.nodeCount
        (List.replicate config.reservation.maxSlotsPerAction 0.0) }

/-- The controller before the first frame. There must be room for its tables. -/
def ofConfig (config : Config) : Except Fault Controller := do
  let total ← Timing.totalSlots config.frame config.nodeCount
  let claims ← ClaimTable.new config.nodeCount config.frame.dataSlots
  Memory.allot total slotBytes
  Memory.allot config.reservation.maxSlotsPerAction rewardBytes
  return fresh config total claims

theorem ofConfig_eq_ok_iff {config : Config} {c : Controller} : ofConfig config = .ok c ↔
    ∃ total claims, Timing.totalSlots config.frame config.nodeCount = .ok total ∧
      ClaimTable.new config.nodeCount config.frame.dataSlots = .ok claims ∧
      total * slotBytes < Memory.limit ∧
      config.reservation.maxSlotsPerAction * rewardBytes < Memory.limit ∧
      c = fresh config total claims := by
  constructor
  · intro h
    obtain ⟨total, htotal, h⟩ := Fault.bind_eq_ok.1 h
    obtain ⟨claims, hclaims, h⟩ := Fault.bind_eq_ok.1 h
    obtain ⟨_, hslots, h⟩ := Fault.bind_eq_ok.1 h
    obtain ⟨_, hrewards, h⟩ := Fault.bind_eq_ok.1 h
    cases h
    exact ⟨total, claims, htotal, hclaims, Memory.allot_eq_ok_iff.1 hslots,
      Memory.allot_eq_ok_iff.1 hrewards, rfl⟩
  · rintro ⟨total, claims, htotal, hclaims, hslots, hrewards, rfl⟩
    exact Fault.bind_eq_ok.2 ⟨total, htotal, Fault.bind_eq_ok.2 ⟨claims, hclaims,
      Fault.bind_eq_ok.2 ⟨(), Memory.allot_eq_ok_iff.2 hslots,
        Fault.bind_eq_ok.2 ⟨(), Memory.allot_eq_ok_iff.2 hrewards, rfl⟩⟩⟩⟩

def frameDuration (c : Controller) : Except Fault Time := Timing.frameDuration c.layout c.nodeCount

/-! ## The course of a frame -/

/-- Schedules the first frame, once. Tells whether it did so. -/
def start (c : Controller) (events : EventQueue Event) :
    Except Fault (Bool × Controller × EventQueue Event) :=
  if c.started then .ok (false, c, events)
  else (events.schedule firstFrameDelay .startFrame).map fun (_, events) =>
    (true, { c with started := true }, events)

/-- Applies `f` to each run of `n + 1` members; the last run may be shorter. -/
def mapRuns {α : Type} (n : Nat) (f : List α → List α) : List α → List α
  | [] => []
  | x :: xs => f (x :: xs.take n) ++ mapRuns n f (xs.drop n)
termination_by xs => xs.length
decreasing_by simp only [List.length_drop, List.length_cons]; omega

/-- The next order of the control slots. The first one stays. Of the others each group of three turns
by one, each block of seven groups by one group, and the whole blocks by one block. -/
def rotateOrder : List Nat → List Nat
  | first :: second :: rest =>
    let groups := mapRuns 2 (·.rotateRight 1) (second :: rest)
    let blocks := mapRuns 20 (·.rotateRight 3) groups
    let whole := blocks.length / 21 * 21
    let turned :=
      if 21 < whole then (blocks.take whole).rotateRight 21 ++ blocks.drop whole else blocks
    first :: turned
  | order => order

/-- Deals the control slots anew. -/
def rotateControl (c : Controller) : Controller :=
  assignControlSlots { c with controlOrder := rotateOrder c.controlOrder }

/-- A frame begins: nobody may send in the data slots yet. -/
def beginFrame (c : Controller) : Controller :=
  let cleared := { c with
    slotMap := c.slotMap.take c.nodeCount ++ (c.slotMap.drop c.nodeCount).map fun _ => [] }
  let dealt := if c.layout.rotateControlSlots then cleared.rotateControl else cleared
  { dealt with frameIndex := c.frameIndex + 1 }

def totalSlots (c : Controller) : Nat := c.slotMap.length

/-- A slot begins. With the first data slot the claims move on by one frame. -/
def openSlot (c : Controller) (slot : Nat) : Controller :=
  if slot = c.nodeCount then { c with claims := c.claims.rotate } else c

def slotDuration (c : Controller) (slot : Nat) : Time :=
  Timing.slotDuration c.layout c.nodeCount slot

/-- The nodes that may send in a slot. -/
def entitled (c : Controller) (slot : Nat) : List Nat := c.slotMap.getD slot []

/-- What comes after a slot, and when: the next slot after the guard time, or the next frame after
the gap too. -/
def following (c : Controller) (slot : Nat) : Except Fault (Time × Event) := do
  let elapsed ← Time.add c.layout.guardTime (c.slotDuration slot)
  if slot + 1 = c.totalSlots then
    return (← Time.add elapsed c.layout.interFrameGap, .startFrame)
  else return (elapsed, .runSlot (slot + 1))

/-! ## Who may send -/

/-- Lets a node send in a slot for the rest of the frame. -/
def addSlot (c : Controller) (slot node : Nat) : Controller :=
  { c with slotMap := c.slotMap.modify slot fun nodes =>
      if nodes.contains node then nodes else nodes ++ [node] }

/-- Takes a slot from a node. -/
def deleteSlot (c : Controller) (slot node : Nat) : Controller :=
  { c with slotMap := c.slotMap.modify slot fun nodes => nodes.filter (· != node) }

/-! ## Reservation -/

/-- Chooses a data slot for the next reservation. -/
def choose (c : Controller) (slot : Nat) : Controller := { c with chosen := c.chosen ++ [slot] }

/-- The choices that count: data slots in ascending order, each once, and not too many. -/
def effective (dataSlots most : Nat) (chosen : List Nat) : List Nat :=
  (((chosen.filter (· < dataSlots)).mergeSort).eraseReps).take most

/-- Makes a chosen slot the node's own claim. If it was claimed already, the reward of the choice
falls. -/
def mark (node : Nat) (c : Controller) (choice : Nat × Nat) : Controller :=
  let (slot, place) := choice
  match c.claims.get .current node slot with
  | none => c
  | some existing =>
    let rewards :=
      if existing.isClaimed then
        c.rewards.modify node (·.modify place (· + c.rules.usedSlotPenalty))
      else c.rewards
    { c with claims := c.claims.set .current node slot (.own node), rewards }

/-- Makes all choices that count the node's own claims. -/
def markChosen (c : Controller) (node : Nat) : Controller :=
  let choices := effective c.layout.dataSlots c.rules.maxSlotsPerAction c.chosen
  choices.zipIdx.foldl (mark node) { c with chosen := [] }

/-- The data slots that a node claims in both rows, numbered from `slot` on. -/
def standing (node : Nat) : Nat → List Claim → List Claim → List Nat
  | slot, p :: previous, q :: current =>
    let later := standing node (slot + 1) previous current
    if p.isOwnedBy node && q.isOwnedBy node then slot :: later else later
  | _, _, _ => []

def statusFrame (node uid : Nat) (now : Time) (previous current : List Claim) : Frame :=
  { uid, kind := .reservation, transmitter := .ofNode node, receiver := .broadcast, source := node
    destination := node, createdAt := now
    payload := .bytes (StatusMessage.encode (previous.map (Claim.advertised node))
      (current.map (Claim.advertised node))) }

/-- A node reserves: its choices become claims, its view is broadcast, and it may send in the slots
that it claims in both generations. An unknown node only uses up the choices. -/
def reserve (c : Controller) (m : Medium) (node : Nat) :
    Except Fault (Controller × Medium × TransmitOutcome) := do
  let c := c.markChosen node
  match c.claims.row .previous node, c.claims.row .current node with
  | some previous, some current =>
    let (uid, m) := m.takeUid
    let frame := statusFrame node uid m.now previous current
    let stats ← m.stats.recordTransmission frame.size false
    let stats ← stats.recordReservation
    let (m, outcome) ← Medium.transmit { m with stats } node frame
    let c := (standing node 0 previous current).foldl (fun c s => c.addSlot (c.nodeCount + s) node) c
    return (c, m, outcome)
  | _, _ => return (c, m, ⟨0, 0⟩)

/-! ## Merging -/

/-- What to do about a claim that was heard. -/
inductive Verdict where
  | keep
  | adopt
  /-- Adopt it, and give up one's own claim. -/
  | yield
  deriving DecidableEq, Repr

/-- The verdict of an observer on a claim for a slot of which it holds a view. Free slots and claims
from far away are passed over. A claim of another node beats an observer's own; of the claims of
others the closer one is kept. -/
def verdict (threshold observer : Nat) (held : Claim) : Option Claim → Verdict
  | none => .keep
  | some heard =>
    if !heard.isClaimed || threshold ≤ heard.priority then .keep
    else if !held.isClaimed then .adopt
    else if held.owner == observer && heard.owner != observer then .yield
    else if held.owner != observer && heard.priority < held.priority then .adopt
    else .keep

def resolved (threshold observer : Nat) (held : Claim) (heard : Option Claim) : Claim :=
  match verdict threshold observer held heard, heard with
  | .keep, _ => held
  | _, some claim => claim
  | _, none => held

/-- The slots that an observer gives up, numbered from `slot` on. -/
def yielded (threshold observer : Nat) : Nat → List Claim → List (Option Claim) → List Nat
  | slot, held :: row, claim :: heard =>
    let later := yielded threshold observer (slot + 1) row heard
    if verdict threshold observer held claim = .yield then slot :: later else later
  | _, _, _ => []

/-- Merges the claims heard for one generation. Tells how many own claims were lost. -/
def mergeRow (c : Controller) (g : Generation) (observer : Nat) (heard : List (Option Claim)) :
    Nat × Controller :=
  match c.claims.row g observer with
  | none => (0, c)
  | some row =>
    let threshold := c.rules.priorityThreshold
    let lost := yielded threshold observer 0 row heard
    let row := List.zipWith (resolved threshold observer) row heard
    let c := { c with claims := c.claims.setRow g observer row }
    (lost.length, lost.foldl (fun c s => c.deleteSlot (c.nodeCount + s) observer) c)

/-- Merges a status message into the view of a node that heard it. Gives the number of own claims
that the node lost, or why the message could not be read. -/
def merge (c : Controller) (message : List UInt8) (observer : Nat) :
    Controller × Except StatusError Nat :=
  match StatusMessage.decode message c.layout.dataSlots with
  | .error e => (c, .error e)
  | .ok status =>
    let (before, c) := c.mergeRow .previous observer status.previous
    let (now, c) := c.mergeRow .current observer status.current
    (c, .ok (before + now))

/-! ## Views -/

/-- The current claims as a node sees them. -/
def usage (c : Controller) (node : Nat) : List Claim := (c.claims.row .current node).getD []

/-- What a node's choices earned; afterwards it is zero again. -/
def takeReward (c : Controller) (node : Nat) : List Float32 × Controller :=
  match c.rewards[node]? with
  | some rewards => (rewards, { c with rewards := c.rewards.set node (rewards.map fun _ => 0.0) })
  | none => (List.replicate c.rules.maxSlotsPerAction 0.0, c)

end Controller

end SlotNet
