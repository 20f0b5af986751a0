import SlotNet.Proofs.Acts
import SlotNet.Proofs.Config
import SlotNet.Proofs.Controller.Course

/-!
# Runs of the controller

A run of the controller in which the nodes exchange their status messages. Frames and slots follow
one another; before the first data slot nodes reserve, and the messages that they broadcast are handed
to neighbours of their senders. What was chosen in which frame is written down.

Nothing is said here about who reserves how often or which messages arrive: `run` takes a rule that
the acts have to obey, `anyhow` for no rule at all and `orderly` for the exchange in which every node
reserves once in each frame and every message reaches every neighbour once.
-/

namespace SlotNet

/-- A status message and the node that sent it. -/
structure Sent where
  sender : Nat
  message : List UInt8
  deriving DecidableEq, Repr

/-- A data slot that a node chose when it reserved in a frame. -/
structure Choice where
  frame : Nat
  node : Nat
  slot : Nat
  deriving DecidableEq, Repr

/-- The controller, and what its nodes tell each other in a frame. -/
structure Exchange where
  controller : Controller
  /-- The slot that runs; none before the first frame. -/
  slot : Option Nat
  /-- The status messages of the frame, as long as they may be handed on. -/
  sent : List Sent
  /-- Which of them, by its place, was handed to which node. -/
  handed : List (Nat × Nat)
  /-- All choices that counted so far. -/
  history : List Choice

namespace Exchange

/-- One act of a run. -/
inductive Act where
  /-- A frame begins, and its first slot. -/
  | beginFrame
  /-- The next slot of the frame begins. -/
  | openSlot
  /-- A slot is chosen for the next reservation. -/
  | choose (slot : Nat)
  /-- A node reserves. -/
  | reserve (m : Medium) (node : Nat)
  /-- A message, given by its place, is handed to a neighbour of its sender. -/
  | hand (place observer : Nat)

def start (c : Controller) : Exchange := ⟨c, none, [], [], []⟩

/-- Are the control slots of the frame running? -/
def inControl (s : Exchange) : Bool := s.slot.any (· < s.controller.nodeCount)

/-- Has the last slot of the frame begun, or has there been no frame yet? -/
def frameOver (s : Exchange) : Bool := s.slot.all (· + 1 == s.controller.totalSlots)

/-- The choices that count when a node reserves now. -/
def choicesOf (s : Exchange) (node : Nat) : List Choice :=
  s.controller.choices.map (⟨s.controller.frameIndex, node, ·⟩)

/-- The messages that a node broadcasts when it reserves now. -/
def messagesOf (s : Exchange) (node : Nat) : List Sent :=
  (s.controller.status node).toList.map (⟨node, ·⟩)

/-- The state after an act, if the act is possible. Messages are handed on only to neighbours of
their senders, and not after the first data slot has begun. -/
def step (adj : Nat → Nat → Bool) (s : Exchange) : Act → Option Exchange
  | .beginFrame =>
    if s.frameOver then some { s with controller := s.controller.beginFrame, slot := some 0 }
    else none
  | .openSlot =>
    match s.slot with
    | none => none
    | some k =>
      let next := { s with controller := s.controller.openSlot (k + 1), slot := some (k + 1) }
      if s.controller.totalSlots ≤ k + 1 then none
      else if k + 1 = s.controller.nodeCount then some { next with sent := [], handed := [] }
      else some next
  | .choose slot => some { s with controller := s.controller.choose slot }
  | .reserve m node =>
    match s.inControl, s.controller.reserve m node with
    | true, .ok (c, _, _) => some { s with
        controller := c
        sent := s.sent ++ s.messagesOf node
        history := s.history ++ s.choicesOf node }
    | _, _ => none
  | .hand place observer =>
    match s.inControl, s.sent[place]? with
    | true, some t =>
      if adj t.sender observer then some { s with
        controller := (s.controller.merge t.message observer).1
        handed := (place, observer) :: s.handed }
      else none
    | _, _ => none

/-- The state after an act that obeys a rule, if the act is possible. -/
def stepBy (adj : Nat → Nat → Bool) (rule : Exchange → Act → Bool) (s : Exchange) (a : Act) :
    Option Exchange :=
  if rule s a then s.step adj a else none

def run (adj : Nat → Nat → Bool) (rule : Exchange → Act → Bool) :
    List Act → Exchange → Option Exchange := Acts.run (stepBy adj rule)

/-- No rule: nodes reserve as often as they like, and messages may be lost or arrive twice. -/
def anyhow (_ : Exchange) (_ : Act) : Bool := true

/-- Has every node reserved, and was every message handed to every neighbour of its sender? -/
def complete (adj : Nat → Nat → Bool) (s : Exchange) : Bool :=
  (List.range s.controller.nodeCount).all (fun n => s.sent.any (·.sender == n)) &&
    s.sent.zipIdx.all fun (t, place) => (List.range s.controller.nodeCount).all fun n =>
      !adj t.sender n || s.handed.contains (place, n)

/-- The rule of the orderly exchange: a node reserves once in a frame, a message is handed to a node
once, and the data slots do not begin before the exchange is complete. -/
def orderly (adj : Nat → Nat → Bool) (s : Exchange) : Act → Bool
  | .reserve _ node =>
    decide (node < s.controller.nodeCount) && s.sent.all (·.sender != node)
  | .hand place observer => !s.handed.contains (place, observer)
  | .openSlot => !(s.slot.map (· + 1) == some s.controller.nodeCount) || s.complete adj
  | _ => true

variable {adj : Nat → Nat → Bool} {rule : Exchange → Act → Bool} {s s' : Exchange}

theorem stepBy_eq_some {a : Act} : s.stepBy adj rule a = some s' ↔
    rule s a = true ∧ s.step adj a = some s' := by
  simp [stepBy]

/-! ## The acts -/

theorem step_beginFrame (h : s.step adj .beginFrame = some s') :
    s.frameOver = true ∧
      s' = { s with controller := s.controller.beginFrame, slot := some 0 } := by
  rw [step] at h
  split at h
  · rename_i ho
    exact ⟨ho, by cases h; rfl⟩
  · cases h

theorem step_openSlot (h : s.step adj .openSlot = some s') :
    ∃ k, s.slot = some k ∧ k + 1 < s.controller.totalSlots ∧
      ((k + 1 = s.controller.nodeCount ∧ s' = { s with
          controller := s.controller.openSlot s.controller.nodeCount
          slot := some s.controller.nodeCount, sent := [], handed := [] }) ∨
        (k + 1 ≠ s.controller.nodeCount ∧ s' = { s with slot := some (k + 1) })) := by
  rw [step] at h
  cases hs : s.slot with
  | none => simp [hs] at h
  | some k =>
    simp only [hs] at h
    split at h
    · cases h
    · rename_i hlt
      refine ⟨k, rfl, by omega, ?_⟩
      split at h
      · rename_i hk
        cases h
        exact .inl ⟨hk, by rw [hk]⟩
      · rename_i hk
        cases h
        exact .inr ⟨hk, by rw [Controller.openSlot_of_ne hk]⟩

theorem step_reserve {m : Medium} {node : Nat} (h : s.step adj (.reserve m node) = some s') :
    s.inControl = true ∧ s' = { s with
      controller := s.controller.reserved node
      sent := s.sent ++ s.messagesOf node
      history := s.history ++ s.choicesOf node } := by
  rw [step] at h
  cases hc : s.inControl with
  | false => simp [hc] at h
  | true =>
    cases hr : s.controller.reserve m node with
    | error e => simp [hc, hr] at h
    | ok r =>
      obtain ⟨c, m', o⟩ := r
      simp only [hc, hr] at h
      cases h
      exact ⟨rfl, by rw [(Controller.reserve_ok hr).1]⟩

theorem step_hand {place observer : Nat} (h : s.step adj (.hand place observer) = some s') :
    s.inControl = true ∧ ∃ t, s.sent[place]? = some t ∧ adj t.sender observer = true ∧
      s' = { s with
        controller := (s.controller.merge t.message observer).1
        handed := (place, observer) :: s.handed } := by
  rw [step] at h
  cases hc : s.inControl with
  | false => simp [hc] at h
  | true =>
    cases ht : s.sent[place]? with
    | none => simp [hc, ht] at h
    | some t =>
      simp only [hc, ht] at h
      split at h
      · rename_i ha
        exact ⟨rfl, t, rfl, ha, by cases h; rfl⟩
      · cases h

theorem step_layout {a : Act} (h : s.step adj a = some s') :
    s'.controller.layout = s.controller.layout := by
  cases a with
  | beginFrame =>
    obtain ⟨-, rfl⟩ := step_beginFrame h
    exact (Controller.beginsFrom_beginFrame s.controller).layout
  | openSlot =>
    obtain ⟨k, -, -, ⟨-, rfl⟩ | ⟨-, rfl⟩⟩ := step_openSlot h
    · exact (Controller.sameFrame_openSlot s.controller _).layout
    · rfl
  | choose slot => cases h; rfl
  | reserve m node =>
    obtain ⟨-, rfl⟩ := step_reserve h
    exact (Controller.sameFrame_reserved s.controller node).layout
  | hand place observer =>
    obtain ⟨-, t, -, -, rfl⟩ := step_hand h
    exact (Controller.sameFrame_merge s.controller t.message observer).layout

/-! ## Four nodes in a row -/

/-- The first controller of four nodes with one data slot. -/
def fourNodes : Controller where
  layout := { dataSlots := 1 }
  nodeCount := 4
  rules := {}
  started := false
  frameIndex := 0
  claims := ⟨List.replicate 4 [.free], List.replicate 4 [.free]⟩
  slotMap := [[0], [1], [2], [3], []]
  controlOrder := [0, 1, 2, 3]
  chosen := []
  rewards := List.replicate 4 (List.replicate 3 0.0)

theorem ofConfig_row : Controller.ofConfig Config.row = .ok fourNodes := rfl

def silence : Medium where
  events := .empty
  channel := .new 250.0
  positions := []
  routes := ⟨[]⟩
  stats := {}
  nextUid := 0
  dataRate := 1

/-- Are the nodes next to each other in the row? -/
def nextTo (a b : Nat) : Bool := a + 1 == b || b + 1 == a

end Exchange

end SlotNet
