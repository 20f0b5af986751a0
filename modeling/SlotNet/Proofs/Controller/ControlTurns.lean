import SlotNet.Proofs.AnyOrder

/-!
# Turning the control slots

The controller may deal its control slots anew at any time, not only when a frame begins. `Operates`
is one operation of the controller and `Operated` are the states that the operations lead to. `Dealt`
says that the control slots list every node once, and node 0 first; every operation keeps it.

`rotateControl?` turns the order of the control slots place by place and refuses whatever lies outside
a run or a map: it never has to (`rotateTimes?_eq`).
-/

namespace SlotNet.Controller

/-! ## Turning with every bound checked -/

/-- A run turned to the right by `k` places, of which it must have as many. -/
def turn? (k : Nat) (run : List Nat) : Option (List Nat) :=
  if k ≤ run.length then some (run.drop (run.length - k) ++ run.take (run.length - k)) else none

/-- A block turned by one group. An empty block has no remainder to turn by. -/
def turnBlock? (block : List Nat) : Option (List Nat) :=
  if block.length = 0 then none else turn? (3 % block.length) block

/-- Applies `f` to each run of `n + 1` members, unless it refuses one of them. -/
def mapRuns? (n : Nat) (f : List Nat → Option (List Nat)) : List Nat → Option (List Nat)
  | [] => some []
  | x :: xs => do return (← f (x :: xs.take n)) ++ (← mapRuns? n f (xs.drop n))
termination_by xs => xs.length
decreasing_by simp only [List.length_drop, List.length_cons]; omega

/-- Turns the first `span` members by one block; they must be there. -/
def turnSpan? (span : Nat) (order : List Nat) : Option (List Nat) :=
  if span ≤ order.length then (turn? 21 (order.take span)).map (· ++ order.drop span) else none

/-- The next order of the control slots, with the bounds checked. -/
def rotateOrder? : List Nat → Option (List Nat)
  | first :: second :: rest => do
    let groups ← mapRuns? 2 (turn? 1) (second :: rest)
    let blocks ← mapRuns? 20 turnBlock? groups
    let whole := blocks.length / 21 * 21
    let turned ← if 21 < whole then turnSpan? whole blocks else some blocks
    return first :: turned
  | order => some order

/-- Deals the first `n` control slots one by one. Each must be in the order and in the map. -/
def assign? (order : List Nat) (slotMap : List (List Nat)) : Nat → Option (List (List Nat))
  | 0 => some slotMap
  | n + 1 => do
    let dealt ← assign? order slotMap n
    let node ← order[n]?
    if n < dealt.length then some (dealt.set n [node]) else none

def rotateControl? (c : Controller) : Option Controller := do
  let controlOrder ← rotateOrder? c.controlOrder
  let slotMap ← assign? controlOrder c.slotMap c.nodeCount
  return { c with controlOrder, slotMap }

/-- Deals the control slots anew `n` times, with the bounds checked. -/
def rotateTimes? (c : Controller) : Nat → Option Controller
  | 0 => some c
  | n + 1 => (c.rotateTimes? n).bind rotateControl?

theorem turn?_eq {k : Nat} {run : List Nat} (h : k ≤ run.length) :
    turn? k run = some (run.rotateRight k) := by
  rw [turn?, if_pos h]
  unfold List.rotateRight
  dsimp only
  split
  next hone =>
    -- a run of at most one member is itself after any turn
    match run, hone with
    | [], _ => simp
    | [x], _ =>
      have : k = 0 ∨ k = 1 := by simp at h; omega
      rcases this with rfl | rfl <;> rfl
  next hmany =>
    rcases Nat.lt_or_eq_of_le h with hlt | rfl
    · rw [Nat.mod_eq_of_lt hlt]
    · simp

theorem turnBlock?_eq {block : List Nat} (h : block ≠ []) :
    turnBlock? block = some (block.rotateRight 3) := by
  have hlength : 0 < block.length := List.length_pos_iff.2 h
  rw [turnBlock?, if_neg (by omega), turn?_eq (Nat.mod_lt 3 hlength).le]
  congr 1
  unfold List.rotateRight
  simp only [Nat.mod_mod]

theorem mapRuns?_eq (n : Nat) {f : List Nat → Option (List Nat)} {g : List Nat → List Nat}
    (hf : ∀ run ≠ [], f run = some (g run)) (l : List Nat) : mapRuns? n f l = some (mapRuns n g l) := by
  fun_induction mapRuns n g l with
  | case1 => rw [mapRuns?]
  | case2 x xs ih =>
    rw [mapRuns?, hf _ (List.cons_ne_nil x _), ih]
    rfl

theorem rotateOrder?_eq (order : List Nat) : rotateOrder? order = some (rotateOrder order) := by
  match order with
  | [] => rfl
  | [_] => rfl
  | first :: second :: rest =>
    have hgroups := mapRuns?_eq 2 (f := turn? 1) (g := (·.rotateRight 1))
      (fun run hrun => turn?_eq (List.length_pos_iff.2 hrun)) (second :: rest)
    have hblocks := mapRuns?_eq 20 (fun _ => turnBlock?_eq) (mapRuns 2 (·.rotateRight 1) (second :: rest))
    simp only [rotateOrder?, rotateOrder, hgroups, hblocks, Option.bind_eq_bind, Option.bind_some]
    generalize mapRuns 20 _ _ = blocks
    split
    next hmore =>
      -- the whole blocks are part of the order, and there is more than one of them
      have hwhole : blocks.length / 21 * 21 ≤ blocks.length := Nat.div_mul_le_self _ _
      have hspan : 21 ≤ (blocks.take (blocks.length / 21 * 21)).length := by
        rw [List.length_take]
        omega
      rw [turnSpan?, if_pos hwhole, turn?_eq hspan]
      rfl
    next => rfl

theorem assign?_eq {order : List Nat} {slotMap : List (List Nat)} {n : Nat} (horder : n ≤ order.length)
    (hmap : n ≤ slotMap.length) :
    assign? order slotMap n = some ((order.take n).map ([·]) ++ slotMap.drop n) := by
  induction n with
  | zero => rfl
  | succ n ih =>
    have hlength : ((order.take n).map ([·])).length = n := by simp; omega
    rw [assign?, ih (by omega) (by omega), List.getElem?_eq_getElem (by omega)]
    simp only [Option.bind_eq_bind, Option.bind_some]
    rw [if_pos (by simp; omega), List.set_append_right _ _ (by omega), hlength, Nat.sub_self,
      List.drop_eq_getElem_cons (by omega), List.set_cons_zero, List.take_add_one,
      List.getElem?_eq_getElem (by omega), List.map_append, List.append_assoc]
    rfl

theorem rotateControl?_eq {c : Controller} (hc : c.Shaped) :
    c.rotateControl? = some c.rotateControl := by
  have hlength : (rotateOrder c.controlOrder).length = c.nodeCount := by
    rw [(rotateOrder_perm _).length_eq, hc.controlOrder]
  rw [rotateControl?, rotateOrder?_eq]
  simp only [Option.bind_eq_bind, Option.bind_some]
  rw [assign?_eq hlength.ge hc.le_length, List.take_of_length_le hlength.le]
  rfl

theorem Shaped.rotateTimes {c : Controller} (hc : c.Shaped) (n : Nat) :
    (Controller.rotateControl^[n] c).Shaped :=
  Function.Iterate.rec _ hc (fun _ => Shaped.rotateControl) n

theorem rotateTimes?_eq {c : Controller} (hc : c.Shaped) (n : Nat) :
    c.rotateTimes? n = some (Controller.rotateControl^[n] c) := by
  induction n with
  | zero => rfl
  | succ n ih =>
    rw [rotateTimes?, ih, Option.bind_some, rotateControl?_eq (hc.rotateTimes n),
      Function.iterate_succ_apply']

theorem rotateTimes_rest {c : Controller} (hc : c.Shaped) (n : Nat) :
    ∃ order slotMap, slotMap.drop c.nodeCount = c.slotMap.drop c.nodeCount ∧
      Controller.rotateControl^[n] c = { c with controlOrder := order, slotMap } := by
  induction n with
  | zero => exact ⟨_, _, rfl, rfl⟩
  | succ n ih =>
    obtain ⟨order, slotMap, hdrop, hturned⟩ := ih
    have hlast := drop_rotateControl (hc.rotateTimes n)
    rw [Function.iterate_succ_apply']
    rw [hturned] at hlast ⊢
    exact ⟨_, _, hlast.trans hdrop, rfl⟩

/-! ## The control slots of any state -/

/-- One operation of the controller, in whatever network and surroundings. A slot that is granted or
taken by itself is a data slot. -/
inductive Operates : Controller → Controller → Prop
  /-- The first frame is scheduled. -/
  | start {c c' : Controller} {events events' : EventQueue Event} {done : Bool}
    (h : c.start events = .ok (done, c', events')) : Operates c c'
  /-- A frame begins, and with it slot 0. -/
  | runFrame {n n' : Network} {grants : List Grant} (h : n.runFrame = .ok (n', grants)) :
    Operates n.controller n'.controller
  /-- Any slot begins, be it the next one or not. -/
  | runSlot {n n' : Network} {grants : List Grant} {slot : Nat}
    (h : n.runSlot slot = .ok (n', grants)) : Operates n.controller n'.controller
  | choose (c : Controller) (slot : Nat) : Operates c (c.choose slot)
  /-- Any node reserves, be it one of the network or not. -/
  | reserve {c c' : Controller} {m m' : Medium} {node : Nat} {o : TransmitOutcome}
    (h : c.reserve m node = .ok (c', m', o)) : Operates c c'
  | merge (c : Controller) (message : List UInt8) (observer : Nat) :
    Operates c (c.merge message observer).1
  | takeReward (c : Controller) (node : Nat) : Operates c (c.takeReward node).2
  | addSlot {c : Controller} {slot : Nat} (h : c.nodeCount ≤ slot) (node : Nat) :
    Operates c (c.addSlot slot node)
  | deleteSlot {c : Controller} {slot : Nat} (h : c.nodeCount ≤ slot) (node : Nat) :
    Operates c (c.deleteSlot slot node)
  /-- The control slots are dealt anew, whether or not the configuration asks for it. -/
  | rotateControl (c : Controller) : Operates c c.rotateControl

/-- The controllers that the operations lead to, in any order. -/
def Operated (config : Config) (c : Controller) : Prop :=
  ∃ first, ofConfig config = .ok first ∧ Relation.ReflTransGen Operates first c

/-- The order of the control slots has each of the nodes once and node 0 first, and the control slots
list the nodes in this order. -/
structure Dealt (c : Controller) (nodes : Nat) : Prop where
  nodeCount : c.nodeCount = nodes
  order : c.controlOrder.Perm (List.range nodes)
  first : 0 < nodes → c.controlOrder[0]? = some 0
  lists : c.slotMap.take nodes = c.controlOrder.map ([·])

variable {c c' : Controller} {nodes : Nat}

theorem Dealt.of_same (h : c.Dealt nodes) (hnodes : c'.nodeCount = c.nodeCount)
    (horder : c'.controlOrder = c.controlOrder)
    (hmap : c'.slotMap.take nodes = c.slotMap.take nodes) : c'.Dealt nodes := by
  refine ⟨hnodes.trans h.nodeCount, ?_, ?_, ?_⟩
  · rw [horder]
    exact h.order
  · rw [horder]
    exact h.first
  · rw [horder, hmap]
    exact h.lists

theorem Dealt.length (h : c.Dealt nodes) : c.controlOrder.length = nodes :=
  h.order.length_eq.trans List.length_range

theorem head_rotateOrder (order : List Nat) : (rotateOrder order)[0]? = order[0]? := by
  fun_cases rotateOrder order with
  | case1 => rfl
  | case2 => rfl

/-- A turn deals the control slots to the nodes of the new order, whatever they listed before. -/
theorem Dealt.rotateControl (h : c.Dealt nodes) : c.rotateControl.Dealt nodes := by
  have hperm := rotateOrder_perm c.controlOrder
  refine ⟨h.nodeCount, hperm.trans h.order, fun hnodes => ?_, ?_⟩
  · exact (head_rotateOrder _).trans (h.first hnodes)
  · refine List.take_left' ?_
    rw [List.length_map]
    exact hperm.length_eq.trans h.length

theorem Dealt.cleared (h : c.Dealt nodes) : c.cleared.Dealt nodes := by
  refine h.of_same rfl rfl ?_
  show (c.slotMap.take c.nodeCount ++ _).take nodes = c.slotMap.take nodes
  rw [h.nodeCount]
  refine List.take_left' ?_
  rw [h.lists, List.length_map, h.length]

theorem Dealt.beginFrame (h : c.Dealt nodes) : c.beginFrame.Dealt nodes := by
  rcases beginFrame_eq c with hbegun | hbegun <;> rw [hbegun]
  · exact h.cleared.of_same rfl rfl rfl
  · exact h.cleared.rotateControl.of_same rfl rfl rfl

theorem take_modify_of_le {α : Type} {l : List α} {n i : Nat} (h : n ≤ i) (f : α → α) :
    (l.modify i f).take n = l.take n := by
  refine List.ext_getElem? fun k => ?_
  rw [List.getElem?_take, List.getElem?_take]
  split
  · simp [show i ≠ k by omega]
  · rfl

theorem Dealt.addSlot (h : c.Dealt nodes) {slot : Nat} (hslot : c.nodeCount ≤ slot) (node : Nat) :
    (c.addSlot slot node).Dealt nodes :=
  h.of_same rfl rfl (take_modify_of_le (h.nodeCount ▸ hslot) _)

theorem Dealt.deleteSlot (h : c.Dealt nodes) {slot : Nat} (hslot : c.nodeCount ≤ slot) (node : Nat) :
    (c.deleteSlot slot node).Dealt nodes :=
  h.of_same rfl rfl (take_modify_of_le (h.nodeCount ▸ hslot) _)

theorem Dealt.grantSlots (h : c.Dealt nodes) (node : Nat) (slots : List Nat) :
    (c.grantSlots node slots).Dealt nodes := by
  induction slots generalizing c with
  | nil => exact h
  | cons s slots ih => exact ih (h.addSlot (Nat.le_add_right _ s) node)

theorem Dealt.withdrawSlots (h : c.Dealt nodes) (node : Nat) (slots : List Nat) :
    (c.withdrawSlots node slots).Dealt nodes := by
  induction slots generalizing c with
  | nil => exact h
  | cons s slots ih => exact ih (h.deleteSlot (Nat.le_add_right _ s) node)

theorem Dealt.reserved (h : c.Dealt nodes) (node : Nat) : (c.reserved node).Dealt nodes := by
  have hsame := sameFrame_markChosen c node
  refine Dealt.grantSlots (h.of_same hsame.nodeCount hsame.controlOrder ?_) node _
  rw [markChosen_eq, slotMap_markAll]

theorem Dealt.mergeRow (h : c.Dealt nodes) (g : Generation) (observer : Nat)
    (heard : List (Option Claim)) : (c.mergeRow g observer heard).2.Dealt nodes := by
  cases hr : c.claims.row g observer with
  | none =>
    rw [mergeRow_of_no_row hr]
    exact h
  | some row =>
    rw [mergeRow_of_row hr]
    have hrow : (c.withRow g observer
        (List.zipWith (resolved c.rules.priorityThreshold observer) row heard)).Dealt nodes :=
      h.of_same rfl rfl rfl
    exact hrow.withdrawSlots observer _

theorem Dealt.merge (h : c.Dealt nodes) (message : List UInt8) (observer : Nat) :
    (c.merge message observer).1.Dealt nodes := by
  cases hd : StatusMessage.decode message c.layout.dataSlots with
  | error e =>
    rw [merge_of_not_read hd]
    exact h
  | ok m =>
    rw [merge_of_decode hd]
    exact (h.mergeRow _ _ _).mergeRow _ _ _

theorem Dealt.openSlot (h : c.Dealt nodes) (slot : Nat) : (c.openSlot slot).Dealt nodes := by
  unfold Controller.openSlot
  split
  · exact h.of_same rfl rfl rfl
  · exact h

theorem Dealt.runSlot {n n' : Network} {grants : List Grant} {slot : Nat} (h : n.controller.Dealt nodes)
    (hrun : n.runSlot slot = .ok (n', grants)) : n'.controller.Dealt nodes := by
  rcases Network.controller_runSlot_cases hrun with hopened | ⟨-, hpast⟩
  · rw [hopened]
    exact h.openSlot slot
  · rw [hpast]
    exact h

theorem Dealt.start (h : c.Dealt nodes) {events events' : EventQueue Event} {done : Bool}
    (hstart : c.start events = .ok (done, c', events')) : c'.Dealt nodes := by
  obtain ⟨started, rfl⟩ := eq_of_start hstart
  exact h.of_same rfl rfl rfl

theorem Dealt.takeReward (h : c.Dealt nodes) (node : Nat) : (c.takeReward node).2.Dealt nodes := by
  obtain ⟨rewards, htaken⟩ := takeReward_eq c node
  rw [htaken]
  exact h.of_same rfl rfl rfl

theorem dealt_ofConfig {config : Config} (h : ofConfig config = .ok c) :
    c.Dealt config.nodeCount := by
  obtain ⟨total, claims, -, -, -, -, rfl⟩ := ofConfig_eq_ok_iff.1 h
  refine ⟨rfl, .refl _, fun hnodes => List.getElem?_range hnodes, List.take_left' ?_⟩
  rw [List.length_map]
  exact List.length_range

theorem Operates.dealt (hstep : Operates c c') (h : c.Dealt nodes) : c'.Dealt nodes := by
  cases hstep with
  | start hstart => exact h.start hstart
  | @runFrame n n' grants hrun =>
    have hbegun : Network.runSlot { n with controller := n.controller.beginFrame, medium := _ } 0
      = .ok (n', grants) := hrun
    exact Dealt.runSlot h.beginFrame hbegun
  | runSlot hrun => exact h.runSlot hrun
  | choose _ slot => exact h.of_same rfl rfl rfl
  | reserve hreserve =>
    rw [(reserve_ok hreserve).1]
    exact h.reserved _
  | merge _ message observer => exact h.merge message observer
  | takeReward _ node => exact h.takeReward node
  | addSlot hslot node => exact h.addSlot hslot node
  | deleteSlot hslot node => exact h.deleteSlot hslot node
  | rotateControl => exact h.rotateControl

theorem Operates.shaped (hstep : Operates c c') (h : c.Shaped) : c'.Shaped := by
  cases hstep with
  | start hstart => exact h.start hstart
  | runFrame hrun => exact h.runFrame hrun
  | runSlot hrun => exact h.runSlot hrun
  | choose _ slot => exact h.choose slot
  | reserve hreserve =>
    rw [(reserve_ok hreserve).1]
    exact h.reserved _
  | merge _ message observer => exact h.merge message observer
  | takeReward _ node => exact h.takeReward node
  | addSlot _ node => exact (sameFrame_addSlot c _ node).shaped h h.claims
  | deleteSlot _ node => exact (sameFrame_deleteSlot c _ node).shaped h h.claims
  | rotateControl => exact h.rotateControl

theorem Reachable.operated {config : Config} (h : Reachable config c) : Operated config c := by
  induction h with
  | new h => exact ⟨_, h, .refl⟩
  | start _ h ih => exact ih.imp fun _ => And.imp_right (·.tail (.start h))
  | runFrame _ h ih => exact ih.imp fun _ => And.imp_right (·.tail (.runFrame h))
  | runSlot _ h ih => exact ih.imp fun _ => And.imp_right (·.tail (.runSlot h))
  | choose _ slot ih => exact ih.imp fun _ => And.imp_right (·.tail (.choose _ slot))
  | reserve _ h ih => exact ih.imp fun _ => And.imp_right (·.tail (.reserve h))
  | merge _ message observer ih =>
    exact ih.imp fun _ => And.imp_right (·.tail (.merge _ message observer))
  | takeReward _ node ih => exact ih.imp fun _ => And.imp_right (·.tail (.takeReward _ node))

theorem Operated.shaped_dealt {config : Config} (h : Operated config c) :
    c.Shaped ∧ c.Dealt config.nodeCount := by
  obtain ⟨first, hfirst, hsteps⟩ := h
  induction hsteps with
  | refl => exact ⟨(ofConfig_ok hfirst).2.2.2.shaped, dealt_ofConfig hfirst⟩
  | tail _ hstep ih => exact ⟨hstep.shaped ih.1, hstep.dealt ih.2⟩

theorem Dealt.rotateTimes (h : c.Dealt nodes) (n : Nat) :
    (Controller.rotateControl^[n] c).Dealt nodes :=
  Function.Iterate.rec (Dealt · nodes) h (fun _ => Dealt.rotateControl) n

/-! ## What the control slots list -/

theorem Dealt.getElem?_slotMap (h : c.Dealt nodes) {slot : Nat} (hslot : slot < nodes) :
    ∃ node, c.controlOrder[slot]? = some node ∧ c.slotMap[slot]? = some [node] := by
  have hplace : slot < c.controlOrder.length := h.length.symm ▸ hslot
  refine ⟨c.controlOrder[slot], List.getElem?_eq_getElem hplace, ?_⟩
  rw [← List.getElem?_take_of_lt hslot, h.lists, List.getElem?_map,
    List.getElem?_eq_getElem hplace]
  rfl

/-- A node is in a control slot exactly where the order has it. -/
theorem Dealt.mem_entitled_iff (h : c.Dealt nodes) {slot node : Nat} (hslot : slot < nodes) :
    node ∈ c.entitled slot ↔ c.controlOrder[slot]? = some node := by
  obtain ⟨holder, horder, hmap⟩ := h.getElem?_slotMap hslot
  rw [entitled, List.getD_eq_getElem?_getD, hmap, horder, Option.getD_some, List.mem_singleton,
    Option.some_inj]
  exact eq_comm

theorem Dealt.existsUnique (h : c.Dealt nodes) {node : Nat} (hnode : node < nodes) :
    ∃! slot, slot < nodes ∧ node ∈ c.entitled slot := by
  have hmem : node ∈ c.controlOrder := h.order.mem_iff.2 (List.mem_range.2 hnode)
  have hnodup : c.controlOrder.Nodup := h.order.nodup_iff.2 List.nodup_range
  obtain ⟨slot, hplace, hslot⟩ := List.getElem_of_mem hmem
  have hlt : slot < nodes := h.length ▸ hplace
  have hfound : c.controlOrder[slot]? = some node := hslot ▸ List.getElem?_eq_getElem hplace
  refine ⟨slot, ⟨hlt, (h.mem_entitled_iff hlt).2 hfound⟩, fun other ⟨hother, hlists⟩ => ?_⟩
  have hagain := (h.mem_entitled_iff hother).1 hlists
  exact (List.getElem?_inj (h.length.symm ▸ hother) hnodup).1 (hagain.trans hfound.symm)

/-- What holds after the control slots were dealt anew, whatever the operations were before. -/
structure Turned (config : Config) (c c' : Controller) : Prop where
  order : c'.controlOrder.Perm (List.range config.nodeCount)
  first : 0 < config.nodeCount → c'.controlOrder[0]? = some 0
  /-- A control slot lists the node that the order has for it, and no other. -/
  lists : ∀ slot < config.nodeCount, ∃ node,
    c'.controlOrder[slot]? = some node ∧ c'.slotMap[slot]? = some [node]
  once : ∀ node < config.nodeCount, ∃! slot, slot < config.nodeCount ∧ node ∈ c'.entitled slot
  granted : ∀ slot node, c'.Granted slot node ↔ c.Granted slot node
  dataSlots : c'.slotMap.drop config.nodeCount = c.slotMap.drop config.nodeCount
  rest : c' = { c with controlOrder := c'.controlOrder, slotMap := c'.slotMap }

/-- In every state the control slots can be dealt anew any number of times. No place is looked up
outside a run or a map, each node keeps one control slot and node 0 the first one, and the data slots
stay as they are. -/
theorem control_slots_turned {config : Config} (h : Operated config c) (n : Nat) :
    ∃ c', c.rotateTimes? n = some c' ∧ Controller.rotateControl^[n] c = c' ∧ Turned config c c' := by
  obtain ⟨hshaped, hdealt⟩ := h.shaped_dealt
  have hturned := hdealt.rotateTimes n
  obtain ⟨order, slotMap, hdrop, hrest⟩ := rotateTimes_rest hshaped n
  refine ⟨_, rotateTimes?_eq hshaped n, rfl, hturned.order, hturned.first,
    fun _ => hturned.getElem?_slotMap, fun _ => hturned.existsUnique, fun slot node => ?_, ?_, ?_⟩
  · rw [granted_iff_drop, granted_iff_drop, hrest]
    show node ∈ (slotMap.drop c.nodeCount).getD slot [] ↔ _
    rw [hdrop]
  · rw [← hdealt.nodeCount, hrest]
    exact hdrop
  · rw [hrest]

/-- Besides node 0 there are two whole blocks of nodes and an incomplete one, which ends with an
incomplete group. -/
def lopsided : Config := { placement := { nodeCount := 48 } }

theorem control_slots_turned_lopsided : ∃ first c c', ofConfig lopsided = .ok first ∧
    c = (first.addSlot 50 7).rotateControl ∧ Operated lopsided c ∧ c.rotateTimes? 2 = some c' ∧
    Turned lopsided c c' ∧ c'.Granted 2 7 := by
  obtain ⟨first, hfirst⟩ : ∃ first, ofConfig lopsided = .ok first := ⟨_, rfl⟩
  have hnodes : first.nodeCount ≤ 50 := by
    cases hfirst
    decide +kernel
  have hoperated : Operated lopsided (first.addSlot 50 7).rotateControl :=
    ⟨first, hfirst, (Relation.ReflTransGen.single (.addSlot hnodes 7)).tail (.rotateControl _)⟩
  obtain ⟨c', hchecked, -, hturned⟩ := control_slots_turned hoperated 2
  refine ⟨first, _, c', hfirst, rfl, hoperated, hchecked, hturned, (hturned.granted 2 7).2 ?_⟩
  unfold Granted
  cases hfirst
  decide +kernel

end SlotNet.Controller
