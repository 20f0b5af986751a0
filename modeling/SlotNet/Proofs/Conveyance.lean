import SlotNet.Proofs.Cadence
import SlotNet.Proofs.Flight
import SlotNet.Proofs.Relay
import SlotNet.Proofs.Sending

/-!
# The network relays packets

The stations and what they share are a relay (`Network.relay`): packets wait in the data queues, and
pending deliveries carry them over the hops. Whatever the network does about an event are steps of that
relay (`handle_relays`).
-/

namespace SlotNet

/-! ## Stations -/

/-- Has a packet come to the station? It is delivered, or it waits for its next hop unless there is no
room for it. -/
def Received.isTaken : Received → Bool
  | .delivered | .forwarded | .dropped => true
  | .ignored | .status _ | .control => false

namespace Station

/-- The packets that wait, those first that came first. -/
def waiting (s : Station) : List Packet := s.queue.data.map (·.frame.packet)

variable {node : Nat} {s s' : Station} {m m' : Medium} {frame : Frame}

theorem enqueue_waiting (hf : frame.Plain) {result : Except EnqueueError QueueKind}
    (h : s.enqueue m frame = .ok (s', m', result)) :
    s'.waiting.Sublist (s.waiting ++ [frame.packet]) ∧ ∃ stats, m' = { m with stats } := by
  obtain ⟨⟨queue, drops, result'⟩, h1, h⟩ := Fault.bind_eq_ok.1 h
  obtain ⟨stats, -, h⟩ := Fault.bind_eq_ok.1 h
  cases h
  have hlast := TransmitQueue.enqueue_last h1 .data
  rw [hf.ofFrame, if_pos rfl] at hlast
  refine ⟨?_, stats, rfl⟩
  have hmap := hlast.map (·.frame.packet)
  rwa [List.map_append] at hmap

theorem send_waiting {destination size : Nat} {result : Except EnqueueError QueueKind}
    (h : s.send m destination size = .ok (s', m', result)) :
    s'.waiting.Sublist (s.waiting ++ [s.made m destination size]) ∧
      ∃ stats, m' = { m.takeUid.2 with stats } :=
  enqueue_waiting ⟨rfl, size, rfl⟩ h

/-- A station keeps a frame only if it is data and meant for it. At its destination the packet is
delivered, elsewhere it comes last in the queue. -/
theorem receive_cases (hs : s.Fit node) (hf : frame.Sane) {what : Received}
    (h : s.receive m frame = .ok (s', m', what)) : (∃ stats, m' = { m with stats }) ∧
      ((what.isTaken = false ∧ s'.waiting = s.waiting) ∨
        (what.isTaken = true ∧ frame.kind = .data ∧ frame.receiver = Address.ofNode node ∧
          ((what = .delivered ∧ frame.destination = node ∧ s'.waiting = s.waiting) ∨
            (what ≠ .delivered ∧ frame.destination ≠ node ∧
              s'.waiting.Sublist (s.waiting ++ [frame.packet]))))) := by
  unfold receive at h
  rw [hs.address_eq, hs.node_eq] at h
  split at h
  · cases h
    exact ⟨⟨_, rfl⟩, .inl ⟨rfl, rfl⟩⟩
  rename_i hmine
  split at h
  · cases h
    exact ⟨⟨_, rfl⟩, .inl ⟨rfl, rfl⟩⟩
  split at h
  · cases h
    exact ⟨⟨_, rfl⟩, .inl ⟨rfl, rfl⟩⟩
  rename_i hcontrol
  obtain ⟨hdata, hbroadcast⟩ := not_or.1 hcontrol
  have hkind : frame.kind = .data := by simpa [Frame.isData] using hdata
  have hreceiver : frame.receiver = Address.ofNode node := by
    by_contra hne
    exact hmine ⟨hne, hbroadcast⟩
  obtain ⟨stats, -, h⟩ := Fault.bind_eq_ok.1 h
  split at h
  · rename_i hdestination
    obtain ⟨stats', -, h⟩ := Fault.bind_eq_ok.1 h
    cases h
    exact ⟨⟨stats', rfl⟩, .inr ⟨rfl, hkind, hreceiver, .inl ⟨rfl, hdestination, rfl⟩⟩⟩
  · rename_i hdestination
    obtain ⟨⟨s₁, m₁, result⟩, h1, h⟩ := Fault.bind_eq_ok.1 h
    obtain ⟨hlast, stats', rfl⟩ := enqueue_waiting (hf hkind) h1
    have hne : what ≠ .delivered := by
      rintro rfl
      cases result <;> cases h
    cases result <;> cases h <;> exact ⟨⟨stats', rfl⟩, .inr ⟨rfl, hkind, hreceiver, .inr
      ⟨hne, hdestination, hlast⟩⟩⟩

end Station

/-! ## The network -/

namespace Network

open Relay (Run Step Loses Gives Gets)

def waiting (n : Network) (node : Nat) : List Packet := (n.stations[node]?).elim [] Station.waiting

/-- The relay that a network is, when these packets were made and delivered. -/
def relay (n : Network) (made delivered : List Packet) : Relay :=
  ⟨made, n.waiting, n.medium.flying, delivered⟩

/-- Every node has its station, hops go to nodes, and what flies lands before what is sent now. -/
structure Ready (nodes : Nat) (n : Network) : Prop where
  few : nodes + 1 < Address.limit
  length : n.stations.length = nodes
  manned : n.Manned
  hops : ∀ node destination hop, n.medium.routes.nextHop node destination = some hop → hop < nodes
  prompt : n.medium.Prompt nodes

/-- Packets set off or are lost. None comes to wait anywhere. -/
structure Departs (n n' : Network) : Prop where
  waiting : ∀ x, ∀ p ∈ n'.waiting x, p ∈ n.waiting x
  flying : ∀ x y, ∀ p ∈ n'.medium.flying (x, y), p ∈ n.medium.flying (x, y) ∨ p ∈ n.waiting x

/-- Packets go on. None is made, and none is delivered. -/
structure Carries (nodes : Nat) (n n' : Network) : Prop where
  ready : n'.Ready nodes
  routes : n'.medium.routes = n.medium.routes
  run : ∀ made delivered,
    Run n.medium.routes (n.relay made delivered) (n'.relay made delivered)
  departs : n.Departs n'

variable {nodes node : Nat} {n n' n'' : Network}

theorem Departs.refl (n : Network) : n.Departs n := ⟨fun _ _ h => h, fun _ _ _ h => .inl h⟩

theorem Departs.trans (h : n.Departs n') (h' : n'.Departs n'') : n.Departs n'' where
  waiting x p hp := h.waiting x p (h'.waiting x p hp)
  flying x y p hp := by
    rcases h'.flying x y p hp with hp | hp
    · exact h.flying x y p hp
    · exact .inr (h.waiting x p hp)

theorem Departs.ofLoses (hw : Loses n.waiting n'.waiting)
    (hf : Loses n.medium.flying n'.medium.flying) : n.Departs n' :=
  ⟨fun x _ hp => (hw x).subset hp, fun x y _ hp => .inl ((hf (x, y)).subset hp)⟩

theorem Departs.ofSend {x y : Nat} {p : Packet} (hw : Gives x p n.waiting n'.waiting)
    (hf : Gets (x, y) p n.medium.flying n'.medium.flying) : n.Departs n' := by
  refine ⟨fun u q hq => (hw.loses u).subset hq, fun u v q hq => ?_⟩
  rcases hf.mem hq with hq | ⟨he, rfl⟩
  · exact .inl hq
  · cases he
    exact .inr hw.mem

theorem Carries.refl (hn : n.Ready nodes) : Carries nodes n n :=
  ⟨hn, rfl, fun _ _ => .refl, .refl n⟩

theorem Carries.trans (h : Carries nodes n n') (h' : Carries nodes n' n'') : Carries nodes n n'' where
  ready := h'.ready
  routes := h'.routes.trans h.routes
  run made delivered := by
    have hrest := h'.run made delivered
    rw [h.routes] at hrest
    exact (h.run made delivered).trans hrest
  departs := h.departs.trans h'.departs

theorem Carries.ofSame (hn : n.Ready nodes) (hs : n'.stations = n.stations)
    (hp : n'.medium.Prompt nodes) (hr : n'.medium.routes = n.medium.routes)
    (hf : ∀ hop, (n'.medium.flying hop).Sublist (n.medium.flying hop)) : Carries nodes n n' := by
  have hwaiting : n'.waiting = n.waiting := by
    funext k
    rw [waiting, waiting, hs]
  have hloses : Loses n.waiting n'.waiting := fun k => by rw [hwaiting]
  exact ⟨⟨hn.few, hs ▸ hn.length, fun k s hk => hn.manned k s (hs ▸ hk), hr ▸ hn.hops, hp⟩, hr,
    fun made delivered => .single (.lose hloses hf rfl rfl), .ofLoses hloses hf⟩

theorem Carries.schedule (hn : n.Ready nodes) {m : Medium} {event : Event}
    (he : event.isDelivery = false) {delay : Time} (h : n.medium.schedule delay event = .ok m) :
    Carries nodes n { n with medium := m } := by
  obtain ⟨hprompt, hflying⟩ := hn.prompt.schedule he h
  exact .ofSame hn rfl hprompt (Medium.sent_schedule h).routes fun hop => (hflying hop) ▸ .refl _

section Set

variable {s s' : Station}

theorem waiting_eq (hs : n.stations[node]? = some s) : n.waiting node = s.waiting := by
  rw [waiting, hs]
  rfl

theorem waiting_set (hs : n.stations[node]? = some s)
    (hset : n'.stations = n.stations.set node s') (k : Nat) :
    n'.waiting k = if k = node then s'.waiting else n.waiting k := by
  rw [waiting, hset]
  split
  · rename_i hk
    rw [hk, List.getElem?_set_self (List.getElem?_eq_some_iff.1 hs).1]
    rfl
  · rename_i hk
    rw [List.getElem?_set_ne (Ne.symm hk)]
    rfl

theorem Ready.set (hn : n.Ready nodes) (hset : n'.stations = n.stations.set node s')
    (hs' : s'.Fit node) (hp : n'.medium.Prompt nodes) (hr : n'.medium.routes = n.medium.routes) :
    n'.Ready nodes := by
  refine ⟨hn.few, ?_, fun k t ht => ?_, hr ▸ hn.hops, hp⟩
  · rw [hset, List.length_set]
    exact hn.length
  · rw [hset] at ht
    exact Station.fit_of_set hn.manned hs' k t ht

theorem Ready.lt (hn : n.Ready nodes) (hs : n.stations[node]? = some s) : node < nodes :=
  hn.length ▸ (List.getElem?_eq_some_iff.1 hs).1

theorem loses_set (hs : n.stations[node]? = some s) (hset : n'.stations = n.stations.set node s')
    (h : s'.waiting.Sublist s.waiting) : Loses n.waiting n'.waiting := by
  intro k
  rw [waiting_set hs hset]
  split
  · rename_i hk
    rw [hk, waiting_eq hs]
    exact h
  · exact .refl _

theorem gives_set (hs : n.stations[node]? = some s) (hset : n'.stations = n.stations.set node s')
    {p : Packet} (h : (p :: s'.waiting).Sublist s.waiting) : Gives node p n.waiting n'.waiting := by
  refine ⟨?_, fun k hk => ?_⟩
  · rw [waiting_set hs hset, if_pos rfl, waiting_eq hs]
    exact h
  · rw [waiting_set hs hset, if_neg hk]

theorem gets_set (hs : n.stations[node]? = some s) (hset : n'.stations = n.stations.set node s')
    {p : Packet} (h : s'.waiting.Sublist (s.waiting ++ [p])) : Gets node p n.waiting n'.waiting := by
  refine ⟨?_, fun k hk => ?_⟩
  · rw [waiting_set hs hset, if_pos rfl, waiting_eq hs]
    exact h
  · rw [waiting_set hs hset, if_neg hk]

end Set

/-! ## Slots -/

/-- A data frame flies over the hop from its sender to its receiver, and over no other one. -/
theorem gets_of_cargo {node hop : Nat} {frame : Frame} {flying flying' : Nat × Nat → List Packet}
    (hkind : frame.kind = .data) (hfrom : frame.transmitter.node = node)
    (hto : frame.receiver.node = hop)
    (hflying : ∀ other, (flying' other).Sublist
      (flying other ++ ((Event.deliver other.2 frame).cargo other).toList)) :
    Gets (node, hop) frame.packet flying flying' := by
  refine ⟨?last, fun other hother => ?others⟩
  case last =>
    have hcargo : (Event.deliver hop frame).cargo (node, hop) = some frame.packet :=
      Event.cargo_eq_some.2 ⟨_, rfl, hkind, hto, hfrom, rfl⟩
    have hlast := hflying (node, hop)
    rwa [hcargo] at hlast
  case others =>
    have hcargo : (Event.deliver other.2 frame).cargo other = none :=
      if_neg fun hd => hother (by rw [← hd.2.2, ← hd.2.1, hfrom, hto])
    have hnone := hflying other
    rwa [hcargo, Option.toList_none, List.append_nil] at hnone

/-- A station drops packets, or its oldest one sets off for its next hop. -/
theorem carries_of_uses (hn : n.Ready nodes) {s s' : Station} {m : Medium} {sent : Option Frame}
    {slotEnd : Time} {control : Bool} (hs : n.stations[node]? = some s) (hs' : s'.Fit node)
    (h : s.Uses n.medium slotEnd control s' m sent) : Carries nodes n { n with
      stations := n.stations.set node s'
      medium := m } := by
  have hfit := hn.manned node s hs
  have hroutes := h.sent.routes
  cases sent with
  | none =>
    have hmedium := h.medium
    have hprompt := hn.prompt.setStats m.stats
    rw [← hmedium] at hprompt
    have hloses : Loses n.waiting { n with
        stations := n.stations.set node s'
        medium := m }.waiting := loses_set hs rfl ((h.queue.items .data).map _)
    have hflying : Loses n.medium.flying m.flying := fun hop => by
      rw [hmedium]
      exact .refl _
    exact ⟨hn.set rfl hs' hprompt hroutes, hroutes, fun made delivered => .single
      (.lose hloses hflying rfl rfl), .ofLoses hloses hflying⟩
  | some frame =>
    obtain ⟨item, receiver, -, hairs⟩ := h
    have hkind : QueueKind.ofSlot control = .data := by
      cases control with
      | false => rfl
      | true =>
        have hitem : item ∈ s.queue.control := hairs.taken.subset (.head _)
        rw [hfit.queue.control] at hitem
        cases hitem
    rw [hkind] at hairs
    obtain ⟨hop, hnext, rfl⟩ := Option.map_eq_some_iff.1 hairs.address
    rw [hfit.node_eq] at hnext
    obtain ⟨stats, m₁, o, -, hsend, hschedule⟩ := hairs.does
    rw [hfit.node_eq] at hsend
    have hplain := hfit.queue.data item (hairs.taken.subset (.head _))
    have hnode := hn.lt hs
    have hhop := hn.hops _ _ _ hnext
    have hfew := hn.few
    have hfrom : (s.aired item (Address.ofNode hop)).transmitter.node = node := by
      rw [Station.aired, hfit.address_eq, Address.node_ofNode (by omega)]
    have hto : (s.aired item (Address.ofNode hop)).receiver.node = hop :=
      Address.node_ofNode (by omega)
    have hprompt := hn.prompt.setStats stats
    obtain ⟨hprompt₁, hflying₁⟩ := hprompt.transmit (fun _ => hfrom) hsend
    obtain ⟨hprompt', hflying'⟩ := hprompt₁.schedule rfl hschedule
    have hgets : Gets (node, hop) (s.aired item (Address.ofNode hop)).packet n.medium.flying m.flying :=
      gets_of_cargo hplain.data hfrom hto fun other => by
        rw [hflying']
        exact hflying₁ other
    have htaken : (item.frame.packet :: s'.waiting).Sublist s.waiting :=
      hairs.taken.map fun queued : QueueItem => queued.frame.packet
    have hgives : Gives node item.frame.packet n.waiting { n with
        stations := n.stations.set node s'
        medium := m }.waiting := gives_set hs rfl htaken
    exact ⟨hn.set rfl hs' hprompt' hroutes, hroutes, fun made delivered => .single
      (.send hnext hgives hgets rfl rfl), .ofSend hgives hgets⟩

theorem grant_carries (hn : n.Ready nodes) {duration : Time} {control : Bool} {grants : List Grant}
    (h : n.grant node duration control = .ok (n', grants)) : Carries nodes n n' := by
  obtain ⟨⟨n₁, sent⟩, h1, h⟩ := Fault.bind_eq_ok.1 h
  cases h
  rcases onStation_cases h1 with ⟨rfl, -, -⟩ | ⟨s, s', m, r, hs, ha, -, rfl⟩
  · exact .refl hn
  · exact carries_of_uses hn hs
      (Station.startSlot_does (hn.manned node s hs) hn.prompt.ordered ha).1
      (Station.startSlot_spec ha)

theorem grantAll_carries (hn : n.Ready nodes) {duration : Time} {control : Bool} {members : List Nat}
    {grants : List Grant} (h : n.grantAll duration control members = .ok (n', grants)) :
    Carries nodes n n' := by
  induction members generalizing n grants with
  | nil =>
    cases h
    exact .refl hn
  | cons node members ih =>
    obtain ⟨⟨n₁, first⟩, h1, h⟩ := Fault.bind_eq_ok.1 h
    obtain ⟨⟨n₂, more⟩, h2, h⟩ := Fault.bind_eq_ok.1 h
    cases h
    have hfirst := grant_carries hn h1
    exact hfirst.trans (ih hfirst.ready h2)

theorem runSlot_carries (hn : n.Ready nodes) {slot : Nat} {grants : List Grant}
    (h : n.runSlot slot = .ok (n', grants)) : Carries nodes n n' := by
  rcases runSlot_cases h with ⟨-, rfl, -⟩ | ⟨n₁, delay, next, m, -, h1, h2, h3, rfl⟩
  · exact .refl hn
  · have hopen : Carries nodes n { n with controller := n.controller.openSlot slot } :=
      .ofSame hn rfl hn.prompt rfl fun _ => .refl _
    have hgrants := hopen.trans (grantAll_carries hopen.ready h1)
    exact hgrants.trans (.schedule hgrants.ready (Controller.not_delivery_of_following h2) h3)

theorem runFrame_carries (hn : n.Ready nodes) {grants : List Grant}
    (h : n.runFrame = .ok (n', grants)) : Carries nodes n n' := by
  have hbegin : Carries nodes n { n with
      controller := n.controller.beginFrame
      medium := { n.medium with stats := { n.medium.stats with
        framesCompleted := n.controller.beginFrame.frameIndex - 1 } } } :=
    .ofSame hn rfl (hn.prompt.setStats _) rfl fun _ => .refl _
  exact hbegin.trans (runSlot_carries hbegin.ready h)

theorem continueSlot_carries (hn : n.Ready nodes) {slotEnd : Time} {control : Bool}
    {handled : Handled} (h : n.continueSlot node slotEnd control = .ok (n', handled)) :
    Carries nodes n n' := by
  rcases continueSlot_cases h with ⟨rfl, -⟩ | ⟨s, s', m, sent, hs, ha, -, rfl⟩
  · exact .refl hn
  · exact carries_of_uses hn hs
      (Station.continueSlot_does (hn.manned node s hs) hn.prompt.ordered ha).1
      (Station.continueSlot_spec ha)

/-! ## Events -/

/-- What the network does about an event, seen as a relay. A packet that comes with the event still flies
before. -/
structure Relays (nodes : Nat) (n : Network) (event : Event) (handled : Handled) (n' : Network) :
    Prop where
  ready : n'.Ready nodes
  routes : n'.medium.routes = n.medium.routes
  made : ∀ p ∈ n.made event handled, p.uid < n'.medium.nextUid ∧ p.createdAt = n.now
  destination : ∀ q ∈ delivered event handled, q.1 = q.2.destination
  run : ∀ b : Relay, b.waiting = n.waiting →
    (∀ hop, b.flying hop = (event.cargo hop).toList ++ n.medium.flying hop) →
    (∀ q ∈ b.made, q.uid < n.medium.nextUid ∧ q.createdAt ≤ n.now) →
    Run n.medium.routes b (n'.relay (b.made ++ n.made event handled)
      (b.delivered ++ (delivered event handled).map Prod.snd))

variable {event : Event} {handled : Handled}

theorem Carries.relays (h : Carries nodes n n') (hcargo : ∀ hop, event.cargo hop = none)
    (hmade : n.made event handled = []) (hdelivered : delivered event handled = []) :
    Relays nodes n event handled n' where
  ready := h.ready
  routes := h.routes
  made := by
    rw [hmade]
    exact nofun
  destination := by
    rw [hdelivered]
    exact nofun
  run b hw hf _ := by
    have hb : b = n.relay b.made b.delivered := by
      obtain ⟨made, waiting, flying, delivered⟩ := b
      obtain rfl : waiting = n.waiting := hw
      obtain rfl : flying = n.medium.flying := funext fun hop => by
        have hhop := hf hop
        rwa [hcargo, Option.toList_none, List.nil_append] at hhop
      rfl
    rw [hmade, hdelivered, List.map_nil, List.append_nil, List.append_nil]
    have hrun := h.run b.made b.delivered
    rwa [← hb] at hrun

theorem receive_relays (hn : n.Ready nodes) {s s' : Station} {m : Medium} {frame : Frame}
    (hs : n.stations[node]? = some s) (hf : frame.Sane) {what : Received}
    (h : s.receive n.medium frame = .ok (s', m, what)) :
    Relays nodes n (.deliver node frame) (.received what) { n with
      stations := n.stations.set node s'
      medium := m } := by
  have hfit := hn.manned node s hs
  have hnode := hn.lt hs
  have hfew := hn.few
  have hs' := (Station.receive_quiet hfit hf h).1
  obtain ⟨⟨stats, rfl⟩, hcases⟩ := Station.receive_cases hfit hf h
  have hnone : what ≠ .delivered → delivered (.deliver node frame) (.received what) = [] := by
    intro hwhat
    cases what <;> first | rfl | exact absurd rfl hwhat
  have hgives : frame.kind = .data → frame.receiver = Address.ofNode node → ∀ b : Relay,
      (∀ hop, b.flying hop = ((Event.deliver node frame).cargo hop).toList ++ n.medium.flying hop) →
      Gives (frame.transmitter.node, node) frame.packet b.flying n.medium.flying := by
    intro hdata hreceiver b hb
    have hmine : frame.receiver.node = node := by
      rw [hreceiver, Address.node_ofNode (by omega)]
    refine ⟨?_, fun hop hne => ?_⟩
    · rw [hb, Event.cargo_eq_some.2 ⟨frame, rfl, hdata, hmine, rfl, rfl⟩]
      exact .refl _
    · rw [hb]
      exact List.sublist_append_right ..
  have hleft : what.isTaken = false → what ≠ .delivered := by
    rintro htaken rfl
    cases htaken
  refine ⟨hn.set rfl hs' (hn.prompt.setStats stats) rfl, rfl, nofun, fun q hq => ?_,
    fun b hw hb _ => .single ?_⟩
  · rcases hcases with ⟨hwhat, -⟩ | ⟨-, -, -, ⟨rfl, hdestination, -⟩ | ⟨hwhat, -⟩⟩
    · rw [hnone (hleft hwhat)] at hq
      cases hq
    · obtain rfl := List.mem_singleton.1 hq
      exact hdestination.symm
    · rw [hnone hwhat] at hq
      cases hq
  · rcases hcases with ⟨hwhat, hsame⟩ | ⟨-, hdata, hreceiver, ⟨rfl, hdestination, hsame⟩ |
      ⟨hwhat, hdestination, hlast⟩⟩
    · rw [hnone (hleft hwhat)]
      refine .lose (hw ▸ loses_set hs rfl (hsame ▸ .refl _)) (fun hop => ?_) (List.append_nil _)
        (List.append_nil _)
      rw [hb]
      exact List.sublist_append_right ..
    · exact .deliver hdestination (hgives hdata hreceiver b hb)
        (hw ▸ loses_set hs rfl (hsame ▸ .refl _)) (List.append_nil _) rfl
    · rw [hnone hwhat]
      exact .forward hdestination (hgives hdata hreceiver b hb) (hw ▸ gets_set hs rfl hlast)
        (List.append_nil _) (List.append_nil _)

theorem deliver_relays (hn : n.Ready nodes) {frame : Frame} (hf : frame.Sane)
    (h : n.deliver node frame = .ok (n', handled)) :
    Relays nodes n (.deliver node frame) handled n' := by
  rcases deliver_cases h with ⟨rfl, rfl, -⟩ | ⟨s, s', m, what, hs, ha, hwhat⟩
  · refine ⟨hn, rfl, nofun, nofun, fun b hw hb _ => .single (.lose (fun k => hw ▸ .refl _)
      (fun hop => ?_) (List.append_nil _) (List.append_nil _))⟩
    rw [hb]
    exact List.sublist_append_right ..
  have hreceived := receive_relays hn hs hf ha
  rcases hwhat with ⟨content, result, rfl, rfl, hmerge⟩ | ⟨rfl, rfl⟩
  · -- what the controller knows is no matter of the relay
    obtain ⟨-, stats, -, rfl⟩ := merge_cases hmerge
    have hready := hreceived.ready
    exact ⟨⟨hready.few, hready.length, hready.manned, hready.hops, hready.prompt.setStats stats⟩,
      hreceived.routes, nofun, nofun, hreceived.run⟩
  · exact hreceived

theorem arrive_relays (hn : n.Ready nodes) (h : n.arrive node = .ok (n', handled)) :
    Relays nodes n (.arrival node) handled n' := by
  rcases arrive_cases h with ⟨rfl, rfl⟩ | ⟨s, s', m, t, destination, hs, ha, rfl, rfl⟩
  · exact Carries.relays (.refl hn) (fun _ => rfl) rfl rfl
  have hfit := hn.manned node s hs
  have hs' := (Traffic.arrive_does hfit ha).1
  have hroutes := (Traffic.arrive_sent ha).routes
  obtain ⟨m₁, h3, h4⟩ := Traffic.arrive_cases ha
  have hfirst : m₁.Prompt nodes ∧ (∀ hop, m₁.flying hop = n.medium.flying hop) ∧
      m₁.nextUid = n.medium.nextUid ∧ m₁.now = n.now := by
    rcases h3 with rfl | ⟨gap, -, h3⟩
    · exact ⟨hn.prompt, fun _ => rfl, rfl, rfl⟩
    · obtain ⟨hprompt, hflying⟩ := hn.prompt.schedule rfl h3
      rw [Medium.schedule_ok h3] at hprompt hflying ⊢
      exact ⟨hprompt, hflying, rfl, rfl⟩
  obtain ⟨hprompt, hflying, huid, hnow⟩ := hfirst
  have hloses : ∀ b : Relay, (∀ hop, b.flying hop = n.medium.flying hop) →
      Loses b.flying m₁.flying := fun b hb hop => by
    rw [hb, hflying]
  rcases h4 with ⟨rfl, rfl, rfl⟩ | ⟨d, stats, result, rfl, -, hsend⟩
  · refine ⟨hn.set rfl hs' hprompt hroutes, hroutes, nofun, nofun, fun b hw hb _ => .single ?_⟩
    exact .lose (hw ▸ loses_set hs rfl (.refl _)) (hloses b hb) (List.append_nil _) (List.append_nil _)
  · obtain ⟨hlast, stats', rfl⟩ := Station.send_waiting hsend
    have hmade : n.made (.arrival node) (.arrived (some d)) =
        [s.made { m₁ with stats } d n.traffic.packetSize] := by
      show _ = [(⟨m₁.nextUid, s.node, d, m₁.now, n.traffic.packetSize⟩ : Packet)]
      rw [huid, hnow, hfit.node_eq]
      rfl
    have hsource : s.node = node := hfit.node_eq
    have hprompt' := ((hprompt.setStats stats).takeUid).setStats stats'
    refine ⟨hn.set rfl hs' hprompt' hroutes, hroutes, fun q hq => ?_, nofun,
      fun b hw hb hm => .single ?_⟩
    · rw [hmade, List.mem_singleton] at hq
      rw [hq, ← hnow]
      exact ⟨Nat.lt_succ_self _, rfl⟩
    · rw [hmade]
      rw [← huid, ← hnow] at hm
      rw [← hsource] at hs
      exact .make hm (hw ▸ gets_set hs (hsource ▸ rfl) hlast) (hloses b hb) rfl (List.append_nil _)

/-- Whatever the network does about an event are steps of the relay. -/
theorem handle_relays (hn : n.Ready nodes) (he : event.Sane)
    (h : n.handle event = .ok (n', handled)) : Relays nodes n event handled n' := by
  cases event with
  | startFrame =>
    obtain ⟨⟨n₁, grants⟩, h1, h⟩ := Fault.map_eq_ok.1 h
    cases h
    exact (runFrame_carries hn h1).relays (fun _ => rfl) rfl rfl
  | runSlot slot =>
    obtain ⟨⟨n₁, grants⟩, h1, h⟩ := Fault.map_eq_ok.1 h
    cases h
    exact (runSlot_carries hn h1).relays (fun _ => rfl) rfl rfl
  | continueSlot node slotEnd control =>
    exact (continueSlot_carries hn h).relays (fun _ => rfl) rfl rfl
  | deliver receiver frame => exact deliver_relays hn he h
  | envStep =>
    cases h
    exact Carries.relays (.refl hn) (fun _ => rfl) rfl rfl
  | arrival node => exact arrive_relays hn h

end Network

end SlotNet
