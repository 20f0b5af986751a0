import SlotNet.Network
import SlotNet.Proofs.Station

/-!
# What the network does with packets

`handle_goes` is the balance of one event: the packets that it makes and that arrive with it come in,
and what it delivers comes out.
-/

namespace SlotNet

/-! ## Making packets -/

namespace Traffic

variable {nodes node : Nat} {t t' : Traffic} {s s' : Station} {m m' : Medium}
  {destination : Option Nat}

theorem packetSize_nextGap (t : Traffic) : t.nextGap.2.packetSize = t.packetSize := by
  unfold nextGap
  cases t.meanGap with
  | none => rfl
  | some mean =>
    cases t.stream.exponential Random.patience
    rfl

theorem arrive_cases (h : t.arrive s m node = .ok (t', s', m', destination)) :
    ∃ m₁, (m₁ = m ∨ ∃ gap, t.nextGap.1 = some gap ∧ m.schedule gap (.arrival node) = .ok m₁) ∧
      ((destination = none ∧ s' = s ∧ m' = m₁) ∨
        ∃ d stats result, destination = some d ∧ m₁.stats.recordOffer t.packetSize = .ok stats ∧
          s.send { m₁ with stats } d t.packetSize = .ok (s', m', result)) := by
  have hsize := t.packetSize_nextGap
  unfold arrive at h
  -- The draws are made variables, so that nothing tries to make them.
  generalize Random.Stream.index = index at h
  generalize t.nextGap = gap at h hsize ⊢
  rcases gap with ⟨_ | gap, t₁⟩ <;> obtain ⟨m₁, h1, h⟩ := Fault.bind_eq_ok.1 h
  all_goals
    refine ⟨m₁, ?_, ?_⟩
    · first
        | exact .inl (Except.ok.inj h1).symm
        | exact .inr ⟨_, rfl, h1⟩
    · dsimp only at h
      split at h
      · cases h
        exact .inl ⟨rfl, rfl, rfl⟩
      · split at h
        · cases h
          exact .inl ⟨rfl, rfl, rfl⟩
        · obtain ⟨stats, h2, h⟩ := Fault.bind_eq_ok.1 h
          obtain ⟨⟨s₁, m₂, result⟩, h3, h⟩ := Fault.bind_eq_ok.1 h
          cases h
          replace hsize : t₁.packetSize = t.packetSize := hsize
          rw [hsize] at h2 h3
          exact .inr ⟨_, stats, result, rfl, h2, h3⟩

theorem arrive_destination {d : Nat} (h : t.arrive s m node = .ok (t', s', m', some d)) :
    ∃ route ∈ m.routes.entries node, route.destination = d := by
  unfold arrive at h
  generalize Random.Stream.index = index at h
  generalize t.nextGap = gap at h
  have hroutes : ∀ m₁, (m₁ = m ∨ ∃ gap, m.schedule gap (.arrival node) = .ok m₁) →
      m₁.routes = m.routes := by
    rintro m₁ (rfl | ⟨gap, h1⟩)
    · rfl
    · rw [Medium.schedule_ok h1]
  rcases gap with ⟨_ | gap, t₁⟩ <;> obtain ⟨m₁, h1, h⟩ := Fault.bind_eq_ok.1 h
  all_goals
    have hm₁ : m₁.routes = m.routes := hroutes m₁ (by
      first
        | exact .inl (Except.ok.inj h1).symm
        | exact .inr ⟨_, h1⟩)
    dsimp only at h
    split at h
    · cases h
    · split at h
      · cases h
      · rename_i route hroute
        obtain ⟨stats, -, h⟩ := Fault.bind_eq_ok.1 h
        obtain ⟨⟨s₁, m₂, result⟩, -, h⟩ := Fault.bind_eq_ok.1 h
        cases h
        rw [hm₁] at hroute
        exact ⟨route, List.mem_of_getElem? hroute, rfl⟩

def made (t : Traffic) (s : Station) (m : Medium) (destination : Option Nat) : List Packet :=
  destination.toList.map (s.made m · t.packetSize)

theorem arrive_goes (hs : s.Fit node) (hm : m.Fit nodes)
    (h : t.arrive s m node = .ok (t', s', m', destination)) :
    s'.Fit node ∧
      Medium.Goes nodes s.held m s'.held m' (t.made s m destination) 0
        ((t.made s m destination).map Packet.size).sum ∧
      ∀ p ∈ t.made s m destination, p.uid < m'.nextUid := by
  obtain ⟨m₁, h1, h⟩ := arrive_cases h
  have hgo₁ : Medium.Goes nodes s.held m s.held m₁ 0 0 0 ∧ m₁.nextUid = m.nextUid ∧
      m₁.now = m.now := by
    rcases h1 with rfl | ⟨gap, -, h1⟩
    · exact ⟨.refl hm, rfl, rfl⟩
    · refine ⟨.schedule hm (by rfl) (by trivial) h1, ?_⟩
      rw [Medium.schedule_ok h1]
      exact ⟨rfl, rfl⟩
  obtain ⟨hgo₁, huid, hnow⟩ := hgo₁
  rcases h with ⟨rfl, rfl, rfl⟩ | ⟨d, stats, result, rfl, h2, h3⟩
  · exact ⟨hs, hgo₁, nofun⟩
  · have hgo₂ : Medium.Goes nodes s.held m₁ s.held { m₁ with stats } 0 0 t.packetSize :=
      .ofGrows hgo₁.1 (Stats.grows_recordOffer h2) (by simp)
    obtain ⟨hs', hgo₃, hnew⟩ := Station.send_goes hs hgo₂.1 h3
    have hmade : t.made s m (some d) = [s.made { m₁ with stats } d t.packetSize] := by
      rw [made, Option.toList_some, List.map_singleton, Station.made, Station.made, ← huid, ← hnow]
      rfl
    have hgo := hgo₁.step (hgo₂.trans hgo₃)
    rw [zero_add, zero_add, Nat.add_zero] at hgo
    rw [hmade]
    refine ⟨hs', hgo, fun p hp => ?_⟩
    rw [List.mem_singleton] at hp
    rw [hp]
    exact hnew

end Traffic

namespace Network

def held (n : Network) : Multiset Packet := (n.stations.map Station.held).sum

/-- Every node has its station, and station and surroundings are fit. -/
structure Fit (nodes : Nat) (n : Network) : Prop where
  length : n.stations.length = nodes
  station : ∀ (node : Nat) (s : Station), n.stations[node]? = some s → s.Fit node
  medium : n.medium.Fit nodes

/-- The balance of a piece of a run of the network. -/
def Goes (nodes : Nat) (n n' : Network) (inn out : Multiset Packet) (offered : Nat) : Prop :=
  n'.Fit nodes ∧ Medium.Goes nodes n.held n.medium n'.held n'.medium inn out offered

variable {nodes node : Nat} {n n' n'' : Network} {inn out : Multiset Packet} {offered : Nat}

theorem Goes.refl (hn : n.Fit nodes) : Goes nodes n n 0 0 0 := ⟨hn, .refl hn.medium⟩

theorem Goes.step (h : Goes nodes n n' 0 0 0) (h' : Goes nodes n' n'' inn out offered) :
    Goes nodes n n'' inn out offered := ⟨h'.1, h.2.step h'.2⟩

theorem Goes.after (h : Goes nodes n n' inn out offered) (h' : Goes nodes n' n'' 0 0 0) :
    Goes nodes n n'' inn out offered := ⟨h'.1, h.2.after h'.2⟩

theorem Goes.ofParts (hn : n.Fit nodes) (controller : Controller) (traffic : Traffic) :
    Goes nodes n { n with controller, traffic } 0 0 0 :=
  ⟨⟨hn.length, hn.station, hn.medium⟩, .refl hn.medium⟩

theorem Goes.ofMedium (hn : n.Fit nodes) {m : Medium}
    (h : Medium.Goes nodes n.held n.medium n.held m inn out offered) :
    Goes nodes n { n with medium := m } inn out offered := ⟨⟨hn.length, hn.station, h.1⟩, h⟩

theorem Goes.ofStats (hn : n.Fit nodes) {stats : Stats} (h : stats.tally = n.medium.stats.tally) :
    Goes nodes n { n with medium := { n.medium with stats } } 0 0 0 :=
  .ofMedium hn (.ofSame hn.medium h)

theorem Goes.ofStation (hn : n.Fit nodes) {s s' : Station} {m : Medium}
    (hs : n.stations[node]? = some s) (hs' : s'.Fit node)
    (h : Medium.Goes nodes s.held n.medium s'.held m inn out offered) :
    Goes nodes n { n with
      stations := n.stations.set node s'
      medium := m } inn out offered := by
  obtain ⟨hlt, hget⟩ := List.getElem?_eq_some_iff.1 hs
  refine ⟨⟨?_, Station.fit_of_set hn.station hs', h.1⟩, ?_⟩
  · rw [List.length_set]
    exact hn.length
  · have hsplit : ∀ t : Station, ((n.stations.set node t).map Station.held).sum
        = t.held + (((n.stations.map Station.held).take node).sum
          + ((n.stations.map Station.held).drop (node + 1)).sum) := by
      intro t
      rw [List.map_set, List.sum_set, List.length_map, if_pos hlt]
      abel
    have hheld : n.held = s.held + (((n.stations.map Station.held).take node).sum
        + ((n.stations.map Station.held).drop (node + 1)).sum) := by
      rw [← hsplit s, ← hget, List.set_getElem_self, held]
    show Medium.Goes nodes n.held n.medium ((n.stations.set node s').map Station.held).sum m
      inn out offered
    rw [hheld, hsplit s']
    exact h.frame _

theorem onStation_cases {α : Type} {act : Station → Medium → Except Fault (Station × Medium × α)}
    {result : Option α} (h : n.onStation node act = .ok (n', result)) :
    (n' = n ∧ result = none ∧ n.stations[node]? = none) ∨
      ∃ s s' m r, n.stations[node]? = some s ∧ act s n.medium = .ok (s', m, r) ∧
        result = some r ∧ n' = { n with
          stations := n.stations.set node s'
          medium := m } := by
  unfold onStation at h
  cases hs : n.stations[node]? with
  | none =>
    rw [hs] at h
    cases h
    exact .inl ⟨rfl, rfl, rfl⟩
  | some s =>
    rw [hs] at h
    obtain ⟨⟨s', m, r⟩, ha, h⟩ := Fault.bind_eq_ok.1 h
    cases h
    exact .inr ⟨s, s', m, r, rfl, ha, rfl, rfl⟩

theorem continueSlot_cases {slotEnd : Time} {control : Bool} {handled : Handled}
    (h : n.continueSlot node slotEnd control = .ok (n', handled)) :
    (n' = n ∧ handled = .nothing) ∨
      ∃ s s' m sent, n.stations[node]? = some s ∧
        s.continueSlot n.medium slotEnd control = .ok (s', m, sent) ∧ handled = .continued sent ∧
        n' = { n with
          stations := n.stations.set node s'
          medium := m } := by
  obtain ⟨⟨n₁, result⟩, h1, h⟩ := Fault.bind_eq_ok.1 h
  rcases onStation_cases h1 with ⟨rfl, rfl, -⟩ | ⟨s, s', m, sent, hs, ha, rfl, rfl⟩
  · cases h
    exact .inl ⟨rfl, rfl⟩
  · cases h
    exact .inr ⟨s, s', m, sent, hs, ha, rfl, rfl⟩

/-- A slot of the frame is opened, those who may send in it get it, and what follows is scheduled; any
other slot is passed over. -/
theorem runSlot_cases {slot : Nat} {grants : List Grant} (h : n.runSlot slot = .ok (n', grants)) :
    (n.controller.totalSlots ≤ slot ∧ n' = n ∧ grants = []) ∨
      ∃ n₁ delay next m, slot < n.controller.totalSlots ∧
        grantAll { n with controller := n.controller.openSlot slot }
          ((n.controller.openSlot slot).slotDuration slot)
          (Timing.isControlSlot (n.controller.openSlot slot).nodeCount slot)
          ((n.controller.openSlot slot).entitled slot) = .ok (n₁, grants) ∧
        (n.controller.openSlot slot).following slot = .ok (delay, next) ∧
        n₁.medium.schedule delay next = .ok m ∧ n' = { n₁ with medium := m } := by
  unfold runSlot at h
  by_cases hslot : n.controller.totalSlots ≤ slot
  · rw [if_pos hslot] at h
    cases h
    exact .inl ⟨hslot, rfl, rfl⟩
  · rw [if_neg hslot] at h
    obtain ⟨⟨n₁, grants₁⟩, h1, h⟩ := Fault.bind_eq_ok.1 h
    obtain ⟨⟨delay, next⟩, h2, h⟩ := Fault.bind_eq_ok.1 h
    obtain ⟨m, h3, h⟩ := Fault.bind_eq_ok.1 h
    cases h
    exact .inr ⟨n₁, delay, next, m, Nat.lt_of_not_le hslot, h1, h2, h3, rfl⟩

theorem merge_cases {message : List UInt8} {observer : Nat} {result : Except StatusError Nat}
    (h : n.merge message observer = .ok (n', result)) :
    result = (n.controller.merge message observer).2 ∧ ∃ stats,
      (stats = n.medium.stats ∨ ∃ conflicts, n.medium.stats.recordConflicts conflicts = .ok stats) ∧
      n' = { n with
        controller := (n.controller.merge message observer).1
        medium := { n.medium with stats } } := by
  unfold merge at h
  generalize n.controller.merge message observer = merged at h ⊢
  obtain ⟨controller, outcome⟩ := merged
  cases outcome with
  | ok conflicts =>
    obtain ⟨stats, hstats, h⟩ := Fault.bind_eq_ok.1 h
    cases h
    exact ⟨rfl, stats, .inr ⟨conflicts, hstats⟩, rfl⟩
  | error e =>
    cases h
    exact ⟨rfl, _, .inl rfl, rfl⟩

theorem deliver_cases {frame : Frame} {handled : Handled}
    (h : n.deliver node frame = .ok (n', handled)) :
    (n' = n ∧ handled = .nothing ∧ n.stations[node]? = none) ∨
      ∃ s s' m what, n.stations[node]? = some s ∧ s.receive n.medium frame = .ok (s', m, what) ∧
        ((∃ content result, what = .status content ∧ handled = .merged result ∧
            merge { n with
              stations := n.stations.set node s'
              medium := m } content node = .ok (n', result)) ∨
          (handled = .received what ∧ n' = { n with
            stations := n.stations.set node s'
            medium := m })) := by
  unfold deliver at h
  obtain ⟨⟨n₁, result⟩, h1, h⟩ := Fault.bind_eq_ok.1 h
  rcases onStation_cases h1 with ⟨rfl, rfl, hnone⟩ | ⟨s, s', m, what, hs, ha, rfl, rfl⟩
  · cases h
    exact .inl ⟨rfl, rfl, hnone⟩
  · refine .inr ⟨s, s', m, what, hs, ha, ?_⟩
    cases what with
    | status content =>
      obtain ⟨⟨n₂, merged⟩, h2, h⟩ := Fault.bind_eq_ok.1 h
      cases h
      exact .inl ⟨content, merged, rfl, rfl, h2⟩
    | _ =>
      cases h
      exact .inr ⟨rfl, rfl⟩

theorem arrive_cases {handled : Handled} (h : n.arrive node = .ok (n', handled)) :
    (n' = n ∧ handled = .nothing) ∨
      ∃ s s' m traffic destination, n.stations[node]? = some s ∧
        n.traffic.arrive s n.medium node = .ok (traffic, s', m, destination) ∧
        handled = .arrived destination ∧
        n' = { n with
          stations := n.stations.set node s'
          medium := m
          traffic } := by
  unfold arrive at h
  obtain ⟨⟨n₁, result⟩, h1, h⟩ := Fault.bind_eq_ok.1 h
  rcases onStation_cases h1 with ⟨rfl, rfl, -⟩ | ⟨s, s', m, ⟨t, destination⟩, hs, ha, rfl, rfl⟩
  · cases h
    exact .inl ⟨rfl, rfl⟩
  · obtain ⟨⟨t', s₁, m₁, destination'⟩, h2, ha⟩ := Fault.bind_eq_ok.1 ha
    cases ha
    cases h
    exact .inr ⟨s, s', m, t, destination, hs, h2, rfl, rfl⟩

theorem Fit.lt (hn : n.Fit nodes) {s : Station} (h : n.stations[node]? = some s) :
    node < nodes := by
  obtain ⟨hlt, -⟩ := List.getElem?_eq_some_iff.1 h
  rwa [hn.length] at hlt

theorem onStation_goes {α : Type}
    {act : Station → Medium → Except Fault (Station × Medium × α)} {result : Option α}
    (hn : n.Fit nodes) (h : n.onStation node act = .ok (n', result))
    (hact : ∀ s s' m r, node < nodes → s.Fit node → act s n.medium = .ok (s', m, r) →
      s'.Fit node ∧ Medium.Goes nodes s.held n.medium s'.held m 0 0 0) :
    Goes nodes n n' 0 0 0 := by
  rcases onStation_cases h with ⟨rfl, -, -⟩ | ⟨s, s', m, r, hs, ha, -, rfl⟩
  · exact .refl hn
  · obtain ⟨hs', hgo⟩ := hact s s' m r (hn.lt hs) (hn.station node s hs) ha
    exact .ofStation hn hs hs' hgo

/-! ## Slots -/

theorem grant_goes (hn : n.Fit nodes) {duration : Time} {control : Bool} {grants : List Grant}
    (h : n.grant node duration control = .ok (n', grants)) : Goes nodes n n' 0 0 0 := by
  obtain ⟨⟨n₁, sent⟩, h1, h⟩ := Fault.bind_eq_ok.1 h
  cases h
  exact onStation_goes hn h1 fun s s' m r hlt hs ha =>
    Station.startSlot_goes hlt hs hn.medium ha

theorem grantAll_goes (hn : n.Fit nodes) {duration : Time} {control : Bool} {members : List Nat}
    {grants : List Grant} (h : n.grantAll duration control members = .ok (n', grants)) :
    Goes nodes n n' 0 0 0 := by
  induction members generalizing n grants with
  | nil =>
    cases h
    exact .refl hn
  | cons node members ih =>
    obtain ⟨⟨n₁, first⟩, h1, h⟩ := Fault.bind_eq_ok.1 h
    obtain ⟨⟨n₂, more⟩, h2, h⟩ := Fault.bind_eq_ok.1 h
    cases h
    have hgo₁ := grant_goes hn h1
    exact hgo₁.step (ih hgo₁.1 h2)

theorem next_of_following {c : Controller} {slot : Nat} {delay : Time} {next : Event}
    (h : c.following slot = .ok (delay, next)) : next = .startFrame ∨ next = .runSlot (slot + 1) := by
  obtain ⟨elapsed, -, h⟩ := Fault.bind_eq_ok.1 h
  split at h
  · obtain ⟨time, -, h⟩ := Fault.bind_eq_ok.1 h
    cases h
    exact .inl rfl
  · cases h
    exact .inr rfl

theorem packets_following (nodes : Nat) {c : Controller} {slot : Nat} {delay : Time} {next : Event}
    (h : c.following slot = .ok (delay, next)) : next.packets = 0 ∧ next.Fit nodes := by
  rcases next_of_following h with rfl | rfl <;> exact ⟨rfl, trivial⟩

theorem runSlot_goes (hn : n.Fit nodes) {slot : Nat} {grants : List Grant}
    (h : n.runSlot slot = .ok (n', grants)) : Goes nodes n n' 0 0 0 := by
  rcases runSlot_cases h with ⟨-, rfl, -⟩ | ⟨n₁, delay, next, m, -, h1, h2, h3, rfl⟩
  · exact .refl hn
  · have hopen : Goes nodes n { n with controller := n.controller.openSlot slot } 0 0 0 :=
      .ofParts hn _ _
    have hgo := hopen.step (grantAll_goes hopen.1 h1)
    obtain ⟨hp, hf⟩ := packets_following nodes h2
    exact hgo.step (.ofMedium hgo.1 (.schedule hgo.1.medium hp hf h3))

theorem runFrame_goes (hn : n.Fit nodes) {grants : List Grant}
    (h : n.runFrame = .ok (n', grants)) : Goes nodes n n' 0 0 0 := by
  have hbegin : Goes nodes n { n with controller := n.controller.beginFrame } 0 0 0 :=
    .ofParts hn _ _
  -- the number of the frame is no count of packets
  have hcount : ({ n.medium.stats with
      framesCompleted := n.controller.beginFrame.frameIndex - 1 } : Stats).tally
      = n.medium.stats.tally := rfl
  have hgo := hbegin.step (.ofStats hbegin.1 hcount)
  exact hgo.step (runSlot_goes hgo.1 h)

theorem continueSlot_goes (hn : n.Fit nodes) {slotEnd : Time} {control : Bool} {handled : Handled}
    (h : n.continueSlot node slotEnd control = .ok (n', handled)) : Goes nodes n n' 0 0 0 := by
  obtain ⟨⟨n₁, sent⟩, h1, h⟩ := Fault.bind_eq_ok.1 h
  cases h
  exact onStation_goes hn h1 fun s s' m r hlt hs ha =>
    Station.continueSlot_goes hlt hs hn.medium ha

/-! ## Frames and arrivals -/

theorem merge_goes (hn : n.Fit nodes) {message : List UInt8} {observer : Nat}
    {result : Except StatusError Nat} (h : n.merge message observer = .ok (n', result)) :
    Goes nodes n n' 0 0 0 := by
  obtain ⟨-, stats, hstats, rfl⟩ := merge_cases h
  have hgo : Goes nodes n { n with controller := (n.controller.merge message observer).1 } 0 0 0 :=
    .ofParts hn _ _
  refine hgo.step (.ofStats hgo.1 ?_)
  rcases hstats with rfl | ⟨conflicts, hstats⟩
  · rfl
  · exact Stats.tally_recordConflicts hstats

/-- The packets that an event makes. -/
def made (n : Network) : Event → Handled → List Packet
  | .arrival node, .arrived (some destination) =>
    [⟨n.medium.nextUid, node, destination, n.now, n.traffic.packetSize⟩]
  | _, _ => []

theorem uid_made (n : Network) (event : Event) (handled : Handled) :
    ((n.made event handled).map Packet.uid).Nodup ∧
      ∀ p ∈ n.made event handled, n.medium.nextUid ≤ p.uid := by
  unfold made
  split
  · exact ⟨List.nodup_singleton _, fun p hp => by
      rw [List.mem_singleton] at hp
      rw [hp]⟩
  · exact ⟨List.nodup_nil, nofun⟩

/-- The packets that an event brings to their destination, and the node that takes them. -/
def delivered : Event → Handled → List (Nat × Packet)
  | .deliver receiver frame, .received .delivered => [(receiver, frame.packet)]
  | _, _ => []

def packetsAt (deliveries : List (Nat × Packet)) : Multiset Packet :=
  (deliveries.map Prod.snd : List Packet)

theorem deliver_goes (hn : n.Fit nodes) {frame : Frame} {handled : Handled}
    (hf : (Event.deliver node frame).Fit nodes)
    (h : n.deliver node frame = .ok (n', handled)) :
    Goes nodes n n' (Event.deliver node frame).packets
        (packetsAt (delivered (.deliver node frame) handled)) 0 ∧
      ∀ d ∈ delivered (.deliver node frame) handled, d.1 = d.2.destination := by
  rcases deliver_cases h with ⟨-, -, hnone⟩ | ⟨s, s', m, what, hs, ha, hwhat⟩
  · rw [List.getElem?_eq_none_iff, hn.length] at hnone
    exact absurd hf.1 (Nat.not_lt_of_le hnone)
  obtain ⟨hs', hgo, hdest⟩ := Station.receive_goes (hn.station node s hs) hn.medium hf ha
  have hgo' : Goes nodes n _ _ _ 0 := .ofStation hn hs hs' hgo
  rcases hwhat with ⟨content, result, rfl, rfl, hmerge⟩ | ⟨rfl, rfl⟩
  · exact ⟨hgo'.after (merge_goes hgo'.1 hmerge), nofun⟩
  · cases what with
    | delivered =>
      refine ⟨hgo', fun d hd => ?_⟩
      rw [delivered, List.mem_singleton] at hd
      rw [hd]
      exact (hdest rfl).symm
    | _ => exact ⟨hgo', nofun⟩

theorem arrive_goes (hn : n.Fit nodes) {handled : Handled}
    (h : n.arrive node = .ok (n', handled)) :
    Goes nodes n n' (n.made (.arrival node) handled) 0
        ((n.made (.arrival node) handled).map Packet.size).sum ∧
      ∀ p ∈ n.made (.arrival node) handled, p.uid < n'.medium.nextUid := by
  rcases arrive_cases h with ⟨rfl, rfl⟩ | ⟨s, s', m, t, destination, hs, ha, rfl, rfl⟩
  · exact ⟨.refl hn, nofun⟩
  obtain ⟨hs', hgo, hnew⟩ := Traffic.arrive_goes (hn.station node s hs) hn.medium ha
  have hmade : n.made (.arrival node) (.arrived destination)
      = n.traffic.made s n.medium destination := by
    cases destination with
    | none => rfl
    | some d =>
      rw [Traffic.made, Option.toList_some, List.map_singleton, Station.made,
        (hn.station node s hs).node_eq]
      rfl
  rw [hmade]
  have hgo' : Goes nodes n _ _ _ _ := .ofStation hn hs hs' hgo
  exact ⟨⟨⟨hgo'.1.length, hgo'.1.station, hgo'.1.medium⟩, hgo'.2⟩, hnew⟩

/-! ## Events -/

/-- What happens when an event is handled, in packets. -/
theorem handle_goes (hn : n.Fit nodes) {event : Event} {handled : Handled}
    (he : event.Fit nodes) (h : n.handle event = .ok (n', handled)) :
    Goes nodes n n' (event.packets + n.made event handled) (packetsAt (delivered event handled))
        ((n.made event handled).map Packet.size).sum ∧
      (∀ p ∈ n.made event handled, p.uid < n'.medium.nextUid) ∧
      ∀ d ∈ delivered event handled, d.1 = d.2.destination := by
  cases event with
  | startFrame =>
    obtain ⟨⟨n₁, grants⟩, h1, h⟩ := Fault.map_eq_ok.1 h
    cases h
    exact ⟨runFrame_goes hn h1, nofun, nofun⟩
  | runSlot slot =>
    obtain ⟨⟨n₁, grants⟩, h1, h⟩ := Fault.map_eq_ok.1 h
    cases h
    exact ⟨runSlot_goes hn h1, nofun, nofun⟩
  | continueSlot node slotEnd control => exact ⟨continueSlot_goes hn h, nofun, nofun⟩
  | deliver receiver frame =>
    obtain ⟨hgo, hdest⟩ := deliver_goes hn he h
    have hmade : n.made (.deliver receiver frame) handled = [] := rfl
    rw [hmade, Multiset.coe_nil, add_zero]
    exact ⟨hgo, nofun, hdest⟩
  | envStep =>
    cases h
    exact ⟨.refl hn, nofun, nofun⟩
  | arrival node =>
    obtain ⟨hgo, hnew⟩ := arrive_goes hn h
    exact ⟨by rwa [show (Event.arrival node).packets = 0 from rfl, zero_add], hnew, nofun⟩

/-- The cancelled events before the next one that is handed out. -/
def skipped (n : Network) : List (Entry Event) :=
  n.medium.events.entries.takeWhile (·.cancelled)

theorem cancelled_of_mem_skipped {e : Entry Event} (h : e ∈ n.skipped) : e.cancelled = true :=
  List.mem_takeWhile_imp h

theorem entries_eq_skipped_append (n : Network) :
    n.medium.events.entries = n.skipped ++ n.medium.events.settle.entries :=
  List.takeWhile_append_dropWhile.symm

def setEvents (n : Network) (events : EventQueue Event) : Network :=
  { n with medium := { n.medium with events } }

/-- Looking for the next event drops the cancelled ones before it. If it is due it is taken out. -/
theorem popUntil_cases {limit : Time} {next : Option (Time × Event)}
    (h : n.popUntil limit = (next, n')) :
    (next = none ∧ n' = n.setEvents n.medium.events.settle) ∨
      ∃ e rest, n.medium.events.settle.entries = e :: rest ∧ next = some (e.time, e.event) ∧
        n' = n.setEvents { n.medium.events with
          now := e.time
          entries := rest } := by
  unfold popUntil peekTime EventQueue.peekTime at h
  cases hs : n.medium.events.settle.entries with
  | nil =>
    simp only [hs, List.head?_nil, Option.map_none, Prod.mk.injEq] at h
    obtain ⟨rfl, rfl⟩ := h
    exact .inl ⟨rfl, rfl⟩
  | cons e rest =>
    simp only [hs, List.head?_cons, Option.map_some] at h
    split at h
    · cases h
      exact .inl ⟨rfl, rfl⟩
    · simp only [EventQueue.pop, EventQueue.settle_settle, hs, Prod.mk.injEq] at h
      obtain ⟨rfl, rfl⟩ := h
      exact .inr ⟨e, rest, rfl, rfl, rfl⟩

theorem Fit.setEvents (hn : n.Fit nodes) {events : EventQueue Event} (ho : events.Ordered)
    (hf : ∀ e ∈ events.entries, e ∈ n.medium.events.entries) : (n.setEvents events).Fit nodes :=
  ⟨hn.length, hn.station, hn.medium.few, ho, hn.medium.listeners, hn.medium.hops,
    fun e he => hn.medium.events e (hf e he)⟩

theorem Fit.settle (hn : n.Fit nodes) : (n.setEvents n.medium.events.settle).Fit nodes :=
  hn.setEvents hn.medium.ordered.settle fun _ he => (List.dropWhile_suffix _).subset he

theorem Fit.pop (hn : n.Fit nodes) {e : Entry Event} {rest : List (Entry Event)}
    (h : n.medium.events.settle.entries = e :: rest) :
    e.cancelled = false ∧ e.event.Fit nodes ∧ (n.setEvents { n.medium.events with
      now := e.time
      entries := rest }).Fit nodes := by
  have hpop : n.medium.events.pop = (some (e.time, e.event), { n.medium.events with
      now := e.time
      entries := rest }) := by
    rw [EventQueue.pop, h]
    rfl
  obtain ⟨x, hx, hc, -, -, hhead, -, -, hmem, -, ho⟩ :=
    EventQueue.pop_some hn.medium.ordered hpop
  rw [h, List.head?_cons, Option.some.injEq] at hhead
  subst hhead
  exact ⟨hc, hn.medium.events e hx, hn.setEvents ho fun y hy => ((hmem y).1 hy).1⟩

end Network

end SlotNet
