import Mathlib.Algebra.Order.BigOperators.Group.Multiset
import SlotNet.Proofs.Diary

/-!
# Every packet is somewhere

Here a run may also be asked for its next event when none is due (`proceed`): then the cancelled events
before the next one are passed over.

`packets_accounted`: every packet that was made is delivered, lost, waiting at a station, under way,
or destroyed with a cancelled delivery, and it is so once.
-/

namespace SlotNet.Diary

open Config (pair accepted_pair)
open Watch (Act twoPackets)

variable {σ : Type}

def settle (d : Diary σ) : Diary σ := { d with watch := d.watch.settle }

/-- The state after an act, if the act is possible. An event need not be due. -/
def proceed (d : Diary σ) : Act → Option (Diary σ)
  | .next limit =>
    if (d.watch.network.popUntil limit).1.isNone then some d.settle else d.step (.next limit)
  | a => d.step a

theorem proceed_of_step {d d' : Diary σ} {a : Act} (h : d.step a = some d') :
    d.proceed a = some d' := by
  cases a with
  | next limit =>
    rw [proceed, if_neg, h]
    intro hnone
    rw [Option.isNone_iff_eq_none] at hnone
    obtain ⟨watch, hstep, -⟩ := Option.map_eq_some_iff.1 h
    rw [Watch.step] at hstep
    split at hstep
    · rename_i hpop
      rw [hpop] at hnone
      cases hnone
    · cases hstep
  | change traffic => exact h
  | arrival time node => exact h

/-- The run of a simulation up to its horizon is one of these runs. -/
theorem exists_proceed_of_runEvents {fuel : Nat} {s s' : Simulation σ}
    (h : Simulation.runEvents fuel s = .ok s') :
    ∃ acts d, Acts.run proceed acts (start s) = some d ∧ d.watch.simulation = s' := by
  obtain ⟨acts, d, -, hrun, hs⟩ := exists_run_of_runEvents h
  have hproceed := Acts.run_mono (fun _ _ _ => proceed_of_step) hrun
  rcases hs with rfl | ⟨⟨limit, network, hpop⟩, rfl⟩
  · exact ⟨acts, d, hproceed, rfl⟩
  · refine ⟨acts ++ [.next limit], d.settle, ?_, rfl⟩
    rw [Acts.run_append, hproceed, Option.bind_some, Acts.run_cons_eq_some]
    exact ⟨d.settle, if_pos (congrArg (Option.isNone ∘ Prod.fst) hpop), rfl⟩

/-! ## The balance -/

/-- Packets and counters so far, given what was lost. -/
structure Balanced (d : Diary σ) (lost : Multiset (Packet × Loss)) : Prop where
  distinct : (d.made.map Packet.uid).Nodup
  uid_lt : ∀ p ∈ d.made, p.uid < d.watch.network.medium.nextUid
  balance : Network.packetsAt d.delivered + lost.map Prod.fst + d.watch.network.held
    + packetsOf d.watch.entries + packetsOf d.watch.skipped = d.made
  destination : ∀ q ∈ d.delivered, q.1 = q.2.destination
  skipped : ∀ e ∈ d.watch.skipped, e.cancelled = true
  losses : ∀ l, d.watch.medium.stats.lossCount l = (lost.map Prod.snd).count l
  packets : d.watch.medium.stats.deliveredPackets = d.delivered.length
  bytes : d.watch.medium.stats.deliveredBytes = (d.delivered.map (·.2.size)).sum
  offered : d.watch.medium.stats.offeredDataBytes = (d.made.map Packet.size).sum
  cancelled : d.watch.medium.stats.cancelledDeliveries = markedIn d.watch.entries + d.watch.skipped.length

variable {nodes : Nat} {d d' : Diary σ} {lost : Multiset (Packet × Loss)}

theorem markedIn_eq_length {l : List (Entry Event)} (h : ∀ e ∈ l, e.cancelled = true) :
    markedIn l = l.length := List.countP_eq_length.2 h

theorem card_packetsAt (deliveries : List (Nat × Packet)) :
    (Network.packetsAt deliveries).card = deliveries.length := List.length_map ..

theorem sum_size_packetsAt (deliveries : List (Nat × Packet)) :
    ((Network.packetsAt deliveries).map Packet.size).sum = (deliveries.map (·.2.size)).sum := by
  rw [Network.packetsAt, Multiset.map_coe, Multiset.sum_coe, List.map_map]
  rfl

theorem Balanced.distinct_append (h : d.Balanced lost) {made : List Packet}
    (hdistinct : (made.map Packet.uid).Nodup)
    (hnew : ∀ p ∈ made, d.watch.network.medium.nextUid ≤ p.uid) :
    ((d.made ++ made).map Packet.uid).Nodup := by
  rw [List.map_append]
  refine h.distinct.append hdistinct fun uid hold hlater => ?_
  obtain ⟨p, hp, rfl⟩ := List.mem_map.1 hold
  obtain ⟨p', hp', he⟩ := List.mem_map.1 hlater
  exact Nat.ne_of_gt ((h.uid_lt p hp).trans_le (hnew p' hp')) he

/-- What is passed over is no longer under way, and what is taken out goes where the run brings it. -/
theorem Balanced.balance_advance (h : d.Balanced lost) {skipped taken events : List (Entry Event)}
    {made : List Packet} {delivered : List (Nat × Packet)} {more : Multiset (Packet × Loss)}
    (hentries : d.watch.entries = skipped ++ taken ++ events)
    (hthen : d'.watch.network.held + packetsOf d'.watch.entries + Network.packetsAt delivered
      + more.map Prod.fst = d.watch.network.held + packetsOf events + (packetsOf taken + made)) :
    Network.packetsAt (d.delivered ++ delivered) + (lost + more).map Prod.fst
      + d'.watch.network.held + packetsOf d'.watch.entries + packetsOf (d.watch.skipped ++ skipped)
      = (d.made ++ made : List Packet) := by
  have hbefore := h.balance
  rw [hentries, packetsOf_append, packetsOf_append] at hbefore
  rw [Network.packetsAt, List.map_append, ← Multiset.coe_add, ← Multiset.coe_add,
    Multiset.map_add, packetsOf_append]
  calc Network.packetsAt d.delivered + Network.packetsAt delivered
        + (lost.map Prod.fst + more.map Prod.fst) + d'.watch.network.held + packetsOf d'.watch.entries
        + (packetsOf d.watch.skipped + packetsOf skipped)
      = Network.packetsAt d.delivered + lost.map Prod.fst + packetsOf d.watch.skipped
        + packetsOf skipped + (d'.watch.network.held + packetsOf d'.watch.entries
          + Network.packetsAt delivered + more.map Prod.fst) := by abel
    _ = (Network.packetsAt d.delivered + lost.map Prod.fst + d.watch.network.held
          + (packetsOf skipped + packetsOf taken + packetsOf events)
          + packetsOf d.watch.skipped) + made := by rw [hthen]; abel
    _ = d.made + made := by rw [hbefore]

/-- Cancelled events are passed over, others are taken out, and then the run goes on. -/
theorem balanced_advance (skipped taken : List (Entry Event)) (events : EventQueue Event)
    (made : List Packet) (delivered : List (Nat × Packet))
    (hentries : d.watch.entries = skipped ++ taken ++ events.entries)
    (hskipped : ∀ e ∈ skipped, e.cancelled = true) (htaken : markedIn taken = 0)
    (hgo : Network.Goes nodes (d.watch.network.setEvents events) d'.watch.network (packetsOf taken + made)
      (Network.packetsAt delivered) (made.map Packet.size).sum)
    (huid : (made.map Packet.uid).Nodup ∧ ∀ p ∈ made,
      d.watch.network.medium.nextUid ≤ p.uid ∧ p.uid < d'.watch.network.medium.nextUid)
    (hdest : ∀ q ∈ delivered, q.1 = q.2.destination)
    (hd' : d'.made = d.made ++ made ∧ d'.delivered = d.delivered ++ delivered ∧
      d'.watch.skipped = d.watch.skipped ++ skipped) :
    ∃ more, ∀ lost, d.Balanced lost → d'.Balanced (lost + more) := by
  obtain ⟨-, -, more, hmoves⟩ := hgo
  obtain ⟨hmade, hdelivered, hskip⟩ := hd'
  refine ⟨more, fun lost h => ⟨?distinct, ?uid_lt, ?balance, ?destination, ?skipped, ?losses,
    ?packets, ?bytes, ?offered, ?cancelled⟩⟩
  case distinct =>
    rw [hmade]
    exact h.distinct_append huid.1 fun p hp => (huid.2 p hp).1
  case uid_lt =>
    intro p hp
    rw [hmade] at hp
    rcases List.mem_append.1 hp with hp | hp
    · exact (h.uid_lt p hp).trans_le hmoves.nextUid
    · exact (huid.2 p hp).2
  case balance =>
    rw [hmade, hdelivered, hskip]
    exact h.balance_advance hentries hmoves.balance
  case destination =>
    intro q hq
    rw [hdelivered] at hq
    exact (List.mem_append.1 hq).elim (h.destination q) (hdest q)
  case skipped =>
    intro e he
    rw [hskip] at he
    exact (List.mem_append.1 he).elim (h.skipped e) (hskipped e)
  case losses =>
    intro l
    rw [Multiset.map_add, Multiset.count_add, ← h.losses]
    exact hmoves.grows.losses l
  case packets =>
    rw [hdelivered, List.length_append, ← h.packets, ← card_packetsAt delivered]
    exact hmoves.grows.packets
  case bytes =>
    rw [hdelivered, List.map_append, List.sum_append, ← h.bytes, ← sum_size_packetsAt delivered]
    exact hmoves.grows.bytes
  case offered =>
    rw [hmade, List.map_append, List.sum_append, ← h.offered]
    exact hmoves.grows.offered
  case cancelled =>
    have hmarks : markedIn d.watch.entries = skipped.length + markedIn events.entries := by
      rw [hentries, markedIn_append, markedIn_append, htaken, markedIn_eq_length hskipped,
        Nat.add_zero]
    have hthen : d'.watch.medium.stats.cancelledDeliveries + markedIn events.entries
      = d.watch.medium.stats.cancelledDeliveries + markedIn d'.watch.entries := hmoves.marked
    have hbefore := h.cancelled
    rw [hskip, List.length_append]
    omega

theorem balanced_quiet (hgo : Network.Goes nodes d.watch.network d'.watch.network 0 0 0)
    (hdeeds : d'.deeds = d.deeds) (hskipped : d'.watch.skipped = d.watch.skipped) :
    ∃ more, ∀ lost, d.Balanced lost → d'.Balanced (lost + more) := by
  refine balanced_advance [] [] d.watch.medium.events [] [] rfl nofun rfl hgo ⟨List.nodup_nil, nofun⟩
    nofun ?_
  simp only [made, delivered, hdeeds, hskipped, List.append_nil, and_self]

theorem fit_of_handles {w w' : Watch σ} (hw : w.network.Fit nodes) {e : Entry Event}
    {s : Simulation σ} (h : w.Handles e s w') : e.event.Fit nodes ∧ s.network.Fit nodes := by
  obtain ⟨rest, hrest⟩ := List.head?_eq_some_iff.1 h.head
  obtain ⟨-, hevent, hfit⟩ := hw.pop hrest
  have hpopped := h.popped
  rw [EventQueue.pop, hrest] at hpopped
  rw [h.simulation, ← (Prod.mk.inj hpopped).2]
  exact ⟨hevent, hfit⟩

theorem balanced_handles (hd : d.watch.network.Fit nodes) {e : Entry Event} {s : Simulation σ} {x : Deed}
    (h : d.Handles e s x d') :
    d'.watch.network.Fit nodes ∧ ∃ more, ∀ lost, d.Balanced lost → d'.Balanced (lost + more) := by
  obtain ⟨hevent, hfit⟩ := fit_of_handles hd h.watch
  obtain ⟨n, handled, hhandle, hgo, hnew, hdest⟩ := Simulation.dispatch_goes hfit hevent h.watch.dispatch
  obtain ⟨-, rfl⟩ := Prod.mk.inj (Except.ok.inj (h.handle.symm.trans hhandle))
  have htaken : e.event.packets = packetsOf [e] := by
    rw [packetsOf_cons, packetsOf_nil, add_zero]
  have hnetwork : s.network = d.watch.network.setEvents s.network.medium.events :=
    congrArg Simulation.network h.watch.simulation
  obtain ⟨hnodup, hle⟩ := s.network.uid_made e.event x.handled
  rw [htaken] at hgo
  nth_rewrite 1 [hnetwork] at hgo
  refine ⟨hgo.1, balanced_advance d.watch.network.skipped [e] _ _ _ ?_
    (fun _ => Network.cancelled_of_mem_skipped) ?_ hgo ⟨hnodup, fun p hp => ⟨?_, hnew p hp⟩⟩ hdest
    ⟨h.made_eq, h.delivered_eq, ?_⟩⟩
  · rw [h.entries, List.append_assoc]
    rfl
  · rw [markedIn_cons, h.watch.pending]
    rfl
  · exact (congrArg Medium.nextUid h.watch.medium) ▸ hle p hp
  · rw [h.watch.noted]
    rfl

theorem balanced_settle (hd : d.watch.network.Fit nodes) :
    d.settle.watch.network.Fit nodes ∧
      ∃ more, ∀ lost, d.Balanced lost → d.settle.Balanced (lost + more) := by
  have hsplit := d.watch.network.entries_eq_skipped_append
  refine ⟨hd.settle, balanced_advance d.watch.network.skipped [] d.watch.medium.events.settle [] [] ?_
    (fun _ => Network.cancelled_of_mem_skipped) rfl (.refl hd.settle) ⟨List.nodup_nil, nofun⟩ nofun ?_⟩
  · rw [List.append_nil]
    exact hsplit
  · exact ⟨(List.append_nil _).symm, (List.append_nil _).symm, rfl⟩

theorem balanced_proceed (hd : d.watch.network.Fit nodes) {a : Act} (h : d.proceed a = some d') :
    d'.watch.network.Fit nodes ∧ ∃ more, ∀ lost, d.Balanced lost → d'.Balanced (lost + more) := by
  cases a with
  | next limit =>
    rw [proceed] at h
    split at h
    · cases h
      exact balanced_settle hd
    · obtain ⟨e, s, x, hh⟩ := handles_of_step hd.medium.ordered h
      exact balanced_handles hd hh
  | change traffic =>
    cases h
    have hgo : Network.Goes nodes d.watch.network { d.watch.network with traffic } 0 0 0 :=
      .ofParts hd _ _
    exact ⟨hgo.1, balanced_quiet hgo (List.append_nil _) rfl⟩
  | arrival time node =>
    cases h
    have hgo := Network.Goes.scheduleAt hd time (.arrival node) rfl trivial
    exact ⟨hgo.1, balanced_quiet hgo (List.append_nil _) rfl⟩

/-! ## Runs -/

/-- What is lost between two states: that which keeps the balance. -/
noncomputable def lostBetween (d d' : Diary σ) : Multiset (Packet × Loss) :=
  Classical.epsilon fun more => ∀ lost, d.Balanced lost → d'.Balanced (lost + more)

/-- What is lost in some acts. -/
noncomputable def losses : List Act → Diary σ → Multiset (Packet × Loss)
  | [], _ => 0
  | a :: rest, d => (d.proceed a).elim 0 fun d' => d.lostBetween d' + losses rest d'

theorem balanced_run {acts : List Act} (hd : d.watch.network.Fit nodes) (hb : d.Balanced lost)
    (h : Acts.run proceed acts d = some d') : d'.Balanced (lost + losses acts d) := by
  induction acts generalizing d lost with
  | nil =>
    cases h
    rwa [losses, add_zero]
  | cons a acts ih =>
    obtain ⟨t, ht, h⟩ := Acts.run_cons_eq_some.1 h
    obtain ⟨hfit, hmore⟩ := balanced_proceed hd ht
    have := ih hfit (Classical.epsilon_spec hmore lost hb) h
    rwa [losses, ht, Option.elim_some, ← add_assoc]

theorem losses_le (acts : List Act) (a : Act) (d : Diary σ) :
    losses acts d ≤ losses (acts ++ [a]) d := by
  induction acts generalizing d with
  | nil => exact Multiset.zero_le _
  | cons b acts ih =>
    rw [List.cons_append, losses, losses]
    cases d.proceed b with
    | none => exact Multiset.zero_le _
    | some t => exact add_le_add_right (ih t) _

theorem balanced_start {s : Simulation σ} (hs : s.network.held = 0)
    (he : s.network.medium.events = .empty) (hstats : s.network.medium.stats = {}) :
    (start s).Balanced 0 := by
  have hzero : (start s).watch.medium.stats = {} := hstats
  have hnone : (start s).watch.entries = [] := congrArg EventQueue.entries he
  refine ⟨List.nodup_nil, nofun, ?_, nofun, nofun, fun l => ?_, ?_, ?_, ?_, ?_⟩
  · show _ + _ + s.network.held + packetsOf (start s).watch.entries + _ = _
    rw [hs, hnone]
    rfl
  · rw [hzero]
    cases l with
    | dropped reason => cases reason <;> rfl
    | noRoute => rfl
  · rw [hzero]
    rfl
  · rw [hzero]
    rfl
  · rw [hzero]
    rfl
  · rw [hzero, hnone]
    rfl

/-! ## Where the packets are -/

/-- The packets that wait at the stations. -/
def held (d : Diary σ) : Multiset Packet := d.watch.network.held

/-- The packets of deliveries that will be handed out. -/
def pending (d : Diary σ) : Multiset Packet := packetsOf (d.watch.entries.filter (!·.cancelled))

/-- The packets of cancelled deliveries. -/
def destroyed (d : Diary σ) : Multiset Packet := packetsOf d.watch.cancelledEvents

def arrived (d : Diary σ) : Multiset Packet := Network.packetsAt d.delivered

/-- Every packet is in one place, and the counters agree with the places. -/
structure Accounted (d : Diary σ) (lost : Multiset (Packet × Loss)) : Prop where
  distinct : (d.made.map Packet.uid).Nodup
  /-- No packet is anywhere that was not made. -/
  places : d.arrived + lost.map Prod.fst + d.held + d.pending + d.destroyed = d.made
  /-- Every packet is in exactly one place. -/
  once : ∀ p ∈ d.made, d.arrived.count p + (lost.map Prod.fst).count p + d.held.count p
    + d.pending.count p + d.destroyed.count p = 1
  destination : ∀ q ∈ d.delivered, q.1 = q.2.destination
  losses : ∀ l, d.watch.medium.stats.lossCount l = (lost.map Prod.snd).count l
  packets : d.watch.medium.stats.deliveredPackets = d.delivered.length
  bytes : d.watch.medium.stats.deliveredBytes = (d.delivered.map (·.2.size)).sum
  offered : d.watch.medium.stats.offeredDataBytes = (d.made.map Packet.size).sum
  bytes_le_offered : d.watch.medium.stats.deliveredBytes ≤ d.watch.medium.stats.offeredDataBytes
  marked : ∀ e ∈ d.watch.cancelledEvents, e.cancelled = true
  cancelled : d.watch.medium.stats.cancelledDeliveries = d.watch.cancelledEvents.length

theorem Balanced.accounted (h : d.Balanced lost) : d.Accounted lost := by
  have hplaces : d.arrived + lost.map Prod.fst + d.held + d.pending + d.destroyed
      = (d.made : Multiset Packet) := by
    rw [← h.balance, ← packetsOf_filter_add d.watch.entries, destroyed, Watch.cancelledEvents,
      packetsOf_append]
    simp only [arrived, held, pending]
    abel
  have hmade : d.made.Nodup := h.distinct.of_map
  refine ⟨h.distinct, hplaces, fun p hp => ?_, h.destination, h.losses, h.packets, h.bytes,
    h.offered, ?_, fun e he => ?_, ?_⟩
  · have hcount := congrArg (Multiset.count p) hplaces
    rw [Multiset.coe_count, List.count_eq_one_of_mem hmade hp] at hcount
    simpa only [Multiset.count_add] using hcount
  · have hle : d.arrived ≤ (d.made : Multiset Packet) := by
      rw [← hplaces, add_assoc, add_assoc, add_assoc]
      exact Multiset.le_add_right _ _
    obtain ⟨rest, hrest⟩ := Multiset.le_iff_exists_add.1 hle
    have hsum := congrArg (fun packets => (packets.map Packet.size).sum) hrest
    simp only [Multiset.map_coe, Multiset.sum_coe, Multiset.map_add, Multiset.sum_add] at hsum
    rw [h.offered, h.bytes, hsum, ← sum_size_packetsAt]
    exact Nat.le_add_right _ _
  · rcases List.mem_append.1 he with he | he
    · exact h.skipped e he
    · exact (List.mem_filter.1 he).2
  · rw [Watch.cancelledEvents, List.length_append, h.cancelled, markedIn, List.countP_eq_length_filter,
      Nat.add_comm]

/-- In every state of a run, whatever the agent answers and whenever packets arrive, each packet that
was made is in one place: delivered at its destination, lost and counted for its reason, waiting in
the data queue of a station, under way to the station it was sent to, or destroyed with a cancelled
delivery to that station. What is lost stays lost, for the same reason. -/
theorem packets_accounted {c : Config} (hc : c.Accepted) {agent : Agent σ} {agentState : σ}
    {s s' : Simulation σ} (hnew : Simulation.new c agent agentState = .ok s)
    (hrange : s.network.medium.HopsInRange) (hbegin : s.begin = .ok s') :
    ∃ lost : List Act → Multiset (Packet × Loss),
      (∀ acts a, lost acts ≤ lost (acts ++ [a])) ∧
      ∀ acts d, Acts.run proceed acts (start s') = some d → d.Accounted (lost acts) := by
  have hn : Network.ofConfig c c.nodeCount = .ok s.network := by
    obtain ⟨network, hn, rfl⟩ := Fault.map_eq_ok.1 hnew
    exact hn
  obtain ⟨hfit, hheld, hevents, hstats⟩ := Network.fit_ofConfig hc hn hrange
  have hgo := Simulation.begin_goes hfit hbegin
  obtain ⟨more, hmore⟩ : ∃ more, ∀ lost, (start s).Balanced lost →
      (start s').Balanced (lost + more) := balanced_quiet hgo rfl rfl
  have hstart := hmore 0 (balanced_start hheld hevents hstats)
  refine ⟨fun acts => 0 + more + losses acts (start s'), fun acts a => ?_, fun acts d h => ?_⟩
  · exact add_le_add_right (losses_le acts a _) _
  · exact (balanced_run hgo.1 hstart h).accounted

theorem run_twoPackets : ∃ s s',
    Simulation.new pair (.forNodes [some [0], some []]) Script.silence = .ok s ∧ s.begin = .ok s' ∧
    s.network.medium.positions = pair.nodes ∧ s.network.medium.channel.maxRange = 250.0 ∧
    s.network.medium.routes = ⟨[[none, some ⟨1, 1, 1⟩], [some ⟨0, 0, 1⟩, none]]⟩ ∧
    (Acts.run proceed twoPackets (start s')).map
      (fun d => (d.made, d.delivered, d.watch.medium.stats.lossCount (.dropped .queueFull)))
      = some ([⟨0, 0, 1, 0, 1000⟩, ⟨1, 0, 1, 0, 1000⟩], [(1, ⟨0, 0, 1, 0, 1000⟩)], 1) :=
  ⟨_, _, rfl, rfl, rfl, rfl, by decide +kernel, by decide +kernel⟩

theorem hopsInRange_pair {m : Medium} (hp : m.positions = pair.nodes)
    (hc : m.channel.maxRange = 250.0)
    (hr : m.routes = ⟨[[none, some ⟨1, 1, 1⟩], [some ⟨0, 0, 1⟩, none]]⟩) : m.HopsInRange := by
  intro node destination hop here there hhop hhere hthere
  rw [hp, pair] at hhere hthere
  rw [hr] at hhop
  rw [hc]
  rcases node with _ | _ | node <;> rcases destination with _ | _ | destination <;>
    simp [Routes.nextHop] at hhop
  all_goals
    subst hhop
    cases hhere
    cases hthere
    decide +kernel

theorem packets_accounted_twoPackets : ∃ s s' d lost,
    Simulation.new pair (.forNodes [some [0], some []]) Script.silence = .ok s ∧ s.begin = .ok s' ∧
    Acts.run proceed twoPackets (start s') = some d ∧ d.Accounted lost ∧
    d.made = [⟨0, 0, 1, 0, 1000⟩, ⟨1, 0, 1, 0, 1000⟩] ∧ d.delivered = [(1, ⟨0, 0, 1, 0, 1000⟩)] ∧
    (lost.map Prod.snd).count (.dropped .queueFull) = 1 := by
  obtain ⟨s, s', hnew, hbegin, hp, hc, hr, hrun⟩ := run_twoPackets
  obtain ⟨d, hd, hv⟩ := Option.map_eq_some_iff.1 hrun
  simp only [Prod.mk.injEq] at hv
  obtain ⟨hmade, hdelivered, hfull⟩ := hv
  obtain ⟨lost, -, hlost⟩ :=
    packets_accounted accepted_pair hnew (hopsInRange_pair hp hc hr) hbegin
  have haccounted := hlost twoPackets d hd
  exact ⟨s, s', d, lost twoPackets, hnew, hbegin, hd, haccounted, hmade, hdelivered,
    (haccounted.losses _).symm.trans hfull⟩

end SlotNet.Diary
