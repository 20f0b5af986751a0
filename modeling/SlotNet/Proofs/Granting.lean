import SlotNet.Proofs.AnyOrder
import SlotNet.Proofs.Dispatch
import SlotNet.Proofs.Sending

/-!
# Stations take turns with their slots

A station that has sent a frame goes on with its slot when the air is free again. `Paced` says how
stations may go on and that each does so once; `Rests` that a station will not. `Speaks` is what some
stations do that are given a slot: each sends at most one frame from the right queue, to the station that
is next for it, and the frame ends within the slot.
-/

namespace SlotNet

/-- Is it a station that goes on with its slot? -/
def Event.isResumption : Event → Bool
  | .continueSlot _ _ _ => true
  | _ => false

/-- The station of a node goes on with its slot before that ends. -/
def Entry.Resumes (x : Entry Event) (node : Nat) (slotEnd : Time) (control : Bool) : Prop :=
  x.event = .continueSlot node slotEnd control ∧ x.time < slotEnd

theorem Entry.Resumes.isResumption {x : Entry Event} {node : Nat} {slotEnd : Time} {control : Bool}
    (h : x.Resumes node slotEnd control) : x.event.isResumption = true := by
  rw [h.1]
  rfl

namespace Medium

/-- The stations go on with their slots only as they may, and each of them once. -/
structure Paced (may : Nat → Time → Bool → Time → Prop) (m : Medium) : Prop where
  may : ∀ x ∈ m.events.entries, ∀ node slotEnd control, x.Resumes node slotEnd control →
    may node slotEnd control x.time
  once : ∀ x ∈ m.events.entries, ∀ y ∈ m.events.entries, ∀ node slotEnd slotEnd' control control',
    x.Resumes node slotEnd control → y.Resumes node slotEnd' control' → x = y

def Rests (m : Medium) (node : Nat) : Prop :=
  ∀ x ∈ m.events.entries, ∀ slotEnd control, ¬ x.Resumes node slotEnd control

/-- Nobody goes on who would not have gone on before. -/
def NoneResumes (m m' : Medium) : Prop :=
  ∀ x ∈ m'.events.entries, x.event.isResumption = true → x ∈ m.events.entries

variable {m m' m'' : Medium} {may may' : Nat → Time → Bool → Time → Prop} {node : Nat}
  {plans : Time → Event → Prop}

theorem NoneResumes.trans (h : m.NoneResumes m') (h' : m'.NoneResumes m'') : m.NoneResumes m'' :=
  fun x hx hr => h x (h' x hx hr) hr

theorem Leads.noneResumes (h : Leads plans m m') (hp : ∀ t e, plans t e → e.isResumption = false) :
    m.NoneResumes m' := by
  intro x hx hr
  have hother : x.event.isDelivery = false := by
    cases he : x.event <;> rw [he] at hr <;> first | rfl | cases hr
  rcases h.other x hx hother with hold | ⟨-, -, hplan⟩
  · exact hold
  · rw [hp _ _ hplan] at hr
    cases hr

theorem Paced.after (h : m.Paced may) (hn : m.NoneResumes m') : m'.Paced may where
  may x hx node slotEnd control hr :=
    h.may x (hn x hx hr.isResumption) node slotEnd control hr
  once x hx y hy node slotEnd slotEnd' control control' hr hr' :=
    h.once x (hn x hx hr.isResumption) y (hn y hy hr'.isResumption) node slotEnd slotEnd' control
      control' hr hr'

theorem Rests.after (h : m.Rests node) (hn : m.NoneResumes m') : m'.Rests node :=
  fun x hx slotEnd control hr => h x (hn x hx hr.isResumption) slotEnd control hr

theorem Paced.ofRests (h : ∀ node, m.Rests node) : m.Paced may where
  may x hx node slotEnd control hr := absurd hr (h node x hx slotEnd control)
  once x hx _ _ node slotEnd _ control _ hr := absurd hr (h node x hx slotEnd control)

section Schedule

variable {delay slotEnd : Time} {control : Bool}

theorem mem_resume (h : m.schedule delay (.continueSlot node slotEnd control) = .ok m')
    {x : Entry Event} (hx : x ∈ m'.events.entries) :
    (x.event = .continueSlot node slotEnd control ∧ x.time = m.now + delay ∧
      x.id = m.events.nextId) ∨ x ∈ m.events.entries := by
  rw [schedule_ok h] at hx
  rcases EventQueue.mem_scheduleAt.1 hx with rfl | hx
  · exact .inl ⟨rfl, max_add_now m delay, rfl⟩
  · exact .inr hx

theorem Paced.resume (h : m.Paced may) (ho : m.events.Ordered) (hrests : m.Rests node)
    (hs : m.schedule delay (.continueSlot node slotEnd control) = .ok m')
    (hmay : may node slotEnd control (m.now + delay)) : m'.Paced may := by
  have ho' : m'.events.Ordered := by
    rw [schedule_ok hs]
    exact ho.scheduleAt _ _
  have hnew : ∀ x ∈ m'.events.entries, ∀ k E b, x.Resumes k E b → x ∉ m.events.entries →
      k = node ∧ x.id = m.events.nextId := by
    rintro x hx k E b ⟨hevent, -⟩ hold
    rcases mem_resume hs hx with ⟨hevent', -, hid⟩ | hx
    · rw [hevent] at hevent'
      cases hevent'
      exact ⟨rfl, hid⟩
    · exact absurd hx hold
  refine ⟨fun x hx k E b hr => ?_, fun x hx y hy k E E' b b' hr hr' => ?_⟩
  · rcases mem_resume hs hx with ⟨hevent, htime, -⟩ | hx
    · rw [hr.1] at hevent
      cases hevent
      rw [htime]
      exact hmay
    · exact h.may x hx k E b hr
  · by_cases hx' : x ∈ m.events.entries <;> by_cases hy' : y ∈ m.events.entries
    · exact h.once x hx' y hy' k E E' b b' hr hr'
    · obtain ⟨rfl, -⟩ := hnew y hy k E' b' hr' hy'
      exact absurd hr (hrests x hx' E b)
    · obtain ⟨rfl, -⟩ := hnew x hx k E b hr hx'
      exact absurd hr' (hrests y hy' E' b')
    · exact ho'.eq_of_id hx hy ((hnew x hx k E b hr hx').2.trans (hnew y hy k E' b' hr' hy').2.symm)

theorem Rests.resume {k : Nat} (h : m.Rests k) (hk : k ≠ node)
    (hs : m.schedule delay (.continueSlot node slotEnd control) = .ok m') : m'.Rests k := by
  intro x hx E b hr
  rcases mem_resume hs hx with ⟨hevent, -⟩ | hx
  · rw [hr.1] at hevent
    cases hevent
    exact hk rfl
  · exact h x hx E b hr

end Schedule

end Medium

/-! ## Stations that are given a slot -/

/-- Which stations sent frames when they were given a slot, in order. -/
def Grant.senders (grants : List Grant) : List (Nat × Frame) :=
  grants.filterMap fun g => g.sent.map fun frame => (g.node, frame)

def Handled.senders : Event → Handled → List (Nat × Frame)
  | .startFrame, .granted grants => Grant.senders grants
  | .runSlot _, .granted grants => Grant.senders grants
  | .continueSlot node _ _, .continued sent => sent.toList.map fun frame => (node, frame)
  | _, _ => []

namespace Network

open Medium (Leads)

/-- The station of a node takes a frame from the queue that the slot empties, and sends it to the station
that is next for it. The frame ends within the slot. -/
def SendsIn (n : Network) (slotEnd : Time) (control : Bool) (node : Nat) (frame : Frame) : Prop :=
  ∃ s item receiver, n.stations[node]? = some s ∧ item ∈ s.queue.items (.ofSlot control) ∧
    s.receiverOf n.medium (.ofSlot control) item = some receiver ∧ frame = s.aired item receiver ∧
    n.now + Timing.airtime frame.size n.medium.dataRate ≤ slotEnd

/-- What some stations do that may use a slot up to its end. Each sends at most one frame, and those that
send go on when it has ended. -/
structure Speaks (n : Network) (slotEnd : Time) (control : Bool) (members : List Nat)
    (senders : List (Nat × Frame)) (n' : Network) : Prop where
  manned : n'.Manned
  traced : n'.medium.Traced
  now : n'.now = n.now
  routes : n'.medium.routes = n.medium.routes
  dataRate : n'.medium.dataRate = n.medium.dataRate
  others : ∀ k, k ∉ members → n'.stations[k]? = n.stations[k]?
  nodes : (senders.map Prod.fst).Sublist members
  sends : ∀ p ∈ senders, n.SendsIn slotEnd control p.1 p.2
  paced : ∀ may, n.medium.Paced may → (∀ p ∈ senders, n.medium.Rests p.1) →
    (∀ p ∈ senders, may p.1 slotEnd control
      (n.now + Timing.airtime p.2.size n.medium.dataRate)) → n'.medium.Paced may
  rests : ∀ k, k ∉ members → n.medium.Rests k → n'.medium.Rests k

variable {n n' n'' : Network} {slotEnd : Time} {control : Bool} {members members' : List Nat}
  {senders senders' : List (Nat × Frame)}

theorem Speaks.refl (hn : n.Manned) (hm : n.medium.Traced) :
    n.Speaks slotEnd control members [] n :=
  ⟨hn, hm, rfl, rfl, rfl, fun _ _ => rfl, List.nil_sublist _, nofun, fun _ h _ _ => h,
    fun _ _ h => h⟩

/-- What a station sends does not depend on what other stations did before. -/
theorem SendsIn.of_same {node : Nat} {frame : Frame} (h : n'.SendsIn slotEnd control node frame)
    (hstation : n'.stations[node]? = n.stations[node]?) (hnow : n'.now = n.now)
    (hroutes : n'.medium.routes = n.medium.routes) (hrate : n'.medium.dataRate = n.medium.dataRate) :
    n.SendsIn slotEnd control node frame := by
  obtain ⟨s, item, receiver, hs, hitem, hreceiver, hframe, hfits⟩ := h
  refine ⟨s, item, receiver, hstation ▸ hs, hitem, ?_, hframe, hnow ▸ hrate ▸ hfits⟩
  rw [← hreceiver]
  cases control <;> simp only [Station.receiverOf, QueueKind.ofSlot, hroutes]

theorem Speaks.append (h : n.Speaks slotEnd control members senders n')
    (h' : n'.Speaks slotEnd control members' senders' n'') (hd : members.Disjoint members') :
    n.Speaks slotEnd control (members ++ members') (senders ++ senders') n'' := by
  have hfirst : ∀ p ∈ senders, p.1 ∈ members := fun p hp =>
    h.nodes.subset (List.mem_map_of_mem hp)
  have hlater : ∀ p ∈ senders', p.1 ∈ members' := fun p hp =>
    h'.nodes.subset (List.mem_map_of_mem hp)
  have hnot : ∀ p ∈ senders', p.1 ∉ members := fun p hp hm => hd hm (hlater p hp)
  refine ⟨h'.manned, h'.traced, h'.now.trans h.now, h'.routes.trans h.routes,
    h'.dataRate.trans h.dataRate, fun k hk => ?_, ?_, fun p hp => ?_, fun may hpaced hrests hmay => ?_,
    fun k hk hrest => ?_⟩
  · rw [List.mem_append, not_or] at hk
    rw [h'.others k hk.2, h.others k hk.1]
  · rw [List.map_append]
    exact h.nodes.append h'.nodes
  · rcases List.mem_append.1 hp with hp | hp
    · exact h.sends p hp
    · exact (h'.sends p hp).of_same (h.others p.1 (hnot p hp)) h.now h.routes h.dataRate
  · rw [List.forall_mem_append] at hrests hmay
    refine h'.paced may (h.paced may hpaced hrests.1 hmay.1)
      (fun p hp => h.rests p.1 (hnot p hp) (hrests.2 p hp)) ?_
    rw [h.now, h.dataRate]
    exact hmay.2
  · rw [List.mem_append, not_or] at hk
    exact h'.rests k hk.2 (h.rests k hk.1 hrest)

theorem Speaks.leads (h : n.Speaks slotEnd control members senders n') {m : Medium}
    {plans : Time → Event → Prop} (hl : Leads plans n'.medium m)
    (hp : ∀ t e, plans t e → e.isResumption = false) (hroutes : m.routes = n'.medium.routes)
    (hrate : m.dataRate = n'.medium.dataRate) :
    n.Speaks slotEnd control members senders { n' with medium := m } := by
  have hnone := hl.noneResumes hp
  exact ⟨h.manned, hl.traced, hl.now.trans h.now, hroutes.trans h.routes, hrate.trans h.dataRate,
    h.others, h.nodes, h.sends,
    fun may hpaced hrests hmay => (h.paced may hpaced hrests hmay).after hnone,
    fun k hk hrest => (h.rests k hk hrest).after hnone⟩

theorem speaks_of_uses (hn : n.Manned) (hm : n.medium.Traced) {node : Nat} {s s' : Station}
    {m' : Medium} {sent : Option Frame} (hs : n.stations[node]? = some s) (hs' : s'.Fit node)
    (h : s.Uses n.medium slotEnd control s' m' sent) :
    n.Speaks slotEnd control [node] (sent.toList.map fun frame => (node, frame))
      { n with
        stations := n.stations.set node s'
        medium := m' } := by
  have hfit := hn node s hs
  have hmanned : Network.Manned { n with
      stations := n.stations.set node s'
      medium := m' } := Station.fit_of_set hn hs'
  have hothers : ∀ k, k ∉ [node] → (n.stations.set node s')[k]? = n.stations[k]? := by
    intro k hk
    exact List.getElem?_set_ne fun he => hk (List.mem_singleton.2 he.symm)
  cases sent with
  | none =>
    replace h : s.Sheds n.medium s' m' := h
    have hsent := h.sent
    have hleads : Leads (fun _ _ => False) n.medium m' := by
      rw [h.medium]
      exact .setStats hm _
    have hnone := hleads.noneResumes fun _ _ => False.elim
    exact ⟨hmanned, hleads.traced, hleads.now, hsent.routes, hsent.dataRate, hothers,
      List.nil_sublist _, nofun, fun may hpaced _ _ => hpaced.after hnone,
      fun k _ hrest => hrest.after hnone⟩
  | some frame =>
    obtain ⟨item, receiver, rfl, hairs⟩ := h
    have hitem : item ∈ s.queue.items (.ofSlot control) := hairs.taken.subset (.head _)
    have hsane : (s.aired item receiver).Sane := by
      cases control with
      | true =>
        rw [show s.queue.items (.ofSlot true) = s.queue.control from rfl, hfit.queue.control] at hitem
        cases hitem
      | false =>
        obtain ⟨hdata, hblank⟩ := hfit.queue.data item hitem
        exact fun _ => ⟨hdata, hblank⟩
    have hrates := hairs.sent
    obtain ⟨stats, m₁, o, hcounted, hsend, hnext⟩ := hairs.does
    rw [hfit.node_eq] at hsend hnext
    have hbefore : Leads (fun _ _ => False) n.medium { n.medium with stats } := .setStats hm stats
    have hleads : Leads (fun _ _ => False) n.medium m₁ :=
      hbefore.trans (.transmit hbefore.traced hsane hsend)
    have hnone := hleads.noneResumes fun _ _ => False.elim
    have hthen : Leads (fun _ _ => True) m₁ m' := .schedule hleads.traced rfl trivial hnext
    have hdue : m₁.now + Timing.airtime (s.aired item receiver).size n.medium.dataRate
        = n.now + Timing.airtime (s.aired item receiver).size n.medium.dataRate := by
      rw [hleads.now]
      rfl
    refine ⟨hmanned, hthen.traced, hthen.now.trans hleads.now, hrates.routes, hrates.dataRate, hothers,
      .refl _, ?_, fun may hpaced hrests hmay => ?_, fun k hk hrest => ?_⟩
    · intro p hp
      rw [Option.toList_some, List.map_singleton, List.mem_singleton] at hp
      subst hp
      exact ⟨s, item, receiver, hs, hitem, hairs.address, rfl, hairs.fits⟩
    · have hmay' := hmay _ (.head _)
      rw [← hdue] at hmay'
      rw [QueueKind.decide_ofSlot] at hnext
      exact (hpaced.after hnone).resume hleads.traced.ordered ((hrests _ (.head _)).after hnone) hnext
        hmay'
    · exact (hrest.after hnone).resume (fun he => hk (List.mem_singleton.2 he)) hnext

theorem grant_speaks (hn : n.Manned) (hm : n.medium.Traced) {node : Nat} {duration : Time}
    {grants : List Grant} (h : n.grant node duration control = .ok (n', grants)) :
    n.Speaks (n.now + duration) control [node] (Grant.senders grants) n' := by
  obtain ⟨⟨n₁, sent⟩, h1, h⟩ := Fault.bind_eq_ok.1 h
  cases h
  rcases onStation_cases h1 with ⟨rfl, rfl, hnone⟩ | ⟨s, s', m, r, hs, ha, rfl, rfl⟩
  · exact .refl hn hm
  · have hspeaks := speaks_of_uses hn hm hs
      (Station.startSlot_does (hn node s hs) hm.ordered ha).1 (Station.startSlot_spec ha)
    cases r <;> exact hspeaks

theorem grantAll_speaks (hn : n.Manned) (hm : n.medium.Traced) (hd : members.Nodup)
    {duration : Time} {grants : List Grant}
    (h : n.grantAll duration control members = .ok (n', grants)) :
    n.Speaks (n.now + duration) control members (Grant.senders grants) n' := by
  induction members generalizing n grants with
  | nil =>
    cases h
    exact .refl hn hm
  | cons node members ih =>
    obtain ⟨hnode, hd⟩ := List.nodup_cons.1 hd
    obtain ⟨⟨n₁, first⟩, h1, h⟩ := Fault.bind_eq_ok.1 h
    obtain ⟨⟨n₂, more⟩, h2, h⟩ := Fault.bind_eq_ok.1 h
    cases h
    have hfirst := grant_speaks hn hm h1
    have hrest := ih hfirst.manned hfirst.traced hd h2
    rw [hfirst.now] at hrest
    rw [Grant.senders, List.filterMap_append]
    exact hfirst.append hrest (List.singleton_disjoint.2 hnode)

/-- At the beginning of a slot those speak who are entitled to it. -/
theorem runSlot_speaks (hn : n.Manned) (hm : n.medium.Traced) {slot : Nat}
    (hslot : slot < n.controller.totalSlots)
    (hd : ((n.controller.openSlot slot).entitled slot).Nodup) {grants : List Grant}
    (h : n.runSlot slot = .ok (n', grants)) :
    n.Speaks (n.now + (n.controller.openSlot slot).slotDuration slot)
      (Timing.isControlSlot (n.controller.openSlot slot).nodeCount slot)
      ((n.controller.openSlot slot).entitled slot)
      (Grant.senders grants) n' := by
  rcases runSlot_cases h with ⟨hpast, -⟩ | ⟨n₁, delay, next, m, -, h1, h2, h3, rfl⟩
  · exact absurd hslot (Nat.not_lt_of_le hpast)
  have hspeaks := grantAll_speaks (n := { n with controller := n.controller.openSlot slot }) hn hm hd h1
  have hnext : next.isDelivery = false ∧ next.isResumption = false := by
    rcases next_of_following h2 with rfl | rfl <;> exact ⟨rfl, rfl⟩
  have hleads : Leads (fun _ e => e = next) n₁.medium m :=
    .schedule hspeaks.traced hnext.1 rfl h3
  have hsent := Medium.sent_schedule h3
  exact { hspeaks.leads hleads (fun t e he => he ▸ hnext.2) hsent.routes hsent.dataRate with }

theorem opening_speaks (hn : n.Manned) (hm : n.medium.Traced) (hc : n.controller.Shaped) {event : Event}
    {slot : Nat} (hevent : event.slot? = some slot) (hslot : slot < n.controller.totalSlots)
    (honce : n'.controller.Once) {handled : Handled} (h : n.handle event = .ok (n', handled)) :
    n.Speaks (n.now + n'.controller.slotDuration slot)
      (Timing.isControlSlot n'.controller.nodeCount slot) (n'.controller.entitled slot)
      (Handled.senders event handled) n' := by
  cases event with
  | startFrame =>
    cases hevent
    obtain ⟨⟨n₁, grants⟩, h1, h⟩ := Fault.map_eq_ok.1 h
    cases h
    have htotal : 0 < n.controller.beginFrame.totalSlots := by
      have hbegins := Controller.beginsFrom_beginFrame n.controller
      rw [hc.totalSlots] at hslot
      rwa [hc.beginFrame.totalSlots, hbegins.nodeCount, hbegins.layout]
    have hopens := runFrame_opens hn hm.ordered htotal h1
    have hcount : ({ n.medium with stats := { n.medium.stats with
        framesCompleted := n.controller.beginFrame.frameIndex - 1 } } : Medium).Traced := hm.setStats _
    rw [hopens.controller] at honce ⊢
    have hspeaks := runSlot_speaks (n := { n with
      controller := n.controller.beginFrame
      medium := _ }) hn hcount htotal (honce.entitled 0) h1
    exact ⟨hspeaks.manned, hspeaks.traced, hspeaks.now, hspeaks.routes, hspeaks.dataRate,
      hspeaks.others, hspeaks.nodes, hspeaks.sends,
      fun may hpaced => hspeaks.paced may (hpaced.after fun _ hx _ => hx), hspeaks.rests⟩
  | runSlot k =>
    cases hevent
    obtain ⟨⟨n₁, grants⟩, h1, h⟩ := Fault.map_eq_ok.1 h
    cases h
    have hopens := runSlot_opens hn hm.ordered hslot h1
    rw [hopens.controller] at honce ⊢
    exact runSlot_speaks hn hm hslot (honce.entitled slot) h1
  | _ => cases hevent

theorem continueSlot_speaks (hn : n.Manned) (hm : n.medium.Traced) {node : Nat} {handled : Handled}
    (h : n.continueSlot node slotEnd control = .ok (n', handled)) :
    n.Speaks slotEnd control [node]
      (Handled.senders (.continueSlot node slotEnd control) handled) n' := by
  rcases continueSlot_cases h with ⟨rfl, rfl⟩ | ⟨s, s', m, sent, hs, ha, rfl, rfl⟩
  · exact .refl hn hm
  · exact speaks_of_uses hn hm hs (Station.continueSlot_does (hn node s hs) hm.ordered ha).1
      (Station.continueSlot_spec ha)

end Network

end SlotNet
