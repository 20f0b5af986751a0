import SlotNet.Proofs.Config
import SlotNet.Proofs.InOrder
import SlotNet.Proofs.SlotCapacity

/-!
# Packets have the size of the settings

The source of packets keeps the size of its packets, whatever the run does (`dispatch_packetSize`). So where
no source with another size is put in, all packets are as large as the settings say (`Diary.Sized`), and a
data slot is long enough for each of them (`Accepted.airtime_le`).
-/

namespace SlotNet

/-! ## A packet fits a slot -/

theorem Timing.airtime_le_of_capacity {bytes rate : Nat} {slot : Time} {bound : Nat} (hrate : 0 < rate)
    (hbound : capacity slot rate = .ok bound) (hfits : bytes ≤ bound) : airtime bytes rate ≤ slot := by
  unfold capacity at hbound
  split at hbound
  · cases hbound
    have hbits : bytes * 8 * Time.second ≤ slot * rate :=
      le_capacity_iff.1 (hfits.trans (Nat.mod_le _ _))
    exact airtime_le hrate hbits
  · cases hbound

/-- A data slot is long enough for a packet. -/
theorem Config.Accepted.airtime_le {c : Config} (hc : c.Accepted) (ht : c.traffic.enabled) :
    Timing.airtime (c.traffic.packetSize + Frame.overhead) c.frame.dataRate ≤ c.frame.slotTime := by
  obtain ⟨capacity, hcapacity, hfits⟩ := hc.packetSize ht
  exact Timing.airtime_le_of_capacity hc.dataRate hcapacity hfits

/-! ## The source keeps the size -/

namespace Traffic

theorem packetSize_arrive {t t' : Traffic} {s s' : Station} {m m' : Medium} {node : Nat}
    {destination : Option Nat} (h : t.arrive s m node = .ok (t', s', m', destination)) :
    t'.packetSize = t.packetSize := by
  have hsize := t.packetSize_nextGap
  unfold arrive at h
  generalize Random.Stream.index = index at h
  generalize t.nextGap = gap at h hsize
  rcases gap with ⟨_ | gap, t₁⟩ <;> obtain ⟨m₁, -, h⟩ := Fault.bind_eq_ok.1 h
  all_goals
    dsimp only at h
    split at h
    · cases h
      exact hsize
    · split at h
      · cases h
        exact hsize
      · obtain ⟨stats, -, h⟩ := Fault.bind_eq_ok.1 h
        obtain ⟨⟨s₁, m₂, result⟩, -, h⟩ := Fault.bind_eq_ok.1 h
        cases h
        exact hsize

theorem packetSize_scheduleFirst {count node : Nat} {t t' : Traffic} {events events' : EventQueue Event}
    (h : scheduleFirst count node t events = .ok (t', events')) : t'.packetSize = t.packetSize := by
  induction count generalizing node t events with
  | zero =>
    cases h
    rfl
  | succ count ih =>
    have hsize := t.packetSize_nextGap
    unfold scheduleFirst at h
    generalize t.nextGap = gap at h hsize
    rcases gap with ⟨_ | gap, t₁⟩
    · exact (ih h).trans hsize
    · obtain ⟨time, -, h⟩ := Fault.bind_eq_ok.1 h
      exact (ih h).trans hsize

end Traffic

namespace Network

variable {n n' : Network}

theorem traffic_grantAll {duration : Time} {control : Bool} {members : List Nat} {grants : List Grant}
    (h : n.grantAll duration control members = .ok (n', grants)) : n'.traffic = n.traffic := by
  induction members generalizing n grants with
  | nil =>
    cases h
    rfl
  | cons node members ih =>
    obtain ⟨⟨n₁, first⟩, h1, h⟩ := Fault.bind_eq_ok.1 h
    obtain ⟨⟨n₂, more⟩, h2, h⟩ := Fault.bind_eq_ok.1 h
    cases h
    obtain ⟨⟨n₃, sent⟩, h3, h1⟩ := Fault.bind_eq_ok.1 h1
    cases h1
    refine (ih h2).trans ?_
    rcases onStation_cases h3 with ⟨rfl, -, -⟩ | ⟨s, s', m, r, -, -, -, rfl⟩ <;> rfl

theorem traffic_runSlot {slot : Nat} {grants : List Grant} (h : n.runSlot slot = .ok (n', grants)) :
    n'.traffic = n.traffic := by
  rcases runSlot_cases h with ⟨-, rfl, -⟩ | ⟨n₁, delay, next, m, -, h1, -, -, rfl⟩
  · rfl
  · have hgrants := traffic_grantAll h1
    exact hgrants

theorem handle_packetSize {event : Event} {handled : Handled} (h : n.handle event = .ok (n', handled)) :
    n'.traffic.packetSize = n.traffic.packetSize := by
  cases event with
  | startFrame =>
    obtain ⟨⟨n₁, grants⟩, h1, h⟩ := Fault.map_eq_ok.1 h
    cases h
    have hslot := traffic_runSlot (n := { n with controller := n.controller.beginFrame, medium := _ }) h1
    exact congrArg Traffic.packetSize hslot
  | runSlot slot =>
    obtain ⟨⟨n₁, grants⟩, h1, h⟩ := Fault.map_eq_ok.1 h
    cases h
    exact congrArg Traffic.packetSize (traffic_runSlot h1)
  | continueSlot node slotEnd control =>
    rcases continueSlot_cases h with ⟨rfl, -⟩ | ⟨s, s', m, sent, -, -, -, rfl⟩ <;> rfl
  | deliver receiver frame =>
    rcases deliver_cases h with ⟨rfl, -, -⟩ | ⟨s, s', m, what, -, -, hwhat⟩
    · rfl
    · rcases hwhat with ⟨content, result, -, -, hmerge⟩ | ⟨-, rfl⟩
      · obtain ⟨-, stats, -, rfl⟩ := merge_cases hmerge
        rfl
      · rfl
  | envStep =>
    cases h
    rfl
  | arrival node =>
    rcases arrive_cases h with ⟨rfl, -⟩ | ⟨s, s', m, t, destination, -, ha, -, rfl⟩
    · rfl
    · exact Traffic.packetSize_arrive ha

end Network

namespace Simulation

variable {σ : Type} {s s' : Simulation σ}

theorem noteError_traffic {failed : Bool} (h : s.noteError failed = .ok s') :
    s'.network.traffic = s.network.traffic := by
  unfold noteError at h
  split at h
  · obtain ⟨stats, -, rfl⟩ := Fault.map_eq_ok.1 h
    rfl
  · cases h
    rfl

theorem ask_traffic {step : Step} {action : Action} (h : s.ask step = .ok (s', action)) :
    s'.network.traffic = s.network.traffic := by
  obtain ⟨⟨agentState, answer⟩, -, h⟩ := Fault.bind_eq_ok.1 h
  cases answer with
  | ok action =>
    cases h
    rfl
  | error e =>
    obtain ⟨t, h1, h⟩ := Fault.bind_eq_ok.1 h
    cases h
    exact noteError_traffic (s := { s with agentState }) h1

theorem envStep_traffic (h : s.envStep = .ok s') : s'.network.traffic = s.network.traffic := by
  unfold envStep at h
  dsimp only at h
  split at h
  · cases h
    rfl
  split at h
  · cases h
    rfl
  obtain ⟨⟨t, action⟩, h1, h⟩ := Fault.bind_eq_ok.1 h
  obtain ⟨⟨controller, medium, outcome⟩, -, h⟩ := Fault.bind_eq_ok.1 h
  obtain ⟨stats, -, h⟩ := Fault.bind_eq_ok.1 h
  cases h
  have hask := ask_traffic h1
  exact hask

theorem dispatch_packetSize {event : Event} (h : s.dispatch event = .ok s') :
    s'.network.traffic.packetSize = s.network.traffic.packetSize := by
  obtain ⟨network, handled, stats, t, h1, rfl, -, hrest⟩ := dispatch_cases h
  have hsize := Network.handle_packetSize h1
  rcases hrest with ⟨-, medium, -, rfl⟩ | ⟨-, -, henv⟩ | ⟨-, -, rfl⟩
  · exact hsize
  · exact (congrArg Traffic.packetSize (envStep_traffic henv)).trans hsize
  · exact hsize

theorem packetSize_of_new {c : Config} {agent : Agent σ} {agentState : σ}
    (h : new c agent agentState = .ok s) : s.network.traffic.packetSize = c.traffic.packetSize := by
  obtain ⟨network, hn, rfl⟩ := Fault.map_eq_ok.1 h
  obtain ⟨positions, -, hn⟩ := Fault.bind_eq_ok.1 hn
  obtain ⟨controller, -, hn⟩ := Fault.bind_eq_ok.1 hn
  cases hn
  rfl

theorem begin_packetSize (h : s.begin = .ok s') :
    s'.network.traffic.packetSize = s.network.traffic.packetSize := by
  obtain ⟨⟨agentState, answer⟩, -, h⟩ := Fault.bind_eq_ok.1 h
  obtain ⟨t, h1, h⟩ := Fault.bind_eq_ok.1 h
  obtain ⟨⟨n, started⟩, h2, h⟩ := Fault.bind_eq_ok.1 h
  obtain ⟨n', h3, h⟩ := Fault.bind_eq_ok.1 h
  cases h
  obtain ⟨⟨started', controller, events⟩, -, h2⟩ := Fault.bind_eq_ok.1 h2
  cases h2
  obtain ⟨⟨traffic, events'⟩, h4, h3⟩ := Fault.bind_eq_ok.1 h3
  cases h3
  have hnoted := noteError_traffic (s := { s with agentState }) h1
  exact (Traffic.packetSize_scheduleFirst h4).trans (congrArg Traffic.packetSize hnoted)

end Simulation

/-! ## Runs -/

/-- No source of packets of another size is put in. -/
def Watch.Act.Keeps (size : Nat) : Watch.Act → Prop
  | .change traffic => traffic.packetSize = size
  | _ => True

variable {σ : Type} {size : Nat} {a : Watch.Act}

theorem Watch.packetSize_step {w w' : Watch σ} (hw : w.network.traffic.packetSize = size)
    (ha : a.Keeps size) (h : w.step a = some w') : w'.network.traffic.packetSize = size := by
  cases a with
  | next limit =>
    rw [step] at h
    split at h
    · rename_i e time event network hhead hpop
      obtain ⟨s', hdispatch, rfl⟩ := Fault.toOption_map_eq_some.1 h
      rcases Network.popUntil_cases hpop with ⟨hnone, -⟩ | ⟨e', rest, -, -, rfl⟩
      · cases hnone
      · exact (Simulation.dispatch_packetSize hdispatch).trans hw
    · cases h
  | change traffic =>
    cases h
    exact ha
  | arrival time node =>
    cases h
    exact hw

namespace Diary

/-- All packets have one size. -/
structure Sized (size : Nat) (d : Diary σ) : Prop where
  source : d.watch.network.traffic.packetSize = size
  made : ∀ p ∈ d.made, p.size = size

variable {d d' : Diary σ} {e : Entry Event} {s : Simulation σ} {x : Deed}

theorem Sized.step (ho : d.watch.medium.events.Ordered) (hd : d.Sized size) (ha : a.Keeps size)
    (h : d.step a = some d') : d'.Sized size := by
  obtain ⟨watch, hstep, hwatch⟩ := Option.map_eq_some_iff.1 h
  refine ⟨?_, fun p hp => ?_⟩
  · have hsource := Watch.packetSize_step hd.source ha hstep
    rw [← hwatch]
    exact hsource
  rcases step_cases ho h with ⟨e, s, x, hh⟩ | ⟨-, hdeeds⟩
  · rw [hh.made_eq] at hp
    rcases List.mem_append.1 hp with hp | hp
    · exact hd.made p hp
    · have hmade : p.size = s.network.traffic.packetSize := by
        unfold Network.made at hp
        split at hp
        · rw [List.mem_singleton] at hp
          rw [hp]
        · cases hp
      rw [hmade, hh.watch.traffic]
      exact hd.source
  · rw [made_of_idles hdeeds] at hp
    exact hd.made p hp

theorem Sized.start {c : Config} {agent : Agent σ} {agentState : σ} {s' : Simulation σ}
    (hnew : Simulation.new c agent agentState = .ok s) (h : s.begin = .ok s') :
    (start s').Sized c.traffic.packetSize :=
  ⟨(Simulation.begin_packetSize h).trans (Simulation.packetSize_of_new hnew), nofun⟩

end Diary

end SlotNet
