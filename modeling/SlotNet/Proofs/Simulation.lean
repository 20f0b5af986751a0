import SlotNet.Proofs.Network
import SlotNet.Simulation

/-!
# What a run does with packets

`dispatch_goes` is the balance of one event of a run, whatever the agent answers.
-/

namespace SlotNet

theorem Controller.reserve_goes {nodes node : Nat} {held : Multiset Packet} {c c' : Controller}
    {m m' : Medium} {outcome : TransmitOutcome} (hm : m.Fit nodes) (hn : node < nodes)
    (h : c.reserve m node = .ok (c', m', outcome)) : Medium.Goes nodes held m held m' 0 0 0 := by
  unfold reserve at h
  dsimp only at h
  split at h
  · obtain ⟨stats, h1, h⟩ := Fault.bind_eq_ok.1 h
    obtain ⟨stats', h2, h⟩ := Fault.bind_eq_ok.1 h
    obtain ⟨⟨m₁, outcome'⟩, h3, h⟩ := Fault.bind_eq_ok.1 h
    cases h
    have hgo₁ : Medium.Goes nodes held m held m.takeUid.2 0 0 0 := .takeUid hm
    have hgo₂ := hgo₁.step (.ofSame hgo₁.1 (Stats.tally_recordTransmission h1))
    have hgo₃ := hgo₂.step (.ofSame hgo₂.1 (Stats.tally_recordReservation h2))
    exact hgo₃.step (.transmit_control hgo₃.1 hn (by rintro ⟨⟩) h3)
  · cases h
    exact .refl hm

namespace Simulation

open Network (Goes)

variable {σ : Type} {nodes : Nat} {s s' : Simulation σ}

theorem setStats_goes (hs : s.network.Fit nodes) {stats : Stats}
    (h : stats.tally = s.network.medium.stats.tally) :
    Goes nodes s.network (s.setStats stats).network 0 0 0 := .ofStats hs h

theorem noteError_goes (hs : s.network.Fit nodes) {failed : Bool}
    (h : s.noteError failed = .ok s') : Goes nodes s.network s'.network 0 0 0 := by
  unfold noteError at h
  split at h
  · obtain ⟨stats, h1, rfl⟩ := Fault.map_eq_ok.1 h
    exact setStats_goes hs (Stats.tally_recordAgentError h1)
  · cases h
    exact .refl hs

/-! ## Steps of the environment -/

theorem ask_goes (hs : s.network.Fit nodes) {step : Step} {action : Action}
    (h : s.ask step = .ok (s', action)) : Goes nodes s.network s'.network 0 0 0 := by
  obtain ⟨⟨agentState, answer⟩, h1, h⟩ := Fault.bind_eq_ok.1 h
  cases answer with
  | ok action =>
    cases h
    exact .refl hs
  | error e =>
    obtain ⟨t, h2, h⟩ := Fault.bind_eq_ok.1 h
    cases h
    exact noteError_goes (s := { s with agentState }) hs h2

theorem act_goes (hs : s.network.Fit nodes) {node : Nat} (hn : node < nodes) {action : Action}
    (h : s.act node action = .ok s') : Goes nodes s.network s'.network 0 0 0 := by
  obtain ⟨⟨controller, medium, outcome⟩, h1, h⟩ := Fault.bind_eq_ok.1 h
  obtain ⟨stats, h2, h⟩ := Fault.bind_eq_ok.1 h
  cases h
  have hgo₁ : Goes nodes s.network { s.network with medium } 0 0 0 :=
    .ofMedium hs (Controller.reserve_goes hs.medium hn h1)
  have hgo₂ := hgo₁.step (.ofStats hgo₁.1 (Stats.tally_recordEnvStep h2))
  exact hgo₂.step (.ofParts hgo₂.1 controller s.network.traffic)

theorem envStep_goes (hs : s.network.Fit nodes) (h : s.envStep = .ok s') :
    Goes nodes s.network s'.network 0 0 0 := by
  unfold envStep at h
  dsimp only at h
  split at h
  · cases h
    exact .refl hs
  · rename_i station hstation
    have hlook : ∀ done, Goes nodes s.network
        (s.observe s.environment.currentNode station done).2.network 0 0 0 :=
      fun _ => .ofParts hs _ _
    split at h
    · cases h
      exact hlook _
    · obtain ⟨⟨t, action⟩, h1, h⟩ := Fault.bind_eq_ok.1 h
      have hgo := (hlook _).step (ask_goes (hlook _).1 h1)
      exact hgo.step (act_goes hgo.1 (hs.lt hstation) h)

/-! ## Events -/

/-- What happens when an event of a run is handled, in packets. -/
theorem dispatch_goes (hs : s.network.Fit nodes) {event : Event} (he : event.Fit nodes)
    (h : s.dispatch event = .ok s') :
    ∃ network handled, s.network.handle event = .ok (network, handled) ∧
      Goes nodes s.network s'.network (event.packets + s.network.made event handled)
        (Network.packetsAt (Network.delivered event handled))
        ((s.network.made event handled).map Packet.size).sum ∧
      (∀ p ∈ s.network.made event handled, p.uid < s'.network.medium.nextUid) ∧
      ∀ d ∈ Network.delivered event handled, d.1 = d.2.destination := by
  unfold dispatch at h
  obtain ⟨⟨network, handled⟩, h1, h⟩ := Fault.bind_eq_ok.1 h
  obtain ⟨hgo, hnew, hdest⟩ := Network.handle_goes hs he h1
  refine ⟨network, handled, h1, ?_⟩
  suffices hrest : Goes nodes network s'.network 0 0 0 by
    obtain ⟨lost, hmoves⟩ := hrest.2.2
    exact ⟨hgo.after hrest, fun p hp => (hnew p hp).trans_le hmoves.nextUid, hdest⟩
  have hrest : ∃ stats : Stats, stats.tally = network.medium.stats.tally ∧
      (let t := ({ s with network }).setStats stats
       if t.opensControlSlot event then do
          let medium ← t.network.medium.schedule 0 .envStep
          return { t with network := { t.network with medium } }
        else if event = .envStep then t.envStep
        else return t) = .ok s' := by
    dsimp only at h
    split at h
    · obtain ⟨stats, h2, h⟩ := Fault.bind_eq_ok.1 h
      exact ⟨stats, Stats.tally_recordMalformed h2, h⟩
    · exact ⟨_, rfl, h⟩
  obtain ⟨stats, htally, h⟩ := hrest
  have hgo₁ : Goes nodes network _ 0 0 0 :=
    setStats_goes (s := { s with network }) hgo.1 htally
  dsimp only at h
  split at h
  · obtain ⟨medium, h2, h⟩ := Fault.bind_eq_ok.1 h
    cases h
    exact hgo₁.step (.ofMedium hgo₁.1 (.schedule hgo₁.1.medium (by rfl) (by trivial) h2))
  · split at h
    · exact hgo₁.step (envStep_goes hgo₁.1 h)
    · cases h
      exact hgo₁

end Simulation

end SlotNet
