import SlotNet.Proofs.Load

/-!
# A run ends

`Simulation.Loop` is the loop over the events of a run with no bound on their number. `loop_ends`: it has
no more turns than `Config.mostEvents`, whatever the agent answers, provided that no packet is followed by
another one of the same node at once (`Spaced`). The bound of `Simulation.run` is greater and cuts nothing
off.
-/

namespace SlotNet

/-! ## Times -/

namespace Binary

theorem ratio_den_pos (m : Nat) (q : Int) : 0 < (ratio m q).2 := Nat.pow_pos (by decide)

theorem roundHalfEven_le {num den limit : Nat} (hd : 0 < den) (h : num ≤ limit * den) :
    roundHalfEven num den ≤ limit := by
  have hlow : num / den ≤ limit := Nat.div_le_of_le_mul (Nat.mul_comm limit den ▸ h)
  have hsplit := Nat.div_add_mod num den
  unfold roundHalfEven
  dsimp only
  split
  · rename_i hup
    refine Nat.lt_of_le_of_ne hlow fun heq => ?_
    rw [heq, Nat.mul_comm] at hsplit
    omega
  · exact hlow

end Binary

theorem Time.le_limit_of_ofSeconds? {secs : Float} {t : Time} (h : ofSeconds? secs = some t) :
    t ≤ limit := by
  unfold ofSeconds? at h
  split at h
  · cases h
  · cases h
  · rename_i negative m q _
    dsimp only at h
    split at h
    · cases h
    · rename_i hin
      cases h
      have hnum := Nat.le_of_lt (Nat.lt_of_not_le (not_or.1 hin).2)
      refine Binary.roundHalfEven_le (Binary.ratio_den_pos m q) ?_
      calc (Binary.ratio m q).1 * second ≤ Count.limit * (Binary.ratio m q).2 * second :=
            Nat.mul_le_mul_right _ hnum
        _ = limit * (Binary.ratio m q).2 := Nat.mul_right_comm ..

theorem Config.duration_le (c : Config) : c.duration ≤ Time.limit := by
  unfold duration
  cases h : Time.ofSeconds? c.durationSecs with
  | none => exact Nat.zero_le _
  | some t => exact Time.le_limit_of_ofSeconds? h

/-- The most events that are due in a run: the load of the first frame and of the first packets. -/
def Config.mostEvents (c : Config) : Nat :=
  ((c.duration + 1) * (c.nodeCount + 2)) ^ 2 + c.nodeCount * (c.duration + 1)

/-- The bound on the events of a run is out of reach. -/
theorem Config.Accepted.mostEvents_lt {c : Config} (hc : c.Accepted) :
    c.mostEvents < Simulation.eventBound := by
  have hnodes := hc.nodeCount.2
  have hduration := c.duration_le
  calc c.mostEvents
      ≤ ((Time.limit + 1) * (ConfigError.mostNodes + 2)) ^ 2
        + ConfigError.mostNodes * (Time.limit + 1) := by
        unfold mostEvents
        gcongr
    _ < Simulation.eventBound := by decide

variable {σ : Type}

/-! ## The loop -/

namespace Simulation

def due (s : Simulation σ) : Option (Time × Event) := (s.network.popUntil s.horizon).1

/-- The loop over the events of a run up to its horizon: the turns that it has, and what it ends with. -/
inductive Loop : Simulation σ → Nat → Except Fault (Simulation σ) → Prop
  /-- Nothing more is due. -/
  | ended {s : Simulation σ} {network : Network}
    (hpop : s.network.popUntil s.horizon = (none, network)) : Loop s 0 (.ok { s with network })
  /-- Handling an event is a fault. -/
  | fault {s : Simulation σ} {time : Time} {event : Event} {network : Network} {fault : Fault}
    (hpop : s.network.popUntil s.horizon = (some (time, event), network))
    (h : ({ s with network }).dispatch event = .error fault) : Loop s 1 (.error fault)
  /-- An event is handled, and the loop goes on. -/
  | next {s s' : Simulation σ} {time : Time} {event : Event} {network : Network} {turns : Nat}
    {result : Except Fault (Simulation σ)}
    (hpop : s.network.popUntil s.horizon = (some (time, event), network))
    (h : ({ s with network }).dispatch event = .ok s') (hrest : Loop s' turns result) :
    Loop s (turns + 1) result

variable {s s' : Simulation σ}

theorem runEvents_succ {time : Time} {event : Event} {network : Network}
    (hpop : s.network.popUntil s.horizon = (some (time, event), network))
    (h : ({ s with network }).dispatch event = .ok s') (bound : Nat) :
    runEvents (bound + 1) s = runEvents bound s' := by
  rw [runEvents, hpop]
  dsimp only
  rw [h]
  rfl

theorem Loop.runEvents_eq {turns : Nat} {result : Except Fault (Simulation σ)}
    (h : s.Loop turns result) {bound : Nat} (hb : turns < bound) : runEvents bound s = result := by
  induction h generalizing bound with
  | ended hpop =>
    obtain ⟨fuel, rfl⟩ := Nat.exists_eq_succ_of_ne_zero (Nat.ne_of_gt hb)
    rw [runEvents, hpop]
  | fault hpop h =>
    obtain ⟨fuel, rfl⟩ := Nat.exists_eq_succ_of_ne_zero (Nat.ne_of_gt (Nat.zero_lt_of_lt hb))
    rw [runEvents, hpop]
    dsimp only
    rw [h]
    rfl
  | next hpop h _ ih =>
    obtain ⟨fuel, rfl⟩ := Nat.exists_eq_succ_of_ne_zero (Nat.ne_of_gt (Nat.zero_lt_of_lt hb))
    exact (runEvents_succ hpop h fuel).trans (ih (Nat.lt_of_succ_lt_succ hb))

/-- Each gap that is drawn up to the horizon when a packet arrives lasts a nanosecond or longer. -/
def Spaced (s : Simulation σ) : Prop :=
  ∀ bound t, runEvents bound s = .ok t → ∀ time node, t.due = some (time, .arrival node) →
    ∀ gap, t.network.traffic.nextGap.1 = some gap → 0 < gap

theorem Spaced.next (hs : s.Spaced) {time : Time} {event : Event} {network : Network}
    (hpop : s.network.popUntil s.horizon = (some (time, event), network))
    (h : ({ s with network }).dispatch event = .ok s') : s'.Spaced :=
  fun bound t ht => hs (bound + 1) t ((runEvents_succ hpop h bound).trans ht)

/-! ## The configuration -/

theorem envStep_config (h : s.envStep = .ok s') : s'.config = s.config := by
  unfold envStep at h
  dsimp only at h
  split at h
  · cases h
    rfl
  · split at h
    · cases h
      rfl
    · obtain ⟨⟨t, action⟩, h1, h⟩ := Fault.bind_eq_ok.1 h
      obtain ⟨agentState, answer, stats, -, -, -, -, rfl⟩ := ask_spec h1
      obtain ⟨⟨controller, medium, outcome⟩, -, h⟩ := Fault.bind_eq_ok.1 h
      obtain ⟨stats', -, h⟩ := Fault.bind_eq_ok.1 h
      cases h
      rfl

theorem dispatch_config {event : Event} (h : s.dispatch event = .ok s') : s'.config = s.config := by
  obtain ⟨network, handled, stats, t, -, rfl, -, hrest⟩ := dispatch_cases h
  rcases hrest with ⟨-, medium, -, rfl⟩ | ⟨-, -, h⟩ | ⟨-, -, rfl⟩
  · rfl
  · exact (envStep_config h).trans rfl
  · rfl

theorem begin_config (h : s.begin = .ok s') : s'.config = s.config := by
  obtain ⟨⟨agentState, answer⟩, -, h⟩ := Fault.bind_eq_ok.1 h
  obtain ⟨t, h1, h⟩ := Fault.bind_eq_ok.1 h
  obtain ⟨⟨n, started⟩, -, h⟩ := Fault.bind_eq_ok.1 h
  obtain ⟨n', -, h⟩ := Fault.bind_eq_ok.1 h
  cases h
  unfold noteError at h1
  split at h1
  · obtain ⟨stats, -, rfl⟩ := Fault.map_eq_ok.1 h1
    rfl
  · cases h1
    rfl

/-! ## Before the first event -/

theorem begin_loads {c : Config} (hn : s.network.Still c) (h : s.begin = .ok s') :
    Medium.Loads c.nodeCount c.duration c.mostEvents s.network.medium s'.network.medium := by
  obtain ⟨m, m₁, t, t', hquiet, hframe, hfirst, hmedium, -, -⟩ := begin_cases hn.started h
  have hm : Medium.Loads c.nodeCount c.duration 0 s.network.medium m :=
    hquiet.loads hn.traced.ordered
  have hframe' := hm.trans (.schedule hm.ordered hframe)
  have hall := hframe'.trans (Traffic.scheduleFirst_loads hframe'.ordered hfirst)
  rw [hmedium]
  refine hall.mono ?_
  rw [Nat.zero_add, hn.length]
  exact Nat.add_le_add_right (Event.load_mono .startFrame (Nat.sub_le _ _)) _

end Simulation

/-! ## The end of the loop -/

theorem Network.time_le_of_popUntil {n n' : Network} {limit time : Time} {event : Event}
    (h : n.popUntil limit = (some (time, event), n')) : time ≤ limit := by
  rcases popUntil_cases h with ⟨hnone, -⟩ | ⟨e, rest, hrest, hnext, -⟩
  · cases hnone
  · obtain ⟨rfl, -⟩ := Prod.mk.inj (Option.some.inj hnext)
    unfold popUntil peekTime EventQueue.peekTime at h
    simp only [hrest, List.head?_cons, Option.map_some] at h
    split at h
    · cases h
    · rename_i hle
      exact Nat.le_of_not_lt hle

namespace Watch

variable {c : Config} {w w' : Watch σ} {e : Entry Event} {s : Simulation σ}

theorem Regular.load_lt (hc : c.Accepted) (hw : w.Regular c) (h : w.Handles e s w')
    (hl : w.medium.channel.endpoints.length = c.nodeCount) (he : e.time ≤ c.duration)
    (hgap : ∀ node, e.event = .arrival node →
      ∀ gap, w.network.traffic.nextGap.1 = some gap → 0 < gap) :
    w'.medium.channel.endpoints.length = c.nodeCount ∧
      w'.medium.events.load c.nodeCount c.duration < w.medium.events.load c.nodeCount c.duration := by
  have hchannel : s.network.medium.channel = w.medium.channel := by rw [h.medium]
  rw [← hchannel] at hl
  rw [← h.traffic] at hgap
  have hloads := hw.loads hc h hl he hgap
  have hpop : s.network.medium.events.load c.nodeCount c.duration
      + e.event.load c.nodeCount (c.duration + 1 - e.time)
      ≤ w.medium.events.load c.nodeCount c.duration := EventQueue.load_pop h.popped
  have hbrings := e.event.brings_lt_load c.nodeCount (c.duration - e.time)
  have hle := hloads.load_le
  rw [Nat.sub_add_comm he] at hpop
  refine ⟨(congrArg List.length hloads.endpoints).trans hl, ?_⟩
  omega

theorem load_pos {rest : List (Entry Event)} (hrest : w.medium.events.settle.entries = e :: rest)
    (he : e.time ≤ c.duration) : 0 < w.medium.events.load c.nodeCount c.duration := by
  have hpopped : w.medium.events.pop = (some (e.time, e.event), { w.medium.events with
      now := e.time
      entries := rest }) := by
    rw [EventQueue.pop, hrest]
    rfl
  have hpop := Nat.le_trans (Nat.le_add_left _ _)
    (EventQueue.load_pop hpopped : _ ≤ w.medium.events.load c.nodeCount c.duration)
  have hbrings := e.event.brings_lt_load c.nodeCount (c.duration - e.time)
  rw [Nat.sub_add_comm he] at hpop
  exact Nat.lt_of_lt_of_le (Nat.zero_lt_of_lt hbrings) hpop

theorem exists_handles {network : Network} {limit : Time} {rest : List (Entry Event)}
    (ho : w.medium.events.Ordered) (hrest : w.medium.events.settle.entries = e :: rest)
    (hpop : w.network.popUntil limit = (some (e.time, e.event), network))
    (h : (w.setNetwork network).simulation.dispatch e.event = .ok s) :
    ∃ t, w.Handles e t (w.note e s) := by
  have hhead : w.medium.events.settle.entries.head? = some e := by
    rw [hrest]
    rfl
  obtain ⟨e', t, hh⟩ := handles_of_step ho (step_next hhead hpop h)
  obtain rfl : e' = e := Option.some.inj (hh.head.symm.trans hhead)
  exact ⟨t, hh⟩

/-- As long as events are due the load falls, so the loop has no more turns than the load. -/
theorem Regular.exists_loop (hc : c.Accepted) (hw : w.Regular c)
    (hl : w.medium.channel.endpoints.length = c.nodeCount) (hconfig : w.simulation.config = c)
    (hs : w.simulation.Spaced) : ∃ turns result,
      turns ≤ w.medium.events.load c.nodeCount c.duration ∧ w.simulation.Loop turns result := by
  induction hload : w.medium.events.load c.nodeCount c.duration using Nat.strong_induction_on
    generalizing w with
  | h load ih =>
    subst hload
    cases hpop : w.network.popUntil w.simulation.horizon with
    | mk next network =>
      rcases Network.popUntil_cases hpop with ⟨rfl, -⟩ | ⟨e, rest, hrest, rfl, hnetwork⟩
      · exact ⟨0, _, Nat.zero_le _, .ended hpop⟩
      · have he : e.time ≤ c.duration := by
          have hle := Network.time_le_of_popUntil hpop
          rwa [Simulation.horizon, hconfig] at hle
        cases hd : (w.setNetwork network).simulation.dispatch e.event with
        | error fault => exact ⟨1, _, load_pos hrest he, .fault hpop hd⟩
        | ok t =>
          obtain ⟨s, hh⟩ := exists_handles hw.onTime.traced.ordered hrest hpop hd
          have hgap : ∀ node, e.event = .arrival node →
              ∀ gap, w.network.traffic.nextGap.1 = some gap → 0 < gap := by
            intro node hnode
            apply hs 0 w.simulation rfl e.time node
            rw [← hnode]
            exact congrArg Prod.fst hpop
          obtain ⟨hl', hlt⟩ := hw.load_lt hc hh hl he hgap
          obtain ⟨turns, result, hle, hloop⟩ := ih _ hlt (hw.handles hc hh) hl'
            ((Simulation.dispatch_config hd).trans hconfig) (hs.next hpop hd) rfl
          exact ⟨turns + 1, result, Nat.lt_of_le_of_lt hle hlt, .next hpop hd hloop⟩

end Watch

namespace Simulation

variable {s s' : Simulation σ}

/-! ## Deciding that gaps last -/

/-- Is the loop over after fewer than so many turns, and did each gap last until then? -/
def spacedWithin : Nat → Simulation σ → Bool
  | 0, _ => false
  | bound + 1, s =>
    match s.network.popUntil s.horizon with
    | (none, _) => true
    | (some (_, event), network) =>
      (match event with
        | .arrival _ => s.network.traffic.nextGap.1.all (0 < ·)
        | _ => true) &&
      match ({ s with network }).dispatch event with
      | .ok s => spacedWithin bound s
      | .error _ => true

theorem due_of_ended {network : Network} (h : s.network.popUntil s.horizon = (none, network)) :
    ({ s with network }).due = none := by
  rcases Network.popUntil_cases h with ⟨-, rfl⟩ | ⟨e, rest, -, hnone, -⟩
  · unfold due Network.popUntil Network.peekTime EventQueue.peekTime at *
    simp only [Network.setEvents, EventQueue.settle_settle] at *
    exact congrArg Prod.fst h
  · cases hnone

theorem spaced_of_spacedWithin {bound : Nat} (h : s.spacedWithin bound = true) : s.Spaced := by
  induction bound generalizing s with
  | zero => cases h
  | succ bound ih =>
    intro fuel t ht time node hdue gap hgap
    unfold spacedWithin at h
    cases hpop : s.network.popUntil s.horizon with
    | mk next network =>
      have hnext : s.due = next := congrArg Prod.fst hpop
      rw [hpop] at h
      cases next with
      | none =>
        cases fuel with
        | zero =>
          cases ht
          rw [hnext] at hdue
          cases hdue
        | succ fuel =>
          rw [runEvents, hpop] at ht
          cases ht
          rw [due_of_ended hpop] at hdue
          cases hdue
      | some next =>
        obtain ⟨hfirst, hrest⟩ := Bool.and_eq_true_iff.1 h
        cases fuel with
        | zero =>
          cases ht
          rw [hnext] at hdue
          cases hdue
          rw [hgap] at hfirst
          exact of_decide_eq_true hfirst
        | succ fuel =>
          cases hd : ({ s with network }).dispatch next.2 with
          | error fault =>
            rw [runEvents, hpop] at ht
            dsimp only at ht
            rw [hd] at ht
            cases ht
          | ok s' =>
            rw [hd] at hrest
            exact ih hrest fuel t ((runEvents_succ hpop hd fuel).symm.trans ht) time node hdue gap hgap

/-! ## The end of a run -/

/-- The loop of a run ends, be the agent as it may: no more events are due than the configuration says. -/
theorem loop_ends {c : Config} {agent : Agent σ} {agentState : σ}
    (hc : c.Accepted) (hnew : new c agent agentState = .ok s) (hbegin : s.begin = .ok s')
    (hs : s'.Spaced) : ∃ turns result, turns ≤ c.mostEvents ∧ s'.Loop turns result ∧
      runEvents eventBound s' = result := by
  have hn := still_of_new hnew
  have hloads := begin_loads hn hbegin
  have hl : s'.network.medium.channel.endpoints.length = c.nodeCount := by
    rw [hloads.endpoints, hn.channel, List.length_map, List.length_range]
  have hconfig : s'.config = c := by
    rw [begin_config hbegin]
    obtain ⟨network, -, rfl⟩ := Fault.map_eq_ok.1 hnew
    rfl
  have hload : s'.network.medium.events.load c.nodeCount c.duration ≤ c.mostEvents := by
    have hle := hloads.load_le
    rw [hn.events] at hle
    exact hle.trans_eq (Nat.zero_add _)
  obtain ⟨turns, result, hle, hloop⟩ :=
    (Watch.Regular.start hnew hbegin).exists_loop hc hl hconfig hs
  have hturns : turns ≤ c.mostEvents := Nat.le_trans hle hload
  exact ⟨turns, result, hturns, hloop,
    hloop.runEvents_eq (Nat.lt_of_le_of_lt hturns hc.mostEvents_lt)⟩

/-- Two nodes that hear each other and make packets for five milliseconds. -/
def busy : Config :=
  { nodes := [⟨0.0, 0.0⟩, ⟨200.0, 0.0⟩]
    durationSecs := 0.005
    frame := { dataSlots := 1 }
    traffic := { startSecs := 0.0, packetsPerSecond := 400.0 } }

theorem accepted_busy : busy.Accepted := rfl

theorem run_busy :
    ((new busy (.forNodes [some [0], none]) Script.silence).toOption.bind fun s =>
    s.begin.toOption.bind fun s' =>
    (runEvents eventBound s').toOption.map fun t =>
      (s'.spacedWithin 33, t.network.medium.stats.deliveredPackets)) = some (true, 1) := by
  decide +kernel

/-- One packet is delivered before the loop is over. -/
theorem loop_ends_busy : ∃ s s' t turns,
    new busy (.forNodes [some [0], none]) Script.silence = .ok s ∧ s.begin = .ok s' ∧
    turns ≤ busy.mostEvents ∧ s'.Loop turns (.ok t) ∧
    t.network.medium.stats.deliveredPackets = 1 := by
  obtain ⟨s, hnew, hrun⟩ := Option.bind_eq_some_iff.1 run_busy
  obtain ⟨s', hbegin, hrun⟩ := Option.bind_eq_some_iff.1 hrun
  obtain ⟨t, ht, hview⟩ := Option.map_eq_some_iff.1 hrun
  rw [Fault.toOption_eq_some] at hnew hbegin ht
  obtain ⟨hspaced, hdelivered⟩ := Prod.mk.inj hview
  obtain ⟨turns, result, hturns, hloop, hresult⟩ :=
    loop_ends accepted_busy hnew hbegin (spaced_of_spacedWithin hspaced)
  obtain rfl := hresult.symm.trans ht
  exact ⟨s, s', t, turns, hnew, hbegin, hturns, hloop, hdelivered⟩

end Simulation

end SlotNet
