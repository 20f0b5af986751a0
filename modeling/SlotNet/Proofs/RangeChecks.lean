import SlotNet.Proofs.Beginning
import SlotNet.Proofs.Mirror
import SlotNet.Proofs.Rounding
import SlotNet.Proofs.ShortestRoutes

/-!
# Neighbours and hearers

Routing links two nodes if the square of their distance is at most the square of the range; the channel
delivers if their distance is not greater than the range. Rounded, the two differ: the distance of nodes
at the edge may round to the range while its square does not, and squares overflow. For ranges whose
squares stay in bounds, neighbours do hear each other, and only a node at the very edge of the range
may hear without being a neighbour.
-/

namespace SlotNet

/-! ## Neighbours -/

theorem Routes.mem_linksOf {range : Float} {points : List Point} {a b : Nat} :
    b ∈ (linksOf range points).getD a [] ↔ a ≠ b ∧ ∃ here there, points[a]? = some here ∧
      points[b]? = some there ∧ Point.distanceSquared here there ≤ range * range := by
  have hrow : (linksOf range points).getD a []
      = (points[a]?.map (neighbours range points a)).getD [] := by
    rw [linksOf, List.getD_eq_getElem?_getD, List.getElem?_map, List.getElem?_zipIdx,
      Option.map_map, Nat.zero_add]
    rfl
  rw [hrow]
  cases points[a]? with
  | none => simp
  | some here =>
    simp only [Option.map_some, Option.getD_some, neighbours, List.mem_filterMap, Prod.exists,
      List.mem_zipIdx_iff_getElem?, Point.withinRange, decide_eq_true_eq]
    constructor
    · rintro ⟨there, other, hthere, h⟩
      split at h
      · rename_i hnear
        cases h
        exact ⟨hnear.1.symm, here, there, rfl, hthere, hnear.2⟩
      · cases h
    · rintro ⟨hne, x, there, hx, hthere, hnear⟩
      cases hx
      exact ⟨there, b, hthere, if_pos ⟨hne.symm, hnear⟩⟩

/-! ## Hearers -/

namespace Channel

theorem delivers_spread {maxRange : Float} {positions : List Point} {underWay : List InFlight}
    {sender : Endpoint} {here : Point} {frame : Frame} {listeners : List Endpoint} {s s' : Spread}
    (hs : s.events.Ordered)
    (h : spread maxRange positions underWay sender here frame listeners s = .ok s') (node : Nat) :
    (∃ e ∈ s'.events.entries, s.events.nextId ≤ e.id ∧ e.event = .deliver node frame) ↔
      ∃ listener ∈ hearers maxRange positions sender.node here listeners, listener.node = node := by
  induction listeners generalizing s with
  | nil =>
    cases h
    refine ⟨fun ⟨e, he, hid, _⟩ => ?_, nofun⟩
    exact absurd (hs.lt_nextId e he) (Nat.not_lt_of_le hid)
  | cons listener rest ih =>
    obtain ⟨t, ht, h⟩ := Fault.bind_eq_ok.1 h
    cases hd : hearingDistance maxRange positions sender.node here listener with
    | none =>
      simp only [hd] at ht
      cases ht
      rw [hearers, List.filter_cons_of_neg (by simp [hd])]
      exact ih hs h
    | some distance =>
      simp only [hd] at ht
      rw [hearers, List.filter_cons_of_pos (by simp [hd])]
      obtain ⟨-, -, -, hord, -, hnext, hentries⟩ := deliver_ok hs ht
      have hadds := adds_spread hord h
      have hrest := ih hord h
      constructor
      · rintro ⟨e, he, hid, hevent⟩
        rcases Nat.lt_or_ge e.id t.events.nextId with hlt | hge
        · -- the delivery is the one to the first listener
          rcases hadds.origin e he with ⟨x, hx, b, rfl, -⟩ | ⟨hge, -⟩
          · rcases (hentries x).1 hx with rfl | ⟨y, hy, rfl⟩
            · exact ⟨listener, .head _, by injection hevent⟩
            · exact absurd (hs.lt_nextId y hy) (Nat.not_lt_of_le hid)
          · exact absurd hlt (Nat.not_lt_of_le hge)
        · obtain ⟨x, hx, hnode⟩ := hrest.1 ⟨e, he, hge, hevent⟩
          exact ⟨x, .tail _ hx, hnode⟩
      · rintro ⟨x, hx, hnode⟩
        rcases List.mem_cons.1 hx with rfl | hx
        · obtain ⟨b, hb, -⟩ := hadds.kept _ ((hentries _).2 (.inl rfl))
          exact ⟨_, hb, Nat.le_refl _, hnode ▸ rfl⟩
        · obtain ⟨e, he, hid, hevent⟩ := hrest.2 ⟨x, hx, hnode⟩
          exact ⟨e, he, by omega, hevent⟩

end Channel

namespace Medium

variable {m m' : Medium} {nodes a b : Nat} {frame : Frame} {o : TransmitOutcome}

/-- Is a new delivery of the frame to the node scheduled? -/
def Delivers (m m' : Medium) (frame : Frame) (node : Nat) : Prop :=
  ∃ e ∈ m'.events.entries, m.events.nextId ≤ e.id ∧ e.event = .deliver node frame

theorem exists_reaches_iff {here there : Point} (hhere : m.positions[a]? = some here)
    (hthere : m.positions[b]? = some there) : (∃ delay, m.Reaches a b delay) ↔
      a ≠ b ∧ ¬ m.channel.maxRange < Point.distance here there := by
  constructor
  · rintro ⟨delay, hne, here', there', hhere', hthere', hnear, -⟩
    obtain rfl := Option.some.inj (hhere.symm.trans hhere')
    obtain rfl := Option.some.inj (hthere.symm.trans hthere')
    exact ⟨hne, hnear⟩
  · rintro ⟨hne, hnear⟩
    exact ⟨_, hne, here, there, hhere, hthere, hnear, rfl⟩

theorem delivers_iff (hm : m.Listens nodes) (hs : m.events.Ordered) (ha : a < nodes) (hb : b < nodes)
    (ht : m.transmit a frame = .ok (m', o)) :
    m.Delivers m' frame b ↔ ∃ delay, m.Reaches a b delay := by
  obtain ⟨⟨channel, events, stats, o'⟩, hc, h⟩ := Fault.bind_eq_ok.1 ht
  cases h
  have hfind := Channel.find?_listeners ha
  rw [← hm] at hfind
  unfold Channel.transmit at hc
  rw [hfind] at hc
  cases hp : m.positions[a]? with
  | none =>
    rw [hp] at hc
    cases hc
    constructor
    · rintro ⟨e, he, hid, -⟩
      exact absurd (hs.lt_nextId e he) (Nat.not_lt_of_le hid)
    · rintro ⟨-, -, here, there, hhere, -⟩
      rw [hp] at hhere
      cases hhere
  | some here =>
    rw [hp] at hc
    obtain ⟨t, hspread, hc⟩ := Fault.bind_eq_ok.1 hc
    cases hc
    refine (Channel.delivers_spread hs hspread b).trans ⟨?_, ?_⟩
    · rintro ⟨listener, hl, rfl⟩
      obtain ⟨distance, hd⟩ := Option.isSome_iff_exists.1 (List.mem_filter.1 hl).2
      obtain ⟨hne, there, hthere, hrange, rfl⟩ := Loop.hearingDistance_some hd
      exact ⟨_, hne, here, there, hp, hthere, hrange, rfl⟩
    · rintro ⟨delay, hne, here', there, hhere, hthere, hrange, -⟩
      obtain rfl := Option.some.inj (hp.symm.trans hhere)
      refine ⟨⟨b, Address.ofNode b⟩, List.mem_filter.2 ⟨?_, ?_⟩, rfl⟩
      · rw [hm]
        exact List.mem_map.2 ⟨b, List.mem_range.2 hb, rfl⟩
      · exact Option.isSome_of_eq_some (Channel.hearingDistance_eq hne.symm hthere hrange)

/-! ## As configured -/

/-- The nodes listen as configured, wherever they stand, and routes follow the links between them. -/
structure Laid (c : Config) (m : Medium) : Prop where
  routes : m.routes = Routes.ofPositions c.maxRangeM m.positions
  maxRange : m.channel.maxRange = c.maxRangeM
  listens : m.Listens c.nodeCount
  ordered : m.events.Ordered

def neighbours (m : Medium) (node : Nat) : List Nat :=
  (Routes.linksOf m.channel.maxRange m.positions).getD node []

/-- Is a node neither nearer to another one than the range, nor farther away? -/
def AtEdge (m : Medium) (a b : Nat) : Prop :=
  ∃ here there, m.positions[a]? = some here ∧ m.positions[b]? = some there ∧
    ¬ Point.distance here there < m.channel.maxRange ∧
    ¬ m.channel.maxRange < Point.distance here there

/-- Neighbours are in range, and so are nodes at the edge, and nobody else is. -/
theorem exists_reaches_iff_mem_neighbours (hr : Rounding.Moderate m.channel.maxRange) :
    (∃ delay, m.Reaches a b delay) ↔ b ∈ m.neighbours a ∨ a ≠ b ∧ m.AtEdge a b := by
  constructor
  · rintro ⟨delay, hne, here, there, hhere, hthere, hnear, -⟩
    by_cases hlt : Point.distance here there < m.channel.maxRange
    · exact .inl (Routes.mem_linksOf.2 ⟨hne, here, there, hhere, hthere, hr.le_mul_self hlt⟩)
    · exact .inr ⟨hne, here, there, hhere, hthere, hlt, hnear⟩
  · rintro (h | ⟨hne, here, there, hhere, hthere, -, hnear⟩)
    · obtain ⟨hne, here, there, hhere, hthere, hnear⟩ := Routes.mem_linksOf.1 h
      exact ⟨_, hne, here, there, hhere, hthere, hr.not_lt_sqrt hnear, rfl⟩
    · exact ⟨_, hne, here, there, hhere, hthere, hnear, rfl⟩

variable {c : Config}

theorem Laid.mem_neighbours_of_nextHop (hm : m.Laid c) {destination : Nat}
    (h : m.routes.nextHop a destination = some b) : b ∈ m.neighbours a := by
  rw [hm.routes, ← hm.maxRange] at h
  exact Routes.mem_of_nextHop h

theorem Laid.hopsInRange (hm : m.Laid c) (hr : Rounding.Moderate c.maxRangeM) :
    m.HopsInRange := by
  intro node destination hop here there hhop hhere hthere
  rw [← hm.maxRange] at hr
  have hreaches := (exists_reaches_iff_mem_neighbours hr).2
    (.inl (hm.mem_neighbours_of_nextHop hhop))
  exact ((exists_reaches_iff hhere hthere).1 hreaches).2

/-- A transmission reaches the neighbours of its node, and besides them the nodes at the edge of the
range; so it reaches every next hop. -/
theorem Laid.neighbours_reached (hm : m.Laid c) (hr : Rounding.Moderate c.maxRangeM)
    (ha : a < c.nodeCount) (hb : b < c.nodeCount) (ht : m.transmit a frame = .ok (m', o)) :
    (m.Delivers m' frame b ↔ b ∈ m.neighbours a ∨ a ≠ b ∧ m.AtEdge a b) ∧
      ∀ destination, m.routes.nextHop a destination = some b → m.Delivers m' frame b := by
  rw [← hm.maxRange] at hr
  have hdelivers : m.Delivers m' frame b ↔ b ∈ m.neighbours a ∨ a ≠ b ∧ m.AtEdge a b :=
    (delivers_iff hm.listens hm.ordered ha hb ht).trans (exists_reaches_iff_mem_neighbours hr)
  exact ⟨hdelivers, fun destination h => hdelivers.2 (.inl (hm.mem_neighbours_of_nextHop h))⟩

end Medium

namespace Network

variable {c : Config} {n : Network} {stations : Nat}

theorem laid_ofConfig (h : ofConfig c stations = .ok n) : n.medium.Laid c := by
  obtain ⟨positions, hp, h⟩ := Fault.bind_eq_ok.1 h
  obtain ⟨controller, -, h⟩ := Fault.bind_eq_ok.1 h
  cases h
  refine ⟨rfl, ?_, ?_, EventQueue.ordered_empty⟩
  · exact congrArg Channel.maxRange (listeners_eq _ _)
  · exact congrArg Channel.endpoints (listeners_eq _ _)

end Network

namespace Config

/-- A frame without content, to all. -/
def hello : Frame where
  uid := 0
  kind := .routing
  transmitter := Address.ofNode 0
  receiver := Address.broadcast
  source := 0
  destination := 0
  createdAt := 0
  payload := .blank 0

theorem transmit_row : ∃ n, Network.ofConfig row row.nodeCount = .ok n ∧
    n.medium.positions = row.nodes ∧ (n.medium.transmit 0 hello).toOption.isSome :=
  ⟨_, rfl, rfl, by decide +kernel⟩

/-- Node 1 hears node 0, and is its next hop to node 3; node 2 does not hear it. -/
theorem neighbours_reached_row : ∃ n m' o, Network.ofConfig row row.nodeCount = .ok n ∧
    n.medium.transmit 0 hello = .ok (m', o) ∧ n.medium.Delivers m' hello 1 ∧
    n.medium.routes.nextHop 0 3 = some 1 ∧ ¬ n.medium.Delivers m' hello 2 := by
  obtain ⟨n, hn, hp, hok⟩ := transmit_row
  obtain ⟨⟨m', o⟩, ht⟩ := Option.isSome_iff_exists.1 hok
  rw [Fault.toOption_eq_some] at ht
  have hm := Network.laid_ofConfig hn
  have hmoderate : Rounding.Moderate row.maxRangeM := ⟨by decide +kernel, by decide +kernel⟩
  have hneighbours : n.medium.neighbours 0 = [1] := by
    rw [Medium.neighbours, hm.maxRange, hp]
    decide +kernel
  have hreached := fun b hb =>
    hm.neighbours_reached (b := b) hmoderate (show 0 < row.nodeCount by decide) hb ht
  have hhop : n.medium.routes.nextHop 0 3 = some 1 := by
    rw [hm.routes, hp]
    decide +kernel
  refine ⟨n, m', o, hn, ht, (hreached 1 (by decide)).2 3 hhop, hhop, fun h => ?_⟩
  rcases (hreached 2 (by decide)).1.1 h with hmem | ⟨-, here, there, hhere, hthere, -, hnear⟩
  · rw [hneighbours] at hmem
    exact absurd hmem (by decide)
  · rw [hp] at hhere hthere
    cases hhere
    cases hthere
    rw [hm.maxRange] at hnear
    exact hnear (by decide +kernel)

/-- Two nodes whose distance rounds to the range, and its square to a little more. -/
def edge : Config :=
  { nodes := [⟨0.0, 0.0⟩, ⟨150.0, 0.0000019⟩], maxRangeM := 150.0 }

theorem accepted_edge : edge.Accepted := rfl

theorem transmit_edge : ∃ n, Network.ofConfig edge edge.nodeCount = .ok n ∧
    n.medium.positions = edge.nodes ∧ (n.medium.transmit 0 hello).toOption.isSome :=
  ⟨_, rfl, rfl, by decide +kernel⟩

/-- Two nodes out of range, where no square is finite. -/
def vast : Config :=
  { nodes := [⟨0.0, 0.0⟩, ⟨1.5e200, 0.0⟩], maxRangeM := 1e200 }

set_option maxRecDepth 4000 in
theorem accepted_vast : vast.Accepted := rfl

theorem transmit_vast : ∃ n, Network.ofConfig vast vast.nodeCount = .ok n ∧
    n.medium.positions = vast.nodes ∧ (n.medium.transmit 0 hello).toOption.isSome :=
  ⟨_, rfl, rfl, by decide +kernel⟩

/-- At the edge of the range a node may hear without being a neighbour, and where squares overflow a
neighbour may hear nothing. -/
theorem neighbours_unlike_hearers :
    (edge.Accepted ∧ ∃ n m' o, Network.ofConfig edge edge.nodeCount = .ok n ∧
      n.medium.transmit 0 hello = .ok (m', o) ∧ 1 ∉ n.medium.neighbours 0 ∧
      n.medium.Delivers m' hello 1) ∧
    (vast.Accepted ∧ ∃ n m' o, Network.ofConfig vast vast.nodeCount = .ok n ∧
      n.medium.transmit 0 hello = .ok (m', o) ∧ 1 ∈ n.medium.neighbours 0 ∧
      ¬ n.medium.Delivers m' hello 1) := by
  constructor
  · obtain ⟨n, hn, hp, hok⟩ := transmit_edge
    obtain ⟨⟨m', o⟩, ht⟩ := Option.isSome_iff_exists.1 hok
    rw [Fault.toOption_eq_some] at ht
    have hm := Network.laid_ofConfig hn
    refine ⟨accepted_edge, n, m', o, hn, ht, ?_, ?_⟩
    · rw [Medium.neighbours, hm.maxRange, hp]
      decide +kernel
    · rw [Medium.delivers_iff hm.listens hm.ordered (by decide) (by decide) ht,
        Medium.exists_reaches_iff (congrArg (·[0]?) hp) (congrArg (·[1]?) hp), hm.maxRange]
      decide +kernel
  · obtain ⟨n, hn, hp, hok⟩ := transmit_vast
    obtain ⟨⟨m', o⟩, ht⟩ := Option.isSome_iff_exists.1 hok
    rw [Fault.toOption_eq_some] at ht
    have hm := Network.laid_ofConfig hn
    refine ⟨accepted_vast, n, m', o, hn, ht, ?_, ?_⟩
    · rw [Medium.neighbours, hm.maxRange, hp]
      decide +kernel
    · rw [Medium.delivers_iff hm.listens hm.ordered (by decide) (by decide) ht,
        Medium.exists_reaches_iff (congrArg (·[0]?) hp) (congrArg (·[1]?) hp), hm.maxRange]
      decide +kernel

end Config

end SlotNet
