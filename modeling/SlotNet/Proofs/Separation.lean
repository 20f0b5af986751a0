import SlotNet.Proofs.Hearing

/-!
# Who may send at the same time

`no_interference`: after an orderly exchange of messages no two nodes that may send in a data slot
are neighbours or have a common neighbour.

Two neighbours that choose the slot in one frame hear of each other's claims, and the one that
reserves first gives way, if not both do (`rivals`). Of two nodes with a common neighbour that both
chose the slot in the frame before, the neighbour has kept at most one (`before`); its message of this
frame names a node two hops away at most (`relayed`), and any other node that hears it loses the slot
(`lost`).
-/

namespace SlotNet.Exchange

/-- The node holds a claim of another node that it heard from that node. -/
def Taken (s : Exchange) (g : Generation) (node slot : Nat) : Prop :=
  ∃ x, x ≠ node ∧ s.view g node slot = some ⟨1, x⟩

def Reserved (s : Exchange) (node : Nat) : Prop := ∃ t ∈ s.sent, t.sender = node

/-- The message claims the slot for its sender. -/
def Claims (s : Exchange) (t : Sent) (slot : Nat) : Prop :=
  s.tells t .current slot = some (.own t.sender)

/-- The node will not be allowed to send in the slot in this frame. -/
structure Lost (s : Exchange) (node slot : Nat) : Prop where
  after : s.Reserved node → ¬ s.controller.Granted slot node
  ahead : ¬ s.Reserved node →
    ∃ p x, x ≠ node ∧ 0 < p ∧ p ≤ 2 ∧ s.view .previous node slot = some ⟨p, x⟩

/-- What an orderly run keeps, for one data slot. -/
structure Separation (adj : Nat → Nat → Bool) (d : Nat) (s : Exchange) : Prop where
  threshold : 3 ≤ s.controller.rules.priorityThreshold
  slot_lt : d < s.controller.layout.dataSlots
  dated : ∀ x ∈ s.history, x.frame ≤ s.controller.frameIndex
  placed : ∀ x ∈ s.handed, x.1 < s.sent.length
  known : ∀ t ∈ s.sent, t.sender < s.controller.nodeCount
  firsthand : ∀ t ∈ s.sent, ∀ g x, s.tells t g d = some ⟨1, x⟩ → x = t.sender
  owned : s.inControl = true → ∀ n, s.controller.Granted d n → s.Reserved n ∧
    ∀ g, ∃ c, s.view g n d = some c ∧ c.isOwnedBy n = true
  spoken : s.inControl = true → ∀ n, ⟨s.controller.frameIndex, n, d⟩ ∈ s.history →
    ∃ t ∈ s.sent, t.sender = n ∧ s.Claims t d
  before : ∀ a c, a ≠ c → adj a c = true → c < s.controller.nodeCount →
    ⟨s.frameOf .previous, a, d⟩ ∈ s.history → s.Taken .previous c d ∨ s.Taken .previous a d
  now : ∀ i t c, s.sent[i]? = some t → s.Claims t d → c ≠ t.sender → adj t.sender c = true →
    c < s.controller.nodeCount → (i, c) ∈ s.handed →
    s.Taken .current c d ∨ s.Taken .current t.sender d ∨
      ∃ j u, s.sent[j]? = some u ∧ u.sender = c ∧ s.Claims u d ∧ (j, t.sender) ∉ s.handed
  relayed : ∀ t ∈ s.sent, ∀ a, a ≠ t.sender → adj a t.sender = true →
    ⟨s.frameOf .previous, a, d⟩ ∈ s.history →
    s.Taken .previous a d ∨ ∃ x, s.tells t .previous d = some ⟨2, x⟩
  lost : ∀ i t b q x, s.sent[i]? = some t → (i, b) ∈ s.handed → b < s.controller.nodeCount →
    s.tells t .previous d = some ⟨q, x⟩ → 0 < q → q ≤ 2 → x ≠ b → s.Lost b d
  rivals : ∀ i j t u, s.sent[i]? = some t → s.sent[j]? = some u → t.sender ≠ u.sender →
    s.Claims t d → s.Claims u d → (i, u.sender) ∈ s.handed → (j, t.sender) ∈ s.handed →
    ¬ (s.controller.Granted d t.sender ∧ s.controller.Granted d u.sender)
  apart : s.inControl = false → ∀ a b, a ≠ b → s.controller.Granted d a →
    s.controller.Granted d b → adj a b = false ∧
      ∀ m < s.controller.nodeCount, adj m a = true → adj m b = true → False

variable {adj : Nat → Nat → Bool} {s s' : Exchange} {d : Nat}

/-! ## Hearing -/

section Hearing

variable {place observer : Nat} {t : Sent}

theorem Hears.taken (h : Hears adj s s' place observer t) {g : Generation} {n : Nat}
    (ht : s.Taken g n d) : s'.Taken g n d := by
  obtain ⟨x, hx, hv⟩ := ht
  by_cases hn : n = observer
  · subst hn
    rcases Controller.resolved_of_held_foreign s.controller.rules.priorityThreshold
        (s.tells t g d) (rfl : (⟨1, x⟩ : Claim).isClaimed = true) hx with
      he | ⟨c, -, hc, hlt, -⟩
    · exact ⟨x, hx, by rw [h.view, hv, Option.map_some, he]⟩
    · -- nothing is closer than a first-hand claim
      have : c.priority ≠ 0 := by simpa [Claim.isClaimed] using hc.1
      have : c.priority < 1 := hlt
      omega
  · exact ⟨x, hx, by rw [h.others g n d hn, hv]⟩

theorem Hears.taken_of_tells (h : Hears adj s s' place observer t) (hp : Provenance adj s)
    (hs : Separation adj d s) (hn : observer < s.controller.nodeCount) {g : Generation} {x : Nat}
    (htells : s.tells t g d = some ⟨1, x⟩) (hx : x ≠ observer) : s'.Taken g observer d := by
  obtain ⟨held, hheld⟩ : ∃ held, s.view g observer d = some held :=
    hp.shaped.claims.get_eq_some g hn hs.slot_lt
  have hcounts : Controller.Counts s.controller.rules.priorityThreshold ⟨1, x⟩ :=
    ⟨rfl, Nat.lt_of_lt_of_le (by decide : 1 < 3) hs.threshold⟩
  obtain ⟨h1, h2, h3⟩ := Controller.resolved_of_foreign held hcounts hx
  have hview := h.view g d
  rw [hheld, htells, Option.map_some] at hview
  generalize Controller.resolved s.controller.rules.priorityThreshold observer held (some ⟨1, x⟩)
    = r at h1 h2 h3 hview
  obtain ⟨p, y⟩ := r
  have hpos : p ≠ 0 := by simpa [Claim.isClaimed] using h1
  have hle : p ≤ 1 := h3
  obtain rfl : p = 1 := by omega
  exact ⟨y, h2, hview⟩

theorem Hears.not_granted (h : Hears adj s s' place observer t) (hs : Separation adj d s)
    {g : Generation} {q x : Nat} (htells : s.tells t g d = some ⟨q, x⟩) (hq : 0 < q) (hq2 : q ≤ 2)
    (hx : x ≠ observer) : ¬ s'.controller.Granted d observer := by
  intro hg
  rw [h.granted] at hg
  obtain ⟨held, hheld, hown⟩ := (hs.owned h.inControl observer hg.1).2 g
  refine hg.2 ⟨rfl, g, held, hheld, ?_⟩
  rw [htells, Controller.verdict_eq_yield_iff]
  have := hs.threshold
  have hcl : (⟨q, x⟩ : Claim).isClaimed = true := by
    simp only [Claim.isClaimed, bne_iff_ne, ne_eq]
    omega
  exact ⟨hown, _, rfl, ⟨hcl, show q < _ by omega⟩, hx⟩

theorem Hears.granted_mono (h : Hears adj s s' place observer t) {n : Nat}
    (hg : s'.controller.Granted d n) : s.controller.Granted d n := ((h.granted d n).1 hg).1

theorem Hears.reserved_iff (h : Hears adj s s' place observer t) {n : Nat} :
    s'.Reserved n ↔ s.Reserved n := by
  simp only [Reserved, h.sent]

theorem Hears.claims_iff (h : Hears adj s s' place observer t) {u : Sent} :
    s'.Claims u d ↔ s.Claims u d := by
  simp only [Claims, h.toSamePhase.tells_eq]

/-- A lost slot stays lost: before the node has reserved no message can bring its own claim back. -/
theorem Hears.lost (h : Hears adj s s' place observer t) (hs : Separation adj d s) {n : Nat}
    (hl : s.Lost n d) : s'.Lost n d := by
  refine ⟨fun hr hg => hl.after (h.reserved_iff.1 hr) (h.granted_mono hg), fun hr => ?_⟩
  rw [h.reserved_iff] at hr
  obtain ⟨p, x, hx, hp, hp2, hv⟩ := hl.ahead hr
  by_cases hn : n = observer
  · subst hn
    have hcl : (⟨p, x⟩ : Claim).isClaimed = true := by
      simp only [Claim.isClaimed, bne_iff_ne, ne_eq]
      omega
    rcases Controller.resolved_of_held_foreign s.controller.rules.priorityThreshold
        (s.tells t .previous d) hcl hx with he | ⟨⟨q, y⟩, htells, hc, hlt, he⟩
    · exact ⟨p, x, hx, hp, hp2, by rw [h.view, hv, Option.map_some, he]⟩
    · have hq : q ≠ 0 := by simpa [Claim.isClaimed] using hc.1
      have hlt : q < p := hlt
      obtain rfl : q = 1 := by omega
      have hy := hs.firsthand t (List.mem_of_getElem? h.message) _ _ htells
      refine ⟨1, y, ?_, by omega, by omega, by rw [h.view, hv, Option.map_some, he]⟩
      rintro rfl
      exact hr ⟨t, List.mem_of_getElem? h.message, hy.symm⟩
  · exact ⟨p, x, hx, hp, hp2, by rw [h.others _ n d hn, hv]⟩

/-- A node loses the slot when it hears that another node one or two hops away had it. -/
theorem Hears.lost_of_tells (h : Hears adj s s' place observer t) (hp : Provenance adj s)
    (hs : Separation adj d s) (hn : observer < s.controller.nodeCount) {q x : Nat}
    (htells : s.tells t .previous d = some ⟨q, x⟩) (hq : 0 < q) (hq2 : q ≤ 2) (hx : x ≠ observer) :
    s'.Lost observer d := by
  refine ⟨fun _ => h.not_granted hs htells hq hq2 hx, fun _ => ?_⟩
  obtain ⟨held, hheld⟩ : ∃ held, s.view .previous observer d = some held :=
    hp.shaped.claims.get_eq_some .previous hn hs.slot_lt
  have hcounts : Controller.Counts s.controller.rules.priorityThreshold ⟨q, x⟩ := by
    have := hs.threshold
    refine ⟨?_, show q < _ by omega⟩
    simp only [Claim.isClaimed, bne_iff_ne, ne_eq]
    omega
  obtain ⟨h1, h2, h3⟩ := Controller.resolved_of_foreign held hcounts hx
  have hview := h.view .previous d
  rw [hheld, htells, Option.map_some] at hview
  generalize Controller.resolved s.controller.rules.priorityThreshold observer held (some ⟨q, x⟩)
    = r at h1 h2 h3 hview
  obtain ⟨p, y⟩ := r
  have hpos : p ≠ 0 := by simpa [Claim.isClaimed] using h1
  have hle : p ≤ q := h3
  exact ⟨p, y, h2, by omega, by omega, hview⟩

theorem Hears.owned (h : Hears adj s s' place observer t) {n : Nat}
    (hg : s'.controller.Granted d n) {g : Generation} {c : Claim} (hv : s.view g n d = some c)
    (ho : c.isOwnedBy n = true) : s'.view g n d = some c := by
  by_cases hn : n = observer
  · subst hn
    rw [h.view, hv, Option.map_some, Controller.resolved_of_own ho]
    intro hy
    exact ((h.granted d n).1 hg).2 ⟨rfl, g, c, hv, hy⟩
  · rw [h.others g n d hn, hv]

theorem Separation.hears (hs : Separation adj d s) (hp : Provenance adj s)
    (h : Hears adj s s' place observer t) : Separation adj d s' := by
  have hphase := h.toSamePhase
  have hframe := hphase.frameOf_eq
  have htells := hphase.tells_eq
  refine ⟨?threshold, ?slot_lt, ?dated, ?placed, ?known, ?firsthand, ?owned, ?spoken, ?before, ?now,
    ?relayed, ?lost, ?rivals, ?apart⟩
  case threshold =>
    rw [hphase.rules]; exact hs.threshold
  case slot_lt =>
    rw [hphase.layout]; exact hs.slot_lt
  case dated =>
    rw [h.history, hphase.frameIndex]; exact hs.dated
  case placed =>
    rw [h.handed, h.sent]
    intro x hx
    rcases List.mem_cons.1 hx with rfl | hx
    · exact (List.getElem?_eq_some_iff.1 h.message).1
    · exact hs.placed x hx
  case known =>
    rw [h.sent, hphase.nodeCount]; exact hs.known
  case firsthand =>
    rw [h.sent]
    simp only [htells]
    exact hs.firsthand
  case owned =>
    intro _ n hg
    obtain ⟨hr, hv⟩ := hs.owned h.inControl n (h.granted_mono hg)
    refine ⟨h.reserved_iff.2 hr, fun g => ?_⟩
    obtain ⟨c, hc, ho⟩ := hv g
    exact ⟨c, h.owned hg hc ho, ho⟩
  case spoken =>
    rw [h.history, hphase.frameIndex, h.sent]
    simp only [h.claims_iff]
    intro _
    exact hs.spoken h.inControl
  case before =>
    rw [h.history, hframe, hphase.nodeCount]
    intro a c hne hadj hc hmem
    exact (hs.before a c hne hadj hc hmem).imp h.taken h.taken
  case now =>
    rw [h.sent, h.handed, hphase.nodeCount]
    simp only [h.claims_iff]
    intro i u c hu hcl hne hadj hc hmem
    rcases List.mem_cons.1 hmem with he | hmem
    · -- the message at hand is the claim
      cases he
      rw [h.message] at hu
      cases hu
      exact .inl (h.taken_of_tells hp hs hc hcl hne.symm)
    · rcases hs.now i u c hu hcl hne hadj hc hmem with ht | ht | ⟨j, w, hw, hwc, hcw, hnot⟩
      · exact .inl (h.taken ht)
      · exact .inr (.inl (h.taken ht))
      · by_cases he : (j, u.sender) = (place, observer)
        · -- it is the answer to the claim
          cases he
          rw [h.message] at hw
          cases hw
          refine .inr (.inl (h.taken_of_tells hp hs (hs.known u (List.mem_of_getElem? hu)) hcw ?_))
          rw [hwc]
          exact hne
        · exact .inr (.inr ⟨j, w, hw, hwc, hcw, fun hm => (List.mem_cons.1 hm).elim he hnot⟩)
  case relayed =>
    rw [h.sent, h.history, hframe]
    simp only [htells]
    intro u hu a hne hadj hmem
    exact (hs.relayed u hu a hne hadj hmem).imp_left h.taken
  case lost =>
    rw [h.sent, h.handed, hphase.nodeCount]
    simp only [htells]
    intro i u b q x hu hmem hb hx hq hq2 hne
    rcases List.mem_cons.1 hmem with he | hmem
    · cases he
      rw [h.message] at hu
      cases hu
      exact h.lost_of_tells hp hs hb hx hq hq2 hne
    · exact h.lost hs (hs.lost i u b q x hu hmem hb hx hq hq2 hne)
  case rivals =>
    rw [h.sent, h.handed]
    simp only [h.claims_iff]
    intro i j u w hu hw hne hcu hcw hi hj ⟨hgu, hgw⟩
    rcases List.mem_cons.1 hi with he | hi
    · cases he
      rw [h.message] at hu
      cases hu
      exact h.not_granted hs hcu (by omega) (by omega) hne hgw
    · rcases List.mem_cons.1 hj with he | hj
      · cases he
        rw [h.message] at hw
        cases hw
        exact h.not_granted hs hcw (by omega) (by omega) hne.symm hgu
      · exact hs.rivals i j u w hu hw hne hcu hcw hi hj ⟨h.granted_mono hgu, h.granted_mono hgw⟩
  case apart =>
    rw [hphase.inControl_eq, h.inControl]
    intro hc
    cases hc

end Hearing

/-! ## Reserving -/

section Reserving

variable {node : Nat} {t : Sent}

theorem Reserves.reserved_iff (h : Reserves s s' node t) {n : Nat} :
    s'.Reserved n ↔ s.Reserved n ∨ n = node := by
  simp only [Reserved, h.sent, List.mem_append, List.mem_singleton]
  constructor
  · rintro ⟨u, hu | rfl, rfl⟩
    · exact .inl ⟨u, hu, rfl⟩
    · exact .inr h.sender
  · rintro (⟨u, hu, rfl⟩ | rfl)
    · exact ⟨u, .inl hu, rfl⟩
    · exact ⟨t, .inr rfl, h.sender⟩

theorem Reserves.claims_iff (h : Reserves s s' node t) {u : Sent} :
    s'.Claims u d ↔ s.Claims u d := by
  simp only [Claims, h.toSamePhase.tells_eq]

theorem Reserves.sent_cases (h : Reserves s s' node t) {i : Nat} {u : Sent}
    (hu : s'.sent[i]? = some u) : s.sent[i]? = some u ∨ (i = s.sent.length ∧ u = t) := by
  rw [h.sent, List.getElem?_append] at hu
  split at hu
  · exact .inl hu
  · obtain ⟨hlt, he⟩ := List.getElem?_eq_some_iff.1 hu
    rw [List.length_singleton] at hlt
    rw [List.getElem_singleton] at he
    exact .inr ⟨by omega, he.symm⟩

theorem Reserves.sent_mono (h : Reserves s s' node t) {i : Nat} {u : Sent}
    (hu : s.sent[i]? = some u) : s'.sent[i]? = some u := by
  rw [h.sent, List.getElem?_append_left (List.getElem?_eq_some_iff.1 hu).1]
  exact hu

theorem Reserves.claims (h : Reserves s s' node t)
    (hv : s'.view .current node d = some (.own node)) : s'.Claims t d := by
  rw [Claims, h.tells, hv, h.sender]
  simp [Claim.advertised, Claim.own]

theorem Reserves.tells_of_foreign (h : Reserves s s' node t) (hp : Provenance adj s')
    {g : Generation} {c : Claim} (hv : s'.view g node d = some c) (hc : c.isClaimed = true)
    (hne : c.owner ≠ node) : s'.tells t g d = some ⟨c.priority + 1, c.owner⟩ := by
  rw [h.tells, hv, Option.map_some, Claim.advertised_eq (hp.relayable g node d c hv), if_pos]
  simp [hc, hne]

theorem Reserves.firsthand (h : Reserves s s' node t) (hp : Provenance adj s') {g : Generation}
    {x : Nat} (htells : s'.tells t g d = some ⟨1, x⟩) : x = node := by
  rw [h.tells] at htells
  obtain ⟨c, hv, hc⟩ := Option.map_eq_some_iff.1 htells
  rw [Claim.advertised_eq (hp.relayable g node d c hv)] at hc
  split at hc
  · rename_i hcl
    rw [Bool.and_eq_true] at hcl
    have : c.priority ≠ 0 := by simpa [Claim.isClaimed] using hcl.1
    have := (Claim.mk.inj hc).1
    omega
  · rename_i hcl
    subst hc
    simpa [Claim.isClaimed] using hcl

/-- A lost slot stays lost: a node whose view names another node is not granted it. -/
theorem Reserves.lost (h : Reserves s s' node t) (hs : Separation adj d s)
    (hnew : ¬ s.Reserved node) {n : Nat} (hl : s.Lost n d) : s'.Lost n d := by
  by_cases hn : n = node
  · subst hn
    obtain ⟨p, x, hx, -, -, hv⟩ := hl.ahead hnew
    refine ⟨fun _ hg => ?_, fun hr => absurd (h.reserved_iff.2 (.inr rfl)) hr⟩
    rcases h.granted d n hg with hg | ⟨-, c, -, hc, -, ho, -⟩
    · exact hnew (hs.owned h.inControl n hg).1
    · rw [h.previous, hv] at hc
      cases hc
      simp only [Claim.isOwnedBy, Bool.and_eq_true, beq_iff_eq] at ho
      exact hx ho.2
  · refine ⟨fun hr hg => ?_, fun hr => ?_⟩
    · rcases h.granted d n hg with hg | ⟨he, -⟩
      · exact hl.after ((h.reserved_iff.1 hr).resolve_right hn) hg
      · exact hn he
    · obtain ⟨p, x, hx⟩ := hl.ahead fun hr' => hr (h.reserved_iff.2 (.inl hr'))
      exact ⟨p, x, by rw [h.previous]; exact hx⟩

theorem Reserves.taken_previous (h : Reserves s s' node t) {n : Nat}
    (ht : s.Taken .previous n d) : s'.Taken .previous n d := by
  simpa only [Taken, h.previous] using ht

theorem Reserves.chosen_before (h : Reserves s s' node t) (hp : Provenance adj s) {a : Nat}
    (hmem : ⟨s.frameOf .previous, a, d⟩ ∈ s'.history) :
    ⟨s.frameOf .previous, a, d⟩ ∈ s.history := by
  refine (h.history _ _ _ hmem).resolve_right fun hc => ?_
  have hcontrol := h.inControl
  have hpos := hp.begun (by
    rw [Exchange.inControl, Option.any_eq_true] at hcontrol
    obtain ⟨k, hk, -⟩ := hcontrol
    rw [hk]
    rfl)
  simp only [frameOf, h.inControl, if_true] at hc
  omega

theorem Reserves.owned (h : Reserves s s' node t) (hs : Separation adj d s)
    (hfresh : ¬ s.Reserved node) {n : Nat} (hg : s'.controller.Granted d n) :
    s'.Reserved n ∧ ∀ g, ∃ c, s'.view g n d = some c ∧ c.isOwnedBy n = true := by
  rcases h.granted d n hg with hg | ⟨rfl, p, q, hp, hq, hpo, hqo⟩
  · obtain ⟨hr, hv⟩ := hs.owned h.inControl n hg
    have hne : n ≠ node := fun he => hfresh (he ▸ hr)
    refine ⟨h.reserved_iff.2 (.inl hr), fun g => ?_⟩
    cases g with
    | previous => rw [h.previous]; exact hv .previous
    | current => rw [h.others n d hne]; exact hv .current
  · refine ⟨h.reserved_iff.2 (.inr rfl), fun g => ?_⟩
    cases g with
    | previous => exact ⟨p, hp, hpo⟩
    | current => exact ⟨q, hq, hqo⟩

theorem Reserves.now (h : Reserves s s' node t) (hs : Separation adj d s)
    (hnew : ∀ u ∈ s.sent, u.sender ≠ node) {i : Nat} {u : Sent} {c : Nat}
    (hu : s.sent[i]? = some u) (hcl : s.Claims u d) (hne : c ≠ u.sender)
    (hadj : adj u.sender c = true) (hc : c < s.controller.nodeCount) (hmem : (i, c) ∈ s.handed) :
    s'.Taken .current c d ∨ s'.Taken .current u.sender d ∨
      ∃ j w, s'.sent[j]? = some w ∧ w.sender = c ∧ s.Claims w d ∧ (j, u.sender) ∉ s.handed := by
  have hsender : u.sender ≠ node := hnew u (List.mem_of_getElem? hu)
  rcases hs.now i u c hu hcl hne hadj hc hmem with ht | ht | ⟨j, w, hw, hwc, hcw, hj⟩
  · by_cases hcn : c = node
    · subst hcn
      rcases h.current d with hv | hv
      · exact .inl (by simpa only [Taken, hv] using ht)
      · -- the node overwrites the claim, but it has yet to tell the other one
        have hlast : s'.sent[s.sent.length]? = some t := by
          rw [h.sent]
          simp
        exact .inr (.inr ⟨s.sent.length, t, hlast, h.sender, h.claims_iff.1 (h.claims hv),
          fun hb => Nat.lt_irrefl _ (hs.placed _ hb)⟩)
    · exact .inl (by simpa only [Taken, h.others c d hcn] using ht)
  · exact .inr (.inl (by simpa only [Taken, h.others _ d hsender] using ht))
  · exact .inr (.inr ⟨j, w, h.sent_mono hw, hwc, hcw, hj⟩)

theorem Separation.reserves (hs : Separation adj d s) (hp : Provenance adj s)
    (hp' : Provenance adj s') (h : Reserves s s' node t) (hn : node < s.controller.nodeCount)
    (hnew : ∀ u ∈ s.sent, u.sender ≠ node) : Separation adj d s' := by
  have hphase := h.toSamePhase
  have hframe := hphase.frameOf_eq
  have htells := hphase.tells_eq
  have hfresh : ¬ s.Reserved node := by
    rintro ⟨u, hu, he⟩
    exact hnew u hu he
  have hnot : ∀ b, (s.sent.length, b) ∉ s.handed := fun b hb =>
    Nat.lt_irrefl _ (hs.placed _ hb)
  have hgranted : ∀ n, n ≠ node → s'.controller.Granted d n → s.controller.Granted d n :=
    fun n hne hg => (h.granted d n hg).resolve_right fun hc => hne hc.1
  refine ⟨?threshold, ?slot_lt, ?dated, ?placed, ?known, ?firsthand, fun _ n hg => h.owned hs hfresh hg,
    ?spoken, ?before, ?now, ?relayed, ?lost, ?rivals, ?apart⟩
  case threshold =>
    rw [hphase.rules]; exact hs.threshold
  case slot_lt =>
    rw [hphase.layout]; exact hs.slot_lt
  case dated =>
    rintro ⟨f, n, e⟩ hx
    rw [hphase.frameIndex]
    rcases h.history f n e hx with hx | ⟨rfl, -⟩
    · exact hs.dated _ hx
    · exact Nat.le_refl _
  case placed =>
    rw [h.handed, h.sent, List.length_append]
    exact fun x hx => Nat.lt_add_right _ (hs.placed x hx)
  case known =>
    rw [h.sent, hphase.nodeCount]
    intro u hu
    rcases List.mem_append.1 hu with hu | hu
    · exact hs.known u hu
    · rw [List.mem_singleton.1 hu, h.sender]
      exact hn
  case firsthand =>
    rw [h.sent]
    intro u hu g x hx
    rcases List.mem_append.1 hu with hu | hu
    · exact hs.firsthand u hu g x (htells u g d ▸ hx)
    · obtain rfl := List.mem_singleton.1 hu
      rw [h.sender]
      exact h.firsthand hp' hx
  case spoken =>
    intro _ n hmem
    rw [hphase.frameIndex] at hmem
    rcases h.history _ _ _ hmem with hmem | ⟨-, rfl, hv⟩
    · obtain ⟨u, hu, he, hcl⟩ := hs.spoken h.inControl n hmem
      exact ⟨u, by rw [h.sent]; exact List.mem_append_left _ hu, he, h.claims_iff.2 hcl⟩
    · exact ⟨t, by rw [h.sent]; simp, h.sender, h.claims hv⟩
  case before =>
    rw [hframe, hphase.nodeCount]
    intro a c hne hadj hc hmem
    exact (hs.before a c hne hadj hc (h.chosen_before hp hmem)).imp h.taken_previous
      h.taken_previous
  case now =>
    rw [h.handed, hphase.nodeCount]
    simp only [h.claims_iff]
    intro i u c hu hcl hne hadj hc hmem
    rcases h.sent_cases hu with hu | ⟨rfl, -⟩
    · exact h.now hs hnew hu hcl hne hadj hc hmem
    · exact absurd hmem (hnot c)
  case relayed =>
    rw [hframe]
    intro u hu a hne hadj hmem
    rw [h.sent] at hu
    rcases List.mem_append.1 hu with hu | hu
    · simp only [htells]
      exact (hs.relayed u hu a hne hadj (h.chosen_before hp hmem)).imp_left h.taken_previous
    · obtain rfl := List.mem_singleton.1 hu
      rw [h.sender] at hne hadj
      rcases hs.before a node hne hadj hn (h.chosen_before hp hmem) with ⟨x, hx, hv⟩ | ht
      · rw [← h.previous] at hv
        exact .inr ⟨x, h.tells_of_foreign hp' hv rfl hx⟩
      · exact .inl (h.taken_previous ht)
  case lost =>
    rw [h.handed, hphase.nodeCount]
    simp only [htells]
    intro i u b q x hu hmem hb hx hq hq2 hne
    rcases h.sent_cases hu with hu | ⟨rfl, -⟩
    · exact h.lost hs hfresh (hs.lost i u b q x hu hmem hb hx hq hq2 hne)
    · exact absurd hmem (hnot b)
  case rivals =>
    rw [h.handed]
    simp only [h.claims_iff]
    rintro i j u w hu hw hne hcu hcw hi hj ⟨hgu, hgw⟩
    rcases h.sent_cases hu with hu | ⟨rfl, -⟩
    · rcases h.sent_cases hw with hw | ⟨rfl, -⟩
      · exact hs.rivals i j u w hu hw hne hcu hcw hi hj
          ⟨hgranted _ (hnew u (List.mem_of_getElem? hu)) hgu,
            hgranted _ (hnew w (List.mem_of_getElem? hw)) hgw⟩
      · exact absurd hj (hnot _)
    · exact absurd hi (hnot _)
  case apart =>
    rw [hphase.inControl_eq, h.inControl]
    intro hc
    cases hc

end Reserving

/-! ## The course of the frames -/

theorem Separation.start {config : Config} {c : Controller}
    (ht : 3 ≤ config.reservation.priorityThreshold) (hc : Controller.ofConfig config = .ok c)
    (hd : d < c.layout.dataSlots) :
    Separation adj d (Exchange.start c) := by
  obtain ⟨-, -, hr, hf⟩ := Controller.ofConfig_ok hc
  refine
    { threshold := ?_, slot_lt := hd, dated := ?_, placed := ?_, known := ?_, firsthand := ?_,
      owned := ?_, spoken := ?_, before := ?_, now := ?_, relayed := ?_, lost := ?_,
      rivals := ?_, apart := fun _ a _ _ hg => absurd hg (hf.not_granted d a) }
  · show 3 ≤ c.rules.priorityThreshold
    rw [hr]
    exact ht
  all_goals simp [Exchange.start, inControl]

theorem Separation.beginFrame (hs : Separation adj d s) (hp : Provenance adj s)
    (hstep : s.step adj .beginFrame = some s') : Separation adj d s' := by
  have hp' := hp.beginFrame hstep
  obtain ⟨hover, rfl⟩ := step_beginFrame hstep
  have hb := Controller.beginsFrom_beginFrame s.controller
  have hcontrol := hp.not_inControl_of_frameOver hover
  -- the messages of the frame before are gone
  have hsent : s.sent = [] := by
    refine List.eq_nil_iff_forall_not_mem.2 fun t ht => ?_
    have := (hp.sent t ht).1
    rw [hcontrol] at this
    cases this
  have hnone : ∀ n, ¬ s.controller.beginFrame.Granted d n :=
    Controller.not_granted_beginFrame hp.shaped d
  refine
    { threshold := ?_, slot_lt := ?_, dated := ?_, placed := hs.placed, known := ?_,
      firsthand := ?_, owned := fun _ n hg => absurd hg (hnone n), spoken := ?_, before := ?_,
      now := ?_, relayed := ?_, lost := ?_, rivals := ?_,
      apart := fun _ a _ _ hg => absurd hg (hnone a) }
  · rw [hb.rules]; exact hs.threshold
  · rw [hb.layout]; exact hs.slot_lt
  · rw [hb.frameIndex]
    exact fun x hx => Nat.le_succ_of_le (hs.dated x hx)
  · simp [hsent]
  · simp [hsent]
  · rw [hb.frameIndex]
    intro _ n hmem
    exact absurd (hs.dated _ hmem) (by simp)
  · simp only [hp.frameOf_beginFrame hover, hb.nodeCount, Taken, view, hb.claims]
    exact hs.before
  all_goals simp [hsent]

theorem handed_of_complete (hc : s.complete adj = true) {i n : Nat} {t : Sent}
    (ht : s.sent[i]? = some t) (hn : n < s.controller.nodeCount) (hadj : adj t.sender n = true) :
    (i, n) ∈ s.handed := by
  simp only [complete, Bool.and_eq_true, List.all_eq_true, List.mem_range, Bool.or_eq_true,
    Bool.not_eq_true', List.contains_iff_mem] at hc
  refine (hc.2 (t, i) (List.mk_mem_zipIdx_iff_getElem?.2 ht) n hn).resolve_left fun h => ?_
  rw [hadj] at h
  cases h

theorem reserved_of_complete (hc : s.complete adj = true) {n : Nat}
    (hn : n < s.controller.nodeCount) : s.Reserved n := by
  simp only [complete, Bool.and_eq_true, List.all_eq_true, List.mem_range, List.any_eq_true,
    beq_iff_eq] at hc
  exact hc.1 n hn

/-- When the exchange of messages is complete, the nodes that may send are apart. -/
theorem Separation.apart_of_complete (hs : Separation adj d s) (hp : Provenance adj s)
    (hsym : ∀ a b, adj a b = adj b a) (hcontrol : s.inControl = true)
    (hc : s.complete adj = true) {a b : Nat} (hab : a ≠ b) (ha : s.controller.Granted d a)
    (hb : s.controller.Granted d b) : adj a b = false ∧
      ∀ m < s.controller.nodeCount, adj m a = true → adj m b = true → False := by
  obtain ⟨t, ht, rfl, hct⟩ := hs.spoken hcontrol a (hp.granted d a ha).1
  obtain ⟨u, hu, rfl, hcu⟩ := hs.spoken hcontrol b (hp.granted d b hb).1
  obtain ⟨i, hi⟩ := List.mem_iff_getElem?.1 ht
  obtain ⟨j, hj⟩ := List.mem_iff_getElem?.1 hu
  have hapart : adj t.sender u.sender ≠ true := fun hadj =>
    hs.rivals i j t u hi hj hab hct hcu (handed_of_complete hc hi (hs.known u hu) hadj)
      (handed_of_complete hc hj (hs.known t ht) (by rw [hsym]; exact hadj)) ⟨ha, hb⟩
  refine ⟨by simpa using hapart, fun m hm hma hmb => ?_⟩
  -- the common neighbour has told one of them of the other
  obtain ⟨w, hw, rfl⟩ := reserved_of_complete hc hm
  obtain ⟨k, hk⟩ := List.mem_iff_getElem?.1 hw
  have hne : t.sender ≠ w.sender := by
    intro he
    rw [← he] at hmb
    exact hapart hmb
  have hbefore : ⟨s.frameOf .previous, t.sender, d⟩ ∈ s.history := by
    simp only [frameOf, hcontrol, if_true]
    exact (hp.granted d t.sender ha).2
  rcases hs.relayed w hw t.sender hne (by rw [hsym]; exact hma) hbefore with ⟨x, hx, hv⟩ | ⟨x, hx⟩
  · obtain ⟨c, hcv, ho⟩ := (hs.owned hcontrol t.sender ha).2 .previous
    rw [hv] at hcv
    cases hcv
    simp only [Claim.isOwnedBy, Bool.and_eq_true, beq_iff_eq] at ho
    exact hx ho.2
  · by_cases he : x = t.sender
    · have hlost := hs.lost k w u.sender 2 x hk
        (handed_of_complete hc hk (hs.known u hu) hmb) (hs.known u hu) hx (by omega) (by omega)
        (by rw [he]; exact hab)
      exact hlost.after (hs.owned hcontrol u.sender hb).1 hb
    · have hlost := hs.lost k w t.sender 2 x hk
        (handed_of_complete hc hk (hs.known t ht) hma) (hs.known t ht) hx (by omega) (by omega) he
      exact hlost.after (hs.owned hcontrol t.sender ha).1 ha

/-- When the exchange of messages is complete, of two neighbours at most one still holds its claim,
or a third node has taken the slot from both. -/
theorem Separation.taken_of_complete (hs : Separation adj d s) (hsym : ∀ a b, adj a b = adj b a)
    (hcontrol : s.inControl = true) (hc : s.complete adj = true) {a b : Nat} (hab : a ≠ b)
    (hadj : adj a b = true) (hb : b < s.controller.nodeCount)
    (hmem : ⟨s.controller.frameIndex, a, d⟩ ∈ s.history) :
    s.Taken .current b d ∨ s.Taken .current a d := by
  obtain ⟨t, ht, rfl, hct⟩ := hs.spoken hcontrol a hmem
  obtain ⟨i, hi⟩ := List.mem_iff_getElem?.1 ht
  rcases hs.now i t b hi hct hab.symm hadj hb (handed_of_complete hc hi hb hadj) with
    h | h | ⟨j, u, hu, rfl, -, hnot⟩
  · exact .inl h
  · exact .inr h
  · exact absurd (handed_of_complete hc hu (hs.known t ht) (by rw [hsym]; exact hadj)) hnot

theorem Separation.openSlot (hs : Separation adj d s) (hp : Provenance adj s)
    (hsym : ∀ a b, adj a b = adj b a) (hrule : orderly adj s .openSlot = true)
    (hstep : s.step adj .openSlot = some s') : Separation adj d s' := by
  obtain ⟨k, hk, hlt, ⟨hkn, rfl⟩ | ⟨hkn, rfl⟩⟩ := step_openSlot hstep
  · have hf := Controller.sameFrame_openSlot s.controller s.controller.nodeCount
    have hcontrol : s.inControl = true := by
      simp only [inControl, hk, Option.any_some, decide_eq_true_eq]
      omega
    have hcomplete : s.complete adj = true := by
      simpa [orderly, hk, hkn] using hrule
    have hindex : (s.controller.openSlot s.controller.nodeCount).frameIndex
        = s.controller.frameIndex := hf.frameIndex
    have hcontrol' : (({ s with
        controller := s.controller.openSlot s.controller.nodeCount
        slot := some s.controller.nodeCount, sent := [], handed := [] } : Exchange)).inControl
          = false := by
      simp [inControl, hf.nodeCount]
    refine
      { threshold := ?_, slot_lt := ?_, dated := ?_, placed := ?_, known := ?_, firsthand := ?_,
        owned := ?owned, spoken := ?spoken, before := ?before, now := ?_, relayed := ?_,
        lost := ?_, rivals := ?_, apart := ?apart }
    · rw [hf.rules]; exact hs.threshold
    · rw [hf.layout]; exact hs.slot_lt
    · rw [hindex]; exact hs.dated
    case owned => intro h; rw [hcontrol'] at h; cases h
    case spoken => intro h; rw [hcontrol'] at h; cases h
    case before =>
      simp only [frameOf, hcontrol', hindex, hf.nodeCount, Taken, view,
        Controller.claims_openSlot_nodeCount]
      exact fun a c hne hadj hc hmem =>
        hs.taken_of_complete hsym hcontrol hcomplete hne hadj hc hmem
    case apart =>
      intro _ a b hab ha hb
      rw [hf.nodeCount]
      exact hs.apart_of_complete hp hsym hcontrol hcomplete hab
        ((Controller.granted_openSlot _ _ _ _).1 ha) ((Controller.granted_openSlot _ _ _ _).1 hb)
    all_goals simp
  · have hcontrol : ({ s with slot := some (k + 1) } : Exchange).inControl = s.inControl := by
      simp only [inControl, hk, Option.any_some, decide_eq_decide]
      omega
    have hframe : ∀ g, ({ s with slot := some (k + 1) } : Exchange).frameOf g = s.frameOf g := by
      intro g
      cases g <;> simp only [frameOf, hcontrol]
    refine { hs with
      owned := ?owned, spoken := ?spoken, before := ?before, relayed := ?relayed, apart := ?apart,
      lost := fun i t b q x hi hm hb hx hq hq2 hne =>
        ⟨(hs.lost i t b q x hi hm hb hx hq hq2 hne).after,
          (hs.lost i t b q x hi hm hb hx hq hq2 hne).ahead⟩ }
    case owned =>
      rw [hcontrol]; exact hs.owned
    case spoken =>
      rw [hcontrol]; exact hs.spoken
    case before =>
      simp only [hframe]; exact hs.before
    case relayed =>
      simp only [hframe]; exact hs.relayed
    case apart =>
      rw [hcontrol]; exact hs.apart

theorem Separation.choose (hs : Separation adj d s) {slot : Nat}
    (hstep : s.step adj (.choose slot) = some s') : Separation adj d s' := by
  cases hstep
  exact ⟨hs.threshold, hs.slot_lt, hs.dated, hs.placed, hs.known, hs.firsthand, hs.owned,
    hs.spoken, hs.before, hs.now, hs.relayed,
    fun i t b q x hi hm hb hx hq hq2 hne =>
      ⟨(hs.lost i t b q x hi hm hb hx hq hq2 hne).after,
        (hs.lost i t b q x hi hm hb hx hq hq2 hne).ahead⟩,
    hs.rivals, hs.apart⟩

theorem Separation.step (hs : Separation adj d s) (hp : Provenance adj s)
    (hsym : ∀ a b, adj a b = adj b a) {a : Act} (hrule : orderly adj s a = true)
    (hstep : s.step adj a = some s') : Separation adj d s' := by
  cases a with
  | beginFrame => exact hs.beginFrame hp hstep
  | openSlot => exact hs.openSlot hp hsym hrule hstep
  | choose slot => exact hs.choose hstep
  | reserve m node =>
    simp only [orderly, Bool.and_eq_true, decide_eq_true_eq, List.all_eq_true, bne_iff_ne] at hrule
    obtain ⟨t, h⟩ := reserves_of_step hp hrule.1 hstep
    exact hs.reserves hp (hp.reserve hstep) h hrule.1 hrule.2
  | hand place observer =>
    obtain ⟨t, h⟩ := hears_of_step hp hstep
    exact hs.hears hp h

/-- If in every frame each node reserves once and every message reaches every neighbour of its
sender, in whatever order, then no two nodes that may send in a data slot are neighbours, nor have
they a common neighbour. -/
theorem no_interference {config : Config} {c : Controller} (ha : config.Accepted)
    (ht : 3 ≤ config.reservation.priorityThreshold) (hc : Controller.ofConfig config = .ok c)
    (hsym : ∀ a b, adj a b = adj b a) {acts : List Act}
    (hrun : run adj (orderly adj) acts (Exchange.start c) = some s)
    (hslot : s.slot = some (s.controller.nodeCount + d)) {a b : Nat} (hab : a ≠ b)
    (hga : a ∈ s.controller.entitled (s.controller.nodeCount + d))
    (hgb : b ∈ s.controller.entitled (s.controller.nodeCount + d)) :
    adj a b = false ∧
      ∀ m < s.controller.nodeCount, ¬ (adj m a = true ∧ adj m b = true) := by
  have hp := Provenance.run ha hc hrun
  have hcontrol : s.inControl = false := by
    simp [inControl, hslot]
  have hlayout : s.controller.layout = c.layout :=
    Acts.run_induction (P := fun s => s.controller.layout = c.layout)
      (fun _ _ _ _ h hstep => (step_layout (stepBy_eq_some.1 hstep).2).trans h) rfl hrun
  -- a node that may send in it makes it a slot of the frame
  have hd : d < c.layout.dataSlots := by
    refine Nat.lt_of_not_le fun hle => ?_
    have htotal : s.controller.slotMap.length = _ := hp.shaped.totalSlots
    rw [Controller.entitled, List.getD_eq_getElem?_getD, List.getElem?_eq_none
      (by rw [htotal, hlayout]; omega)] at hga
    cases hga
  have hs : Provenance adj s ∧ Separation adj d s := by
    refine Acts.run_induction (P := fun s => Provenance adj s ∧ Separation adj d s)
      (fun s a _ s' h hact => ?_) ⟨.start ha hc, .start ht hc hd⟩ hrun
    obtain ⟨hrule, hstep⟩ := stepBy_eq_some.1 hact
    exact ⟨h.1.step hstep, h.2.step h.1 hsym hrule hstep⟩
  obtain ⟨h1, h2⟩ := hs.2.apart hcontrol a b hab hga hgb
  exact ⟨h1, fun m hm h => h2 m hm h.1 h.2⟩

/-- Two frames in a row of four nodes, in which the first and the last node choose the data slot. -/
def reuse (m : Medium) : List Act :=
  let frame :=
    [.beginFrame, .choose 0, .reserve m 0, .hand 0 1, .choose 0, .reserve m 3, .reserve m 1,
      .hand 1 2, .hand 2 2, .hand 2 0, .reserve m 2, .hand 3 3, .hand 3 1,
      .openSlot, .openSlot, .openSlot, .openSlot]
  frame ++ frame

theorem run_reuse :
    (run nextTo (orderly nextTo) (reuse silence) (Exchange.start fourNodes)).map
      (fun s => (s.slot, s.controller.nodeCount, s.controller.entitled 4))
      = some (some 4, 4, [0, 3]) := by decide +kernel

theorem no_interference_reuse :
    ∃ s, run nextTo (orderly nextTo) (reuse silence) (Exchange.start fourNodes) = some s ∧
      s.slot = some 4 ∧ s.controller.entitled 4 = [0, 3] ∧ nextTo 0 3 = false ∧
      ∀ m < 4, ¬ (nextTo m 0 = true ∧ nextTo m 3 = true) := by
  obtain ⟨s, hs, hv⟩ := Option.map_eq_some_iff.1 run_reuse
  simp only [Prod.mk.injEq] at hv
  obtain ⟨hslot, hnodes, hgrant⟩ := hv
  have hsym : ∀ a b, nextTo a b = nextTo b a := fun a b => by
    rw [nextTo, nextTo, Bool.or_comm]
  have h := no_interference (d := 0) (a := 0) (b := 3) Config.accepted_row (Nat.le_refl 3)
    ofConfig_row hsym hs (by rw [hslot, hnodes]) (by decide)
    (by rw [hnodes, hgrant]; simp) (by rw [hnodes, hgrant]; simp)
  rw [hnodes] at h
  exact ⟨s, hs, hslot, hgrant, h⟩

end SlotNet.Exchange
