import SlotNet.Environment
import SlotNet.Proofs.AnyOrder
import SlotNet.Proofs.Backlog

/-!
# What a node is shown

A slot's code tells a node whom it would disturb there: nobody, a neighbour that carries its frames to one of the
top destinations, or anybody else. `Codes` says which code stands for which claim, and `usageCode_cases` is the
case distinction behind it. `Shows` is the whole observation, over whatever routes.
-/

namespace SlotNet.Environment

/-! ## One code -/

/-- The next hops lead over the neighbour to the destination of this rank, and to none of a better rank. -/
def LeadsFirst (hops : List (Option Nat)) (neighbour rank : Nat) : Prop :=
  hops[rank]? = some (some neighbour) ∧ ∀ better < rank, hops[better]? ≠ some (some neighbour)

/-- The code of a claim, seen by a node that has these next hops towards its top destinations. -/
structure Codes (node : Nat) (hops : List (Option Nat)) (x : Claim) (code : Int) : Prop where
  low : -1 ≤ code
  high : code ≤ hops.length
  free : code = 0 ↔ x.isClaimed = false
  ranked : ∀ rank : Nat, code = rank + 1 ↔
    x.isClaimed = true ∧ x.owner ≠ node ∧ LeadsFirst hops x.owner rank
  other : code = -1 ↔ x.isClaimed = true ∧ (x.owner = node ∨ some x.owner ∉ hops)

variable {node : Nat} {hops : List (Option Nat)} {x : Claim}

theorem LeadsFirst.unique {neighbour rank rank' : Nat} (h : LeadsFirst hops neighbour rank)
    (h' : LeadsFirst hops neighbour rank') : rank = rank' := by
  rcases Nat.lt_trichotomy rank rank' with hlt | heq | hlt
  · exact absurd h.1 (h'.2 rank hlt)
  · exact heq
  · exact absurd h'.1 (h.2 rank' hlt)

theorem findIdx?_hops {neighbour rank : Nat} :
    hops.findIdx? (· == some neighbour) = some rank ↔ LeadsFirst hops neighbour rank := by
  rw [List.findIdx?_eq_some_iff_getElem, LeadsFirst]
  constructor
  · rintro ⟨hlt, hhop, hbetter⟩
    refine ⟨List.getElem?_eq_some_iff.2 ⟨hlt, eq_of_beq hhop⟩, fun better hb hsame => ?_⟩
    obtain ⟨hlt', hsame⟩ := List.getElem?_eq_some_iff.1 hsame
    exact hbetter better hb (by simp [hsame])
  · rintro ⟨hhop, hbetter⟩
    obtain ⟨hlt, hhop⟩ := List.getElem?_eq_some_iff.1 hhop
    refine ⟨hlt, by simp [hhop], fun better hb hsame => hbetter better hb ?_⟩
    exact List.getElem?_eq_some_iff.2 ⟨Nat.lt_trans hb hlt, eq_of_beq hsame⟩

theorem usageCode_cases (node : Nat) (hops : List (Option Nat)) (x : Claim) :
    (x.isClaimed = false ∧ usageCode node hops x = 0) ∨
    (∃ rank, x.isClaimed = true ∧ x.owner ≠ node ∧ LeadsFirst hops x.owner rank ∧
      usageCode node hops x = rank + 1) ∨
    (x.isClaimed = true ∧ (x.owner = node ∨ some x.owner ∉ hops) ∧ usageCode node hops x = -1) := by
  unfold usageCode
  cases hclaimed : x.isClaimed with
  | false => exact .inl ⟨rfl, rfl⟩
  | true =>
    by_cases hown : x.owner = node
    · exact .inr (.inr ⟨rfl, .inl hown, by simp [hown]⟩)
    · cases hfirst : hops.findIdx? (· == some x.owner) with
      | some rank => exact .inr (.inl ⟨rank, rfl, hown, findIdx?_hops.1 hfirst, by simp [hown]⟩)
      | none =>
        have hout : some x.owner ∉ hops := fun hmem => by
          have hnot := List.findIdx?_eq_none_iff.1 hfirst _ hmem
          simp at hnot
        exact .inr (.inr ⟨rfl, .inr hout, by simp [hown]⟩)

theorem codes_usageCode (node : Nat) (hops : List (Option Nat)) (x : Claim) :
    Codes node hops x (usageCode node hops x) := by
  rcases usageCode_cases node hops x with ⟨hfree, hcode⟩ | ⟨rank, hclaimed, hown, hfirst, hcode⟩ |
    ⟨hclaimed, hother, hcode⟩ <;> rw [hcode]
  · exact ⟨by omega, by omega, by simp [hfree], fun r => by simp [hfree]; omega, by simp [hfree]⟩
  · have hlt : rank < hops.length := (List.getElem?_eq_some_iff.1 hfirst.1).1
    have hmem : some x.owner ∈ hops := List.mem_of_getElem? hfirst.1
    refine ⟨by omega, by omega, ?_, fun r => ⟨fun hr => ?_, fun hr => ?_⟩, ?_⟩
    · rw [hclaimed]
      exact ⟨fun h => by omega, fun h => by cases h⟩
    · obtain rfl : rank = r := by omega
      exact ⟨hclaimed, hown, hfirst⟩
    · rw [hfirst.unique hr.2.2]
    · refine ⟨fun h => by omega, fun h => ?_⟩
      rcases h.2 with hnode | hout
      · exact absurd hnode hown
      · exact absurd hmem hout
  · refine ⟨by omega, by omega, ?_, fun r => ⟨fun hr => by omega, fun hr => ?_⟩, ?_⟩
    · simp [hclaimed]
    · rcases hother with hown | hout
      · exact absurd hown hr.2.1
      · exact absurd (List.mem_of_getElem? hr.2.2.1) hout
    · exact ⟨fun _ => ⟨hclaimed, hother⟩, fun _ => rfl⟩

theorem usageCode_eq_zero_iff : usageCode node hops x = 0 ↔ x.isClaimed = false :=
  (codes_usageCode node hops x).free

/-! ## The observation -/

/-- The next hops of a node towards its top destinations. -/
def topHops (e : Environment) (node : Nat) (q : TransmitQueue) (nextHop : Nat → Nat → Option Nat) :
    List (Option Nat) :=
  (q.top e.topK).map fun x => nextHop node x.1

/-- A node is shown a code for each data slot, and the bytes that wait for its top destinations. -/
structure Shows (e : Environment) (node : Nat) (c : Controller) (q : TransmitQueue)
    (nextHop : Nat → Nat → Option Nat) (o : Observation) : Prop where
  top : TransmitQueue.Ranking q.data e.topK (q.top e.topK)
  length_usage : o.usage.length = c.layout.dataSlots
  codes : ∀ d < c.layout.dataSlots, ∃ x code, c.claims.get .current node d = some x ∧
    o.usage[d]? = some code ∧ Codes node (e.topHops node q nextHop) x code
  range : ∀ code ∈ o.usage, -1 ≤ code ∧ code ≤ e.topK ∧ (e.topK < 2 ^ 31 → code < 2 ^ 31)
  length_topKBytes : o.topKBytes.length = e.topK
  descending : o.topKBytes.Pairwise (· ≥ ·)
  bytes : ∀ rank < e.topK, o.topKBytes[rank]? = some (((q.top e.topK)[rank]?.map (·.2)).getD 0)

/-- Whatever happened before, whatever waits and whoever tells the next hops, this is what a node of the network
is shown. -/
theorem shows_observeVia {config : Config} {c : Controller} (hc : c.Reachable config) {node : Nat}
    (hn : node < c.nodeCount) (e : Environment) (q : TransmitQueue) (nextHop : Nat → Nat → Option Nat) :
    e.Shows node c q nextHop (e.observeVia node c q nextHop) := by
  obtain ⟨row, hrow, hlength⟩ := hc.shaped.claims.row_eq_some .current hn
  have hranking := q.ranking_top e.topK
  have husage : (e.observeVia node c q nextHop).usage
      = row.map (usageCode node (e.topHops node q nextHop)) := by
    simp only [observeVia, Controller.usage, hrow, Option.getD_some]
    rfl
  have hbytes : (e.observeVia node c q nextHop).topKBytes
      = (q.top e.topK).map (·.2) ++ List.replicate (e.topK - (q.top e.topK).length) 0 := rfl
  have hhops : (e.topHops node q nextHop).length ≤ e.topK := by
    rw [topHops, List.length_map]
    exact hranking.length_le
  refine ⟨hranking, ?_, fun d hd => ?_, fun code hcode => ?_, ?_, ?_, fun rank hrank => ?_⟩
  · rw [husage, List.length_map, hlength]
  · obtain ⟨x, hx⟩ := hc.shaped.claims.get_eq_some .current hn hd
    refine ⟨x, _, hx, ?_, codes_usageCode _ _ x⟩
    obtain ⟨row', hrow', hplace⟩ := ClaimTable.get_eq_some_iff.1 hx
    cases hrow.symm.trans hrow'
    rw [husage, List.getElem?_map, hplace]
    rfl
  · rw [husage] at hcode
    obtain ⟨x, -, rfl⟩ := List.mem_map.1 hcode
    have hcodes := codes_usageCode node (e.topHops node q nextHop) x
    have hhigh := hcodes.high
    exact ⟨hcodes.low, by omega, by omega⟩
  · rw [hbytes, List.length_append, List.length_map, List.length_replicate,
      Nat.add_sub_cancel' hranking.length_le]
  · rw [hbytes, List.pairwise_append, List.pairwise_map]
    refine ⟨hranking.descending, List.pairwise_replicate.2 (.inr (Nat.le_refl 0)), ?_⟩
    intro a _ b hb
    rw [List.eq_of_mem_replicate hb]
    exact Nat.zero_le a
  · rw [hbytes, List.getElem?_append, List.length_map, List.getElem?_map, List.getElem?_replicate]
    split
    · rename_i hlt
      rw [List.getElem?_eq_getElem hlt]
      rfl
    · rename_i hge
      rw [List.getElem?_eq_none (Nat.le_of_not_lt hge), if_pos (by omega)]
      rfl

/-- Node 1 holds slot 3, and has heard that its neighbours hold slots 0 and 1. -/
def overheard (c : Controller) : Controller :=
  (c.merge (StatusMessage.encode (List.replicate 4 .free) [⟨1, 0⟩, ⟨1, 2⟩, .free, .own 1]) 1).1

/-- Payload waits at node 1 for both ends of the row. -/
def waiting : TransmitQueue :=
  let item := fun uid destination size => QueueItem.mk
    ⟨uid, .data, .ofNode 1, .broadcast, 1, destination, 0, .blank size⟩ 0
  { TransmitQueue.new 400 Time.second with
    data := [item 0 0 300, item 1 3 500, item 2 3 300], queuedBytes := 1184 }

/-- The next hops of node 1 along the row. -/
def alongRow (_node destination : Nat) : Option Nat := [some 0, none, some 2, some 2][destination]?.join

theorem top_waiting : waiting.top 3 = [(3, 800), (0, 300)] := by
  have hbacklog : waiting.backlog = [(0, 300), (3, 800)] := rfl
  rw [TransmitQueue.top, hbacklog]
  simp [List.mergeSort]

theorem shows_observeVia_wideRow : ∃ c, Controller.ofConfig Config.wideRow = .ok c ∧
    (overheard c).Reachable Config.wideRow ∧ 1 < (overheard c).nodeCount ∧
    (ofConfig Config.wideRow).observeVia 1 (overheard c) waiting alongRow
      = ⟨[2, 1, 0, -1], 1184, [800, 300, 0]⟩ ∧
    (ofConfig Config.wideRow).Shows 1 (overheard c) waiting alongRow ⟨[2, 1, 0, -1], 1184, [800, 300, 0]⟩ := by
  obtain ⟨c, hc⟩ : ∃ c, Controller.ofConfig Config.wideRow = .ok c := ⟨_, rfl⟩
  have hreachable : (overheard c).Reachable Config.wideRow := (Controller.Reachable.new hc).merge _ 1
  have hnode : 1 < (overheard c).nodeCount := by
    cases hc
    decide +kernel
  have hshows := shows_observeVia hreachable hnode (ofConfig Config.wideRow) waiting alongRow
  have husage : (overheard c).usage 1 = [⟨1, 0⟩, ⟨1, 2⟩, .free, .own 1] := by
    cases hc
    decide +kernel
  have hsees : (ofConfig Config.wideRow).observeVia 1 (overheard c) waiting alongRow
      = ⟨[2, 1, 0, -1], 1184, [800, 300, 0]⟩ := by
    have htop : waiting.top (ofConfig Config.wideRow).topK = [(3, 800), (0, 300)] := top_waiting
    rw [observeVia, htop, husage]
    rfl
  rw [hsees] at hshows
  exact ⟨c, hc, hreachable, hnode, hsees, hshows⟩

end SlotNet.Environment
