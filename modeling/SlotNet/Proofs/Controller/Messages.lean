import SlotNet.Proofs.Controller.Course

/-!
# What a node's status message says

As long as all claims in the table can be passed on as they are (`Relayable`), the status message
of a node says what the node holds, claims of others one hop further away (`decode_status`). Every
operation keeps the table so, whatever messages are merged.
-/

namespace SlotNet

/-- A claim that can be passed on: one hop further away it still fits its digits. -/
structure Claim.Relayable (c : Claim) : Prop where
  priority_lt : c.priority < Claim.greatestPriority
  owner_le : c.owner ≤ StatusMessage.greatestOwner

namespace Claim

theorem relayable_free : free.Relayable := ⟨by decide, by decide⟩

theorem relayable_own {node : Nat} (h : node ≤ StatusMessage.greatestOwner) :
    (own node).Relayable := ⟨(by decide : 1 < greatestPriority), h⟩

theorem advertised_eq {c : Claim} (h : c.Relayable) (node : Nat) :
    c.advertised node
      = if c.isClaimed && c.owner != node then ⟨c.priority + 1, c.owner⟩ else c := by
  rw [advertised, Nat.min_eq_left h.priority_lt]

theorem fits_advertised {c : Claim} (h : c.Relayable) (node : Nat) : (c.advertised node).Fits := by
  rw [advertised_eq h]
  split
  · exact ⟨h.priority_lt, h.owner_le⟩
  · exact ⟨Nat.le_of_lt h.priority_lt, h.owner_le⟩

theorem owner_advertised (c : Claim) (node : Nat) : (c.advertised node).owner = c.owner := by
  unfold advertised
  split <;> rfl

theorem isClaimed_advertised {c : Claim} (h : c.Relayable) (node : Nat) :
    (c.advertised node).isClaimed = c.isClaimed := by
  rw [advertised_eq h]
  split
  · rename_i hc
    rw [Bool.and_eq_true] at hc
    rw [hc.1]
    rfl
  · rfl

end Claim

namespace Controller

/-- Every claim in the table can be passed on. -/
def Relayable (c : Controller) : Prop :=
  ∀ g n d claim, c.claims.get g n d = some claim → claim.Relayable

variable {c : Controller}

theorem Relayable.reserved (h : c.Relayable) (hc : c.Shaped) (hn : c.nodeCount ≤ 100)
    (node : Nat) : (c.reserved node).Relayable := by
  intro g n d claim hg
  rw [get_reserved] at hg
  split at hg
  · obtain ⟨held, hh, rfl⟩ := Option.map_eq_some_iff.1 hg
    have := (hc.claims.lt_of_get hh).1
    exact Claim.relayable_own (show node ≤ 99 by omega)
  · exact h g n d claim hg

theorem Relayable.merge (h : c.Relayable) (hc : c.Shaped) (ht : c.rules.priorityThreshold ≤ 9)
    (message : List UInt8) (observer : Nat) : (c.merge message observer).1.Relayable := by
  cases hd : StatusMessage.decode message c.layout.dataSlots with
  | error e => rw [merge_of_not_read hd]; exact h
  | ok m =>
    intro g n d claim hg
    rw [get_merge hc.claims hd] at hg
    split at hg
    · obtain ⟨held, hh, rfl⟩ := Option.map_eq_some_iff.1 hg
      rcases resolved_eq_or held (about m g d) with he | ⟨x, hx, hcounts, he⟩
      · rw [he]
        exact h g observer d held hh
      · have hfits := fits_of_about (StatusMessage.wellRead_of_decode hd) hx
        rw [he]
        exact ⟨Nat.lt_of_lt_of_le hcounts.2 ht, hfits.owner_le⟩
    · exact h g n d claim hg

theorem Relayable.openSlot (h : c.Relayable) (slot : Nat) : (c.openSlot slot).Relayable := by
  by_cases hs : slot = c.nodeCount
  · subst hs
    intro g n d claim hg
    rw [claims_openSlot_nodeCount] at hg
    cases g with
    | previous => exact h .current n d claim hg
    | current =>
      rw [ClaimTable.get_rotate_current] at hg
      obtain ⟨x, -, rfl⟩ := Option.map_eq_some_iff.1 hg
      exact Claim.relayable_free
  · rw [openSlot_of_ne hs]
    exact h

theorem Relayable.beginFrame (h : c.Relayable) : c.beginFrame.Relayable := by
  intro g n d claim hg
  rw [(beginsFrom_beginFrame c).claims] at hg
  exact h g n d claim hg

theorem Fresh.relayable (h : c.Fresh) : c.Relayable := by
  intro g n d claim hg
  rw [h.free g n d claim hg]
  exact Claim.relayable_free

theorem length_map_advertised {row : List Claim} {slots : Nat} (h : row.length = slots)
    (node : Nat) : (row.map (Claim.advertised node)).length = slots := by
  rw [List.length_map, h]

/-- A node's status message is read back as the two rows that the node holds after it has marked its
choices, as it passes them on. -/
theorem decode_rows {node : Nat} (h : (c.reserved node).Relayable) (hc : c.Shaped)
    {message : List UInt8} (hs : c.status node = some message) :
    ∃ previous current, (c.reserved node).claims.row .previous node = some previous ∧
      (c.reserved node).claims.row .current node = some current ∧
      StatusMessage.decode message c.layout.dataSlots = .ok
        ⟨(previous.map (Claim.advertised node)).map some,
          (current.map (Claim.advertised node)).map some⟩ := by
  have hshaped := (hc.reserved node).claims
  rw [(sameFrame_reserved c node).layout, (sameFrame_reserved c node).nodeCount] at hshaped
  unfold Relayable at h
  rw [show (c.reserved node).claims = (c.markChosen node).claims from claims_grantSlots _ _ _]
    at h hshaped ⊢
  unfold status at hs
  cases hp : (c.markChosen node).claims.row .previous node with
  | none => simp [hp] at hs
  | some previous =>
    cases hq : (c.markChosen node).claims.row .current node with
    | none => simp [hp, hq] at hs
    | some current =>
      simp only [hp, hq, Option.some.injEq] at hs
      have hfits : ∀ g row, (c.markChosen node).claims.row g node = some row →
          ∀ x ∈ row.map (Claim.advertised node), x.Fits := by
        intro g row hr x hx
        obtain ⟨y, hy, rfl⟩ := List.mem_map.1 hx
        obtain ⟨d, hd⟩ := List.mem_iff_getElem?.1 hy
        exact Claim.fits_advertised
          (h g node d y (ClaimTable.get_eq_some_iff.2 ⟨row, hr, hd⟩)) node
      exact ⟨previous, current, rfl, rfl, hs ▸ StatusMessage.decode_encode
        (length_map_advertised (hshaped.length_of_row hp) node)
        (length_map_advertised (hshaped.length_of_row hq) node)
        (hfits .previous previous hp) (hfits .current current hq)⟩

theorem decode_status {node : Nat} (h : (c.reserved node).Relayable) (hc : c.Shaped)
    {message : List UInt8} (hs : c.status node = some message) :
    ∃ m, StatusMessage.decode message c.layout.dataSlots = .ok m ∧
      ∀ g d, about m g d = ((c.reserved node).claims.get g node d).map (Claim.advertised node) := by
  obtain ⟨previous, current, hp, hq, hdecode⟩ := decode_rows h hc hs
  refine ⟨_, hdecode, fun g d => ?_⟩
  cases g <;> simp only [about, ClaimTable.get, hp, hq, Option.bind_some, List.getElem?_map]
  · cases previous[d]? <;> rfl
  · cases current[d]? <;> rfl

theorem status_isSome {node : Nat} (hc : c.Shaped) (hn : node < c.nodeCount) :
    ∃ message, c.status node = some message := by
  have hshaped := (hc.reserved node).claims
  rw [(sameFrame_reserved c node).layout, (sameFrame_reserved c node).nodeCount,
    show (c.reserved node).claims = (c.markChosen node).claims from claims_grantSlots _ _ _]
    at hshaped
  obtain ⟨previous, hp, -⟩ := hshaped.row_eq_some .previous hn
  obtain ⟨current, hq, -⟩ := hshaped.row_eq_some .current hn
  unfold status
  rw [hp, hq]
  exact ⟨_, rfl⟩

end Controller

end SlotNet
