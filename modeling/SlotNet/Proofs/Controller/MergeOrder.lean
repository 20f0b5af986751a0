import Mathlib.Order.Bounds.Basic
import SlotNet.Proofs.AnyOrder
import SlotNet.Proofs.Controller.Rewards

/-!
# Merging in any order

When several messages reach an observer, then it depends on their order whose claims it holds in the end.
How close these claims are, which own ones are lost, and who may send in the slots, all this depends on the
messages alone: `Settles` says so of one claim, and `Settled` of the whole controller. Merging one row does
this, one after another do it together (`Settled.trans`), and so do messages of any number
(`settled_mergeAll`).
-/

namespace SlotNet

/-- Is it a claim of another node? -/
def Claim.isForeign (observer : Nat) (c : Claim) : Bool := c.isClaimed && c.owner != observer

theorem Claim.not_isOwnedBy_of_isForeign {observer : Nat} {c : Claim} (h : c.isForeign observer = true) :
    c.isOwnedBy observer = false := by
  rw [isForeign, Bool.and_eq_true, bne_iff_ne] at h
  simp [isOwnedBy, h.2]

namespace Controller

variable {observer threshold : Nat}

/-! ## One claim -/

/-- What is held `after` others have `offered` claims of some priorities. Without offers it is what was held
before. Else it is a claim of another node, the closest of those that were offered and, if it was another
node's too, the one held before. -/
structure Settles (observer : Nat) (offered : Nat → Prop) (held after : Claim) : Prop where
  kept : (∀ k, ¬ offered k) → after = held
  foreign : (∃ k, offered k) → after.isForeign observer = true
  least : (∃ k, offered k) →
    IsLeast {k | offered k ∨ (held.isForeign observer = true ∧ k = held.priority)} after.priority

section settles

variable {offered offered' : Nat → Prop} {held after after' : Claim}

theorem Settles.refl (hnone : ∀ k, ¬ offered k) (held : Claim) : Settles observer offered held held :=
  ⟨fun _ => rfl, fun ⟨k, hk⟩ => absurd hk (hnone k), fun ⟨k, hk⟩ => absurd hk (hnone k)⟩

theorem Settles.trans (h : Settles observer offered held after)
    (h' : Settles observer offered' after after') :
    Settles observer (fun k => offered k ∨ offered' k) held after' := by
  by_cases hfirst : ∃ k, offered k
  · by_cases hthen : ∃ k, offered' k
    · obtain ⟨hmem, hle⟩ := h.least hfirst
      obtain ⟨hmem', hle'⟩ := h'.least hthen
      have hcloser : after'.priority ≤ after.priority := hle' (.inr ⟨h.foreign hfirst, rfl⟩)
      refine ⟨fun hnone => ?_, fun _ => h'.foreign hthen, fun _ => ⟨?_, ?_⟩⟩
      · obtain ⟨k, hk⟩ := hfirst
        exact absurd (.inl hk) (hnone k)
      · rcases hmem' with hk | ⟨-, hk⟩
        · exact .inl (.inr hk)
        · rw [hk]
          exact hmem.imp_left .inl
      · rintro k ((hk | hk) | hk)
        · exact Nat.le_trans hcloser (hle (.inl hk))
        · exact hle' (.inl hk)
        · exact Nat.le_trans hcloser (hle (.inr hk))
    · obtain rfl := h'.kept fun k hk => hthen ⟨k, hk⟩
      have hsame : ∀ k, offered k ∨ offered' k ↔ offered k := fun k =>
        or_iff_left fun hk => hthen ⟨k, hk⟩
      simp only [hsame]
      exact h
  · obtain rfl := h.kept fun k hk => hfirst ⟨k, hk⟩
    have hsame : ∀ k, offered k ∨ offered' k ↔ offered' k := fun k =>
      or_iff_right fun hk => hfirst ⟨k, hk⟩
    simp only [hsame]
    exact h'

theorem Settles.isOwnedBy (h : Settles observer offered held after)
    (howned : after.isOwnedBy observer = true) : after = held := by
  refine h.kept fun k hk => ?_
  have := Claim.not_isOwnedBy_of_isForeign (h.foreign ⟨k, hk⟩)
  rw [howned] at this
  cases this

theorem Settles.priority_unique (h : Settles observer offered held after)
    (h' : Settles observer offered held after') : after.priority = after'.priority := by
  by_cases hoffered : ∃ k, offered k
  · exact (h.least hoffered).unique (h'.least hoffered)
  · rw [h.kept fun k hk => hoffered ⟨k, hk⟩, h'.kept fun k hk => hoffered ⟨k, hk⟩]

theorem Settles.isOwnedBy_unique (h : Settles observer offered held after)
    (h' : Settles observer offered held after') : after.isOwnedBy observer = after'.isOwnedBy observer := by
  by_cases hoffered : ∃ k, offered k
  · rw [Claim.not_isOwnedBy_of_isForeign (h.foreign hoffered),
      Claim.not_isOwnedBy_of_isForeign (h'.foreign hoffered)]
  · rw [h.kept fun k hk => hoffered ⟨k, hk⟩, h'.kept fun k hk => hoffered ⟨k, hk⟩]

end settles

/-- A claim that counts is offered with its priority. -/
def Offers (threshold : Nat) (heard : Option Claim) (k : Nat) : Prop :=
  ∃ c, heard = some c ∧ Counts threshold c ∧ c.priority = k

/-- A claim that is heard settles what is held, if it is not one of the observer. -/
theorem settles_resolved {heard : Option Claim} (held : Claim)
    (hforeign : ∀ c, heard = some c → c.isClaimed = true → c.owner ≠ observer) :
    Settles observer (Offers threshold heard) held (resolved threshold observer held heard) := by
  by_cases hcounts : ∃ c, heard = some c ∧ Counts threshold c
  · obtain ⟨c, rfl, hc⟩ := hcounts
    obtain ⟨hclaimed, hothers, hcloser⟩ := resolved_of_foreign held hc (hforeign c rfl hc.1)
    have hafter : (resolved threshold observer held (some c)).isForeign observer = true := by
      rw [Claim.isForeign, hclaimed, Bool.true_and, bne_iff_ne]
      exact hothers
    have hsource : resolved threshold observer held (some c) = held ∨ _ := resolved_eq_or held (some c)
    refine ⟨fun hnone => absurd ⟨c, rfl, hc, rfl⟩ (hnone c.priority), fun _ => hafter,
      fun _ => ⟨?_, ?_⟩⟩
    · rcases hsource with h | ⟨x, hx, hcx, h⟩
      · rw [h] at hafter ⊢
        exact .inr ⟨hafter, rfl⟩
      · rw [h]
        exact .inl ⟨x, hx, hcx, rfl⟩
    · rintro k (⟨x, hx, -, rfl⟩ | ⟨hheld, rfl⟩)
      · cases hx
        exact hcloser
      · rw [Claim.isForeign, Bool.and_eq_true, bne_iff_ne] at hheld
        rcases resolved_of_held_foreign threshold (some c) hheld.1 hheld.2 with h | ⟨x, -, -, hlt, h⟩
        · rw [h]
        · rw [h]
          exact Nat.le_of_lt hlt
  · have hkept : resolved threshold observer held heard = held := by
      rcases resolved_eq_or held heard with h | ⟨c, hc, hcounts', -⟩
      · exact h
      · exact absurd ⟨c, hc, hcounts'⟩ hcounts
    rw [hkept]
    exact .refl (fun k ⟨c, hc, hcounts', _⟩ => hcounts ⟨c, hc, hcounts'⟩) held

/-! ## The whole controller -/

/-- Does the node see a slot as its own? -/
def holds (c : Controller) (node : Nat) (g : Generation) (d : Nat) : Bool :=
  (c.claims.get g node d).any (·.isOwnedBy node)

/-- The data slots that the node saw as its own in a generation and does no longer. -/
def lostIn (c after : Controller) (node : Nat) (g : Generation) : List Nat :=
  (List.range c.layout.dataSlots).filter fun d => c.holds node g d && !after.holds node g d

def lost (c after : Controller) (node : Nat) : List Nat :=
  c.lostIn after node .previous ++ c.lostIn after node .current

/-- Each claim of the observer is settled. Its own claims that are lost are counted, it may no longer send in
their slots, and nothing else has changed. -/
structure Settled (observer : Nat) (offered : Generation → Nat → Nat → Prop) (c after : Controller)
    (conflicts : Nat) : Prop where
  frame : SameFrame c after
  credit : SameCredit c after
  others : ∀ g n, n ≠ observer → after.claims.row g n = c.claims.row g n
  places : ∀ g d, Option.Rel (Settles observer (offered g d)) (c.claims.get g observer d)
    (after.claims.get g observer d)
  slotMap : after.slotMap = (c.withdrawSlots observer (c.lost after observer)).slotMap
  conflicts : conflicts = (c.lost after observer).length

/-! ### What is lost -/

section lost

variable {c c' c'' : Controller} {g : Generation} {d : Nat}

theorem mem_lostIn : d ∈ c.lostIn c' observer g ↔
    d < c.layout.dataSlots ∧ c.holds observer g d = true ∧ c'.holds observer g d = false := by
  simp [lostIn]

theorem nodup_lostIn : (c.lostIn c' observer g).Nodup := List.nodup_range.filter _

theorem lostIn_perm (hlayout : c'.layout = c.layout)
    (hfirst : ∀ d, c'.holds observer g d = true → c.holds observer g d = true)
    (hthen : ∀ d, c''.holds observer g d = true → c'.holds observer g d = true) :
    (c.lostIn c'' observer g).Perm (c.lostIn c' observer g ++ c'.lostIn c'' observer g) := by
  refine (List.perm_ext_iff_of_nodup nodup_lostIn ?_).2 fun d => ?_
  · refine List.nodup_append.2 ⟨nodup_lostIn, nodup_lostIn, fun x hx y hy hxy => ?_⟩
    subst hxy
    have hgone := (mem_lostIn.1 hx).2.2
    rw [(mem_lostIn.1 hy).2.1] at hgone
    cases hgone
  · rw [List.mem_append, mem_lostIn, mem_lostIn, mem_lostIn, hlayout]
    have h1 := hfirst d
    have h2 := hthen d
    revert h1 h2
    cases c.holds observer g d <;> cases c'.holds observer g d <;> cases c''.holds observer g d <;> simp

theorem lost_perm (hlayout : c'.layout = c.layout)
    (hfirst : ∀ g d, c'.holds observer g d = true → c.holds observer g d = true)
    (hthen : ∀ g d, c''.holds observer g d = true → c'.holds observer g d = true) :
    (c.lost c'' observer).Perm (c.lost c' observer ++ c'.lost c'' observer) := by
  refine ((lostIn_perm hlayout (hfirst _) (hthen _)).append
    (lostIn_perm hlayout (hfirst _) (hthen _))).trans ?_
  simp only [lost, ← Multiset.coe_eq_coe, ← Multiset.coe_add]
  exact add_add_add_comm ..

theorem lost_of_one (g : Generation)
    (h : ∀ g', g' ≠ g → ∀ d, c'.holds observer g' d = c.holds observer g' d) :
    c.lost c' observer = c.lostIn c' observer g := by
  have hnone : ∀ g', g' ≠ g → c.lostIn c' observer g' = [] := fun g' hg =>
    List.filter_eq_nil_iff.2 fun d _ => by simp [h g' hg]
  cases g with
  | previous => rw [lost, hnone .current (by decide), List.append_nil]
  | current => rw [lost, hnone .previous (by decide), List.nil_append]

theorem lost_self (c : Controller) (observer : Nat) : c.lost c observer = [] := by
  simp [lost, lostIn]

end lost

/-! ### One row after another -/

section settled

variable {c c' c'' : Controller} {offered offered' : Generation → Nat → Nat → Prop}
  {conflicts conflicts' : Nat}

theorem Settled.holds (h : Settled observer offered c c' conflicts) (g : Generation) (d : Nat)
    (hholds : c'.holds observer g d = true) : c.holds observer g d = true := by
  have hplace := h.places g d
  unfold Controller.holds at hholds ⊢
  generalize c.claims.get g observer d = held, c'.claims.get g observer d = after at hplace hholds ⊢
  cases hplace with
  | none => cases hholds
  | some hsettles =>
    rw [Option.any_some] at hholds ⊢
    rw [← hsettles.isOwnedBy hholds]
    exact hholds

theorem Settled.trans (h : Settled observer offered c c' conflicts)
    (h' : Settled observer offered' c' c'' conflicts') :
    Settled observer (fun g d k => offered g d k ∨ offered' g d k) c c'' (conflicts + conflicts') := by
  have hlost := lost_perm h.frame.layout h.holds h'.holds
  refine ⟨h.frame.trans h'.frame, h.credit.trans h'.credit,
    fun g n hn => (h'.others g n hn).trans (h.others g n hn), fun g d => ?_, ?_, ?_⟩
  · have hfirst := h.places g d
    have hthen := h'.places g d
    generalize c.claims.get g observer d = x, c'.claims.get g observer d = y,
      c''.claims.get g observer d = z at hfirst hthen ⊢
    cases hfirst with
    | none =>
      cases hthen
      exact .none
    | some hsettles =>
      cases hthen with
      | some hsettles' => exact .some (hsettles.trans hsettles')
  · have hmap : c'.slotMap = (c.withdrawSlots observer (c.lost c' observer)).slotMap := h.slotMap
    have hnodes := (sameFrame_withdrawSlots c observer (c.lost c' observer)).nodeCount
    rw [h'.slotMap, slotMap_withdrawSlots_congr hmap (h.frame.nodeCount.trans hnodes.symm)
      (fun s => Iff.rfl), ← withdrawSlots_append]
    exact slotMap_withdrawSlots_congr rfl rfl fun s => hlost.symm.mem_iff
  · rw [hlost.length_eq, List.length_append, h.conflicts, h'.conflicts]

theorem Settled.congr (h : Settled observer offered c c' conflicts)
    (hsame : ∀ g d k, offered g d k ↔ offered' g d k) : Settled observer offered' c c' conflicts := by
  obtain rfl : offered = offered' := by
    funext g d k
    exact propext (hsame g d k)
  exact h

/-- Where nothing happens, nothing may be offered for a slot that the observer sees. -/
theorem Settled.refl (hnone : ∀ g d k held, c.claims.get g observer d = some held → ¬ offered g d k) :
    Settled observer offered c c 0 := by
  refine ⟨.refl c, .refl c, fun _ _ _ => rfl, fun g d => ?_, ?_, ?_⟩
  · cases hget : c.claims.get g observer d with
    | none => exact .none
    | some held => exact .some (.refl (fun k => hnone g d k held hget) held)
  · rw [lost_self]
    rfl
  · rw [lost_self]
    rfl

end settled

/-! ### Messages -/

section merge

variable {c : Controller} {nodes slots : Nat}

/-- An own claim is lost where the observer yields. -/
theorem verdict_eq_yield_iff_lost {heard : Option Claim} (held : Claim)
    (hforeign : ∀ x, heard = some x → x.isClaimed = true → x.owner ≠ observer) :
    verdict threshold observer held heard = .yield ↔ held.isOwnedBy observer = true ∧
      (resolved threshold observer held heard).isOwnedBy observer = false := by
  constructor
  · intro hv
    obtain ⟨hown, x, rfl, hx, -⟩ := verdict_eq_yield_iff.1 hv
    exact ⟨hown, Claim.not_isOwnedBy_of_isForeign
      ((settles_resolved held hforeign).foreign ⟨x.priority, x, rfl, hx, rfl⟩)⟩
  · rintro ⟨hown, hlost⟩
    by_contra hv
    rw [resolved_of_own hown hv, hown] at hlost
    cases hlost

section row

variable {g : Generation} {heard : List (Option Claim)}

theorem lost_mergeRow {row : List Claim} (hc : c.claims.Shaped nodes c.layout.dataSlots)
    (hl : heard.length = c.layout.dataSlots) (hr : c.claims.row g observer = some row)
    (hforeign : ∀ (d : Nat) (x : Claim), heard[d]?.join = some x → x.isClaimed = true →
      x.owner ≠ observer) :
    (c.lost (c.mergeRow g observer heard).2 observer).Perm
      (yielded c.rules.priorityThreshold observer 0 row heard) := by
  have hplaces := get_mergeRow hc g observer hl
  rw [lost_of_one g fun g' hg d => by rw [holds, holds, hplaces, if_neg fun h => hg h.1]]
  refine (List.perm_ext_iff_of_nodup nodup_lostIn
    ((yielded_sorted _ observer 0 row heard).imp Nat.ne_of_lt)).2 fun d => ?_
  rw [mem_lostIn, holds, holds, hplaces, if_pos ⟨rfl, rfl⟩, mem_yielded_of_row hc hr hl]
  cases hget : c.claims.get g observer d with
  | none => simp
  | some held =>
    simp only [Option.any_some, Option.map_some, Option.some.injEq, exists_eq_left',
      verdict_eq_yield_iff_lost held (hforeign d), and_iff_right_iff_imp]
    exact fun _ => (hc.lt_of_get hget).2

theorem settles_mergeRow (hc : c.claims.Shaped nodes c.layout.dataSlots)
    (hl : heard.length = c.layout.dataSlots)
    (hforeign : ∀ (d : Nat) (x : Claim), heard[d]?.join = some x → x.isClaimed = true →
      x.owner ≠ observer) (g' : Generation) (d : Nat) :
    Option.Rel
      (Settles observer fun k => g' = g ∧ Offers c.rules.priorityThreshold heard[d]?.join k)
      (c.claims.get g' observer d) ((c.mergeRow g observer heard).2.claims.get g' observer d) := by
  rw [get_mergeRow hc g observer hl]
  by_cases hg : g' = g
  · subst hg
    rw [if_pos ⟨rfl, rfl⟩]
    cases c.claims.get g' observer d with
    | none => exact .none
    | some held =>
      simp only [true_and]
      exact .some (settles_resolved held (hforeign d))
  · rw [if_neg fun h => hg h.1]
    cases c.claims.get g' observer d with
    | none => exact .none
    | some held => exact .some (.refl (fun k hk => hg hk.1) held)

theorem settled_mergeRow (hc : c.claims.Shaped nodes c.layout.dataSlots)
    (hl : heard.length = c.layout.dataSlots)
    (hforeign : ∀ (d : Nat) (x : Claim), heard[d]?.join = some x → x.isClaimed = true →
      x.owner ≠ observer) :
    Settled observer (fun g' d k => g' = g ∧ Offers c.rules.priorityThreshold heard[d]?.join k)
      c (c.mergeRow g observer heard).2 (c.mergeRow g observer heard).1 := by
  cases hr : c.claims.row g observer with
  | none =>
    have hsame : c.mergeRow g observer heard = (0, c) := by
      unfold mergeRow
      rw [hr]
    rw [hsame]
    refine .refl fun g' d k held hget => ?_
    rintro ⟨rfl, -⟩
    rw [ClaimTable.get, hr] at hget
    cases hget
  | some row =>
    have hlost := lost_mergeRow hc hl hr hforeign
    refine ⟨sameFrame_mergeRow c g observer heard, sameCredit_mergeRow c g observer heard,
      fun g' n hn => ?_, settles_mergeRow hc hl hforeign, ?_, ?_⟩
    · rw [mergeRow_of_row hr, claims_withdrawSlots, withRow, ClaimTable.row_setRow,
        if_neg fun h => hn h.2]
    · rw [mergeRow_of_row hr] at hlost ⊢
      exact slotMap_withdrawSlots_congr rfl rfl fun s => hlost.symm.mem_iff
    · rw [hlost.length_eq]
      unfold mergeRow
      rw [hr]

end row

/-- Some message offers a claim on the slot with this priority. -/
def Offered (c : Controller) (messages : List (List UInt8)) (g : Generation) (d k : Nat) : Prop :=
  ∃ message ∈ messages, ∃ m, StatusMessage.decode message c.layout.dataSlots = .ok m ∧
    Offers c.rules.priorityThreshold (about m g d) k

/-- No slot is claimed for the node in the message. -/
def OthersOnly (node : Nat) (m : StatusMessage) : Prop :=
  ∀ field ∈ m.previous ++ m.current, ∀ x ∈ field, x.isClaimed = true → x.owner ≠ node

theorem OthersOnly.about {m : StatusMessage} (h : OthersOnly observer m) (g : Generation) (d : Nat)
    (x : Claim) (hx : about m g d = some x) : x.isClaimed = true → x.owner ≠ observer := by
  refine h (some x) (List.mem_append.2 ?_) x rfl
  cases g with
  | previous => exact .inl (List.mem_of_getElem? (Option.join_eq_some_iff.1 hx))
  | current => exact .inr (List.mem_of_getElem? (Option.join_eq_some_iff.1 hx))

theorem settled_merge {message : List UInt8} {m : StatusMessage}
    (hc : c.claims.Shaped nodes c.layout.dataSlots)
    (h : StatusMessage.decode message c.layout.dataSlots = .ok m) (hforeign : OthersOnly observer m) :
    ∃ conflicts, (c.merge message observer).2 = .ok conflicts ∧
      Settled observer (fun g d k => Offers c.rules.priorityThreshold (about m g d) k) c
        (c.merge message observer).1 conflicts := by
  have hr := StatusMessage.wellRead_of_decode h
  have hbefore := settled_mergeRow (g := .previous) hc hr.length_previous (hforeign.about .previous)
  have hshaped := shaped_mergeRow hc .previous observer hr.length_previous
  have hframe := hbefore.frame
  rw [← hframe.layout] at hshaped
  have hnow := settled_mergeRow (g := .current) hshaped
    (hr.length_current.trans (by rw [hframe.layout])) (hforeign.about .current)
  rw [hframe.rules] at hnow
  refine ⟨(c.mergeRow .previous observer m.previous).1 +
    ((c.mergeRow .previous observer m.previous).2.mergeRow .current observer m.current).1, ?_, ?_⟩
  · unfold merge
    rw [h]
  · rw [merge_of_decode h]
    refine (hbefore.trans hnow).congr fun g d k => ?_
    cases g <;> simp [about]

/-- Merges messages one after another into the view of a node. Gives what it was told for each. -/
def mergeAll (c : Controller) (observer : Nat) :
    List (List UInt8) → Controller × List (Except StatusError Nat)
  | [] => (c, [])
  | message :: messages =>
    let (c, answer) := c.merge message observer
    let (c, answers) := c.mergeAll observer messages
    (c, answer :: answers)

theorem offered_congr {c' : Controller} (h : SameFrame c c') (messages : List (List UInt8)) :
    c'.Offered messages = c.Offered messages := by
  funext g d k
  simp only [Offered, h.layout, h.rules]

theorem settled_mergeAll {messages : List (List UInt8)}
    (hc : c.claims.Shaped nodes c.layout.dataSlots)
    (hread : ∀ message ∈ messages, ∃ m, StatusMessage.decode message c.layout.dataSlots = .ok m)
    (hforeign : ∀ message ∈ messages, ∀ m,
      StatusMessage.decode message c.layout.dataSlots = .ok m → OthersOnly observer m) :
    ∃ conflicts : List Nat, (c.mergeAll observer messages).2 = conflicts.map .ok ∧
      Settled observer (c.Offered messages) c (c.mergeAll observer messages).1 conflicts.sum := by
  induction messages generalizing c with
  | nil => exact ⟨[], rfl, .refl fun g d k held _ ⟨message, hm, _⟩ => nomatch hm⟩
  | cons message messages ih =>
    obtain ⟨m, hm⟩ := hread message (.head _)
    obtain ⟨first, hfirst, hsettled⟩ := settled_merge hc hm (hforeign message (.head _) m hm)
    have hframe := hsettled.frame
    have hshaped := shaped_merge hc message observer
    rw [← hframe.layout] at hshaped hread hforeign
    obtain ⟨rest, hrest, hsettled'⟩ := ih hshaped (fun x hx => hread x (.tail _ hx))
      fun x hx => hforeign x (.tail _ hx)
    refine ⟨first :: rest, ?_, ?_⟩
    · show (c.merge message observer).2 :: ((c.merge message observer).1.mergeAll observer messages).2 = _
      rw [hfirst, hrest]
      rfl
    · rw [List.sum_cons]
      refine (hsettled.trans hsettled').congr fun g d k => ?_
      rw [offered_congr hframe]
      simp [Offered, hm]

end merge

/-! ## In any order -/

theorem Settled.map_unique {α : Type} {f : Claim → α} {c c' c'' : Controller}
    {offered : Generation → Nat → Nat → Prop} {conflicts conflicts' : Nat}
    (h : Settled observer offered c c' conflicts) (h' : Settled observer offered c c'' conflicts')
    (g : Generation) (d : Nat) (hf : ∀ {held after after'}, Settles observer (offered g d) held after →
      Settles observer (offered g d) held after' → f after = f after') :
    (c'.claims.get g observer d).map f = (c''.claims.get g observer d).map f := by
  have hplace := h.places g d
  have hplace' := h'.places g d
  generalize c.claims.get g observer d = x, c'.claims.get g observer d = y,
    c''.claims.get g observer d = z at hplace hplace' ⊢
  cases hplace with
  | none =>
    cases hplace'
    rfl
  | some hsettles =>
    cases hplace' with
    | some hsettles' => exact congrArg some (hf hsettles hsettles')

theorem Settled.lost_unique {c c' c'' : Controller} {offered : Generation → Nat → Nat → Prop}
    {conflicts conflicts' : Nat} (h : Settled observer offered c c' conflicts)
    (h' : Settled observer offered c c'' conflicts') : c.lost c' observer = c.lost c'' observer := by
  have hholds : ∀ g d, c'.holds observer g d = c''.holds observer g d := fun g d => by
    have howned := congrArg (Option.any id) (h.map_unique h' g d Settles.isOwnedBy_unique)
    rwa [Option.any_map, Option.any_map] at howned
  simp only [lost, lostIn, hholds]

/-- Messages that can be read and have no claims of the observer may reach it in any order and any number of
times. What it holds of a slot, and how often it has lost one of its own claims, is settled by the messages
alone: its claims are equally close in the end, the slot map is the same, and as many conflicts were reported.
The claims of the other nodes, the rewards and the choices are as before. -/
theorem merges_in_any_order {config : Config} {c : Controller} (hc : Reachable config c) (observer : Nat)
    {messages messages' : List (List UInt8)}
    (hread : ∀ message ∈ messages, ∃ m, StatusMessage.decode message c.layout.dataSlots = .ok m)
    (hforeign : ∀ message ∈ messages, ∀ m, StatusMessage.decode message c.layout.dataSlots = .ok m →
      OthersOnly observer m)
    (hsame : ∀ message, message ∈ messages' ↔ message ∈ messages) :
    ∃ conflicts conflicts' : List Nat, (c.mergeAll observer messages).2 = conflicts.map .ok ∧
      (c.mergeAll observer messages').2 = conflicts'.map .ok ∧ conflicts.sum = conflicts'.sum ∧
      Settled observer (c.Offered messages) c (c.mergeAll observer messages).1 conflicts.sum ∧
      Settled observer (c.Offered messages) c (c.mergeAll observer messages').1 conflicts'.sum ∧
      (c.mergeAll observer messages).1.slotMap = (c.mergeAll observer messages').1.slotMap ∧
      ∀ g d, ((c.mergeAll observer messages).1.claims.get g observer d).map (·.priority)
        = ((c.mergeAll observer messages').1.claims.get g observer d).map (·.priority) := by
  have hshaped := hc.shaped.claims
  obtain ⟨conflicts, hanswers, hsettled⟩ := settled_mergeAll hshaped hread hforeign
  obtain ⟨conflicts', hanswers', hsettled'⟩ := settled_mergeAll hshaped
    (fun x hx => hread x ((hsame x).1 hx)) fun x hx => hforeign x ((hsame x).1 hx)
  replace hsettled' : Settled observer (c.Offered messages) c _ _ :=
    hsettled'.congr fun g d k => by simp only [Offered, hsame]
  have hlost := hsettled.lost_unique hsettled'
  refine ⟨conflicts, conflicts', hanswers, hanswers', ?_, hsettled, hsettled', ?_,
    fun g d => hsettled.map_unique hsettled' g d Settles.priority_unique⟩
  · rw [hsettled.conflicts, hsettled'.conflicts, hlost]
  · rw [hsettled.slotMap, hsettled'.slotMap, hlost]

/-- Node 1 claims the data slot itself, and has heard that another node claimed it in the frame before. -/
def contested (c : Controller) : Controller :=
  (c.merge (StatusMessage.encode [⟨2, 7⟩] [.own 1]) 1).1

/-- The slot was claimed in the frame before by a neighbour, and is now by another node further away. -/
def nearby : List UInt8 := StatusMessage.encode [⟨1, 0⟩] [⟨2, 0⟩]

def faraway : List UInt8 := StatusMessage.encode [⟨2, 5⟩] [⟨2, 6⟩]

theorem merges_in_any_order_contested : ∃ c, ofConfig Config.row = .ok c ∧
    Reachable Config.row (contested c) ∧
    (contested c).claims.get .current 1 0 = some (.own 1) ∧
    ((contested c).mergeAll 1 [nearby, faraway]).1.claims.get .current 1 0 = some ⟨2, 0⟩ ∧
    ((contested c).mergeAll 1 [faraway, nearby, nearby]).1.claims.get .current 1 0 = some ⟨2, 6⟩ ∧
    ((contested c).mergeAll 1 [nearby, faraway]).1.slotMap
      = ((contested c).mergeAll 1 [faraway, nearby, nearby]).1.slotMap ∧
    ∃ conflicts conflicts' : List Nat,
      ((contested c).mergeAll 1 [nearby, faraway]).2 = conflicts.map .ok ∧
      ((contested c).mergeAll 1 [faraway, nearby, nearby]).2 = conflicts'.map .ok ∧
      conflicts.sum = conflicts'.sum := by
  obtain ⟨c, hc⟩ : ∃ c, ofConfig Config.row = .ok c := ⟨_, rfl⟩
  have hreachable : Reachable Config.row (contested c) := (Reachable.new hc).merge _ 1
  have hnear : StatusMessage.decode nearby (contested c).layout.dataSlots
      = .ok ⟨[some ⟨1, 0⟩], [some ⟨2, 0⟩]⟩ := by
    cases hc
    decide +kernel
  have hfar : StatusMessage.decode faraway (contested c).layout.dataSlots
      = .ok ⟨[some ⟨2, 5⟩], [some ⟨2, 6⟩]⟩ := by
    cases hc
    decide +kernel
  have hread : ∀ message ∈ [nearby, faraway], ∃ m,
      StatusMessage.decode message (contested c).layout.dataSlots = .ok m := by
    rintro message (_ | ⟨_, _ | ⟨_, ⟨⟩⟩⟩)
    · exact ⟨_, hnear⟩
    · exact ⟨_, hfar⟩
  have hothers : ∀ message ∈ [nearby, faraway], ∀ m,
      StatusMessage.decode message (contested c).layout.dataSlots = .ok m → OthersOnly 1 m := by
    rintro message (_ | ⟨_, _ | ⟨_, ⟨⟩⟩⟩) m hm
    · cases hnear.symm.trans hm
      unfold OthersOnly
      decide
    · cases hfar.symm.trans hm
      unfold OthersOnly
      decide
  have hsame : ∀ message, message ∈ [faraway, nearby, nearby] ↔ message ∈ [nearby, faraway] := by
    intro message
    simp only [List.mem_cons]
    tauto
  obtain ⟨conflicts, conflicts', hanswers, hanswers', hsum, -, -, hmap, -⟩ :=
    merges_in_any_order hreachable 1 hread hothers hsame
  cases hc
  exact ⟨_, rfl, hreachable, by decide +kernel, by decide +kernel, by decide +kernel, hmap, conflicts,
    conflicts', hanswers, hanswers', hsum⟩

end Controller

end SlotNet
