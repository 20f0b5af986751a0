import Mathlib.Data.List.Nodup
import Mathlib.Logic.Relation
import SlotNet.Proofs.Packets
import SlotNet.Proofs.Routing

/-!
# Packets are relayed in order

What becomes of packets, seen without stations and frames: a packet waits at a node, flies to the next
hop, waits there, and so on until it is delivered; and it may be lost wherever it is. Each place is a
queue, and `Step` says how packets go from the front of one to the end of another.

The packets from one node to another one all take the same way (`Way`), on which no node comes twice.
Read from its end it is one long queue (`contents`), in which no packet overtakes another; so the packets
are delivered in the order in which they were made (`Sound.delivered_sublist`).
-/

namespace SlotNet

/-! ## Ways -/

namespace Routes

/-- At its destination a packet has no next hop. -/
def Ends (r : Routes) : Prop := ∀ node, r.nextHop node node = none

/-- The hops over which packets for a destination go from a node. -/
inductive Way (r : Routes) (destination : Nat) : Nat → List (Nat × Nat) → Prop where
  | arrived : Way r destination destination []
  | hop {x y : Nat} {l : List (Nat × Nat)} (hnext : r.nextHop x destination = some y)
      (hrest : Way r destination y l) : Way r destination x ((x, y) :: l)

/-- Packets for a destination that are made at one node come to another one. -/
def Leads (r : Routes) (destination : Nat) : Nat → Nat → Prop :=
  Relation.ReflTransGen fun x y => r.nextHop x destination = some y

variable {r : Routes} {source destination x y : Nat} {l l' : List (Nat × Nat)}

theorem Way.unique (hr : r.Ends) (h : r.Way destination x l) (h' : r.Way destination x l') :
    l = l' := by
  induction h generalizing l' with
  | arrived =>
    cases h' with
    | arrived => rfl
    | hop hnext' _ =>
      rw [hr] at hnext'
      cases hnext'
  | hop hnext _ ih =>
    cases h' with
    | arrived =>
      rw [hr] at hnext
      cases hnext
    | hop hnext' hrest' =>
      obtain rfl := Option.some.inj (hnext.symm.trans hnext')
      rw [ih hrest']

theorem Way.of_mem (h : r.Way destination x l) {u v : Nat} (hm : (u, v) ∈ l) :
    r.nextHop u destination = some v ∧ ∃ l', r.Way destination u l' ∧ l' <:+ l := by
  induction h with
  | arrived => cases hm
  | hop hnext hrest ih =>
    rcases List.mem_cons.1 hm with he | hm
    · cases he
      exact ⟨hnext, _, .hop hnext hrest, List.suffix_rfl⟩
    · obtain ⟨hstep, l', hl', hsuffix⟩ := ih hm
      exact ⟨hstep, l', hl', hsuffix.trans (List.suffix_cons _ _)⟩

theorem Way.nodup (hr : r.Ends) (h : r.Way destination x l) : (l.map Prod.fst).Nodup := by
  induction h with
  | arrived => exact List.nodup_nil
  | hop hnext hrest ih =>
    refine List.nodup_cons.2 ⟨fun hm => ?_, ih⟩
    obtain ⟨⟨u, v⟩, huv, rfl⟩ := List.mem_map.1 hm
    obtain ⟨-, l', hl', hsuffix⟩ := hrest.of_mem huv
    -- the way on from the second visit would be the whole way, which is longer
    obtain rfl := hl'.unique hr (.hop hnext hrest)
    exact absurd hsuffix.length_le (Nat.not_succ_le_self _)

theorem Way.split (hr : r.Ends) (h : r.Way destination source l) (hx : r.Leads destination source x) :
    ∃ before rest, l = before ++ rest ∧ r.Way destination x rest := by
  induction hx with
  | refl => exact ⟨[], l, rfl, h⟩
  | tail _ hstep ih =>
    obtain ⟨before, rest, rfl, hrest⟩ := ih
    cases hrest with
    | arrived =>
      rw [hr] at hstep
      cases hstep
    | hop hnext hrest =>
      obtain rfl := Option.some.inj (hnext.symm.trans hstep)
      exact ⟨before ++ [_], _, List.append_cons .., hrest⟩

theorem Leads.exists_way (h : r.Leads destination source destination) :
    ∃ l, r.Way destination source l := by
  induction h using Relation.ReflTransGen.head_induction_on with
  | refl => exact ⟨[], .arrived⟩
  | head hstep _ ih =>
    obtain ⟨l, hl⟩ := ih
    exact ⟨_, .hop hstep hl⟩

end Routes

def Packet.between (source destination : Nat) (packets : List Packet) : List Packet :=
  packets.filter fun p => p.source = source ∧ p.destination = destination

namespace Packet

variable {source destination : Nat} {l l' : List Packet} {p : Packet}

@[simp] theorem between_append :
    between source destination (l ++ l') = between source destination l ++
      between source destination l' := List.filter_append ..

theorem between_mono (h : l.Sublist l') :
    (between source destination l).Sublist (between source destination l') := h.filter _

theorem mem_between :
    p ∈ between source destination l ↔ p ∈ l ∧ p.source = source ∧ p.destination = destination := by
  rw [between, List.mem_filter, decide_eq_true_iff]

theorem between_singleton_other (h : ¬ (p.source = source ∧ p.destination = destination)) :
    between source destination [p] = [] :=
  List.filter_cons_of_neg (ne_true_of_eq_false (decide_eq_false h))

end Packet

/-! ## Places -/

/-- The packets that were made, that wait at each node, that fly over each hop, and that were delivered,
each in the order in which they came there. -/
structure Relay where
  made : List Packet
  waiting : Nat → List Packet
  flying : Nat × Nat → List Packet
  delivered : List Packet

namespace Relay

open Packet (between between_append between_mono between_singleton_other)

section Places

variable {ι : Type} {w w' : ι → List Packet} {i : ι} {p : Packet} {source destination : Nat}

/-- Packets are lost, and the others keep their order. -/
def Loses (w w' : ι → List Packet) : Prop := ∀ i, (w' i).Sublist (w i)

/-- The first packet of a place leaves it. -/
structure Gives (i : ι) (p : Packet) (w w' : ι → List Packet) : Prop where
  first : (p :: w' i).Sublist (w i)
  others : ∀ j, j ≠ i → (w' j).Sublist (w j)

/-- A packet comes to a place behind the others. -/
structure Gets (i : ι) (p : Packet) (w w' : ι → List Packet) : Prop where
  last : (w' i).Sublist (w i ++ [p])
  others : ∀ j, j ≠ i → (w' j).Sublist (w j)

theorem Gives.loses (h : Gives i p w w') : Loses w w' := by
  intro j
  by_cases hj : j = i
  · subst hj
    exact (List.sublist_cons_self p _).trans h.first
  · exact h.others j hj

theorem Gives.mem (h : Gives i p w w') : p ∈ w i := h.first.subset (.head _)

theorem Gets.mem (h : Gets i p w w') {j : ι} {q : Packet} (hq : q ∈ w' j) :
    q ∈ w j ∨ (j = i ∧ q = p) := by
  by_cases hj : j = i
  · subst hj
    exact (List.mem_append.1 (h.last.subset hq)).imp_right fun hq => ⟨rfl, List.mem_singleton.1 hq⟩
  · exact .inl ((h.others j hj).subset hq)

theorem Gets.between (h : Gets i p w w')
    (hp : ¬ (p.source = source ∧ p.destination = destination)) (j : ι) :
    (between source destination (w' j)).Sublist (between source destination (w j)) := by
  by_cases hj : j = i
  · subst hj
    have hlast : (between source destination (w' j)).Sublist
        (between source destination (w j ++ [p])) := between_mono h.last
    rwa [between_append, between_singleton_other hp, List.append_nil] at hlast
  · exact between_mono (h.others j hj)

end Places

/-! ## Steps -/

/-- How packets go on. -/
inductive Step (r : Routes) (b b' : Relay) : Prop where
  | lose (hw : Loses b.waiting b'.waiting) (hf : Loses b.flying b'.flying) (hm : b'.made = b.made)
      (hd : b'.delivered = b.delivered)
  /-- A packet sets off for the next hop. -/
  | send {x y : Nat} {p : Packet} (hnext : r.nextHop x p.destination = some y)
      (hw : Gives x p b.waiting b'.waiting) (hf : Gets (x, y) p b.flying b'.flying)
      (hm : b'.made = b.made) (hd : b'.delivered = b.delivered)
  /-- A packet arrives at a node that is not its destination. -/
  | forward {x y : Nat} {p : Packet} (hne : p.destination ≠ y)
      (hf : Gives (x, y) p b.flying b'.flying) (hw : Gets y p b.waiting b'.waiting)
      (hm : b'.made = b.made) (hd : b'.delivered = b.delivered)
  /-- A packet arrives at its destination. -/
  | deliver {x y : Nat} {p : Packet} (hy : p.destination = y)
      (hf : Gives (x, y) p b.flying b'.flying) (hw : Loses b.waiting b'.waiting)
      (hm : b'.made = b.made) (hd : b'.delivered = b.delivered ++ [p])
  | make {p : Packet} (hnew : ∀ q ∈ b.made, q.uid < p.uid ∧ q.createdAt ≤ p.createdAt)
      (hw : Gets p.source p b.waiting b'.waiting) (hf : Loses b.flying b'.flying)
      (hm : b'.made = b.made ++ [p]) (hd : b'.delivered = b.delivered)

/-- The packets on a way, those first that are nearest to its end. -/
def contents (b : Relay) : List (Nat × Nat) → List Packet
  | [] => []
  | hop :: rest => b.contents rest ++ (b.flying hop ++ b.waiting hop.1)

/-- The packets are on their ways, and from each node to each other one they are in order. -/
structure Sound (r : Routes) (b : Relay) : Prop where
  waiting : ∀ x, ∀ p ∈ b.waiting x, r.Leads p.destination p.source x
  flying : ∀ x y, ∀ p ∈ b.flying (x, y),
    r.Leads p.destination p.source x ∧ r.nextHop x p.destination = some y
  delivered : ∀ p ∈ b.delivered, r.Leads p.destination p.source p.destination
  rising : b.made.Pairwise fun p q => p.uid < q.uid ∧ p.createdAt ≤ q.createdAt
  order : ∀ source destination l, r.Way destination source l →
    (between source destination (b.delivered ++ b.contents l)).Sublist
      (between source destination b.made)

variable {r : Routes} {b b' : Relay} {source destination x y : Nat} {p : Packet}
  {l l' : List (Nat × Nat)}

theorem contents_append (b : Relay) (l l' : List (Nat × Nat)) :
    b.contents (l ++ l') = b.contents l' ++ b.contents l := by
  induction l with
  | nil => exact (List.append_nil _).symm
  | cons hop l ih => rw [List.cons_append, contents, contents, ih, List.append_assoc]

theorem contents_mono (h : ∀ hop ∈ l,
    (between source destination (b'.flying hop ++ b'.waiting hop.1)).Sublist
      (between source destination (b.flying hop ++ b.waiting hop.1))) :
    (between source destination (b'.contents l)).Sublist
      (between source destination (b.contents l)) := by
  induction l with
  | nil => exact .refl _
  | cons hop l ih =>
    rw [contents, contents, between_append, between_append (l := b.contents l)]
    exact (ih fun hop hm => h hop (.tail _ hm)).append (h hop (.head _))

theorem contents_mono_of_other
    (hf : ∀ hop, (between source destination (b'.flying hop)).Sublist
      (between source destination (b.flying hop)))
    (hw : ∀ x, (between source destination (b'.waiting x)).Sublist
      (between source destination (b.waiting x))) :
    (between source destination (b'.contents l)).Sublist
      (between source destination (b.contents l)) := by
  refine contents_mono fun hop _ => ?_
  rw [between_append, between_append]
  exact (hf hop).append (hw hop.1)

theorem contents_send (hl : r.Way destination source l) (hp : p.destination = destination)
    (hnext : r.nextHop x p.destination = some y) (hw : Gives x p b.waiting b'.waiting)
    (hf : Gets (x, y) p b.flying b'.flying) :
    (between source destination (b'.contents l)).Sublist
      (between source destination (b.contents l)) := by
  refine contents_mono fun ⟨u, v⟩ hm => between_mono ?_
  by_cases hu : u = x
  · subst hu
    rw [hp, (hl.of_mem hm).1] at hnext
    obtain rfl := Option.some.inj hnext
    have hlast : (b'.flying (u, v) ++ b'.waiting u).Sublist
        (b.flying (u, v) ++ (p :: b'.waiting u)) := by
      rw [List.append_cons]
      exact hf.last.append (.refl _)
    exact hlast.trans ((List.Sublist.refl _).append hw.first)
  · exact (hf.others _ fun he => hu (congrArg Prod.fst he)).append (hw.others u hu)

theorem contents_mono_of_gets (hf : Loses b.flying b'.flying) (hw : Gets y p b.waiting b'.waiting)
    (hy : y ∉ l.map Prod.fst) :
    (between source destination (b'.contents l)).Sublist
      (between source destination (b.contents l)) := by
  refine contents_mono fun hop hm => between_mono ((hf hop).append (hw.others hop.1 fun he => hy ?_))
  rw [← he]
  exact List.mem_map_of_mem hm

/-- A packet that is forwarded stays on the way, and overtakes none: it was the first of its hop, and
what waits at the node came there before. -/
theorem contents_forward (hr : r.Ends) (hl : r.Way destination source l)
    (hx : r.Leads destination source x) (hnext : r.nextHop x destination = some y)
    (hne : destination ≠ y) (hf : Gives (x, y) p b.flying b'.flying)
    (hw : Gets y p b.waiting b'.waiting) :
    (between source destination (b'.contents l)).Sublist
      (between source destination (b.contents l)) := by
  have hnodup := hl.nodup hr
  obtain ⟨before, rest, rfl, hrest⟩ := hl.split hr hx
  cases hrest with
  | arrived =>
    rw [hr] at hnext
    cases hnext
  | hop hnext' hrest =>
    obtain rfl := Option.some.inj (hnext.symm.trans hnext')
    cases hrest with
    | arrived => exact absurd rfl hne
    | @hop _ z rest _ _ =>
      simp only [List.map_append, List.map_cons] at hnodup
      obtain ⟨-, hback, hapart⟩ := List.nodup_append.1 hnodup
      obtain ⟨hxs, hback⟩ := List.nodup_cons.1 hback
      have hxy : x ≠ y := fun he => hxs (he ▸ .head _)
      have hbefore : y ∉ before.map Prod.fst := fun hm => hapart y hm y (.tail _ (.head _)) rfl
      -- only the two hops that meet at the node change, and neither of them is met twice
      have hcontents : ∀ c : Relay, c.contents (before ++ (x, y) :: (y, z) :: rest) =
          c.contents rest ++ ((c.flying (y, z) ++ c.waiting y) ++ (c.flying (x, y) ++ c.waiting x))
            ++ c.contents before := by
        intro c
        simp only [contents_append, contents, List.append_assoc]
      have hmiddle : ((b'.flying (y, z) ++ b'.waiting y) ++ (b'.flying (x, y) ++ b'.waiting x)).Sublist
          ((b.flying (y, z) ++ b.waiting y) ++ (b.flying (x, y) ++ b.waiting x)) := by
        have hcome : ((b'.flying (y, z) ++ b'.waiting y) ++
            (b'.flying (x, y) ++ b'.waiting x)).Sublist
            ((b.flying (y, z) ++ (b.waiting y ++ [p])) ++ (b'.flying (x, y) ++ b.waiting x)) :=
          ((hf.loses _).append hw.last).append ((List.Sublist.refl _).append (hw.others x hxy))
        have hgo : ((b.flying (y, z) ++ b.waiting y) ++
            ((p :: b'.flying (x, y)) ++ b.waiting x)).Sublist
            ((b.flying (y, z) ++ b.waiting y) ++ (b.flying (x, y) ++ b.waiting x)) :=
          (List.Sublist.refl _).append (hf.first.append (.refl _))
        simp only [List.append_assoc, List.cons_append, List.nil_append] at hcome hgo ⊢
        exact hcome.trans hgo
      rw [hcontents, hcontents, between_append, between_append,
        between_append (l := b.contents rest ++ _), between_append (l := b.contents rest)]
      exact ((contents_mono_of_gets hf.loses hw (List.nodup_cons.1 hback).1).append
        (between_mono hmiddle)).append (contents_mono_of_gets hf.loses hw hbefore)

theorem contents_deliver (hr : r.Ends) (hl : r.Way destination source l)
    (hx : r.Leads destination source x) (hnext : r.nextHop x destination = some destination)
    (hf : Gives (x, destination) p b.flying b'.flying) (hw : Loses b.waiting b'.waiting) :
    (between source destination ([p] ++ b'.contents l)).Sublist
      (between source destination (b.contents l)) := by
  obtain ⟨before, rest, rfl, hrest⟩ := hl.split hr hx
  cases hrest with
  | arrived =>
    rw [hr] at hnext
    cases hnext
  | hop hnext' hrest =>
    obtain rfl := Option.some.inj (hnext.symm.trans hnext')
    obtain rfl := hrest.unique hr .arrived
    have hlast : ((p :: b'.flying (x, destination)) ++ b'.waiting x).Sublist
        (b.flying (x, destination) ++ b.waiting x) := hf.first.append (hw x)
    have hrest : (between source destination (b'.contents before)).Sublist
        (between source destination (b.contents before)) :=
      contents_mono fun hop _ => between_mono ((hf.loses hop).append (hw hop.1))
    rw [contents_append, contents_append, ← List.append_assoc, between_append,
      between_append (l := b.contents [_])]
    exact (between_mono hlast).append hrest

theorem contents_make (hr : r.Ends) (hl : r.Way destination source l)
    (hw : Gets source p b.waiting b'.waiting) (hf : Loses b.flying b'.flying) :
    (between source destination (b'.contents l)).Sublist
      (between source destination (b.contents l ++ [p])) := by
  have hnodup := hl.nodup hr
  cases hl with
  | arrived => exact List.nil_sublist _
  | @hop _ y rest _ _ =>
    have hfirst : (b'.flying (source, y) ++ b'.waiting source).Sublist
        (b.flying (source, y) ++ (b.waiting source ++ [p])) := (hf _).append hw.last
    rw [contents, contents, List.append_assoc, List.append_assoc, between_append,
      between_append (l := b.contents rest)]
    exact (contents_mono_of_gets hf hw (List.nodup_cons.1 hnodup).1).append (between_mono hfirst)

/-! ## Order -/

theorem Step.order (hr : r.Ends) (h : Step r b b') (hb : b.Sound r)
    (hl : r.Way destination source l) :
    (between source destination (b'.delivered ++ b'.contents l)).Sublist
      (between source destination b'.made) := by
  have hold := hb.order source destination l hl
  rw [between_append] at hold ⊢
  -- a packet that others send to each other is not seen; any other one goes on along the way
  cases h with
  | lose hw hf hm hd =>
    rw [hd, hm]
    exact ((List.Sublist.refl _).append (contents_mono_of_other (fun hop => between_mono (hf hop))
      fun x => between_mono (hw x))).trans hold
  | @send x y p hnext hw hf hm hd =>
    rw [hd, hm]
    refine ((List.Sublist.refl _).append ?_).trans hold
    by_cases hp : p.source = source ∧ p.destination = destination
    · exact contents_send hl hp.2 hnext hw hf
    · exact contents_mono_of_other (hf.between hp) fun x => between_mono (hw.loses x)
  | @forward x y p hne hf hw hm hd =>
    rw [hd, hm]
    refine ((List.Sublist.refl _).append ?_).trans hold
    by_cases hp : p.source = source ∧ p.destination = destination
    · obtain ⟨rfl, rfl⟩ := hp
      obtain ⟨hx, hnext⟩ := hb.flying x y p hf.mem
      exact contents_forward hr hl hx hnext hne hf hw
    · exact contents_mono_of_other (fun hop => between_mono (hf.loses hop)) (hw.between hp)
  | @deliver x y p hy hf hw hm hd =>
    subst hy
    rw [hd, hm]
    by_cases hp : p.source = source ∧ p.destination = destination
    · obtain ⟨rfl, rfl⟩ := hp
      obtain ⟨hx, hnext⟩ := hb.flying x _ p hf.mem
      have hfirst := contents_deliver hr hl hx hnext hf hw
      rw [between_append] at hfirst
      rw [between_append, List.append_assoc]
      exact ((List.Sublist.refl _).append hfirst).trans hold
    · rw [between_append, between_singleton_other hp, List.append_nil]
      exact ((List.Sublist.refl _).append (contents_mono_of_other
        (fun hop => between_mono (hf.loses hop)) fun x => between_mono (hw x))).trans hold
  | @make p hnew hw hf hm hd =>
    rw [hd, hm, between_append]
    by_cases hp : p.source = source ∧ p.destination = destination
    · obtain ⟨rfl, rfl⟩ := hp
      have hlast := contents_make hr hl hw hf
      rw [between_append] at hlast
      refine ((List.Sublist.refl _).append hlast).trans ?_
      rw [← List.append_assoc]
      exact hold.append (.refl _)
    · rw [between_singleton_other hp, List.append_nil]
      exact ((List.Sublist.refl _).append (contents_mono_of_other
        (fun hop => between_mono (hf hop)) (hw.between hp))).trans hold

theorem Sound.step (hr : r.Ends) (hb : b.Sound r) (h : Step r b b') : b'.Sound r := by
  refine ⟨fun u q hq => ?waiting, fun u v q hq => ?flying, fun q hq => ?delivered, ?rising,
    fun _ _ _ hl => h.order hr hb hl⟩
  case waiting =>
    cases h with
    | lose hw => exact hb.waiting u q ((hw u).subset hq)
    | send _ hw => exact hb.waiting u q ((hw.loses u).subset hq)
    | deliver _ _ hw => exact hb.waiting u q ((hw u).subset hq)
    | @forward x y p _ hf hw =>
      rcases hw.mem hq with hq | ⟨rfl, rfl⟩
      · exact hb.waiting u q hq
      · obtain ⟨hx, hnext⟩ := hb.flying x u q hf.mem
        exact hx.tail hnext
    | make _ hw =>
      rcases hw.mem hq with hq | ⟨rfl, rfl⟩
      · exact hb.waiting u q hq
      · exact .refl
  case flying =>
    cases h with
    | lose _ hf => exact hb.flying u v q ((hf _).subset hq)
    | forward _ hf => exact hb.flying u v q ((hf.loses _).subset hq)
    | deliver _ hf => exact hb.flying u v q ((hf.loses _).subset hq)
    | make _ _ hf => exact hb.flying u v q ((hf _).subset hq)
    | send hnext hw hf =>
      rcases hf.mem hq with hq | ⟨he, rfl⟩
      · exact hb.flying u v q hq
      · cases he
        exact ⟨hb.waiting u q hw.mem, hnext⟩
  case delivered =>
    cases h with
    | @deliver x y p hy hf _ _ hd =>
      rw [hd] at hq
      rcases List.mem_append.1 hq with hq | hq
      · exact hb.delivered q hq
      · obtain rfl := List.mem_singleton.1 hq
        obtain ⟨hx, hnext⟩ := hb.flying x y q hf.mem
        rw [← hy] at hnext
        exact hx.tail hnext
    | lose _ _ _ hd => exact hb.delivered q (hd ▸ hq)
    | send _ _ _ _ hd => exact hb.delivered q (hd ▸ hq)
    | forward _ _ _ _ hd => exact hb.delivered q (hd ▸ hq)
    | make _ _ _ _ hd => exact hb.delivered q (hd ▸ hq)
  case rising =>
    cases h with
    | @make p hnew _ _ hm =>
      rw [hm]
      exact List.pairwise_append.2 ⟨hb.rising, List.pairwise_singleton .., fun q hq p' hp' =>
        List.mem_singleton.1 hp' ▸ hnew q hq⟩
    | lose _ _ hm => exact hm ▸ hb.rising
    | send _ _ _ hm => exact hm ▸ hb.rising
    | forward _ _ _ hm => exact hm ▸ hb.rising
    | deliver _ _ _ hm => exact hm ▸ hb.rising

def Run (r : Routes) : Relay → Relay → Prop := Relation.ReflTransGen (Step r)

theorem Sound.run (hr : r.Ends) (hb : b.Sound r) (h : Run r b b') : b'.Sound r := by
  induction h with
  | refl => exact hb
  | tail _ hstep ih => exact ih.step hr hstep

theorem Sound.start (hw : ∀ x, b.waiting x = []) (hf : ∀ hop, b.flying hop = []) (hm : b.made = [])
    (hd : b.delivered = []) : b.Sound r := by
  refine ⟨fun x p hp => ?_, fun x y p hp => ?_, fun p hp => ?_, ?_, fun source destination l _ => ?_⟩
  · rw [hw] at hp
    cases hp
  · rw [hf] at hp
    cases hp
  · rw [hd] at hp
    cases hp
  · rw [hm]
    exact .nil
  · have hnone : ∀ l, b.contents l = [] := by
      intro l
      induction l with
      | nil => rfl
      | cons hop l ih => rw [contents, ih, hf, hw, List.append_nil, List.append_nil]
    rw [hd, hnone]
    exact List.nil_sublist _

/-- What was delivered from one node to another one was made in that order. If there is no way between
them, nothing was delivered. -/
theorem Sound.delivered_sublist (hb : b.Sound r) (source destination : Nat) :
    (between source destination b.delivered).Sublist (between source destination b.made) := by
  cases hd : between source destination b.delivered with
  | nil => exact List.nil_sublist _
  | cons p rest =>
    have hp : p ∈ between source destination b.delivered := by
      rw [hd]
      exact .head _
    obtain ⟨hmem, rfl, rfl⟩ := Packet.mem_between.1 hp
    obtain ⟨l, hl⟩ := (hb.delivered p hmem).exists_way
    have horder := hb.order _ _ l hl
    rw [between_append, hd] at horder
    exact (List.sublist_append_left ..).trans horder

end Relay

end SlotNet
