import Mathlib.Algebra.Order.Group.Nat
import SlotNet.Proofs.TomlValues
import SlotNet.Proofs.Config

/-!
# Which texts are answered

A text is either accepted or refused with an error, with one exception: where the rules come to the
capacity of a data slot, its length in nanoseconds times the data rate must stay below `2 ^ 128`.
The integers of a document leave room for the overhead of a packet, so the sum next to it never fails.
-/

namespace SlotNet

/-- Whether a result is a fault can be found out by evaluating it. -/
instance Fault.decidableEqError {α : Type} (x : Except Fault α) (f : Fault) :
    Decidable (x = .error f) :=
  match x with
  | .error g => decidable_of_iff (g = f) ⟨congrArg _, fun h => Except.error.inj h⟩
  | .ok _ => isFalse nofun

namespace Config

open Toml (Value)

/-! ## Numbers of a document -/

/-- Do all integers in a section fit 64 bits with sign? -/
def Section.Fits : Section → Prop
  | .named entries => ∀ e ∈ entries, e.2.Fits
  | .inOrder items => ∀ v ∈ items, v.Fits

variable {s : Section} {v : Value}

theorem sectionOf?_fits (h : v.Fits) (hs : sectionOf? v = some s) : s.Fits := by
  cases h with
  | table h => cases hs; exact h
  | array h => cases hs; exact h
  | date => cases hs; exact fun _ he => nomatch he
  | _ => cases hs

theorem Section.Fits.field {name : String} {place : Nat} (h : s.Fits)
    (hv : s.field name place = some v) : v.Fits := by
  cases s with
  | named entries =>
    obtain ⟨before, after, heq, -⟩ := List.lookup_eq_some_iff.1 hv
    exact h (name, v) (by rw [heq]; simp)
  | inOrder items => exact h v (List.mem_of_getElem? hv)

theorem Section.Fits.get {α : Type} {P : α → Prop} {name : String} {place : Nat}
    {read : Value → Option α} {default a : α} (h : s.Fits) (hdefault : P default)
    (hread : ∀ {v a}, v.Fits → read v = some a → P a)
    (hget : s.get name place read default = some a) : P a := by
  unfold Section.get at hget
  split at hget
  · cases hget
    exact hdefault
  · rename_i v hv
    exact hread (h.field hv) hget

theorem Section.Fits.sub {α : Type} {P : α → Prop} {name : String} {place : Nat}
    {read : Section → Option α} {default a : α} (h : s.Fits) (hdefault : P default)
    (hread : ∀ {s a}, s.Fits → read s = some a → P a)
    (hsub : Config.sub s name place default read = some a) : P a := by
  refine h.get hdefault (fun hv hread' => ?_) hsub
  obtain ⟨s', hs', hread'⟩ := Option.bind_eq_some_iff.1 hread'
  exact hread (sectionOf?_fits hv hs') hread'

theorem natural_lt {n : Nat} (h : v.Fits) (hn : natural v = some n) : n < 2 ^ 63 := by
  unfold natural upTo at hn
  split at hn
  · split at hn
    · cases hn
      cases h with
      | integer h => exact Int.ofNat_lt.1 h.2
    · cases hn
  · cases hn

theorem Section.Fits.natural {name : String} {place default n : Nat} (h : s.Fits)
    (hdefault : default < 2 ^ 63) (hn : s.get name place natural default = some n) : n < 2 ^ 63 :=
  h.get (P := (· < 2 ^ 63)) hdefault natural_lt hn

/-- The bits that the numbers of a layout have. A guard time that comes from the range has one more. -/
structure LayoutFits (l : FrameLayout) : Prop where
  slotTimeUs : l.slotTimeUs < 2 ^ 63
  controlSlotTimeUs : l.controlSlotTimeUs < 2 ^ 63
  guardTimeUs : l.guardTimeUs < 2 ^ 64
  dataSlots : l.dataSlots < 2 ^ 63

theorem layoutFits_default : LayoutFits {} := by constructor <;> decide

theorem frameOf_fits {layout : FrameLayout} (h : s.Fits) (hl : frameOf s = some layout) :
    LayoutFits layout := by
  have hdefault := layoutFits_default
  obtain ⟨slot, hslot, hl⟩ := Option.bind_eq_some_iff.1 hl
  obtain ⟨control, hcontrol, hl⟩ := Option.bind_eq_some_iff.1 hl
  obtain ⟨guard, hguard, hl⟩ := Option.bind_eq_some_iff.1 hl
  obtain ⟨gap, -, hl⟩ := Option.bind_eq_some_iff.1 hl
  obtain ⟨slots, hslots, hl⟩ := Option.bind_eq_some_iff.1 hl
  obtain ⟨rate, -, hl⟩ := Option.bind_eq_some_iff.1 hl
  obtain ⟨rotate, -, hl⟩ := Option.bind_eq_some_iff.1 hl
  obtain ⟨fromRange, -, hl⟩ := Option.bind_eq_some_iff.1 hl
  cases hl
  exact ⟨h.natural hdefault.slotTimeUs hslot, h.natural hdefault.controlSlotTimeUs hcontrol,
    Nat.lt_trans (h.natural (by decide) hguard) (by decide), h.natural hdefault.dataSlots hslots⟩

theorem trafficOf_packetSize {traffic : TrafficSettings} (h : s.Fits)
    (ht : trafficOf s = some traffic) : traffic.packetSize < 2 ^ 63 := by
  obtain ⟨enabled, -, ht⟩ := Option.bind_eq_some_iff.1 ht
  obtain ⟨start, -, ht⟩ := Option.bind_eq_some_iff.1 ht
  obtain ⟨size, hsize, ht⟩ := Option.bind_eq_some_iff.1 ht
  obtain ⟨rate, -, ht⟩ := Option.bind_eq_some_iff.1 ht
  cases ht
  exact h.natural (by decide) hsize

theorem ofEntries?_fits {entries : List (String × Value)} {c : Config}
    (h : (Value.table entries).Fits) (hc : ofEntries? entries = some c) :
    LayoutFits c.frame ∧ c.traffic.packetSize < 2 ^ 63 := by
  have hs : (Section.named entries).Fits := sectionOf?_fits h rfl
  obtain ⟨seed, -, hc⟩ := Option.bind_eq_some_iff.1 hc
  obtain ⟨duration, -, hc⟩ := Option.bind_eq_some_iff.1 hc
  obtain ⟨frame, hframe, hc⟩ := Option.bind_eq_some_iff.1 hc
  obtain ⟨range, -, hc⟩ := Option.bind_eq_some_iff.1 hc
  obtain ⟨queue, -, hc⟩ := Option.bind_eq_some_iff.1 hc
  obtain ⟨reservation, -, hc⟩ := Option.bind_eq_some_iff.1 hc
  obtain ⟨environment, -, hc⟩ := Option.bind_eq_some_iff.1 hc
  obtain ⟨traffic, htraffic, hc⟩ := Option.bind_eq_some_iff.1 hc
  obtain ⟨placement, -, hc⟩ := Option.bind_eq_some_iff.1 hc
  obtain ⟨nodes, -, hc⟩ := Option.bind_eq_some_iff.1 hc
  cases hc
  exact ⟨hs.sub layoutFits_default frameOf_fits hframe,
    hs.sub (P := fun t : TrafficSettings => t.packetSize < 2 ^ 63) (by decide)
      trafficOf_packetSize htraffic⟩

theorem resolve_fits {c : Config} (h : LayoutFits c.frame) : LayoutFits c.resolve.frame := by
  unfold resolve
  split
  · exact ⟨h.slotTimeUs, h.controlSlotTimeUs, Nat.mod_lt _ (by decide), h.dataSlots⟩
  · exact h

theorem fits_of_accept {logged : Bool} {source : String} {c : Config}
    (h : accept logged source = .ok (.ok c)) : LayoutFits c.frame := by
  obtain ⟨entries, given, hparse, hread, -, rfl⟩ := accept_eq_ok_iff.1 h
  exact resolve_fits (ofEntries?_fits (Toml.parse?_fits hparse) hread).1

/-! ## Faults of the rules -/

theorem check_resolve (c : Config) : c.resolve.check = c.check := by
  unfold resolve
  split <;> rfl

/-- Do the rules come to a capacity that does not fit 128 bits? -/
structure Overflows (c : Config) : Prop where
  run : c.checkRun = .ok ()
  link : c.checkLink = .ok ()
  agent : c.checkAgent = .ok ()
  enabled : c.traffic.enabled
  rate : 0.0 < c.traffic.packetsPerSecond ∧ c.traffic.packetsPerSecond.isFinite
  product : Timing.productLimit ≤ c.frame.slotTime * c.frame.dataRate

variable {c : Config} {f : Fault}

theorem capacity_eq_error_iff {slot : Time} {rate : Nat} :
    Timing.capacity slot rate = .error f ↔
      f = .capacityOverflow ∧ Timing.productLimit ≤ slot * rate := by
  unfold Timing.capacity
  by_cases h : slot * rate < Timing.productLimit
  · rw [if_pos h]
    exact ⟨nofun, fun heq => absurd h (Nat.not_lt.2 heq.2)⟩
  · rw [if_neg h]
    exact ⟨fun heq => by cases heq; exact ⟨rfl, Nat.not_lt.1 h⟩, fun heq => by rw [heq.1]⟩

theorem checkTraffic_eq_error_iff (hsize : c.traffic.packetSize + Frame.overhead < Count.limit) :
    c.checkTraffic = .error f ↔ f = .capacityOverflow ∧ c.traffic.enabled ∧
      (0.0 < c.traffic.packetsPerSecond ∧ c.traffic.packetsPerSecond.isFinite) ∧
      Timing.productLimit ≤ c.frame.slotTime * c.frame.dataRate := by
  unfold checkTraffic
  by_cases henabled : c.traffic.enabled
  · by_cases hrate : 0.0 < c.traffic.packetsPerSecond ∧ c.traffic.packetsPerSecond.isFinite
    · have hadd : Count.add c.traffic.packetSize Frame.overhead =
          .ok (c.traffic.packetSize + Frame.overhead) := if_pos hsize
      rw [if_neg (not_not_intro henabled), if_neg (not_not_intro hrate), Fault.bind_eq_error,
        capacity_eq_error_iff]
      constructor
      · rintro (⟨rfl, hproduct⟩ | ⟨capacity, -, h⟩)
        · exact ⟨rfl, henabled, hrate, hproduct⟩
        · rw [hadd] at h
          obtain h | ⟨size, -, h⟩ := Fault.bind_eq_error.1 h
          · cases h
          · split at h <;> cases h
      · rintro ⟨rfl, -, -, hproduct⟩
        exact .inl ⟨rfl, hproduct⟩
    · rw [if_neg (not_not_intro henabled), if_pos hrate]
      exact ⟨nofun, fun h => absurd h.2.2.1 hrate⟩
  · rw [if_pos henabled]
    exact ⟨nofun, fun h => absurd h.2.1 henabled⟩

/-- The rules fail to answer at the capacity only. -/
theorem check_eq_error_iff (hsize : c.traffic.packetSize + Frame.overhead < Count.limit) :
    c.check = .error f ↔ f = .capacityOverflow ∧ c.Overflows := by
  unfold check
  constructor
  · intro h
    split at h
    · cases h
    · rename_i hrules
      obtain ⟨_, hrun, hrules⟩ := Fault.bind_eq_ok.1 hrules
      obtain ⟨_, hlink, hagent⟩ := Fault.bind_eq_ok.1 hrules
      obtain h | ⟨r, -, h⟩ := Fault.bind_eq_error.1 h
      · obtain ⟨rfl, henabled, hrate, hproduct⟩ := (checkTraffic_eq_error_iff hsize).1 h
        exact ⟨rfl, hrun, hlink, hagent, henabled, hrate, hproduct⟩
      · cases r <;> cases h
  · rintro ⟨rfl, h⟩
    have hrules : (do checkRun c; checkLink c; checkAgent c) = .ok () := by
      rw [h.run, h.link, h.agent]
      rfl
    rw [hrules]
    exact Fault.bind_eq_error.2
      (.inl ((checkTraffic_eq_error_iff hsize).2 ⟨rfl, h.enabled, h.rate, h.product⟩))

theorem validate_false (c : Config) : c.validate false = c.check := by
  unfold validate
  cases c.check with
  | error f => rfl
  | ok result => cases result <;> rfl

/-- Log aside, a text is answered, with a configuration or an error, unless the rules come to a capacity
that does not fit 128 bits. -/
theorem accept_eq_error_iff {source : String} :
    accept false source = .error f ↔ f = .capacityOverflow ∧
      ∃ entries c, Toml.parse? source = some entries ∧ ofEntries? entries = some c ∧ c.Overflows := by
  cases hparse : Toml.parse? source with
  | none =>
    rw [accept, hparse]
    refine iff_of_false (fun h => by cases h) ?_
    rintro ⟨-, entries, c, hentries, -⟩
    cases hentries
  | some entries =>
    cases hread : ofEntries? entries with
    | none =>
      rw [accept, hparse]
      dsimp only
      rw [acceptEntries, hread]
      refine iff_of_false (fun h => by cases h) ?_
      rintro ⟨-, _, c, hentries, hc, -⟩
      cases hentries
      rw [hread] at hc
      cases hc
    | some c =>
      have hsize : c.traffic.packetSize + Frame.overhead < Count.limit := by
        have hread := (ofEntries?_fits (Toml.parse?_fits hparse) hread).2
        have hroom : 2 ^ 63 + Frame.overhead ≤ Count.limit := by decide
        exact Nat.lt_of_lt_of_le (Nat.add_lt_add_right hread _) hroom
      have haccept : accept false source =
          c.check.map fun result => result.map fun _ => c.resolve := by
        rw [accept, hparse]
        dsimp only
        rw [acceptEntries, hread]
        dsimp only
        rw [validate_false, check_resolve]
      have hmap : accept false source = .error f ↔ c.check = .error f := by
        rw [haccept]
        cases c.check <;> simp [Except.map]
      rw [hmap, check_eq_error_iff hsize]
      refine and_congr_right fun _ => ⟨fun h => ⟨entries, c, rfl, hread, h⟩, ?_⟩
      rintro ⟨_, c', hentries, hc, h⟩
      cases hentries
      rw [hread] at hc
      cases hc
      exact h

/-- The longest slot and the fastest link that a document can ask for. -/
def extremes : String :=
  "[frame]\nslot_time_us = 9223372036854775807\ndata_rate_bps = 9223372036854775807\n"

/-- The document is read, and each of its numbers is admitted, yet there is no answer. -/
theorem accept_extremes :
    ((Toml.parse? extremes).bind ofEntries?).isSome ∧
      accept false extremes = .error .capacityOverflow ∧
      ofToml extremes = .error .capacityOverflow :=
  ⟨by decide +kernel, by decide +kernel, by decide +kernel⟩

end Config

end SlotNet
