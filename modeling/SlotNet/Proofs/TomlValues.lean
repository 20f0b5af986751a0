import Mathlib.Data.List.Infix
import Mathlib.Data.Option.Basic
import SlotNet.Toml.Reader

/-!
# The integers of a document

An integer that does not fit 64 bits with sign is refused where it is read. Tables, arrays and headers
only move the values that were read, so every integer of a document fits, however deep it stands.
-/

namespace SlotNet.Toml

/-! ## Values whose integers fit -/

/-- Does the integer fit 64 bits with sign? -/
def FitsWord (n : Int) : Prop := -9223372036854775808 ≤ n ∧ n < 9223372036854775808

inductive Value.Fits : Value → Prop
  | string (text : String) : Fits (.string text)
  | integer {n : Int} (h : FitsWord n) : Fits (.integer n)
  | float (x : Float) : Fits (.float x)
  | boolean (b : Bool) : Fits (.boolean b)
  | date : Fits .date
  | array {items : List Value} (h : ∀ v ∈ items, Fits v) : Fits (.array items)
  | table {entries : List (String × Value)} (h : ∀ e ∈ entries, Fits e.2) : Fits (.table entries)

inductive Node.Fits : Node → Prop
  | value {v : Value} (h : v.Fits) : Fits (.value v)
  | table {implicit dotted : Bool} {entries : List (String × Node)} (h : ∀ e ∈ entries, Fits e.2) :
    Fits (.table implicit dotted entries)
  | tables {items : List (List (String × Node))} (h : ∀ entries ∈ items, ∀ e ∈ entries, Fits e.2) :
    Fits (.tables items)

theorem entryValues_eq (entries : List (String × Node)) :
    entryValues entries = entries.map fun e => (e.1, e.2.toValue) := by
  induction entries with
  | nil => rfl
  | cons e rest ih => rw [entryValues, ih, List.map_cons]

theorem tableValues_eq (items : List (List (String × Node))) :
    tableValues items = items.map fun entries => .table (entryValues entries) := by
  induction items with
  | nil => rfl
  | cons entries rest ih => rw [tableValues, ih, List.map_cons]

theorem Node.Fits.toValue {n : Node} (h : n.Fits) : n.toValue.Fits := by
  induction h with
  | value h =>
    rw [Node.toValue]
    exact h
  | table _ ih =>
    rw [Node.toValue, entryValues_eq]
    exact .table (List.forall_mem_map.2 ih)
  | tables _ ih =>
    rw [Node.toValue, tableValues_eq]
    refine .array (List.forall_mem_map.2 fun entries hentries => ?_)
    rw [entryValues_eq]
    exact .table (List.forall_mem_map.2 (ih entries hentries))

/-! ## Tables -/

namespace Table

def Fits (t : Table) : Prop := ∀ e ∈ t.entries, e.2.Fits

variable {t t' child : Table} {key : String} {n : Node}

theorem fits_nil (implicit dotted : Bool) : Fits ⟨implicit, dotted, []⟩ := by
  intro e he
  cases he

theorem Fits.node (h : t.Fits) : t.node.Fits := .table h

theorem Fits.entryValues (h : t.Fits) : ∀ e ∈ entryValues t.entries, e.2.Fits := by
  rw [entryValues_eq]
  exact List.forall_mem_map.2 fun e he => (h e he).toValue

theorem Fits.add (h : t.Fits) (hn : n.Fits) : (t.add key n).Fits := by
  intro e he
  rcases List.mem_append.1 he with he | he
  · exact h e he
  · rw [List.mem_singleton.1 he]
    exact hn

theorem Fits.erase (h : t.Fits) : (t.erase key).Fits :=
  fun e he => h e (List.mem_filter.1 he).1

theorem Fits.replace (h : t.Fits) (hn : n.Fits) : (t.replace key n).Fits := by
  refine List.forall_mem_map.2 fun e he => ?_
  by_cases hkey : e.1 = key
  · simpa only [if_pos hkey] using hn
  · simpa only [if_neg hkey] using h e he

theorem Fits.get? (h : t.Fits) (hget : t.get? key = some n) : n.Fits := by
  obtain ⟨before, after, heq, -⟩ := List.lookup_eq_some_iff.1 hget
  exact h (key, n) (by rw [heq]; simp)

theorem Fits.last {items : List (List (String × Node))} {entries : List (String × Node)}
    (h : t.Fits) (hget : t.get? key = some (.tables items)) (hlast : items.getLast? = some entries) :
    Fits ⟨false, false, entries⟩ := by
  cases h.get? hget with
  | tables h => exact h entries (List.mem_of_getLast? hlast)

theorem Fits.change {byDots : Bool} {f : Table → Option Table}
    (hf : ∀ t t' : Table, t.Fits → f t = some t' → t'.Fits) {path : List String} (h : t.Fits)
    (hchange : change byDots f path t = some t') : t'.Fits := by
  induction path generalizing t t' with
  | nil => exact hf t t' h hchange
  | cons key path ih =>
    rw [Table.change] at hchange
    split at hchange
    · obtain ⟨child, hchild, rfl⟩ := Option.map_eq_some_iff.1 hchange
      exact h.add (ih (fits_nil true byDots) hchild).node
    · cases hchange
    · rename_i implicit dotted entries hget
      split at hchange
      · cases hchange
      · obtain ⟨child, hchild, rfl⟩ := Option.map_eq_some_iff.1 hchange
        cases h.get? hget with
        | table hentries =>
          have hopened : Fits ⟨implicit, dotted, entries⟩ := hentries
          exact h.replace (ih hopened hchild).node
    · rename_i items hget
      split at hchange
      · cases hchange
      · rename_i entries hlast
        obtain ⟨child, hchild, rfl⟩ := Option.map_eq_some_iff.1 hchange
        refine h.replace (.tables fun entries' hentries => ?_)
        rcases List.mem_append.1 hentries with hentries | hentries
        · cases h.get? hget with
          | tables hitems => exact hitems entries' (List.mem_of_mem_dropLast hentries)
        · rw [List.mem_singleton.1 hentries]
          exact ih (h.last hget hlast) hchild

theorem Fits.assign {path : List String} {v : Value} (h : t.Fits) (hv : v.Fits)
    (hassign : t.assign path key v = some t') : t'.Fits := by
  refine h.change (fun t t' ht henter => ?_) hassign
  unfold enter at henter
  split at henter
  · cases henter
  · split at henter
    · cases henter
    · cases henter
      exact ht.add (.value hv)

end Table

/-! ## Scalars -/

variable {cs rest : List Char} {v : Value}

theorem fits_of_word? {n m : Int} (h : word? n = some m) : FitsWord m := by
  unfold word? at h
  split at h
  · rename_i hn
    cases h
    exact hn
  · cases h

theorem based?_fits {base : Nat} {isDigit : Char → Bool}
    (h : based? base isDigit cs = some (v, rest)) : v.Fits := by
  obtain ⟨⟨ds, r⟩, -, h⟩ := Option.bind_eq_some_iff.1 h
  obtain ⟨n, hn, heq⟩ := Option.map_eq_some_iff.1 h
  cases heq
  exact .integer (fits_of_word? hn)

theorem integer?_fits (h : integer? cs = some (v, rest)) : v.Fits := by
  unfold integer? at h
  split at h
  · exact based?_fits h
  · exact based?_fits h
  · exact based?_fits h
  · obtain ⟨⟨ds, r⟩, -, h⟩ := Option.bind_eq_some_iff.1 h
    obtain ⟨m, hm, heq⟩ := Option.map_eq_some_iff.1 h
    obtain ⟨n, -, hn⟩ := Option.bind_eq_some_iff.1 hm
    cases heq
    exact .integer (fits_of_word? hn)

theorem specialFloat?_fits (h : specialFloat? cs = some (v, rest)) : v.Fits := by
  unfold specialFloat? at h
  dsimp only at h
  split at h
  · cases h
    exact .float _
  · cases h
    exact .float _
  · cases h

theorem float?_fits (h : float? cs = some (v, rest)) : v.Fits := by
  unfold float? at h
  split at h
  · dsimp only at h
    split at h
    · cases h
    · cases h
      exact .float _
  · exact specialFloat?_fits h

theorem date?_fits (h : date? cs = some (v, rest)) : v.Fits := by
  have hdate : v = .date := by
    unfold date? at h
    split at h
    · split at h
      · split at h
        · obtain ⟨_, -, heq⟩ := Option.map_eq_some_iff.1 h
          cases heq
          rfl
        · cases h
          rfl
      · cases h
        rfl
    · obtain ⟨_, -, heq⟩ := Option.map_eq_some_iff.1 h
      cases heq
      rfl
  rw [hdate]
  exact .date

theorem word_fits {text : List Char} {w : Value} (hw : w.Fits)
    (h : word text w cs = some (v, rest)) : v.Fits := by
  unfold word at h
  split at h
  · cases h
    exact hw
  · cases h

theorem scalar?_fits (h : scalar? cs = some (v, rest)) : v.Fits := by
  unfold scalar? at h
  split at h
  · cases h
  · split at h
    · obtain ⟨_, -, heq⟩ := Option.map_eq_some_iff.1 h
      cases heq
      exact .string _
    · split at h
      · exact word_fits (.boolean true) h
      · split at h
        · exact word_fits (.boolean false) h
        · split at h
          · exact specialFloat?_fits h
          · split at h
            · rcases (Option.orElse_eq_some _ _ _).1 h with h | ⟨-, h⟩
              · exact date?_fits h
              · rcases (Option.orElse_eq_some _ _ _).1 h with h | ⟨-, h⟩
                · exact float?_fits h
                · exact integer?_fits h
            · cases h

/-! ## Arrays and inline tables -/

/-- Values, arrays and inline tables read each other, so that one induction on the fuel serves all
three. -/
theorem readers_fit (fuel : Nat) :
    (∀ {depth cs v rest}, value? fuel depth cs = some (v, rest) → v.Fits) ∧
    (∀ {depth cs vs rest}, items? fuel depth cs = some (vs, rest) → ∀ v ∈ vs, v.Fits) ∧
    (∀ {depth t cs t' rest}, t.Fits → entries? fuel depth t cs = some (t', rest) → t'.Fits) := by
  induction fuel with
  | zero =>
    refine ⟨fun h => ?_, fun h => ?_, fun _ h => ?_⟩
    · rw [value?] at h; cases h
    · rw [items?] at h; cases h
    · rw [entries?] at h; cases h
  | succ fuel ih =>
    obtain ⟨ihValue, ihItems, ihEntries⟩ := ih
    refine ⟨?_, ?_, ?_⟩
    · intro depth cs v rest h
      rw [value?.eq_def] at h
      dsimp only at h
      split at h
      · split at h
        · cases h
        · obtain ⟨⟨vs, r⟩, hvs, heq⟩ := Option.map_eq_some_iff.1 h
          cases heq
          exact .array (ihItems hvs)
      · split at h
        · cases h
        · split at h
          · cases h
            exact .table fun _ he => nomatch he
          · obtain ⟨⟨t, r⟩, ht, heq⟩ := Option.map_eq_some_iff.1 h
            cases heq
            exact .table (ihEntries (Table.fits_nil false false) ht).entryValues
      · exact scalar?_fits h
    · intro depth cs vs rest h
      rw [items?.eq_def] at h
      dsimp only at h
      split at h
      · cases h
        exact fun _ hv => nomatch hv
      · split at h
        · cases h
        · rename_i v r hv
          split at h
          · obtain ⟨⟨more, r⟩, hmore, heq⟩ := Option.map_eq_some_iff.1 h
            cases heq
            exact List.forall_mem_cons.2 ⟨ihValue hv, ihItems hmore⟩
          · cases h
            exact List.forall_mem_cons.2 ⟨ihValue hv, fun _ hv => nomatch hv⟩
          · cases h
      · cases h
    · intro depth t cs t' rest ht h
      rw [entries?.eq_def] at h
      dsimp only at h
      split at h
      · split at h
        · cases h
        · rename_i v r hv
          split at h
          · cases h
          · rename_i t₁ hassign
            have ht₁ := ht.assign (ihValue hv) hassign
            split at h
            · exact ihEntries ht₁ h
            · cases h
              exact ht₁
            · cases h
      · cases h

theorem value?_fits {fuel depth : Nat} (h : value? fuel depth cs = some (v, rest)) : v.Fits :=
  (readers_fit fuel).1 h

/-! ## Documents -/

namespace Draft

structure Fits (d : Draft) : Prop where
  root : d.root.Fits
  current : d.current.Fits

variable {d d' : Draft} {path : List String} {key : String}

theorem fits_start : start.Fits := ⟨Table.fits_nil false false, Table.fits_nil false false⟩

theorem Fits.settled {t : Table} (h : d.Fits) (hsettled : d.settled = some t) : t.Fits := by
  unfold Draft.settled at hsettled
  split at hsettled
  · cases hsettled
    exact h.current
  · refine h.root.change (fun parent t' hparent hadd => ?_) hsettled
    split at hadd
    · cases hadd
      exact hparent.add h.current.node
    · cases hadd
  · refine h.root.change (fun parent t' hparent hadd => ?_) hsettled
    split at hadd
    · cases hadd
      exact hparent.add (.tables fun entries hentries => by
        rw [List.mem_singleton.1 hentries]
        exact h.current)
    · rename_i items hget
      cases hadd
      refine hparent.replace (.tables fun entries hentries => ?_)
      rcases List.mem_append.1 hentries with hentries | hentries
      · cases hparent.get? hget with
        | tables hitems => exact hitems entries hentries
      · rw [List.mem_singleton.1 hentries]
        exact h.current
    · cases hadd

theorem find_fits {t : Table} {n : Node} (h : t.Fits)
    (hfind : openTable.find key path t = some (some n)) : n.Fits := by
  induction path generalizing t with
  | nil =>
    rw [openTable.find] at hfind
    exact h.get? (Option.some.inj hfind)
  | cons k path ih =>
    rw [openTable.find] at hfind
    split at hfind
    · rename_i implicit dotted entries hget
      cases h.get? hget with
      | table hentries =>
        have hopened : Table.Fits ⟨implicit, dotted, entries⟩ := hentries
        exact ih hopened hfind
    · rename_i items hget
      obtain ⟨entries, hlast, hfind⟩ := Option.bind_eq_some_iff.1 hfind
      exact ih (h.last hget hlast) hfind
    · cases hfind

theorem Fits.openTable (h : d.Fits) (hopen : d.openTable path key = some d') : d'.Fits := by
  obtain ⟨root, hroot, hopen⟩ := Option.bind_eq_some_iff.1 hopen
  obtain ⟨root', hroot', hopen⟩ := Option.bind_eq_some_iff.1 hopen
  obtain ⟨found, hfound, hopen⟩ := Option.bind_eq_some_iff.1 hopen
  have hfits : root'.Fits :=
    (h.settled hroot).change (fun t t' ht heq => Option.some.inj heq ▸ ht) hroot'
  split at hopen
  · cases hopen
    exact ⟨hfits, Table.fits_nil false false⟩
  · rename_i entries
    obtain ⟨root'', hroot'', hopen⟩ := Option.bind_eq_some_iff.1 hopen
    cases hopen
    cases find_fits hfits hfound with
    | table hentries =>
      exact ⟨hfits.change (fun t t' ht heq => Option.some.inj heq ▸ ht.erase) hroot'', hentries⟩
  · cases hopen

theorem Fits.openItem (h : d.Fits) (hopen : d.openItem path key = some d') : d'.Fits := by
  obtain ⟨root, hroot, hopen⟩ := Option.bind_eq_some_iff.1 hopen
  obtain ⟨root', hroot', hopen⟩ := Option.bind_eq_some_iff.1 hopen
  cases hopen
  refine ⟨(h.settled hroot).change (fun t t' ht hparent => ?_) hroot', Table.fits_nil false false⟩
  split at hparent
  · cases hparent
    exact ht
  · cases hparent
    exact ht
  · cases hparent

theorem Fits.assign {v : Value} (h : d.Fits) (hv : v.Fits)
    (hassign : d.assign path key v = some d') : d'.Fits := by
  obtain ⟨current, hcurrent, rfl⟩ := Option.map_eq_some_iff.1 hassign
  exact ⟨h.root, h.current.assign hv hcurrent⟩

end Draft

variable {d d' : Draft}

theorem assignment?_fits (h : d.Fits) (hread : assignment? d cs = some (d', rest)) : d'.Fits := by
  obtain ⟨⟨⟨path, key⟩, cs₁⟩, -, hread⟩ := Option.bind_eq_some_iff.1 hread
  obtain ⟨cs₂, -, hread⟩ := Option.bind_eq_some_iff.1 hread
  obtain ⟨⟨v, cs₃⟩, hv, hread⟩ := Option.bind_eq_some_iff.1 hread
  obtain ⟨cs₄, -, hread⟩ := Option.bind_eq_some_iff.1 hread
  obtain ⟨d₁, hassign, hread⟩ := Option.bind_eq_some_iff.1 hread
  cases hread
  exact h.assign (value?_fits hv) hassign

theorem header?_fits (h : d.Fits) (hread : header? d cs = some (d', rest)) : d'.Fits := by
  unfold header? at hread
  split at hread
  · obtain ⟨⟨⟨path, key⟩, cs₁⟩, -, hread⟩ := Option.bind_eq_some_iff.1 hread
    obtain ⟨cs₂, -, hread⟩ := Option.bind_eq_some_iff.1 hread
    obtain ⟨cs₃, -, hread⟩ := Option.bind_eq_some_iff.1 hread
    obtain ⟨cs₄, -, hread⟩ := Option.bind_eq_some_iff.1 hread
    obtain ⟨d₁, hopen, hread⟩ := Option.bind_eq_some_iff.1 hread
    cases hread
    exact h.openItem hopen
  · obtain ⟨⟨⟨path, key⟩, cs₁⟩, -, hread⟩ := Option.bind_eq_some_iff.1 hread
    obtain ⟨cs₂, -, hread⟩ := Option.bind_eq_some_iff.1 hread
    obtain ⟨cs₃, -, hread⟩ := Option.bind_eq_some_iff.1 hread
    obtain ⟨d₁, hopen, hread⟩ := Option.bind_eq_some_iff.1 hread
    cases hread
    exact h.openTable hopen
  · cases hread

theorem lines?_fits {fuel : Nat} (h : d.Fits) (hread : lines? fuel d cs = some d') : d'.Fits := by
  induction fuel generalizing d cs with
  | zero => cases hread
  | succ fuel ih =>
    rw [lines?.eq_def] at hread
    dsimp only at hread
    split at hread
    · cases hread
      exact h
    · obtain ⟨cs₁, -, hread⟩ := Option.bind_eq_some_iff.1 hread
      exact ih h hread
    · obtain ⟨⟨d₁, cs₁⟩, hheader, hread⟩ := Option.bind_eq_some_iff.1 hread
      exact ih (header?_fits h hheader) hread
    · exact ih h hread
    · obtain ⟨cs₁, -, hread⟩ := Option.bind_eq_some_iff.1 hread
      exact ih h hread
    · obtain ⟨⟨d₁, cs₁⟩, hassignment, hread⟩ := Option.bind_eq_some_iff.1 hread
      exact ih (assignment?_fits h hassignment) hread

/-- Every integer of a document fits 64 bits with sign. -/
theorem parse?_fits {text : String} {entries : List (String × Value)}
    (h : parse? text = some entries) : (Value.table entries).Fits := by
  obtain ⟨d, hlines, hfinish⟩ := Option.bind_eq_some_iff.1 h
  obtain ⟨t, hsettled, rfl⟩ := Option.map_eq_some_iff.1 hfinish
  exact .table ((lines?_fits Draft.fits_start hlines).settled hsettled).entryValues

end SlotNet.Toml
