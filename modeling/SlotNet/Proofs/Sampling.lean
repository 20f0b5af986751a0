import Mathlib.Data.List.Basic
import Mathlib.Data.List.Nodup
import Mathlib.Data.List.Perm.Subperm
import SlotNet.Random.Sample

/-!
# Samples have no repetitions

Whatever words the stream has, and whichever way is taken, a sample of `k` of `n` places has `k` different
ones below `n` (`isSample_sample`). Shuffling only exchanges members; in Floyd's way the drawn places stay
below the next one. `choose_subperm`: a choice takes as many members of a list as were asked for, or all,
and none twice.
-/

namespace SlotNet.Random

variable {n k : Nat}

/-! ## Draws -/

theorem high_lt (count w : UInt32) :
    ((w.toUInt64 * count.toUInt64) >>> 32).toNat < max 1 count.toNat := by
  have hw : w.toNat < 2 ^ 32 := w.toNat_lt
  have hcount : count.toNat < 2 ^ 32 := count.toNat_lt
  have hfits : w.toNat * count.toNat < 2 ^ 64 :=
    Nat.lt_of_lt_of_le (Nat.mul_lt_mul'' hw hcount) (by decide)
  have hproduct : ((w.toUInt64 * count.toUInt64) >>> 32).toNat = w.toNat * count.toNat / 2 ^ 32 := by
    rw [UInt64.toNat_shiftRight, UInt64.toNat_mul, UInt32.toNat_toUInt64, UInt32.toNat_toUInt64,
      Nat.mod_eq_of_lt hfits]
    exact Nat.shiftRight_eq_div_pow _ _
  rw [hproduct, Nat.div_lt_iff_lt_mul (by decide)]
  rcases Nat.eq_zero_or_pos count.toNat with hzero | hpos
  · rw [hzero]
    exact Nat.lt_of_lt_of_le (by decide : 0 < 1 * 2 ^ 32) (Nat.mul_le_mul_right _ (Nat.le_max_left _ _))
  · rw [Nat.max_eq_right hpos, Nat.mul_comm]
    exact Nat.mul_lt_mul_of_pos_left hw hpos

theorem below32_lt (count : UInt32) (fuel : Nat) (s : Stream) :
    (s.below32 count fuel).1 < max 1 count.toNat := by
  induction fuel generalizing s with
  | zero => exact Nat.lt_of_lt_of_le Nat.zero_lt_one (Nat.le_max_left _ _)
  | succ fuel ih =>
    rw [Stream.below32]
    dsimp only
    split
    · rename_i hpick
      unfold pick32 at hpick
      dsimp only at hpick
      split at hpick
      · cases hpick
        exact high_lt count _
      · cases hpick
    · exact ih _

theorem toNat_toUInt32_le (n : Nat) : n.toUInt32.toNat ≤ n := by
  rw [Nat.toUInt32, UInt32.toNat_ofNat']
  exact Nat.mod_le _ _

theorem between_le {low high : Nat} (h : low ≤ high) (s : Stream) : (s.between low high).1 ≤ high := by
  have hlt := below32_lt (high - low + 1).toUInt32 patience s
  have hcount := toNat_toUInt32_le (high - low + 1)
  show low + (s.below32 (high - low + 1).toUInt32 patience).1 ≤ high
  omega

/-! ## Samples -/

/-- Different places below `n`, `k` of them. -/
structure IsSample (n k : Nat) (places : List Nat) : Prop where
  nodup : places.Nodup
  length : places.length = k
  lt : ∀ x ∈ places, x < n

theorem IsSample.perm {places places' : List Nat} (h : IsSample n k places)
    (hp : places'.Perm places) : IsSample n k places' :=
  ⟨hp.nodup_iff.2 h.nodup, hp.length_eq.trans h.length, fun x hx => h.lt x (hp.subset hx)⟩

theorem IsSample.cons {places : List Nat} {x m : Nat} (h : IsSample m k places) (hx : x ∉ places)
    (hlt : x < n) (hle : m ≤ n) : IsSample n (k + 1) (x :: places) := by
  refine ⟨List.nodup_cons.2 ⟨hx, h.nodup⟩, congrArg (· + 1) h.length, fun y hy => ?_⟩
  rcases List.mem_cons.1 hy with rfl | hy
  · exact hlt
  · exact Nat.lt_of_lt_of_le (h.lt y hy) hle

theorem isSample_range (n : Nat) : IsSample n n (List.range n) :=
  ⟨List.nodup_range, List.length_range, fun _ => List.mem_range.1⟩

/-! ## Shuffling -/

theorem swap_perm (xs : Array Nat) (i j : Nat) : (swap xs i j).toList.Perm xs.toList := by
  unfold swap Array.swapIfInBounds
  split
  · split
    · exact Array.perm_iff_toList_perm.1 (Array.swap_perm _ _)
    · exact .refl _
  · exact .refl _

theorem shuffleFront_perm (n count i : Nat) (xs : Array Nat) (s : Stream) :
    (shuffleFront n count i xs s).1.toList.Perm xs.toList := by
  induction count generalizing i xs s with
  | zero => exact .refl _
  | succ count ih =>
    rw [shuffleFront]
    rcases s.between i (n - 1) with ⟨j, s⟩
    exact (ih (i + 1) (swap xs i j) s).trans (swap_perm xs i j)

theorem shuffleBack_perm (i : Nat) (xs : Array Nat) (s : Stream) :
    (shuffleBack i xs s).1.toList.Perm xs.toList := by
  induction i generalizing xs s with
  | zero => exact .refl _
  | succ i ih =>
    rw [shuffleBack]
    rcases s.between 0 (i + 1) with ⟨j, s⟩
    exact (ih (swap xs (i + 1) j) s).trans (swap_perm xs (i + 1) j)

theorem isSample_swapping (hk : k ≤ n) (s : Stream) : IsSample n k (sampleSwapping n k s).1 := by
  have hall : IsSample n n (shuffleFront n k 0 (Array.range n) s).1.toList :=
    (isSample_range n).perm ((shuffleFront_perm n k 0 _ s).trans (by rw [Array.toList_range]))
  refine ⟨hall.nodup.sublist (List.take_sublist _ _), ?_, fun x hx => hall.lt x (List.mem_of_mem_take hx)⟩
  show (List.take k _).length = k
  rw [List.length_take, hall.length, Nat.min_eq_left hk]

/-! ## Floyd's way -/

theorem insertBefore_perm (j t : Nat) (xs : List Nat) : (insertBefore j t xs).Perm (j :: xs) := by
  induction xs with
  | nil => exact .refl _
  | cons x xs ih =>
    rw [insertBefore]
    split
    · exact .refl _
    · exact (ih.cons x).trans (.swap j x xs)

/-- The next place to draw for is above all that are drawn, so it can stand for a repetition. -/
theorem isSample_floydDraws (k count : Nat) {j m : Nat} {drawn : List Nat} (h : IsSample j m drawn)
    (s : Stream) : IsSample (j + count) (m + count) (floydDraws k count j drawn s).1 := by
  induction count generalizing j m drawn s with
  | zero => exact h
  | succ count ih =>
    rw [floydDraws]
    have hnext : IsSample (j + 1) (m + 1)
        (if drawn.contains (s.between 0 j).1 then
          if k < 50 then insertBefore j (s.between 0 j).1 drawn else drawn ++ [j]
        else drawn ++ [(s.between 0 j).1]) := by
      have hnew : IsSample (j + 1) (m + 1) (j :: drawn) :=
        h.cons (fun hj => Nat.lt_irrefl j (h.lt j hj)) (Nat.lt_succ_self j) (Nat.le_succ j)
      split
      · split
        · exact hnew.perm (insertBefore_perm j _ drawn)
        · exact hnew.perm (List.perm_append_singleton j drawn)
      · rename_i hfresh
        rw [List.contains_iff_mem] at hfresh
        have hle : (s.between 0 j).1 ≤ j := between_le (Nat.zero_le j) s
        exact (h.cons hfresh (Nat.lt_succ_of_le hle) (Nat.le_succ j)).perm
          (List.perm_append_singleton _ drawn)
    have hrest := ih hnext (s.between 0 j).2
    rwa [Nat.succ_add_eq_add_succ, Nat.succ_add_eq_add_succ] at hrest

theorem isSample_floyd (hk : k ≤ n) (s : Stream) : IsSample n k (sampleFloyd n k s).1 := by
  have hnone : IsSample (n - k) 0 [] := ⟨.nil, rfl, nofun⟩
  have hdrawn := isSample_floydDraws k k hnone s
  rw [Nat.sub_add_cancel hk, Nat.zero_add] at hdrawn
  unfold sampleFloyd
  dsimp only
  split
  · exact hdrawn
  · exact hdrawn.perm (shuffleBack_perm _ _ _)

/-! ## Retrying -/

theorem firstLeft_spec {drawn : List Nat} (h : drawn.length < n) :
    firstLeft n drawn ∉ drawn ∧ firstLeft n drawn < n := by
  unfold firstLeft
  cases hfind : (List.range n).find? (!drawn.contains ·) with
  | none =>
    have hsub : List.range n ⊆ drawn := fun x hx => by
      simpa using List.find?_eq_none.1 hfind x hx
    have hle := (List.subperm_of_subset List.nodup_range hsub).length_le
    rw [List.length_range] at hle
    exact absurd hle (Nat.not_le_of_lt h)
  | some x =>
    refine ⟨?_, List.mem_range.1 (List.mem_of_find?_eq_some hfind)⟩
    simpa using List.find?_some hfind

theorem freshPlace_spec {drawn : List Nat} (h : drawn.length < n) (fuel : Nat) (s : Stream) :
    (freshPlace n drawn fuel s).1 ∉ drawn ∧ (freshPlace n drawn fuel s).1 < n := by
  induction fuel generalizing s with
  | zero => exact firstLeft_spec h
  | succ fuel ih =>
    rw [freshPlace]
    dsimp only
    split
    · rename_i t hpick
      split
      · exact ih _
      · rename_i hfresh
        rw [List.contains_iff_mem] at hfresh
        refine ⟨hfresh, ?_⟩
        unfold pickEven32 at hpick
        dsimp only at hpick
        split at hpick
        · cases hpick
          have hlt := high_lt n.toUInt32 s.word.1
          have hle := toNat_toUInt32_le n
          show _ < n
          omega
        · cases hpick
    · exact ih _

theorem isSample_retryDraws (count : Nat) {m : Nat} {drawn : List Nat} (h : IsSample n m drawn)
    (hle : m + count ≤ n) (s : Stream) : IsSample n (m + count) (retryDraws n count drawn s).1 := by
  induction count generalizing m drawn s with
  | zero => exact h
  | succ count ih =>
    rw [retryDraws]
    obtain ⟨hfresh, hlt⟩ := freshPlace_spec (n := n) (by rw [h.length]; omega) patience s
    have hrest := ih (h.cons hfresh hlt (Nat.le_refl n)) (by omega) (freshPlace n drawn patience s).2
    rwa [Nat.succ_add_eq_add_succ] at hrest

theorem isSample_retrying (hk : k ≤ n) (s : Stream) : IsSample n k (sampleRetrying n k s).1 := by
  have hnone : IsSample n 0 [] := ⟨.nil, rfl, nofun⟩
  have hdrawn := isSample_retryDraws k hnone (by omega) s
  rw [Nat.zero_add] at hdrawn
  exact hdrawn.perm (List.reverse_perm _)

/-! ## Choosing -/

theorem isSample_sample (hk : k ≤ n) (s : Stream) : IsSample n k (sample n k s).1 := by
  unfold sample
  split
  · exact isSample_swapping hk s
  · exact isSample_floyd hk s
  · exact isSample_retrying hk s

theorem filterMap_getElem?_range {α : Type} (xs : List α) :
    (List.range xs.length).filterMap (xs[·]?) = xs := by
  induction xs with
  | nil => rfl
  | cons x xs ih =>
    have hfirst : (x :: xs)[0]? = some x := rfl
    rw [List.length_cons, List.range_succ_eq_map, List.filterMap_cons_some hfirst, List.filterMap_map]
    exact congrArg (x :: ·) ih

theorem IsSample.filterMap_getElem? {α : Type} {places : List Nat} {xs : List α}
    (h : IsSample xs.length k places) :
    (places.filterMap (xs[·]?)).Subperm xs ∧ (places.filterMap (xs[·]?)).length = k := by
  obtain ⟨places', hperm, hsub⟩ := List.subperm_of_subset h.nodup fun x hx => List.mem_range.2 (h.lt x hx)
  refine ⟨⟨places'.filterMap (xs[·]?), hperm.filterMap _, ?_⟩, ?_⟩
  · have hmembers := hsub.filterMap (xs[·]?)
    rwa [filterMap_getElem?_range] at hmembers
  · rw [← h.length, List.length_filterMap_eq_countP, List.countP_eq_length]
    exact fun x hx => by simpa using h.lt x hx

/-- A choice has as many members of the list as were asked for, or all of them, each at most once. -/
theorem choose_subperm (xs : List Nat) (k : Nat) (s : Stream) :
    (s.choose xs k).1.Subperm xs ∧ (s.choose xs k).1.length = min k xs.length :=
  (isSample_sample (Nat.min_le_right k xs.length) s).filterMap_getElem?

end SlotNet.Random
