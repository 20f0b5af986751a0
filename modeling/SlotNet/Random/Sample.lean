import SlotNet.Random.Draw

/-!
# Sampling without repetition

Which of three ways draws `k` of `n` places depends on the sizes alone. Swapping shuffles the front
of the list of all places. Floyd's way draws place by place and keeps the drawn ones in a list; a
place that is drawn again stands for the newest one. Retrying draws any place until it is a new one.
-/

namespace SlotNet.Random

/-! ## Swapping -/

def swap (xs : Array Nat) (i j : Nat) : Array Nat := xs.swapIfInBounds i j

/-- Brings a random later member to each of the places from `i` on, `count` of them. -/
def shuffleFront (n : Nat) : Nat → Nat → Array Nat → Stream → Array Nat × Stream
  | 0, _, xs, s => (xs, s)
  | count + 1, i, xs, s =>
    let (j, s) := s.between i (n - 1)
    shuffleFront n count (i + 1) (swap xs i j) s

/-- The first `k` members of the shuffled list of places. -/
def sampleSwapping (n k : Nat) (s : Stream) : List Nat × Stream :=
  let (xs, s) := shuffleFront n k 0 (Array.range n) s
  (xs.toList.take k, s)

/-! ## Floyd's way -/

/-- The list with `j` before the first `t`. -/
def insertBefore (j t : Nat) : List Nat → List Nat
  | [] => [j]
  | x :: xs => if x = t then j :: x :: xs else x :: insertBefore j t xs

/-- Draws for the places `j`, `j + 1`, …, `count` of them, onto the list of those drawn. -/
def floydDraws (k : Nat) : Nat → Nat → List Nat → Stream → List Nat × Stream
  | 0, _, drawn, s => (drawn, s)
  | count + 1, j, drawn, s =>
    let (t, s) := s.between 0 j
    let drawn :=
      if drawn.contains t then if k < 50 then insertBefore j t drawn else drawn ++ [j]
      else drawn ++ [t]
    floydDraws k count (j + 1) drawn s

/-- Swaps the members at `i`, `i - 1`, …, 1 with random earlier ones. -/
def shuffleBack : Nat → Array Nat → Stream → Array Nat × Stream
  | 0, xs, s => (xs, s)
  | i + 1, xs, s =>
    let (j, s) := s.between 0 (i + 1)
    shuffleBack i (swap xs (i + 1) j) s

/-- A sample drawn place by place. Long ones are shuffled afterwards. -/
def sampleFloyd (n k : Nat) (s : Stream) : List Nat × Stream :=
  let (drawn, s) := floydDraws k k (n - k) [] s
  if k < 50 then (drawn, s)
  else
    let (xs, s) := shuffleBack (k - 1) drawn.toArray s
    (xs.toList, s)

/-! ## Retrying -/

/-- The high word of a 32-bit product, if its low word is not among the few that would favour some
numbers below `count`. -/
def pickEven32 (count : UInt32) (w : UInt32) : Option Nat :=
  let zone := 0xffffffff - (0xffffffff - count + 1) % count
  let product := w.toUInt64 * count.toUInt64
  if product.toUInt32 ≤ zone then some (product >>> 32).toNat else none

/-- The first place below `n` that is not among the drawn ones. -/
def firstLeft (n : Nat) (drawn : List Nat) : Nat :=
  ((List.range n).find? (!drawn.contains ·)).getD 0

/-- Draws a place below `n` until it is not among the drawn ones. Without patience the first one left is
taken. -/
def freshPlace (n : Nat) (drawn : List Nat) : Nat → Stream → Nat × Stream
  | 0, s => (firstLeft n drawn, s)
  | fuel + 1, s =>
    let (w, s) := s.word
    match pickEven32 n.toUInt32 w with
    | some t => if drawn.contains t then freshPlace n drawn fuel s else (t, s)
    | none => freshPlace n drawn fuel s

/-- Draws new places, latest first. -/
def retryDraws (n : Nat) : Nat → List Nat → Stream → List Nat × Stream
  | 0, drawn, s => (drawn, s)
  | count + 1, drawn, s =>
    let (t, s) := freshPlace n drawn patience s
    retryDraws n count (t :: drawn) s

/-- A sample whose places are drawn independently until new. -/
def sampleRetrying (n k : Nat) (s : Stream) : List Nat × Stream :=
  let (drawn, s) := retryDraws n k [] s
  (drawn.reverse, s)

/-! ## The choice -/

/-- The ways to sample. -/
inductive Method where
  | swapping
  | floyd
  | retrying
  deriving DecidableEq, Repr

/-- The way to draw `k` of `n` places, by the sizes alone. -/
def method (n k : Nat) : Method :=
  let size := n.toUInt64.toFloat32
  let amount := k.toUInt64.toFloat32
  let small := n < 500000
  if k < 163 then
    let slope : Float32 := if small then 1.6 else 8.0 / 45.0
    let base : Float32 := if small then 10.0 else 70.0 / 9.0
    if 11 < k ∧ size < (base + slope * amount) * amount then .swapping else .floyd
  else
    let factor : Float32 := if small then 270.0 else 330.0 / 9.0
    if size < factor * amount then .swapping else .retrying

/-- `k` of the places below `n`, in the order in which they are drawn. -/
def sample (n k : Nat) (s : Stream) : List Nat × Stream :=
  match method n k with
  | .swapping => sampleSwapping n k s
  | .floyd => sampleFloyd n k s
  | .retrying => sampleRetrying n k s

/-- `k` of the members of a list, or all of them if there are fewer, in the order in which they are
drawn. -/
def Stream.choose (xs : List Nat) (k : Nat) (s : Stream) : List Nat × Stream :=
  let (places, s) := sample xs.length (min k xs.length) s
  (places.filterMap (xs[·]?), s)

end SlotNet.Random
