/-!
# The random word stream

A seed names an endless stream of 32-bit words: the keystream of the ChaCha cipher with twelve
rounds, under a key that is spread from the seed, with the block number as the counter and no
nonce. A block has sixteen words.
-/

namespace SlotNet.Random

/-- `x` with its bits turned left by `n` places, `n` between 1 and 31. -/
def rotateLeft (x : UInt32) (n : UInt32) : UInt32 := (x <<< n) ||| (x >>> (32 - n))

/-! ## The key -/

/-- One step of the seed's own generator. -/
def seedStep (s : UInt64) : UInt64 := s * 6364136223846793005 + 11634580027462260723

/-- The word of a state of the seed's generator: the mixed high bits, turned right by the top five. -/
def seedWord (s : UInt64) : UInt32 :=
  let x := (((s >>> 18) ^^^ s) >>> 27).toUInt32
  let turn := (s >>> 59).toUInt32
  if turn = 0 then x else rotateLeft x (32 - turn)

/-- The first `n` words that a seed spreads into. -/
def seedWords : Nat → UInt64 → List UInt32
  | 0, _ => []
  | n + 1, s => seedWord (seedStep s) :: seedWords n (seedStep s)

/-- The key of a seed: eight words. -/
def key (seed : UInt64) : List UInt32 := seedWords 8 seed

/-! ## A block -/

/-- Four words of the state, worked on together. -/
structure Quad where
  a : UInt32
  b : UInt32
  c : UInt32
  d : UInt32
  deriving DecidableEq

/-- The quarter round. -/
def Quad.mix (q : Quad) : Quad :=
  let a := q.a + q.b
  let d := rotateLeft (q.d ^^^ a) 16
  let c := q.c + d
  let b := rotateLeft (q.b ^^^ c) 12
  let a := a + b
  let d := rotateLeft (d ^^^ a) 8
  let c := c + d
  let b := rotateLeft (b ^^^ c) 7
  ⟨a, b, c, d⟩

/-- The sixteen words of the state as four columns of four. -/
structure Grid where
  w : Quad
  x : Quad
  y : Quad
  z : Quad
  deriving DecidableEq

/-- Mixes the columns, then the diagonals. -/
def Grid.doubleRound (g : Grid) : Grid :=
  let w := g.w.mix
  let x := g.x.mix
  let y := g.y.mix
  let z := g.z.mix
  let p := Quad.mix ⟨w.a, x.b, y.c, z.d⟩
  let q := Quad.mix ⟨x.a, y.b, z.c, w.d⟩
  let r := Quad.mix ⟨y.a, z.b, w.c, x.d⟩
  let s := Quad.mix ⟨z.a, w.b, x.c, y.d⟩
  ⟨⟨p.a, s.b, r.c, q.d⟩, ⟨q.a, p.b, s.c, r.d⟩, ⟨r.a, q.b, p.c, s.d⟩, ⟨s.a, r.b, q.c, p.d⟩⟩

/-- The words of a state, row by row. -/
def Grid.words (g : Grid) : List UInt32 :=
  [g.w.a, g.x.a, g.y.a, g.z.a, g.w.b, g.x.b, g.y.b, g.z.b,
   g.w.c, g.x.c, g.y.c, g.z.c, g.w.d, g.x.d, g.y.d, g.z.d]

/-- The state from which block `n` is made: constants, key, block number and a nonce of zero. -/
def Grid.start (key : List UInt32) (n : Nat) : Grid :=
  let k (i : Nat) := key.getD i 0
  ⟨⟨0x61707865, k 0, k 4, n.toUInt32⟩, ⟨0x3320646e, k 1, k 5, (n >>> 32).toUInt32⟩,
   ⟨0x79622d32, k 2, k 6, 0⟩, ⟨0x6b206574, k 3, k 7, 0⟩⟩

def Grid.rounds : Nat → Grid → Grid
  | 0, g => g
  | n + 1, g => rounds n g.doubleRound

def block (key : List UInt32) (n : Nat) : List UInt32 :=
  let start := Grid.start key n
  List.zipWith (· + ·) (start.rounds 6).words start.words

/-! ## Reading the stream -/

/-- A place in the stream of a key. -/
structure Stream where
  key : List UInt32
  /-- The block that is read after the words at hand. -/
  nextBlock : Nat
  /-- The words at hand. -/
  words : List UInt32
  deriving DecidableEq

def Stream.ofSeed (seed : UInt64) : Stream := ⟨Random.key seed, 0, []⟩

def Stream.word (s : Stream) : UInt32 × Stream :=
  match s.words with
  | w :: rest => (w, { s with words := rest })
  | [] =>
    match block s.key s.nextBlock with
    | w :: rest => (w, { s with nextBlock := s.nextBlock + 1, words := rest })
    | [] => (0, s)

/-- The next two words as one of 64 bits, the first one low. -/
def Stream.word64 (s : Stream) : UInt64 × Stream :=
  let (low, s) := s.word
  let (high, s) := s.word
  (low.toUInt64 ||| (high.toUInt64 <<< 32), s)

end SlotNet.Random
