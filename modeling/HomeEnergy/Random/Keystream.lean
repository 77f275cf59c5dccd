/-!
# A reproducible stream of random words

The ChaCha stream with twelve rounds: a key of eight words and a 64-bit block counter give sixteen words
per block, and the words of the blocks 0, 1, 2, … are the stream. A 64-bit seed is expanded to a key by
eight steps of a congruential generator with a permuted output.

`WordSource` is all that the draws of `Random.Draw` know about the stream.
-/

namespace HomeEnergy

class WordSource (G : Type) where
  next : G → UInt32 × G

namespace Keystream

structure Block where
  a0 : UInt32
  a1 : UInt32
  a2 : UInt32
  a3 : UInt32
  b0 : UInt32
  b1 : UInt32
  b2 : UInt32
  b3 : UInt32
  c0 : UInt32
  c1 : UInt32
  c2 : UInt32
  c3 : UInt32
  d0 : UInt32
  d1 : UInt32
  d2 : UInt32
  d3 : UInt32
deriving DecidableEq, Inhabited

@[inline] def rotateLeft (x : UInt32) (n : UInt32) : UInt32 :=
  (x <<< n) ||| (x >>> (32 - n))

/-- The quarter round on four words. -/
@[inline] def quarter (a b c d : UInt32) : UInt32 × UInt32 × UInt32 × UInt32 :=
  let a := a + b
  let d := rotateLeft (d ^^^ a) 16
  let c := c + d
  let b := rotateLeft (b ^^^ c) 12
  let a := a + b
  let d := rotateLeft (d ^^^ a) 8
  let c := c + d
  let b := rotateLeft (b ^^^ c) 7
  (a, b, c, d)

/-- A round on the four columns followed by a round on the four diagonals. -/
def Block.doubleRound (x : Block) : Block :=
  let (a0, b0, c0, d0) := quarter x.a0 x.b0 x.c0 x.d0
  let (a1, b1, c1, d1) := quarter x.a1 x.b1 x.c1 x.d1
  let (a2, b2, c2, d2) := quarter x.a2 x.b2 x.c2 x.d2
  let (a3, b3, c3, d3) := quarter x.a3 x.b3 x.c3 x.d3
  let (a0, b1, c2, d3) := quarter a0 b1 c2 d3
  let (a1, b2, c3, d0) := quarter a1 b2 c3 d0
  let (a2, b3, c0, d1) := quarter a2 b3 c0 d1
  let (a3, b0, c1, d2) := quarter a3 b0 c1 d2
  ⟨a0, a1, a2, a3, b0, b1, b2, b3, c0, c1, c2, c3, d0, d1, d2, d3⟩

def Block.words (x : Block) : List UInt32 :=
  [x.a0, x.a1, x.a2, x.a3, x.b0, x.b1, x.b2, x.b3, x.c0, x.c1, x.c2, x.c3, x.d0, x.d1, x.d2, x.d3]

def Block.add (x y : Block) : Block :=
  ⟨x.a0 + y.a0, x.a1 + y.a1, x.a2 + y.a2, x.a3 + y.a3, x.b0 + y.b0, x.b1 + y.b1, x.b2 + y.b2,
    x.b3 + y.b3, x.c0 + y.c0, x.c1 + y.c1, x.c2 + y.c2, x.c3 + y.c3, x.d0 + y.d0, x.d1 + y.d1,
    x.d2 + y.d2, x.d3 + y.d3⟩

/-- The start of every block: the fixed first row and a key in the next two rows. -/
def initial (key : Vector UInt32 8) (counter : UInt64) : Block :=
  ⟨0x61707865, 0x3320646e, 0x79622d32, 0x6b206574, key[0], key[1], key[2], key[3], key[4], key[5],
    key[6], key[7], counter.toUInt32, (counter >>> 32).toUInt32, 0, 0⟩

def blockWords (key : Vector UInt32 8) (counter : UInt64) : List UInt32 :=
  let start := initial key counter
  let mixed :=
    start.doubleRound.doubleRound.doubleRound.doubleRound.doubleRound.doubleRound
  (mixed.add start).words

/-- One step of the key expansion: the next state, and the word it gives. -/
def expandStep (state : UInt64) : UInt32 × UInt64 :=
  let s := state * 6364136223846793005 + 11634580027462260723
  let x := (((s >>> 18) ^^^ s) >>> 27).toUInt32
  let turn := (s >>> 59).toUInt32
  ((x >>> turn) ||| (x <<< ((32 - turn) &&& 31)), s)

def expandKey (seed : UInt64) : Vector UInt32 8 :=
  let (k0, s) := expandStep seed
  let (k1, s) := expandStep s
  let (k2, s) := expandStep s
  let (k3, s) := expandStep s
  let (k4, s) := expandStep s
  let (k5, s) := expandStep s
  let (k6, s) := expandStep s
  let (k7, _) := expandStep s
  #v[k0, k1, k2, k3, k4, k5, k6, k7]

end Keystream

/-- A position in the stream of a key. -/
structure Keystream where
  key : Vector UInt32 8
  counter : UInt64
  -- the words of the current block that are not drawn yet
  pending : List UInt32
deriving DecidableEq

namespace Keystream

/-- The start of the stream of a seed. -/
def ofSeed (seed : UInt64) : Keystream :=
  { key := expandKey seed, counter := 0, pending := [] }

instance : Inhabited Keystream := ⟨ofSeed 0⟩

def next (g : Keystream) : UInt32 × Keystream :=
  match g.pending with
  | w :: rest => (w, { g with pending := rest })
  | [] =>
    match blockWords g.key g.counter with
    | w :: rest => (w, { g with counter := g.counter + 1, pending := rest })
    | [] => (0, { g with counter := g.counter + 1 })

instance : WordSource Keystream := ⟨next⟩

end Keystream

end HomeEnergy
