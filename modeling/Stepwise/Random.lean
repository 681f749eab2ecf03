/-!
# Random words

A seed of 64 bits is expanded into a key of 256 bits, and the key into a sequence of
words by the ChaCha block function with twelve rounds. The same seed always gives the
same words.

## Main definitions

* `Stepwise.Random.Row`, `Stepwise.Random.Block` — four lanes of 32 bits, and four rows.
* `Stepwise.Random.Block.scrambled` — the block function.
* `Stepwise.Random.keyOfSeed` — the key that a seed is expanded into.
* `Stepwise.Random.words` — the first words of the sequence that a seed makes.
-/

namespace Stepwise.Random

/-! ### Rows -/

/-- Four lanes of 32 bits. -/
structure Row where
  a : UInt32
  b : UInt32
  c : UInt32
  d : UInt32
  deriving DecidableEq, Repr

namespace Row

/-- Applies an operation in each lane. -/
def zipWith (f : UInt32 → UInt32 → UInt32) (r s : Row) : Row :=
  ⟨f r.a s.a, f r.b s.b, f r.c s.c, f r.d s.d⟩

/-- The row with its lanes moved to the left by one; the first becomes the last. -/
def shift (r : Row) : Row :=
  ⟨r.b, r.c, r.d, r.a⟩

/-- The lanes in order. -/
def toList (r : Row) : List UInt32 :=
  [r.a, r.b, r.c, r.d]

end Row

/-- The bits of a word moved to the left by `n` places; those that fall out come in on
the right. -/
def rotate (n : UInt32) (x : UInt32) : UInt32 :=
  (x <<< n) ||| (x >>> (32 - n))

/-! ### Blocks -/

/-- Four rows. -/
structure Block where
  first : Row
  second : Row
  third : Row
  fourth : Row
  deriving DecidableEq, Repr

namespace Block

/-- Adds a row to another one, and takes the sum into a third one by exclusive or,
which is then rotated by `n` places. -/
def stir (n : UInt32) (x y z : Row) : Row × Row :=
  let x := x.zipWith (· + ·) y
  (x, z.zipWith (fun p q => rotate n (p ^^^ q)) x)

/-- Mixes each column of a block. -/
def mixColumns (block : Block) : Block :=
  let ⟨a, b, c, d⟩ := block
  let (a, d) := stir 16 a b d
  let (c, b) := stir 12 c d b
  let (a, d) := stir 8 a b d
  let (c, b) := stir 7 c d b
  ⟨a, b, c, d⟩

/-- Turns the diagonals of a block into its columns. -/
def skew (block : Block) : Block :=
  { block with
    second := block.second.shift
    third := block.third.shift.shift
    fourth := block.fourth.shift.shift.shift }

/-- Turns the columns of a block into its diagonals. -/
def unskew (block : Block) : Block :=
  { block with
    second := block.second.shift.shift.shift
    third := block.third.shift.shift
    fourth := block.fourth.shift }

/-- Mixes the columns and then the diagonals. -/
def doubleRound (block : Block) : Block :=
  block.mixColumns.skew.mixColumns.unskew

/-- The block after six double rounds, added to itself lane by lane. -/
def scrambled (block : Block) : Block :=
  let mixed := Nat.repeat doubleRound 6 block
  { first := mixed.first.zipWith (· + ·) block.first
    second := mixed.second.zipWith (· + ·) block.second
    third := mixed.third.zipWith (· + ·) block.third
    fourth := mixed.fourth.zipWith (· + ·) block.fourth }

/-- The lanes of a block in order. -/
def toList (block : Block) : List UInt32 :=
  block.first.toList ++ block.second.toList ++ block.third.toList ++ block.fourth.toList

end Block

/-! ### Seeds -/

/-- The key of a sequence of words. -/
structure Key where
  low : Row
  high : Row
  deriving DecidableEq, Repr

/-- The next state of the generator that expands seeds. -/
def nextState (state : UInt64) : UInt64 :=
  state * 6364136223846793005 + 11634580027462260723

/-- What a state of the generator that expands seeds puts out: its middle bits, rotated
to the right by as many places as its highest bits say. -/
def outputOf (state : UInt64) : UInt32 :=
  let middle := (((state >>> 18) ^^^ state) >>> 27).toUInt32
  rotate ((32 : UInt32) - (state >>> 59).toUInt32) middle

/-- What the generator that expands seeds puts out after some outputs. -/
def outputAt (seed : UInt64) (place : Nat) : UInt32 :=
  outputOf (Nat.repeat nextState (place + 1) seed)

/-- The key that a seed is expanded into. -/
def keyOfSeed (seed : UInt64) : Key where
  low := ⟨outputAt seed 0, outputAt seed 1, outputAt seed 2, outputAt seed 3⟩
  high := ⟨outputAt seed 4, outputAt seed 5, outputAt seed 6, outputAt seed 7⟩

/-! ### Words -/

/-- The block with a given number before it is scrambled. -/
def blockAt (key : Key) (number : Nat) : Block where
  first := ⟨0x61707865, 0x3320646e, 0x79622d32, 0x6b206574⟩
  second := key.low
  third := key.high
  fourth := ⟨number.toUInt32, (number / UInt32.size).toUInt32, 0, 0⟩

/-- Pairs of lanes as words, the low half first. -/
def pairs : List UInt32 → List UInt64
  | low :: high :: rest => ((high.toUInt64 <<< 32) ||| low.toUInt64) :: pairs rest
  | _ => []

/-- The first words that a seed makes, at least `count` of them. Each block has eight. -/
def words (seed : UInt64) (count : Nat) : List UInt64 :=
  (List.range (count / 8 + 1)).flatMap fun number =>
    pairs (blockAt (keyOfSeed seed) number).scrambled.toList

end Stepwise.Random
