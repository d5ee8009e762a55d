/-!
# A keystream of random words

The ChaCha block function with twelve rounds, run as a counter: a key of eight words gives an
endless stream of 64-bit words. The key itself is spread from a 64-bit seed by a linear congruential
generator whose outputs are permuted. Everything is arithmetic on machine words, which wraps.
-/

namespace SchemaLedger.Keystream

/-- The sixteen words of a block. -/
abbrev Block := Vector UInt32 16

/-- A key of eight words. -/
abbrev Key := Vector UInt32 8

/-- Rotates a word to the left, by less than its width. -/
def rotateLeft (x n : UInt32) : UInt32 := (x <<< n) ||| (x >>> (32 - n))

/-- Rotates a word to the right by a number below 32. -/
def rotateRight (x n : UInt32) : UInt32 := if n = 0 then x else (x >>> n) ||| (x <<< (32 - n))

/-- Mixes four words of a block. -/
def quarterRound (b : Block) (i j k l : Fin 16) : Block :=
  let w := b[i] + b[j]
  let z := rotateLeft (b[l] ^^^ w) 16
  let y := b[k] + z
  let x := rotateLeft (b[j] ^^^ y) 12
  let w := w + x
  let z := rotateLeft (z ^^^ w) 8
  let y := y + z
  let x := rotateLeft (x ^^^ y) 7
  (((b.set i w).set j x).set k y).set l z

/-- Two rounds: one along the columns of the block, one along its diagonals. -/
def doubleRound (b : Block) : Block :=
  let b := quarterRound b 0 4 8 12
  let b := quarterRound b 1 5 9 13
  let b := quarterRound b 2 6 10 14
  let b := quarterRound b 3 7 11 15
  let b := quarterRound b 0 5 10 15
  let b := quarterRound b 1 6 11 12
  let b := quarterRound b 2 7 8 13
  quarterRound b 3 4 9 14

/-- The block before mixing: four constants, the key, and the number of the block in two words. -/
def initial (key : Key) (number : UInt64) : Block :=
  #v[0x61707865, 0x3320646e, 0x79622d32, 0x6b206574,
    key[0], key[1], key[2], key[3], key[4], key[5], key[6], key[7],
    number.toUInt32, (number >>> 32).toUInt32, 0, 0]

/-- The block with the given number. -/
def block (key : Key) (number : UInt64) : Block :=
  let start := initial key number
  let mixed := Nat.repeat doubleRound 6 start
  Vector.zipWith (· + ·) start mixed

/-- The 64-bit word at a position of the stream. Blocks hold eight of them, low half first. -/
def word (key : Key) (position : Nat) : UInt64 :=
  let b := block key (position / 8).toUInt64
  let i := 2 * (position % 8)
  have : i + 1 < 16 := by omega
  b[i].toUInt64 ||| (b[i + 1].toUInt64 <<< 32)

/-- One step of the generator that spreads a seed. -/
def stepSeed (state : UInt64) : UInt64 := state * 6364136223846793005 + 11634580027462260723

/-- The word that a state of that generator gives. -/
def seedWord (state : UInt64) : UInt32 :=
  rotateRight (((state >>> 18) ^^^ state) >>> 27).toUInt32 (state >>> 59).toUInt32

/-- The key spread from a seed. -/
def Key.ofSeed (seed : UInt64) : Key :=
  Vector.ofFn fun i => seedWord (Nat.repeat stepSeed (i.val + 1) seed)

end SchemaLedger.Keystream
