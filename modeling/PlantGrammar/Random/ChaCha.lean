import PlantGrammar.Random.Tape

/-!
# The ChaCha tape of a seed

ChaCha with eight rounds turns a key and a counter into a block of sixteen
32-bit words. Two of them in turn, the low half first, are one word of the tape.
A seed of 64 bits is spread over the key by a linear congruential generator
whose states are scrambled by a rotation that they choose themselves.
-/
namespace PlantGrammar.ChaCha

abbrev Block := Vector UInt32 16

abbrev Key := Vector UInt32 8

def rotateLeft (x : UInt32) (n : UInt32) : UInt32 := x <<< n ||| x >>> (32 - n)

def quarterRound (a b c d : Fin 16) (s : Block) : Block :=
  let s := s.set a (s[a] + s[b])
  let s := s.set d (rotateLeft (s[d] ^^^ s[a]) 16)
  let s := s.set c (s[c] + s[d])
  let s := s.set b (rotateLeft (s[b] ^^^ s[c]) 12)
  let s := s.set a (s[a] + s[b])
  let s := s.set d (rotateLeft (s[d] ^^^ s[a]) 8)
  let s := s.set c (s[c] + s[d])
  s.set b (rotateLeft (s[b] ^^^ s[c]) 7)

/-- One round down the columns and one along the diagonals. -/
def doubleRound (s : Block) : Block :=
  let s := quarterRound 0 4 8 12 s
  let s := quarterRound 1 5 9 13 s
  let s := quarterRound 2 6 10 14 s
  let s := quarterRound 3 7 11 15 s
  let s := quarterRound 0 5 10 15 s
  let s := quarterRound 1 6 11 12 s
  let s := quarterRound 2 7 8 13 s
  quarterRound 3 4 9 14 s

/-- Constants, key, counter with its low half first, and an empty nonce. -/
def initial (key : Key) (counter : UInt64) : Block :=
  #v[0x61707865, 0x3320646e, 0x79622d32, 0x6b206574,
    key[0], key[1], key[2], key[3], key[4], key[5], key[6], key[7],
    counter.toUInt32, (counter >>> 32).toUInt32, 0, 0]

def block (key : Key) (counter : UInt64) : Block :=
  let first := initial key counter
  let last := doubleRound (doubleRound (doubleRound (doubleRound first)))
  Vector.zipWith (· + ·) last first

/-- The two words of a block that make the `i`-th word of its eight. -/
def pair (b : Block) (i : Fin 8) : UInt64 :=
  b[2 * i.val].toUInt64 ||| b[2 * i.val + 1].toUInt64 <<< 32

/-- The word of the tape at a position. -/
def wordAt (key : Key) (position : Nat) : UInt64 :=
  pair (block key (position / 8).toUInt64) ⟨position % 8, Nat.mod_lt _ (by decide)⟩

namespace Seed

def step (state : UInt64) : UInt64 := state * 6364136223846793005 + 11634580027462260723

/-- Shifts take their amount modulo the width, so a turn by zero is harmless. -/
def scramble (state : UInt64) : UInt32 :=
  let x := (((state >>> 18) ^^^ state) >>> 27).toUInt32
  let turn := (state >>> 59).toUInt32
  x >>> turn ||| x <<< (32 - turn)

/-- The state after some steps from the seed. -/
def state (seed : UInt64) : Nat → UInt64
  | 0 => seed
  | n + 1 => step (state seed n)

end Seed

/-- The key that a seed is spread over. -/
def keyOfSeed (seed : UInt64) : Key :=
  Vector.ofFn fun i => Seed.scramble (Seed.state seed (i.val + 1))

def tape (seed : UInt64) : RandomTape :=
  let key := keyOfSeed seed
  RandomTape.start (wordAt key)

end PlantGrammar.ChaCha
