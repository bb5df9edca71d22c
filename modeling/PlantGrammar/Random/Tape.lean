import PlantGrammar.Binary.Rounding

/-!
# Random tapes and what is chosen by their words

Every choice of a derivation is read from a tape of 64-bit words. A tape is an
endless sequence with the position of its next word, so a copy of a tape yields
the same words again.

The 53 high bits of a word stand for a sample of the unit interval. The number of
alternatives is rounded to 53 significant bits, and so is its product with the
sample, whose whole part is the choice. Neither factor nor the result needs a
float: the sample is `m / 2 ^ 53`, and rounding commutes with a power of two.
-/
namespace PlantGrammar

structure RandomTape where
  words : Nat → UInt64
  position : Nat

namespace RandomTape

def start (words : Nat → UInt64) : RandomTape := ⟨words, 0⟩

/-- The word under the head. -/
def head (tape : RandomTape) : UInt64 := tape.words tape.position

def advance (tape : RandomTape) (count : Nat) : RandomTape :=
  { tape with position := tape.position + count }

/-- The same words again and again, from the first. An empty cycle yields zeros. -/
def cycle (words : Array UInt64) : RandomTape :=
  start fun i => words.getD (i % words.size) 0

@[simp] theorem words_advance (tape : RandomTape) (count : Nat) :
    (tape.advance count).words = tape.words := rfl

@[simp] theorem position_advance (tape : RandomTape) (count : Nat) :
    (tape.advance count).position = tape.position + count := rfl

@[simp] theorem advance_zero (tape : RandomTape) : tape.advance 0 = tape := rfl

@[simp] theorem advance_advance (tape : RandomTape) (m n : Nat) :
    (tape.advance m).advance n = tape.advance (m + n) := by
  simp [advance, Nat.add_assoc]

end RandomTape

namespace Choice

/-- The sample of a word, in units of `2 ^ -53`. -/
def sample (word : UInt64) : Nat := word.toNat >>> 11

/-- The alternative that a sample selects among `count`. -/
def indexOfSample (m count : Nat) : Nat :=
  min (Binary.roundSignificant 53 (m * Binary.roundSignificant 53 count) >>> 53) (count - 1)

/-- The alternative that a word selects among `count`. -/
def index (word : UInt64) (count : Nat) : Nat := indexOfSample (sample word) count

theorem sample_lt (word : UInt64) : sample word < 1 <<< 53 := by
  have := word.toNat_lt
  simp only [sample, Nat.shiftRight_eq_div_pow, Nat.shiftLeft_eq]
  omega

theorem indexOfSample_lt (m : Nat) {count : Nat} (h : 0 < count) :
    indexOfSample m count < count := by
  unfold indexOfSample
  omega

theorem index_lt (word : UInt64) {count : Nat} (h : 0 < count) : index word count < count :=
  indexOfSample_lt (sample word) h

end Choice
end PlantGrammar
