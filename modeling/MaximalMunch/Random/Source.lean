/-!
# Random sources

A random source answers two kinds of questions: a number from a range, and a
truth value with a given chance.  Everything random in this library is built
from these two.
-/

namespace MaximalMunch

/-- A supply of random draws with states of type `σ`. -/
class RandomSource (σ : Type) where
  /-- A number from `0` to `last`, both included. -/
  draw : (last : Nat) → σ → Fin (last + 1) × σ
  /-- A truth value that holds in `odds` of 2^64 cases. -/
  chance : (odds : UInt64) → σ → Bool × σ

namespace RandomSource

variable {σ : Type} [RandomSource σ]

def upTo (last : Nat) : StateM σ (Fin (last + 1)) :=
  fun source => RandomSource.draw last source

def between (first last : Nat) : StateM σ Nat := do
  return first + (← upTo (last - first))

def holds (odds : UInt64) : StateM σ Bool :=
  fun source => RandomSource.chance odds source

/-- Draw one of the elements of a nonempty list. -/
def pick {α : Type} (first : α) (others : List α) : StateM σ α := do
  let index ← upTo others.length
  return (first :: others).get index

/-- Run a computation several times and join what it gives. -/
def repeated {α : Type} (computation : StateM σ (List α)) : Nat → StateM σ (List α)
  | 0 => return []
  | count + 1 => do
      let front ← computation
      let back ← repeated computation count
      return front ++ back

end RandomSource

class WordSource (σ : Type) where
  word32 : σ → UInt32 × σ
  word64 : σ → UInt64 × σ

namespace WordSource

variable {σ : Type} [WordSource σ]

/-- A number below `count` from a word: the whole part of their product over
2^32.  When the fractional part is so large that a second word might carry over,
that word is drawn as well and the product taken over 2^64. -/
def scale (count : Nat) (source : σ) : Nat × σ :=
  let (high, source) := WordSource.word32 source
  let product := high.toNat * count
  if product % UInt32.size ≤ UInt32.size - count then
    (product / UInt32.size, source)
  else
    let (low, source) := WordSource.word32 source
    ((high.toNat * UInt32.size + low.toNat) * count / UInt64.size, source)

theorem scale_lt {count : Nat} (positive : 0 < count) (source : σ) :
    (scale count source).1 < count := by
  simp only [scale]
  split
  · exact Nat.div_lt_of_lt_mul
      (Nat.mul_lt_mul_of_pos_right (UInt32.toNat_lt _) positive)
  · refine Nat.div_lt_of_lt_mul (Nat.mul_lt_mul_of_pos_right ?_ positive)
    have high := (WordSource.word32 source).1.toNat_lt
    have low := (WordSource.word32 (WordSource.word32 source).2).1.toNat_lt
    simp only [UInt32.size, UInt64.size]
    omega

instance : RandomSource σ where
  draw last source :=
    let answer := scale (last + 1) source
    (⟨answer.1, scale_lt (Nat.succ_pos last) source⟩, answer.2)
  chance odds source :=
    let (word, source) := WordSource.word64 source
    (word < odds, source)

end WordSource

/-- A list of words that is gone through again and again. -/
structure WordCycle where
  words : Array UInt32
  position : Nat

namespace WordCycle

def advance (cycle : WordCycle) : UInt32 × WordCycle :=
  (cycle.words.getD cycle.position 0,
    { cycle with position := (cycle.position + 1) % cycle.words.size })

instance : WordSource WordCycle where
  word32 := advance
  word64 cycle :=
    let (low, cycle) := cycle.advance
    let (high, cycle) := cycle.advance
    (low.toUInt64 + high.toUInt64 <<< 32, cycle)

end WordCycle

/-- A counter whose values are scrambled. -/
structure SplitMix where
  state : UInt64

namespace SplitMix

/-- The scrambled form of a counter value. -/
def scramble (value : UInt64) : UInt64 :=
  let value := (value ^^^ (value >>> 30)) * 0xBF58476D1CE4E5B9
  let value := (value ^^^ (value >>> 27)) * 0x94D049BB133111EB
  value ^^^ (value >>> 31)

def advance (source : SplitMix) : UInt64 × SplitMix :=
  let state := source.state + 0x9E3779B97F4A7C15
  (scramble state, ⟨state⟩)

instance : WordSource SplitMix where
  word32 source :=
    let (word, source) := source.advance
    ((word >>> 32).toUInt32, source)
  word64 := advance

end SplitMix

end MaximalMunch
