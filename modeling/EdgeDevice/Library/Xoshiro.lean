import EdgeDevice.Device.Generator

set_option autoImplicit false
set_option relaxedAutoImplicit false

/-!
# A source of random numbers

The generator xoshiro256++ has four words of 64 bits, from which each step makes one word and the
next four. A seed of 64 bits is spread over the four words by a linear congruential generator with
permuted output.

A number below a bound is drawn by multiplication: the high half of `word * bound` is the answer
unless the low half lies in the last, incomplete stretch, in which case another word is drawn.

## Main definitions

* `EdgeDevice.Xoshiro` — the state of the generator, with its instance of `RandomSource`.
* `EdgeDevice.Xoshiro.ofSeed` — the state for a seed.
* `EdgeDevice.Xoshiro.next` — one step.
* `EdgeDevice.Xoshiro.below`, `EdgeDevice.Xoshiro.between` — a number below a bound and between two.

## Main results

* `EdgeDevice.Xoshiro.below_lt` — the number drawn is below the bound.
* `EdgeDevice.Xoshiro.between_bounds` — a number is drawn from the range that is asked for, so that
  the source is lawful.
-/

namespace EdgeDevice

/-- The state of the generator. -/
structure Xoshiro where
  s₀ : UInt64
  s₁ : UInt64
  s₂ : UInt64
  s₃ : UInt64
  deriving DecidableEq

namespace Xoshiro

/-- The word with its bits moved up by `n`, those that leave at the top entering at the bottom. -/
def rotateLeft (x n : UInt64) : UInt64 := (x <<< n) ||| (x >>> (64 - n))

/-- The word of 32 bits with its bits moved down by `n`, those that leave at the bottom entering at
the top. -/
def rotateRight (x n : UInt32) : UInt32 := (x >>> n) ||| (x <<< (32 - n))

/-! ## Seeding -/

/-- One step of the congruential generator that spreads the seed. -/
def spread (x : UInt64) : UInt64 := x * 6364136223846793005 + 11634580027462260723

/-- The permuted output of the congruential generator. -/
def permuted (x : UInt64) : UInt32 :=
  rotateRight (((x >>> 18) ^^^ x) >>> 27).toUInt32 (x >>> 59).toUInt32

/-- Two outputs as one word, the first one low, with the state behind them. -/
def spreadWord (x : UInt64) : UInt64 × UInt64 :=
  let low := spread x
  let high := spread low
  ((permuted low).toUInt64 ||| ((permuted high).toUInt64 <<< 32), high)

/-- The state for a seed. -/
def ofSeed (x : UInt64) : Xoshiro :=
  let (w₀, x₀) := spreadWord x
  let (w₁, x₁) := spreadWord x₀
  let (w₂, x₂) := spreadWord x₁
  let (w₃, _) := spreadWord x₂
  ⟨w₀, w₁, w₂, w₃⟩

/-! ## Drawing -/

/-- One step: a word and the next state. -/
def next (g : Xoshiro) : UInt64 × Xoshiro :=
  let s₂ := g.s₂ ^^^ g.s₀
  let s₃ := g.s₃ ^^^ g.s₁
  let s₁ := g.s₁ ^^^ s₂
  let s₀ := g.s₀ ^^^ s₃
  (rotateLeft (g.s₀ + g.s₃) 23 + g.s₀, ⟨s₀, s₁, s₂ ^^^ (g.s₁ <<< 17), rotateLeft s₃ 45⟩)

/-- One step, of which the upper half of the word is kept. -/
def nextHalf (g : Xoshiro) : Nat × Xoshiro :=
  let (w, g) := g.next
  ((w >>> 32).toNat, g)

/-- The largest low half for which the high half of a product with `bound` is taken: one less than
the largest multiple of `bound` by a power of two that 32 bits hold. -/
def zone (bound : Nat) : Nat := (bound <<< (31 - Nat.log2 bound)) - 1

/-- The number of states. A draw that has not succeeded after so many words never will. -/
def states : Nat := 1 <<< 256

/-- A number below `bound` from at most `words` words. -/
def draw (bound : Nat) : Nat → Xoshiro → Nat × Xoshiro
  | 0, g => (0, g)
  | words + 1, g =>
    let (w, g) := g.nextHalf
    if w * bound % 4294967296 ≤ zone bound then (w * bound / 4294967296, g) else draw bound words g

/-- A number below `bound`. -/
def below (bound : Nat) (g : Xoshiro) : Nat × Xoshiro := draw bound states g

/-- A number from `low` on and below `high`. -/
def between (low high : Int32) (g : Xoshiro) : Int32 × Xoshiro :=
  let (n, g) := g.below (high.toInt - low.toInt).toNat
  (.ofInt (low.toInt + n), g)

instance : RandomSource := ⟨Xoshiro, ofSeed, between⟩

/-! ## The range of a number -/

/-- Half a word has 32 bits. -/
theorem nextHalf_lt (g : Xoshiro) : g.nextHalf.1 < 4294967296 := by
  have h := g.next.1.toNat_lt
  simp only [nextHalf, UInt64.toNat_shiftRight]
  simp [Nat.shiftRight_eq_div_pow]
  omega

/-- Whatever the number of words, the number drawn is below the bound: the high half of a product
with the bound is. -/
theorem draw_lt {bound : Nat} (h : 0 < bound) (words : Nat) (g : Xoshiro) :
    (draw bound words g).1 < bound := by
  induction words generalizing g with
  | zero => exact h
  | succ words ih =>
    simp only [draw]
    split
    · have hw := nextHalf_lt g
      exact Nat.div_lt_of_lt_mul (Nat.mul_lt_mul_of_pos_right hw h)
    · exact ih _

/-- The number drawn is below the bound. -/
theorem below_lt {bound : Nat} (h : 0 < bound) (g : Xoshiro) : (g.below bound).1 < bound :=
  draw_lt h _ g

/-- A number is drawn from the range that is asked for. -/
theorem between_bounds {low high : Int32} (h : low < high) (g : Xoshiro) :
    low ≤ (between low high g).1 ∧ (between low high g).1 < high := by
  rw [Int32.lt_iff_toInt_lt] at h
  have hsize : 0 < (high.toInt - low.toInt).toNat := by omega
  have hbelow := below_lt hsize g
  have hlow := low.le_toInt
  have hhigh := high.toInt_lt
  unfold between
  generalize g.below (high.toInt - low.toInt).toNat = drawn at hbelow ⊢
  have hfits : (Int32.ofInt (low.toInt + drawn.1)).toInt = low.toInt + drawn.1 :=
    Int32.toInt_ofInt_of_le (by omega) (by omega)
  rw [Int32.le_iff_toInt_le, Int32.lt_iff_toInt_lt, hfits]
  omega

instance : RandomSource.Lawful := ⟨fun _ _ g h => between_bounds h g⟩

end Xoshiro

end EdgeDevice
