set_option autoImplicit false
set_option relaxedAutoImplicit false

/-!
# Random numbers

A device leaves it open where its random readings come from. It needs a source that makes a state
from a seed and draws numbers of 32 bits, and whatever a device does, it does for every such source.
That a number is drawn from the range that was asked for is a law of the source, apart from the
source itself: only what rests on it asks for it.

## Main definitions

* `EdgeDevice.RandomSource` — where random numbers come from.
* `EdgeDevice.RandomSource.Lawful` — numbers are drawn from the range that is asked for.
* `EdgeDevice.Generator` — the state of the source.
* `EdgeDevice.Generator.seed` — the state for a seed.
* `EdgeDevice.Generator.between` — a number from a range.
-/

namespace EdgeDevice

/-- Where random numbers come from: a state for every seed, and a number of 32 bits for two bounds
and a state, with the state behind it. -/
class RandomSource where
  State : Type
  seed : UInt64 → State
  draw : Int32 → Int32 → State → Int32 × State

/-- Numbers are drawn from the range that is asked for, the lower bound included and the upper bound
excluded, if there is any number in it. -/
class RandomSource.Lawful [RandomSource] : Prop where
  draw_bounds (low high : Int32) (g : RandomSource.State) : low < high →
    low ≤ (RandomSource.draw low high g).1 ∧ (RandomSource.draw low high g).1 < high

variable [RandomSource]

/-- The state of the source. -/
def Generator : Type := RandomSource.State

namespace Generator

/-- The state for a seed. -/
def seed (x : UInt64) : Generator := RandomSource.seed x

/-- A number from `low` on and below `high`, two bounds of 32 bits. -/
def between (low high : Int) (g : Generator) : Int × Generator :=
  let (n, g) := RandomSource.draw (.ofInt low) (.ofInt high) g
  (n.toInt, g)

end Generator

end EdgeDevice
