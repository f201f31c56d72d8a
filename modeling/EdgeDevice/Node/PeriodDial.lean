import EdgeDevice.Device.Kind

set_option autoImplicit false
set_option relaxedAutoImplicit false

/-!
# The choice between periods

A device works with one of a few periods, which its user goes through in turn.

## Main definitions

* `EdgeDevice.PeriodDial` — the periods and the position of the chosen one.
* `EdgeDevice.PeriodDial.turn` — chooses the next period.
-/

namespace EdgeDevice

/-- The periods to choose from, in seconds, and the position of the chosen one. -/
structure PeriodDial where
  values : List Nat
  index : Nat := 0
  deriving DecidableEq

namespace PeriodDial

/-- The first period of a kind. -/
def ofKind (k : Kind) : PeriodDial := { values := k.periods }

/-- The chosen period; zero if there is none to choose. -/
def value (d : PeriodDial) : Nat := d.values.getD d.index 0

/-- Chooses the next period, and the first one after the last. -/
def turn (d : PeriodDial) : PeriodDial :=
  if d.values.isEmpty then d else { d with index := (d.index + 1) % d.values.length }

/-- The position of a period. -/
def indexOf? (d : PeriodDial) (value : Nat) : Option Nat := d.values.findIdx? (· == value)

end PeriodDial

end EdgeDevice
