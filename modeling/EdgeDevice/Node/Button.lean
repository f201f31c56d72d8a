set_option autoImplicit false
set_option relaxedAutoImplicit false

/-!
# The button

The button is read once a second while it is down, and once more when it comes up. A press that is
short means: choose the next period. A press that is long means: connect again; it counts as soon as
it is long enough, but only while the device is not connected, and only once.

## Main definitions

* `EdgeDevice.Button` — the press under way.
* `EdgeDevice.Button.hold`, `EdgeDevice.Button.release` — what the user does.
-/

namespace EdgeDevice

/-- What a press asks for. -/
inductive ButtonAction where
  /-- Connect again. -/
  | reconnect
  /-- Choose the next period, after a press of so many seconds. -/
  | nextPeriod (heldSeconds : Nat)
  deriving DecidableEq

/-- The press under way. -/
structure Button where
  /-- The seconds from which on a press is long. -/
  threshold : Nat
  /-- The seconds the press has lasted. -/
  elapsed : Nat := 0
  /-- Whether the press has already asked to connect again. -/
  fired : Bool := false
  deriving DecidableEq

namespace Button

/-- The seconds from which on a press is long, unless settings say otherwise. -/
def defaultThreshold : Nat := 3

/-- The largest count of seconds, the largest number of 32 bits; a longer press stays there. -/
def maxElapsed : Nat := 4294967295

/-- One more second of a press. -/
def hold (b : Button) (notConnected : Bool) : Option ButtonAction × Button :=
  let elapsed := min (b.elapsed + 1) maxElapsed
  if b.threshold ≤ elapsed ∧ notConnected ∧ ¬b.fired then
    (some .reconnect, { b with elapsed := elapsed, fired := true })
  else (none, { b with elapsed := elapsed })

/-- The end of a press. -/
def release (b : Button) : Option ButtonAction × Button :=
  (if b.elapsed < b.threshold then some (.nextPeriod b.elapsed) else none,
    { threshold := b.threshold })

/-- A button that is down asks for nothing but to connect again, and only while the device is not
connected. -/
theorem fst_hold (b : Button) (notConnected : Bool) :
    (b.hold notConnected).1 = none ∨
      (b.hold notConnected).1 = some .reconnect ∧ notConnected = true := by
  unfold hold
  dsimp only
  split
  · rename_i h
    exact .inr ⟨rfl, h.2.1⟩
  · exact .inl rfl

end Button

end EdgeDevice
