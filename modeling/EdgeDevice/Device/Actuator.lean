import EdgeDevice.Device.Kind
import EdgeDevice.Log

set_option autoImplicit false
set_option relaxedAutoImplicit false

/-!
# Actuators

An actuator holds a setpoint that is either `Actuator.off` or inside the range of its kind. A
request for anything else is refused and changes nothing.

## Main definitions

* `EdgeDevice.Actuator` — kind and setpoint.
* `EdgeDevice.Actuator.request` — asks for a setpoint.
* `EdgeDevice.Actuator.switchOff` — switches off whatever was asked for.

## Main results

* `EdgeDevice.Actuator.value_request` — what a request does, apart from the log.
-/

namespace EdgeDevice

/-- A device that is set to a value. -/
structure Actuator where
  kind : Kind
  setpoint : Int
  deriving DecidableEq

namespace Actuator

/-- The setpoint that means switched off, for every kind. -/
def off : Int := 1

/-- An actuator of the given kind, switched off. A sensor kind is allowed; it can only be switched
off. -/
def ofKind (kind : Kind) : Actuator := ⟨kind, off⟩

/-- The key under which the setpoint is written and commanded. -/
def key (a : Actuator) : String :=
  match a.kind with
  | .ventilationActuator => "v"
  | _ => "t"

/-- What is set. -/
def quantity (a : Actuator) : String :=
  match a.kind with
  | .ventilationActuator => "ventilation"
  | _ => "temperature"

/-- The lowest and the highest setpoint of a kind, both allowed. -/
def range? : Kind → Option (Int × Int)
  | .temperatureActuator => some (15, 30)
  | .ventilationActuator => some (2, 4)
  | _ => none

/-- Whether a setpoint is inside the range of the kind. -/
def InRange (k : Kind) (n : Int) : Prop := ∃ r, range? k = some r ∧ r.1 ≤ n ∧ n ≤ r.2

/-- A setpoint the actuator can take. -/
def Accepts (a : Actuator) (n : Int) : Prop := n = off ∨ InRange a.kind n

instance (k : Kind) (n : Int) : Decidable (InRange k n) :=
  match h : range? k with
  | some r =>
    if hr : r.1 ≤ n ∧ n ≤ r.2 then .isTrue ⟨r, h, hr⟩
    else .isFalse fun ⟨_, hs, hn⟩ => hr (Option.some.inj (h.symm.trans hs) ▸ hn)
  | none => .isFalse fun ⟨_, hs, _⟩ => by simp [h] at hs

instance (a : Actuator) (n : Int) : Decidable (a.Accepts n) :=
  inferInstanceAs (Decidable (_ ∨ _))

/-- A setpoint in words: fan levels have names. -/
def describe (a : Actuator) (n : Int) : String :=
  if n = off then "off"
  else
    match a.kind, n with
    | .ventilationActuator, 2 => "low"
    | .ventilationActuator, 3 => "medium"
    | .ventilationActuator, 4 => "high"
    | _, n => toString n

/-- What an actuator remarks on. -/
inductive Remark where
  /-- A request that cannot be met. -/
  | rejected (quantity : String) (value : Int)
  /-- A request for the present setpoint. -/
  | unchanged (quantity level : String)
  /-- A request that was met. -/
  | changed (quantity level : String)
  /-- The actuator is switched off without a request. -/
  | forcedOff (quantity : String)

instance : Loggable Remark where
  entry
    | .rejected quantity value => ⟨.warn, s!"Rejected {quantity} setpoint {value}"⟩
    | .unchanged quantity level => ⟨.info, s!"{quantity} already set to {level}"⟩
    | .changed quantity level => ⟨.info, s!"{quantity} set to {level}"⟩
    | .forcedOff quantity => ⟨.warn, s!"Forcing {quantity} off"⟩

/-- Asks for a setpoint; the answer says whether it was taken. -/
def request (a : Actuator) (n : Int) : Logged (Bool × Actuator) :=
  if a.Accepts n then
    if n = a.setpoint then do
      Logged.remark (Remark.unchanged a.quantity (a.describe n))
      return (true, a)
    else do
      Logged.remark (Remark.changed a.quantity (a.describe n))
      return (true, { a with setpoint := n })
  else do
    Logged.remark (Remark.rejected a.quantity n)
    return (false, a)

/-- Switches off. -/
def switchOff (a : Actuator) : Logged Actuator := do
  if a.setpoint ≠ off then Logged.remark (Remark.forcedOff a.quantity)
  return { a with setpoint := off }

/-- A request sets the setpoint if it is accepted, and does nothing otherwise. -/
theorem value_request (a : Actuator) (n : Int) :
    (a.request n).value = if a.Accepts n then (true, { a with setpoint := n }) else (false, a) := by
  unfold request
  split
  · split
    · rename_i h
      subst h
      rfl
    · rfl
  · rfl

/-- An actuator that is switched off has the setpoint for off. -/
theorem value_switchOff (a : Actuator) : a.switchOff.value = { a with setpoint := off } := by
  unfold switchOff
  split <;> rfl

end Actuator

end EdgeDevice
