set_option autoImplicit false
set_option relaxedAutoImplicit false

/-!
# Kinds of device

A device is built as one of six kinds. Two are actuators, which obey a server and report that they
are alive; four are sensors, which publish readings.

## Main definitions

* `EdgeDevice.Kind` — the six kinds.
* `EdgeDevice.Kind.tag` — the short tag under which a kind is announced.
* `EdgeDevice.Kind.periods` — the periods a user can choose between.

## Main results

* `EdgeDevice.Kind.ofTag?_eq_some_iff` — a tag names exactly one kind.
-/

namespace EdgeDevice

/-- What a device is built as. -/
inductive Kind where
  /-- Heating with a temperature setpoint. -/
  | temperatureActuator
  /-- Ventilation with a fan level. -/
  | ventilationActuator
  /-- Sensor for temperature, humidity and carbon dioxide. -/
  | temperatureHumidityCo2
  /-- Sensor for frequency and noise. -/
  | frequencyNoise
  /-- Scale. -/
  | weight
  /-- Counter of what comes in and goes out. -/
  | counter
  deriving DecidableEq, Repr

namespace Kind

/-- Every kind, actuators first. -/
def all : List Kind :=
  [temperatureActuator, ventilationActuator, temperatureHumidityCo2, frequencyNoise, weight,
    counter]

/-- The tag under which the kind is announced. -/
def tag : Kind → String
  | temperatureActuator => "ta"
  | ventilationActuator => "va"
  | temperatureHumidityCo2 => "thc"
  | frequencyNoise => "fn"
  | weight => "w"
  | counter => "c"

/-- The kind with the given tag. -/
def ofTag? (t : String) : Option Kind := all.find? fun k => k.tag == t

/-- Whether the kind obeys a server rather than publish readings. -/
def isActuator : Kind → Bool
  | temperatureActuator => true
  | ventilationActuator => true
  | _ => false

/-- The resource on the device that takes commands. -/
def resource : Kind → String
  | temperatureActuator => "temperature"
  | ventilationActuator => "ventilation"
  | _ => "test"

/-- The topic on which readings are published; actuators publish none. -/
def topic? : Kind → Option String
  | temperatureActuator => none
  | ventilationActuator => none
  | temperatureHumidityCo2 => some "temperature_humidity_co2"
  | frequencyNoise => some "frequency_noise"
  | weight => some "weight"
  | counter => some "counter"

/-- The periods in seconds between which a user can choose: how often an actuator reports that it
is alive, how often a sensor takes a sample. -/
def periods (k : Kind) : List Nat := if k.isActuator then [30, 60, 180] else [20, 60, 120]

/-- Every kind is in the list of all kinds. -/
theorem mem_all (k : Kind) : k ∈ all := by cases k <;> decide

/-- The tag of a kind gives the kind back. -/
theorem ofTag?_tag (k : Kind) : ofTag? k.tag = some k := by cases k <;> decide

/-- A kind is found by its own tag and by no other. -/
theorem ofTag?_eq_some_iff {t : String} {k : Kind} : ofTag? t = some k ↔ t = k.tag := by
  constructor
  · intro h
    have := List.find?_some h
    exact (eq_of_beq this).symm
  · rintro rfl
    exact ofTag?_tag k

/-- No period that can be chosen is nothing. -/
theorem periods_pos {k : Kind} {p : Nat} (h : p ∈ k.periods) : 0 < p := by
  cases k <;> simp [periods, isActuator] at h <;> omega

/-- There is a period to choose. -/
theorem periods_ne_nil (k : Kind) : k.periods ≠ [] := by cases k <;> decide

end Kind

end EdgeDevice
