import EdgeDevice.Bytes
import EdgeDevice.Command.Assignment
import EdgeDevice.Device.Actuator
import EdgeDevice.Device.Identity
import EdgeDevice.Device.Sensor
import EdgeDevice.Json.Object

set_option autoImplicit false
set_option relaxedAutoImplicit false

/-!
# The value a device is about

An actuator or a sensor behind one interface: what commands do to it, how it is sampled, how it is
made safe and how it is written.

## Main definitions

* `EdgeDevice.Model` — an actuator or a sensor.
* `EdgeDevice.Model.obey` — carries out a command, all of it or nothing.
* `EdgeDevice.Model.serialize` — the present value as a JSON object.
-/

namespace EdgeDevice

variable [RandomSource]

/-- The value a device is about. -/
inductive Model where
  | actuator (a : Actuator)
  | sensor (s : Sensor)

/-- A value that a model refused. -/
structure InvalidValue where
  key : String
  value : Int
  deriving DecidableEq

namespace Model

open Command (Assignment)

/-- The longest written value. -/
def maxReading : Nat := 96

/-- The model of a kind; the seed is behind the readings of a sensor. -/
def ofKind (kind : Kind) (seed : UInt64) : Model :=
  if kind.isActuator then .actuator (.ofKind kind) else .sensor (.ofKind kind seed)

/-- The kind of the device. -/
def kind : Model → Kind
  | actuator a => a.kind
  | sensor s => s.kind

/-- Whether the model is sampled rather than set. -/
def isSensor : Model → Bool
  | actuator _ => false
  | sensor _ => true

/-- The keys that commands can assign. -/
def keys : Model → List String
  | actuator a => [a.key]
  | sensor s => s.fields.map Field.tag

/-- What commands assign, in words. -/
def subject : Model → String
  | actuator a => a.quantity
  | sensor _ => "values"

/-- What a model remarks on. -/
inductive Remark where
  /-- New targets were taken. -/
  | targetsUpdated (a : Assignment)

/-- An assignment in words. -/
def describe (a : Assignment) : String :=
  let entries := a.entries.map fun e => "(\"" ++ e.1 ++ "\", " ++ toString e.2 ++ ")"
  "CommandValues \x7b entries: [" ++ ", ".intercalate entries ++ "] \x7d"

instance : Loggable Remark where
  entry
    | .targetsUpdated a => ⟨.info, "Sensor targets updated: " ++ describe a⟩

/-- The first entry that the sensor cannot take as a target. -/
def firstRefused (s : Sensor) (a : Assignment) : Option (String × Int) :=
  a.entries.find? fun e => !s.accepts e.1 e.2

/-- Sets the targets of several fields. -/
def setTargets (s : Sensor) (entries : List (String × Int)) : Sensor :=
  entries.foldl (fun s e => (s.setTarget e.1 e.2).2) s

/-- Carries out a command. An actuator is set to the value of its key; a sensor takes new targets,
provided it can take all of them. -/
def obey (m : Model) (a : Assignment) : Logged (Except InvalidValue Unit × Model) :=
  match m with
  | actuator act =>
    match a.get? act.key with
    | none => return (.ok (), m)
    | some n => do
      let (taken, act') ← act.request n
      return (if taken then .ok () else .error ⟨act.key, n⟩, actuator act')
  | sensor s =>
    match firstRefused s a with
    | some e => return (.error ⟨e.1, e.2⟩, m)
    | none => do
      Logged.remark (Remark.targetsUpdated a)
      return (.ok (), sensor (setTargets s a.entries))

/-- Takes one sample; an actuator has nothing to sample. -/
def sample : Model → Model
  | actuator a => actuator a
  | sensor s => sensor s.sample

/-- Makes the device safe: an actuator is switched off. -/
def makeSafe : Model → Logged Model
  | actuator a => do return actuator (← a.switchOff)
  | sensor s => return sensor s

/-- Overwrites a reading of a sensor; the answer says whether there is such a field, and is missing
for an actuator. -/
def setReading (m : Model) (tag : String) (n : Int) : Option Bool × Model :=
  match m with
  | actuator _ => (none, m)
  | sensor s =>
    let (known, s) := s.setReading tag n
    (some known, sensor s)

/-- The members of the written value behind the id. -/
def readings : Model → List (String × Json.Scalar)
  | actuator a => [(a.key, .number a.setpoint)]
  | sensor s => s.fields.map fun f => (f.tag, .number f.reading)

/-- The present value as a JSON object that also names the device. -/
def document (m : Model) (d : Identity) : String :=
  Json.compact (("i", .text d.hexId) :: m.readings)

/-- The document, if there is room for it. -/
def serialize (m : Model) (d : Identity) : Option (Text maxReading) :=
  Text.ofString? (m.document d)

end Model

end EdgeDevice
