import EdgeDevice.Device.Generator
import EdgeDevice.Device.Kind

set_option autoImplicit false
set_option relaxedAutoImplicit false

/-!
# Sensors

A sensor has up to three fields. Each field shows a reading; a sample moves it one step toward its
target, or draws it anew from the field's range while the target is `0`.

## Main definitions

* `EdgeDevice.Field` — one measured quantity.
* `EdgeDevice.Sensor` — the fields of a kind with the generator behind the random readings.
* `EdgeDevice.Sensor.sample` — takes one sample of every field.
* `EdgeDevice.Sensor.setTarget`, `EdgeDevice.Sensor.setReading` — change one field.
-/

namespace EdgeDevice

variable [RandomSource]

/-- One measured quantity. -/
structure Field where
  /-- The key under which the reading is written and the target commanded. -/
  tag : String
  /-- The lowest random reading. -/
  low : Int
  /-- The bound below which random readings stay. -/
  high : Int
  /-- The last reading. -/
  reading : Int
  /-- The reading to move to; `0` lets the reading wander. -/
  target : Int
  deriving DecidableEq

namespace Field

/-- A field that wanders between two bounds, before its first reading. -/
def wandering (tag : String) (low high : Int) : Field := ⟨tag, low, high, low, 0⟩

/-- A target the field can take: none, or a value from its range. -/
def Accepts (f : Field) (n : Int) : Prop := n = 0 ∨ (f.low ≤ n ∧ n < f.high)

instance (f : Field) (n : Int) : Decidable (f.Accepts n) := inferInstanceAs (Decidable (_ ∨ _))

/-- A random reading. -/
def draw (f : Field) (g : Generator) : Field × Generator :=
  let (n, g) := g.between f.low f.high
  ({ f with reading := n }, g)

/-- One step toward the target. -/
def approach (f : Field) : Field :=
  if f.reading < f.target then { f with reading := f.reading + 1 }
  else if f.target < f.reading then { f with reading := f.reading - 1 }
  else f

/-- The next reading. -/
def sample (f : Field) (g : Generator) : Field × Generator :=
  if f.target = 0 then f.draw g else (f.approach, g)

/-- The fields of a kind; an actuator measures nothing. -/
def layout : Kind → List Field
  | .temperatureActuator => []
  | .ventilationActuator => []
  | .temperatureHumidityCo2 => [wandering "t" 0 25, wandering "h" 50 100, wandering "c" 400 1000]
  | .frequencyNoise => [wandering "f" 200 500, wandering "n" 40 80]
  | .weight => [wandering "w" 0 100]
  | .counter => [wandering "in" 0 65535, wandering "o" 0 65535]

/-- Passes a generator through the fields, first to last. -/
def through (step : Field → Generator → Field × Generator) :
    List Field → Generator → List Field × Generator
  | [], g => ([], g)
  | f :: fs, g =>
    let (f, g) := step f g
    let (fs, g) := through step fs g
    (f :: fs, g)

end Field

/-- A device that measures. -/
structure Sensor where
  kind : Kind
  fields : List Field
  generator : Generator

namespace Sensor

/-- A sensor of the given kind with a random reading in every field. -/
def ofKind (kind : Kind) (seed : UInt64) : Sensor :=
  let (fields, g) := Field.through Field.draw (Field.layout kind) (Generator.seed seed)
  ⟨kind, fields, g⟩

/-- The field with the given tag. -/
def field? (s : Sensor) (tag : String) : Option Field := s.fields.find? fun f => f.tag == tag

/-- The last reading of a field. -/
def reading? (s : Sensor) (tag : String) : Option Int := (s.field? tag).map Field.reading

/-- The target of a field. -/
def target? (s : Sensor) (tag : String) : Option Int := (s.field? tag).map Field.target

/-- Whether a field of that tag exists and can take the target. -/
def accepts (s : Sensor) (tag : String) (n : Int) : Bool :=
  match s.field? tag with
  | some f => decide (f.Accepts n)
  | none => false

/-- Changes the first field with the given tag. -/
def modify (tag : String) (change : Field → Field) : List Field → List Field
  | [] => []
  | f :: fs => if f.tag = tag then change f :: fs else f :: modify tag change fs

/-- Sets the target of a field; the answer says whether it was taken. -/
def setTarget (s : Sensor) (tag : String) (n : Int) : Bool × Sensor :=
  if s.accepts tag n then
    (true, { s with fields := modify tag (fun f => { f with target := n }) s.fields })
  else (false, s)

/-- Overwrites the reading of a field; the answer says whether there is such a field. -/
def setReading (s : Sensor) (tag : String) (n : Int) : Bool × Sensor :=
  if (s.field? tag).isSome then
    (true, { s with fields := modify tag (fun f => { f with reading := n }) s.fields })
  else (false, s)

/-- Takes one sample of every field. -/
def sample (s : Sensor) : Sensor :=
  let (fields, g) := Field.through Field.sample s.fields s.generator
  { s with fields := fields, generator := g }

end Sensor

end EdgeDevice
