import EdgeDevice.Proofs.Device.Acceptance

set_option autoImplicit false
set_option relaxedAutoImplicit false

/-!
# Readings and targets stay in range

A field takes its readings from its range as long as it has no target, and otherwise moves the last
reading a step toward the target. So the readings stay in the range because the targets do, and the
targets do because a command that asks for another one is refused. Commands may come at any time,
and a field may get a target while it stands anywhere in its range, or lose it again.

No number on the way is larger than 32 bits can hold: sampling with numbers that must fit 32 bits,
which fails where one does not, comes to the same. For that a reading need not be in its range, as
long as 32 bits hold it and the target is in the range.

## Main definitions

* `EdgeDevice.Field.InRange`, `EdgeDevice.Sensor.InRange` — readings and targets are in range.
* `EdgeDevice.Field.Sound`, `EdgeDevice.Sensor.Sound` — targets are in range, and 32 bits hold the
  readings.
* `EdgeDevice.Sensor.sample?` — one sample of every field, if all numbers fit 32 bits.
* `EdgeDevice.Model.Handling`, `EdgeDevice.Model.undergo` — what is done to a model, apart from
  setting single readings.

## Main results

* `EdgeDevice.Generator.fits_between`, `EdgeDevice.Generator.between_bounds` — a number that is
  drawn fits 32 bits, and it is drawn from its range.
* `EdgeDevice.Sensor.InRange.sample`, `EdgeDevice.Sensor.InRange.setTarget` — samples and new
  targets keep everything in range.
* `EdgeDevice.Model.undergo_preserves` — what neither samples nor new targets break.
* `EdgeDevice.Model.inRange_handled` — everything stays in range whatever is done, and no number
  leaves 32 bits.
-/

namespace EdgeDevice

open Command (Assignment)

section

variable [RandomSource]

/-- Whatever is drawn fits 32 bits. -/
theorem Generator.fits_between (low high : Int) (g : Generator) :
    Decimal.lowest ≤ (g.between low high).1 ∧ (g.between low high).1 ≤ Decimal.highest := by
  have hlow := (RandomSource.draw (.ofInt low) (.ofInt high) g).1.le_toInt
  have hhigh := (RandomSource.draw (.ofInt low) (.ofInt high) g).1.toInt_lt
  exact ⟨hlow, Int.le_of_lt_add_one hhigh⟩

/-- **A number is drawn from its range**, if 32 bits hold the bounds of it and the source is
lawful. -/
theorem Generator.between_bounds [RandomSource.Lawful] {low high : Int}
    (hl : Decimal.lowest ≤ low) (h : low < high) (hh : high ≤ Decimal.highest) (g : Generator) :
    low ≤ (g.between low high).1 ∧ (g.between low high).1 < high := by
  unfold Decimal.lowest at hl
  unfold Decimal.highest at hh
  have hlow : (Int32.ofInt low).toInt = low := Int32.toInt_ofInt_of_le hl (by omega)
  have hhigh : (Int32.ofInt high).toInt = high := Int32.toInt_ofInt_of_le (by omega) (by omega)
  have hdraw := RandomSource.Lawful.draw_bounds (.ofInt low) (.ofInt high) g
  rw [Int32.lt_iff_toInt_lt, Int32.le_iff_toInt_le, Int32.lt_iff_toInt_lt, hlow, hhigh] at hdraw
  exact hdraw h

/-- The number, if it fits 32 bits with a sign. -/
def Decimal.narrow? (n : Int) : Option Int := if lowest ≤ n ∧ n ≤ highest then some n else none

/-! ## One field -/

namespace Field

/-- **The reading of a field is in its range**, and so is its target, if it has one. -/
structure InRange (f : Field) : Prop where
  reading : f.low ≤ f.reading ∧ f.reading < f.high
  target : f.Accepts f.target

/-- The target of a field is in its range, if it has one, and 32 bits hold its reading. -/
structure Sound (f : Field) : Prop where
  reading : Decimal.lowest ≤ f.reading ∧ f.reading ≤ Decimal.highest
  target : f.Accepts f.target

/-- A field has a range, and 32 bits hold all of it. -/
structure Bounded (f : Field) : Prop where
  low : Decimal.lowest ≤ f.low
  nonempty : f.low < f.high
  high : f.high ≤ Decimal.highest

/-- One step toward the target, if the reading fits 32 bits then. -/
def approach? (f : Field) : Option Field :=
  if f.reading < f.target then
    (Decimal.narrow? (f.reading + 1)).map fun n => { f with reading := n }
  else if f.target < f.reading then
    (Decimal.narrow? (f.reading - 1)).map fun n => { f with reading := n }
  else some f

/-- The next reading, if it fits 32 bits. -/
def sample? (f : Field) (g : Generator) : Option (Field × Generator) :=
  if f.target = 0 then some (f.draw g) else f.approach?.map fun f => (f, g)

variable {f : Field}

/-- A random reading fits 32 bits. -/
theorem sound_draw (ht : f.Accepts f.target) (g : Generator) : (f.draw g).1.Sound :=
  ⟨Generator.fits_between f.low f.high g, ht⟩

/-- A random reading is in its range. -/
theorem Bounded.inRange_draw [RandomSource.Lawful] (hb : f.Bounded) (ht : f.Accepts f.target)
    (g : Generator) : (f.draw g).1.InRange :=
  ⟨Generator.between_bounds hb.low hb.nonempty hb.high g, ht⟩

omit [RandomSource] in
/-- A reading never moves past its target. -/
theorem InRange.approach (h : f.InRange) (ht : f.target ≠ 0) : f.approach.InRange := by
  obtain ⟨hlow, hhigh⟩ := h.target.resolve_left ht
  have hreading := h.reading
  unfold Field.approach
  split
  · refine ⟨?_, h.target⟩
    dsimp only
    omega
  · split
    · refine ⟨?_, h.target⟩
      dsimp only
      omega
    · exact h

/-- The next reading is in its range. -/
theorem InRange.sample [RandomSource.Lawful] (h : f.InRange) (hb : f.Bounded) (g : Generator) :
    (f.sample g).1.InRange := by
  unfold Field.sample
  split
  · exact hb.inRange_draw h.target g
  · rename_i ht
    exact h.approach ht

omit [RandomSource] in
/-- What is in a range of 32 bits fits 32 bits. -/
theorem InRange.sound (h : f.InRange) (hb : f.Bounded) : f.Sound := by
  have hreading := h.reading
  have hlow := hb.low
  have hhigh := hb.high
  exact ⟨by omega, h.target⟩

omit [RandomSource] in
/-- One step toward a target in range fits 32 bits, wherever it starts from. -/
theorem Sound.approach (h : f.Sound) (hb : f.Bounded) (ht : f.target ≠ 0) :
    f.approach? = some f.approach ∧ f.approach.Sound := by
  obtain ⟨hlow, hhigh⟩ := h.target.resolve_left ht
  have hreading := h.reading
  have hbl := hb.low
  have hbh := hb.high
  unfold approach? Field.approach
  split
  · have hfit : Decimal.lowest ≤ f.reading + 1 ∧ f.reading + 1 ≤ Decimal.highest := by omega
    rw [Decimal.narrow?, if_pos hfit]
    exact ⟨rfl, hfit, h.target⟩
  · split
    · have hfit : Decimal.lowest ≤ f.reading - 1 ∧ f.reading - 1 ≤ Decimal.highest := by omega
      rw [Decimal.narrow?, if_pos hfit]
      exact ⟨rfl, hfit, h.target⟩
    · exact ⟨rfl, h⟩

/-- So does the next reading. -/
theorem Sound.sample (h : f.Sound) (hb : f.Bounded) (g : Generator) :
    f.sample? g = some (f.sample g) ∧ (f.sample g).1.Sound := by
  unfold sample? Field.sample
  split
  · exact ⟨rfl, sound_draw h.target g⟩
  · rename_i ht
    obtain ⟨heq, hsound⟩ := h.approach hb ht
    rw [heq]
    exact ⟨rfl, hsound⟩

/-- What holds of all fields after a step of its own for each of them. -/
theorem forall_mem_through {step : Field → Generator → Field × Generator} {P Q : Field → Prop}
    (hstep : ∀ f g, P f → Q (step f g).1) {fs : List Field} (h : ∀ f ∈ fs, P f) (g : Generator) :
    ∀ f ∈ (through step fs g).1, Q f := by
  induction fs generalizing g with
  | nil => exact List.forall_mem_nil _
  | cons f fs ih =>
    obtain ⟨hf, hfs⟩ := List.forall_mem_cons.1 h
    exact List.forall_mem_cons.2 ⟨hstep f g hf, ih hfs _⟩

/-- One sample of all fields, first to last, if all readings fit 32 bits. -/
def sampleAll? : List Field → Generator → Option (List Field × Generator)
  | [], g => some ([], g)
  | f :: fs, g => do
    let (f, g) ← f.sample? g
    let (fs, g) ← sampleAll? fs g
    return (f :: fs, g)

/-- In a sample of sound fields all readings fit 32 bits. -/
theorem sampleAll?_eq {fs : List Field} (h : ∀ f ∈ fs, f.Sound ∧ f.Bounded) (g : Generator) :
    sampleAll? fs g = some (through sample fs g) := by
  induction fs generalizing g with
  | nil => rfl
  | cons f fs ih =>
    obtain ⟨⟨hs, hb⟩, hfs⟩ := List.forall_mem_cons.1 h
    simp only [sampleAll?, through, (hs.sample hb g).1, ih hfs, Option.bind_eq_bind,
      Option.bind_some, pure]

end Field

/-! ## All fields -/

namespace Sensor

/-- **All readings and targets of a sensor are in the ranges that its kind fixes.** -/
structure InRange (s : Sensor) : Prop where
  laidOut : s.LaidOut
  fields : ∀ f ∈ s.fields, f.InRange

/-- All targets of a sensor are in the ranges that its kind fixes, and 32 bits hold all readings. -/
structure Sound (s : Sensor) : Prop where
  laidOut : s.LaidOut
  fields : ∀ f ∈ s.fields, f.Sound

/-- One sample of every field, if all readings fit 32 bits. -/
def sample? (s : Sensor) : Option Sensor :=
  (Field.sampleAll? s.fields s.generator).map fun r => { s with fields := r.1, generator := r.2 }

variable {s : Sensor}

omit [RandomSource] in
/-- The fields of every kind have ranges within 32 bits. -/
theorem bounded_layout (kind : Kind) : ∀ f ∈ Field.layout kind, f.Bounded := by
  have hbounds : ∀ f ∈ Field.layout kind,
      Decimal.lowest ≤ f.low ∧ f.low < f.high ∧ f.high ≤ Decimal.highest := by
    cases kind <;> decide
  intro f hf
  obtain ⟨hlow, hlt, hhigh⟩ := hbounds f hf
  exact ⟨hlow, hlt, hhigh⟩

/-- The fields of every kind have a range that 32 bits hold. -/
theorem LaidOut.bounded (h : s.LaidOut) : ∀ f ∈ s.fields, f.Bounded := by
  intro f hf
  have hmem : f.outline ∈ (Field.layout s.kind).map Field.outline :=
    h ▸ List.mem_map_of_mem hf
  obtain ⟨f', hf', he⟩ := List.mem_map.1 hmem
  obtain ⟨-, hl, hh⟩ : f'.tag = f.tag ∧ f'.low = f.low ∧ f'.high = f.high := by
    simpa [Field.outline] using he
  obtain ⟨hlow, hlt, hhigh⟩ := bounded_layout s.kind f' hf'
  rw [hl, hh] at hlt
  exact ⟨hl ▸ hlow, hlt, hh ▸ hhigh⟩

omit [RandomSource] in
/-- The fields of every kind wander to begin with. -/
theorem accepts_layout (kind : Kind) : ∀ f ∈ Field.layout kind, f.Accepts f.target := by
  have htargets : ∀ f ∈ Field.layout kind, f.target = 0 := by cases kind <;> decide
  exact fun f hf => .inl (htargets f hf)

/-- To begin with everything is in range. -/
theorem inRange_ofKind [RandomSource.Lawful] (kind : Kind) (seed : UInt64) :
    (ofKind kind seed).InRange where
  laidOut := laidOut_ofKind kind seed
  fields := by
    have hlayout : ∀ f ∈ Field.layout kind, f.Bounded ∧ f.Accepts f.target :=
      fun f hf => ⟨bounded_layout kind f hf, accepts_layout kind f hf⟩
    exact Field.forall_mem_through (fun f g hf => hf.1.inRange_draw hf.2 g) hlayout _

/-- To begin with 32 bits hold everything, whatever the source draws. -/
theorem sound_ofKind (kind : Kind) (seed : UInt64) : (ofKind kind seed).Sound where
  laidOut := laidOut_ofKind kind seed
  fields := Field.forall_mem_through (fun _ g hf => Field.sound_draw hf g) (accepts_layout kind) _

/-- The fields of a sensor that has everything in range are in range, and 32 bits hold their
ranges. -/
theorem InRange.bounded (h : s.InRange) : ∀ f ∈ s.fields, f.InRange ∧ f.Bounded :=
  fun f hf => ⟨h.fields f hf, h.laidOut.bounded f hf⟩

/-- A sample keeps everything in range. -/
theorem InRange.sample [RandomSource.Lawful] (h : s.InRange) : s.sample.InRange where
  laidOut := h.laidOut.sample
  fields := Field.forall_mem_through (fun _ g hf => hf.1.sample hf.2 g) h.bounded _

/-- What is in range fits 32 bits. -/
theorem InRange.sound (h : s.InRange) : s.Sound where
  laidOut := h.laidOut
  fields f hf := (h.fields f hf).sound (h.laidOut.bounded f hf)

/-- The fields of a sound sensor are sound, and 32 bits hold their ranges. -/
theorem Sound.bounded (h : s.Sound) : ∀ f ∈ s.fields, f.Sound ∧ f.Bounded :=
  fun f hf => ⟨h.fields f hf, h.laidOut.bounded f hf⟩

/-- In a sample no number leaves 32 bits. -/
theorem Sound.sample?_eq (h : s.Sound) : s.sample? = some s.sample := by
  rw [sample?, Field.sampleAll?_eq h.bounded]
  rfl

/-- What a field that takes a target keeps, all fields keep. -/
theorem LaidOut.forall_mem_setTarget (hs : s.LaidOut) {P : Field → Prop} {tag : String} {n : Int}
    (hP : ∀ f, P f → f.Accepts n → P { f with target := n }) (h : ∀ f ∈ s.fields, P f) :
    ∀ f ∈ (s.setTarget tag n).2.fields, P f := by
  unfold Sensor.setTarget
  split
  · rename_i ha
    obtain ⟨f, hf, rfl, htakes⟩ := (accepts_iff hs).1 ha
    rw [modify_eq_map hs.nodup]
    intro f' hf'
    obtain ⟨g, hg, rfl⟩ := List.mem_map.1 hf'
    by_cases ht : g.tag = f.tag
    · obtain rfl := List.inj_on_of_nodup_map hs.nodup hg hf ht
      rw [if_pos rfl]
      exact hP g (h g hg) htakes
    · rw [if_neg ht]
      exact h g hg
  · exact h

/-- A new target keeps everything in range. -/
theorem InRange.setTarget (h : s.InRange) (tag : String) (n : Int) :
    (s.setTarget tag n).2.InRange where
  laidOut := h.laidOut.setTarget tag n
  fields := h.laidOut.forall_mem_setTarget (fun _ hf ha => ⟨hf.reading, ha⟩) h.fields

/-- A new target does not change the kind. -/
theorem kind_setTarget (s : Sensor) (tag : String) (n : Int) :
    (s.setTarget tag n).2.kind = s.kind := by
  unfold setTarget
  split <;> rfl

end Sensor

/-! ## Whatever is done -/

namespace Model

/-- What is done to a model, apart from setting single readings. -/
inductive Handling where
  | sample
  | setTarget (tag : String) (n : Int)
  | obey (a : Assignment)
  | put (payload : Bytes)

variable [Json.Writer]

/-- A model after something is done to it; an actuator has no targets to set. -/
def undergo (m : Model) : Handling → Model
  | .sample => m.sample
  | .setTarget tag n =>
    match m with
    | actuator a => actuator a
    | sensor s => sensor (s.setTarget tag n).2
  | .obey a => (m.obey a).value.2
  | .put payload => (m.put payload).value.2

/-- A model after something is done to it, if all numbers on the way fit 32 bits. Only sampling
calculates. -/
def undergo? (m : Model) : Handling → Option Model
  | .sample =>
    match m with
    | actuator a => some (actuator a)
    | sensor s => s.sample?.map sensor
  | handling => some (m.undergo handling)

/-- A model is a sensor of a kind that has everything in range. -/
def InRange (kind : Kind) (m : Model) : Prop := ∃ s, m = sensor s ∧ s.kind = kind ∧ s.InRange

/-- A model is a sensor whose targets are in range, and 32 bits hold its readings. -/
def Sound (m : Model) : Prop := ∃ s, m = sensor s ∧ s.Sound

variable {P : Sensor → Prop} {kind : Kind} {m : Model}

/-- What neither a sample nor a new target breaks nothing breaks that is done to a sensor. -/
theorem undergo_preserves (hsample : ∀ s : Sensor, P s → P s.sample)
    (htarget : ∀ (s : Sensor) (tag : String) (n : Int), P s → P (s.setTarget tag n).2)
    {s : Sensor} (h : P s) (handling : Handling) :
    ∃ s', (sensor s).undergo handling = sensor s' ∧ P s' := by
  cases handling with
  | sample => exact ⟨_, rfl, hsample s h⟩
  | setTarget tag n => exact ⟨_, rfl, htarget s tag n h⟩
  | obey a => exact obey_preserves htarget h a
  | put payload =>
    refine put_preserves (P := fun m => ∃ s', m = sensor s' ∧ P s') ?_ ⟨s, rfl, h⟩ payload
    rintro _ a ⟨s, rfl, h⟩
    exact obey_preserves htarget h a

/-- Whatever is done keeps everything in range. -/
theorem InRange.undergo [RandomSource.Lawful] (h : m.InRange kind) (handling : Handling) :
    (m.undergo handling).InRange kind := by
  obtain ⟨s, rfl, hk, hs⟩ := h
  exact undergo_preserves (P := fun s => s.kind = kind ∧ s.InRange)
    (fun s h => ⟨h.1, h.2.sample⟩)
    (fun s tag n h => ⟨(s.kind_setTarget tag n).trans h.1, h.2.setTarget tag n⟩) ⟨hk, hs⟩ handling

omit [Json.Writer] in
/-- What is in range fits 32 bits. -/
theorem InRange.sound (h : m.InRange kind) : m.Sound := by
  obtain ⟨s, rfl, -, hs⟩ := h
  exact ⟨s, rfl, hs.sound⟩

/-- Whatever is done, no number leaves 32 bits. -/
theorem Sound.undergo?_eq (h : m.Sound) (handling : Handling) :
    m.undergo? handling = some (m.undergo handling) := by
  cases handling with
  | sample =>
    obtain ⟨s, rfl, hs⟩ := h
    rw [undergo?, hs.sample?_eq]
    rfl
  | setTarget tag n => rfl
  | obey a => rfl
  | put payload => rfl

/-- What one step keeps a row of steps keeps. -/
theorem InRange.handled [RandomSource.Lawful] (h : m.InRange kind) (handlings : List Handling) :
    (handlings.foldl Model.undergo m).InRange kind ∧
      handlings.foldlM undergo? m = some (handlings.foldl Model.undergo m) := by
  induction handlings generalizing m with
  | nil => exact ⟨h, rfl⟩
  | cons handling handlings ih =>
    rw [List.foldl_cons, List.foldlM_cons, h.sound.undergo?_eq handling, Option.bind_eq_bind,
      Option.bind_some]
    exact ih (h.undergo handling)

/-- **Readings and targets stay in range**, given that the source draws numbers from the range it is
asked for. A sensor of any kind, with any seed, has all readings and targets in the ranges of its
kind after any row of samples and commands, and doing all of that with numbers that must fit 32 bits
comes to the same. -/
theorem inRange_handled [RandomSource.Lawful] (kind : Kind) (seed : UInt64)
    (handlings : List Handling) :
    (handlings.foldl undergo (.sensor (.ofKind kind seed))).InRange kind ∧
      handlings.foldlM undergo? (.sensor (.ofKind kind seed)) =
        some (handlings.foldl undergo (.sensor (.ofKind kind seed))) :=
  InRange.handled ⟨_, rfl, rfl, Sensor.inRange_ofKind kind seed⟩ handlings

end Model

end

namespace Model

/-- Samples around a command that is carried out and a target that is refused. -/
def mixedHandlings : List Handling :=
  [.sample, .put repeatedTarget, .setTarget "t" 99, .sample, .sample]

/-- The climate sensor with random numbers from a lawful source: its humidity arrives at a target,
while the temperature does not move to one out of its range. -/
theorem inRange_handled_climate :
    RandomSource.Lawful ∧
      (mixedHandlings.foldl undergo climate).readings =
        [("t", .number 11), ("h", .number 70), ("c", .number 604)] ∧
      (mixedHandlings.foldl undergo climate).InRange .temperatureHumidityCo2 ∧
      mixedHandlings.foldlM undergo? climate = some (mixedHandlings.foldl undergo climate) := by
  obtain ⟨hrange, hfits⟩ := inRange_handled .temperatureHumidityCo2 7 mixedHandlings
  exact ⟨inferInstance, by decide +kernel, hrange, hfits⟩

end Model

end EdgeDevice
