import EdgeDevice.Proofs.Device.Range

set_option autoImplicit false
set_option relaxedAutoImplicit false

/-!
# Readings converge to their targets

A field that has a target moves one unit toward it with every sample and then stays there. So the
reading after some samples depends on nothing but the number of the samples, the reading they
started from and the target: neither on the other fields, which may get readings and targets of
their own in the meantime, nor on the random numbers.

The reading may be set to any number of 32 bits, also far out of range. It never moves past its
target, which is in range, and so no number leaves 32 bits on the way.

## Main definitions

* `EdgeDevice.ramp` — where a reading is after some samples.
* `EdgeDevice.Model.Doing`, `EdgeDevice.Model.follow` — what is done to a model, setting single
  readings included.
* `EdgeDevice.Model.LeavesAlone` — nothing but samples changes a field.

## Main results

* `EdgeDevice.Field.approach_eq`, `EdgeDevice.ramp_ramp` — one step toward a target, and several.
* `EdgeDevice.Sensor.field?_sample` — a sample moves a field whatever the other fields do.
* `EdgeDevice.Model.converges_followed` — a field is on its way to its target, or there.
-/

namespace EdgeDevice

/-! ## The way to a target -/

/-- Where a reading is after `n` samples: at its target if that is at most `n` units away, and `n`
units closer to it otherwise. -/
def ramp (reading target : Int) (n : Nat) : Int :=
  if (target - reading).natAbs ≤ n then target
  else if reading < target then reading + n
  else reading - n

/-- Without samples a reading stays where it is. -/
theorem ramp_zero (reading target : Int) : ramp reading target 0 = reading := by
  unfold ramp
  split
  · omega
  · split <;> omega

/-- Samples one after the other make one ramp. -/
theorem ramp_ramp (reading target : Int) (n k : Nat) :
    ramp (ramp reading target n) target k = ramp reading target (n + k) := by
  unfold ramp
  grind

/-- A reading never moves past its target. -/
theorem ramp_between (reading target : Int) (n : Nat) :
    min reading target ≤ ramp reading target n ∧ ramp reading target n ≤ max reading target := by
  unfold ramp
  split
  · omega
  · split <;> omega

/-- One sample brings a reading one unit closer to its target, if it is not there yet. -/
theorem ramp_one (reading target : Int) :
    ramp reading target 1 =
      if reading < target then reading + 1 else if target < reading then reading - 1
      else reading := by
  unfold ramp
  grind

/-- A step toward the target is the way of one sample. -/
theorem Field.approach_eq (f : Field) :
    f.approach = { f with reading := ramp f.reading f.target 1 } := by
  rw [ramp_one, approach]
  split
  · rfl
  · split <;> rfl

/-! ## One sample -/

section

variable [RandomSource]

namespace Sensor

variable {s : Sensor} {tag : String} {f : Field}

/-- The first field with a tag keeps its place in a step for all fields. -/
theorem exists_find?_through {step : Field → Generator → Field × Generator}
    (hstep : ∀ f g, (step f g).1.tag = f.tag) {fs : List Field}
    (h : fs.find? (fun f => f.tag == tag) = some f) (g : Generator) :
    ∃ g', (Field.through step fs g).1.find? (fun f => f.tag == tag) = some (step f g').1 := by
  induction fs generalizing g with
  | nil => cases h
  | cons f' fs ih =>
    rw [Field.through]
    by_cases ht : f'.tag = tag
    · rw [List.find?_cons_of_pos (by simpa using ht)] at h
      obtain rfl := Option.some.inj h
      exact ⟨g, List.find?_cons_of_pos (by simpa [hstep] using ht)⟩
    · rw [List.find?_cons_of_neg (by simpa using ht)] at h
      obtain ⟨g', hg'⟩ := ih h (step f' g).2
      exact ⟨g', (List.find?_cons_of_neg (by simpa [hstep] using ht)).trans hg'⟩

/-- **A sample moves a field that has a target one unit**, whatever the other fields do and whatever
is drawn for them. -/
theorem field?_sample (h : s.field? tag = some f) (ht : f.target ≠ 0) :
    s.sample.field? tag = some f.approach := by
  have htag : ∀ (f : Field) (g : Generator), (f.sample g).1.tag = f.tag :=
    fun f g => congrArg Prod.fst (f.outline_sample g)
  obtain ⟨g, hg⟩ := exists_find?_through htag h s.generator
  rwa [Field.sample, if_neg ht] at hg

/-- A sample keeps a sensor sound. -/
theorem Sound.sample (h : s.Sound) : s.sample.Sound where
  laidOut := h.laidOut.sample
  fields := Field.forall_mem_through (fun _ g hf => (hf.1.sample hf.2 g).2) h.bounded _

/-- So does a new target. -/
theorem Sound.setTarget (h : s.Sound) (tag : String) (n : Int) : (s.setTarget tag n).2.Sound where
  laidOut := h.laidOut.setTarget tag n
  fields := h.laidOut.forall_mem_setTarget (fun _ hf ha => ⟨hf.reading, ha⟩) h.fields

/-- So does a new reading of 32 bits, in its range or not. -/
theorem Sound.setReading (h : s.Sound) (tag : String) {n : Int}
    (hn : Decimal.lowest ≤ n ∧ n ≤ Decimal.highest) : (s.setReading tag n).2.Sound where
  laidOut := h.laidOut.setReading tag n
  fields := by
    unfold Sensor.setReading
    split
    · rw [modify_eq_map h.laidOut.nodup]
      intro f' hf'
      obtain ⟨f, hf, rfl⟩ := List.mem_map.1 hf'
      split
      · exact ⟨hn, (h.fields f hf).target⟩
      · exact h.fields f hf
    · exact h.fields

end Sensor

/-! ## Whatever is done to the other fields -/

namespace Model

/-- The field with the given tag; an actuator has none. -/
def field? (m : Model) (tag : String) : Option Field :=
  match m with
  | actuator _ => none
  | sensor s => s.field? tag

/-- What is done to a model, setting single readings to any number of 32 bits included. -/
inductive Doing where
  | handle (handling : Handling)
  | setReading (tag : String) (n : Int32)
  | answer (request : Coap.Message) (id : UInt16)
  | makeSafe

variable [Json.Writer]

/-- A model after something is done to it. -/
def follow (m : Model) : Doing → Model
  | .handle handling => m.undergo handling
  | .setReading tag n => (m.setReading tag n.toInt).2
  | .answer request id => (m.answer request id).value.2
  | .makeSafe => m.makeSafe.value

/-- A model after something is done to it, if all numbers on the way fit 32 bits. -/
def follow? (m : Model) : Doing → Option Model
  | .handle handling => m.undergo? handling
  | doing => some (m.follow doing)

/-- Whether a sample is taken. -/
def Doing.isSample : Doing → Bool
  | .handle .sample => true
  | _ => false

/-- **Nothing but samples changes a field**: it is the same before and after everything else that is
done. -/
def LeavesAlone (tag : String) : Model → List Doing → Prop
  | _, [] => True
  | m, d :: ds =>
    (d.isSample = true ∨ (m.follow d).field? tag = m.field? tag) ∧ LeavesAlone tag (m.follow d) ds

instance decidableLeavesAlone (tag : String) :
    (m : Model) → (ds : List Doing) → Decidable (LeavesAlone tag m ds)
  | _, [] => inferInstanceAs (Decidable True)
  | m, d :: ds =>
    have := decidableLeavesAlone tag (m.follow d) ds
    inferInstanceAs (Decidable (_ ∧ _))

variable {m : Model} {tag : String} {f : Field}

/-- Whatever is done keeps targets in their ranges and readings in 32 bits. -/
theorem Sound.undergo (h : m.Sound) (handling : Handling) : (m.undergo handling).Sound := by
  obtain ⟨s, rfl, hs⟩ := h
  exact undergo_preserves (fun _ h => h.sample) (fun _ tag n h => h.setTarget tag n) hs handling

/-- **Whatever is done keeps a sensor sound**, and no number leaves 32 bits. -/
theorem Sound.follow (h : m.Sound) (d : Doing) :
    m.follow? d = some (m.follow d) ∧ (m.follow d).Sound := by
  cases d with
  | handle handling => exact ⟨h.undergo?_eq handling, h.undergo handling⟩
  | setReading tag n =>
    obtain ⟨s, rfl, hs⟩ := h
    exact ⟨rfl, _, rfl, hs.setReading tag ⟨n.le_toInt, Int.le_of_lt_add_one n.toInt_lt⟩⟩
  | answer request id =>
    refine ⟨rfl, ?_⟩
    show (m.answer request id).value.2.Sound
    rcases m.answer_cases request id with ⟨-, hm⟩ | ⟨-, hm⟩
    · rw [hm]
      exact h
    · rw [hm]
      exact h.undergo (.put request.payload.bytes)
  | makeSafe =>
    obtain ⟨s, rfl, hs⟩ := h
    exact ⟨rfl, s, rfl, hs⟩

/-- Whatever is done in a row, all numbers on the way fit 32 bits. -/
theorem Sound.followed (h : m.Sound) (ds : List Doing) :
    ds.foldlM follow? m = some (ds.foldl Model.follow m) ∧ (ds.foldl Model.follow m).Sound := by
  induction ds generalizing m with
  | nil => exact ⟨rfl, h⟩
  | cons d ds ih =>
    obtain ⟨heq, hsound⟩ := h.follow d
    rw [List.foldl_cons, List.foldlM_cons, heq, Option.bind_eq_bind, Option.bind_some]
    exact ih hsound

/-- Where nothing but samples changes a field, one thing that is done brings it closer to its
target, or leaves it where it is. -/
theorem field?_follow {d : Doing} (h : m.field? tag = some f) (ht : f.target ≠ 0)
    (hd : d.isSample = true ∨ (m.follow d).field? tag = m.field? tag) :
    (m.follow d).field? tag =
      some { f with reading := ramp f.reading f.target (if d.isSample then 1 else 0) } := by
  by_cases hs : d.isSample = true
  · obtain rfl : d = .handle .sample := by
      unfold Doing.isSample at hs
      split at hs
      · rfl
      · cases hs
    cases m with
    | actuator a => cases h
    | sensor s =>
      rw [if_pos hs, ← Field.approach_eq]
      exact Sensor.field?_sample h ht
  · rw [if_neg hs, ramp_zero]
    exact (hd.resolve_left hs).trans h

/-- **A field is on its way to its target**, by as many units as samples were taken, or there. -/
theorem field?_followed {ds : List Doing} (h : m.field? tag = some f) (ht : f.target ≠ 0)
    (hl : LeavesAlone tag m ds) :
    (ds.foldl follow m).field? tag =
      some { f with reading := ramp f.reading f.target (ds.countP Doing.isSample) } := by
  induction ds generalizing m f with
  | nil =>
    rw [List.countP_nil, ramp_zero]
    exact h
  | cons d ds ih =>
    have hstep := ih (field?_follow h ht hl.1) ht hl.2
    rw [ramp_ramp] at hstep
    rw [List.foldl_cons, List.countP_cons, Nat.add_comm]
    exact hstep

/-- **Readings converge to their targets.** Whatever is done to a sensor, it stays sound: targets
are in range and readings fit 32 bits. In a sound sensor a field that has a target, and that nothing
but samples changes, shows its target once as many samples were taken as the target was units away,
and before that has come one unit closer with every sample; it never moves past the target, and no
number leaves 32 bits on the way. The other fields, their targets and the random numbers make no
difference. -/
theorem converges_followed :
    (∀ kind seed ds, (List.foldl follow (.sensor (.ofKind kind seed)) ds).Sound) ∧
    ∀ (m : Model) (tag : String) (f : Field) (ds : List Doing), m.Sound →
      m.field? tag = some f → f.target ≠ 0 → LeavesAlone tag m ds →
        let reading := ramp f.reading f.target (ds.countP Doing.isSample)
        (ds.foldl follow m).field? tag = some { f with reading := reading } ∧
          min f.reading f.target ≤ reading ∧ reading ≤ max f.reading f.target ∧
          ds.foldlM follow? m = some (ds.foldl follow m) := by
  constructor
  · intro kind seed ds
    have hstart : (Model.sensor (.ofKind kind seed)).Sound :=
      ⟨_, rfl, Sensor.sound_ofKind kind seed⟩
    exact (hstart.followed ds).2
  · intro m tag f ds hm hf ht hl
    obtain ⟨hlow, hhigh⟩ := ramp_between f.reading f.target (ds.countP Doing.isSample)
    exact ⟨field?_followed hf ht hl, hlow, hhigh, (hm.followed ds).1⟩

end Model

end

namespace Model

/-- The temperature of the climate sensor comes back from the largest number of 32 bits, while the
humidity gets a target. -/
theorem converges_followed_climate :
    ∃ m f, m.Sound ∧ m.field? "t" = some f ∧ f.reading = 2147483647 ∧ f.target = 20 ∧
      (List.foldl follow m
        [.handle .sample, .handle (.setTarget "h" 60), .handle .sample]).field? "t" =
          some { f with reading := 2147483645 } := by
  have hm := converges_followed.1 .temperatureHumidityCo2 7
    [.handle (.setTarget "t" 20), .setReading "t" 2147483647]
  refine ⟨_, _, hm, rfl, rfl, rfl, ?_⟩
  exact (converges_followed.2 _ _ _ _ hm rfl (by decide) (by decide +kernel)).1

end Model

end EdgeDevice
