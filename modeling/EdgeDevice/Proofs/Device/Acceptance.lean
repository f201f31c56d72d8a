import EdgeDevice.Library.Escaping
import EdgeDevice.Library.Xoshiro
import EdgeDevice.Proofs.Command.Document
import EdgeDevice.Proofs.Device.Obedience
import EdgeDevice.Proofs.Json.Size
import Mathlib.Data.List.TakeWhile

set_option autoImplicit false
set_option relaxedAutoImplicit false

/-!
# Commands are all or nothing

A command is acceptable to a model if it assigns anything at all and the model can take every value
in it. Exactly the acceptable commands are carried out, and what they assign is all that changes.
Any other payload is answered with an explanation and changes nothing.

A sensor goes through the values twice, once to look at them and once to take them. That nothing can
be found wrong at the second time is due to the fields of a sensor: they have tags of their own, and
no target that is taken moves the range of a field. So the fields are followed through all that a
model can be put through.

## Main definitions

* `EdgeDevice.Model.Reachable` — what a model can become.
* `EdgeDevice.Sensor.LaidOut` — the fields of a sensor are those of its kind.
* `EdgeDevice.Model.Acceptable` — a model can take all that a command assigns.
* `EdgeDevice.Model.Assigned` — what a command assigns is in place, and nothing else has changed.
* `EdgeDevice.Model.AllOrNothing` — how a payload is answered and what it changes.

## Main results

* `EdgeDevice.Model.Reachable.laidOut` — the fields of a sensor stay those of its kind.
* `EdgeDevice.Model.assigned_obey`, `EdgeDevice.Model.exists_error_of_not_acceptable` — a command is
  carried out exactly if it is acceptable.
* `EdgeDevice.Model.allOrNothing_put` — commands are all or nothing.
-/

namespace EdgeDevice

open Command (Assignment)

section

variable [RandomSource]

/-! ## The fields of a sensor -/

namespace Field

/-- What the kind of a sensor fixes about a field. -/
def outline (f : Field) : String × Int × Int := (f.tag, f.low, f.high)

omit [RandomSource] in
/-- A step toward the target leaves alone what the kind fixes. -/
theorem outline_approach (f : Field) : f.approach.outline = f.outline := by
  unfold approach
  split
  · rfl
  · split <;> rfl

/-- A sample leaves alone what the kind fixes. -/
theorem outline_sample (f : Field) (g : Generator) : (f.sample g).1.outline = f.outline := by
  unfold sample
  split
  · rfl
  · exact f.outline_approach

/-- What leaves alone what the kind fixes about one field does so for all of them. -/
theorem map_outline_through {step : Field → Generator → Field × Generator}
    (h : ∀ f g, (step f g).1.outline = f.outline) (fs : List Field) (g : Generator) :
    (through step fs g).1.map outline = fs.map outline := by
  induction fs generalizing g with
  | nil => rfl
  | cons f fs ih => exact congrArg₂ List.cons (h f g) (ih _)

end Field

namespace Sensor

/-- The fields of a sensor are those of its kind, whatever they show and move to. -/
def LaidOut (s : Sensor) : Prop :=
  s.fields.map Field.outline = (Field.layout s.kind).map Field.outline

/-- A sensor is built with the fields of its kind. -/
theorem laidOut_ofKind (kind : Kind) (seed : UInt64) : (ofKind kind seed).LaidOut :=
  Field.map_outline_through (fun _ _ => rfl) _ _

/-- A sample leaves a sensor the fields of its kind. -/
theorem LaidOut.sample {s : Sensor} (h : s.LaidOut) : s.sample.LaidOut :=
  (Field.map_outline_through Field.outline_sample _ _).trans h

omit [RandomSource] in
/-- A change of one field that leaves alone what the kind fixes does so for all fields. -/
theorem map_outline_modify {change : Field → Field} (h : ∀ f, (change f).outline = f.outline)
    (tag : String) (fs : List Field) :
    (modify tag change fs).map Field.outline = fs.map Field.outline := by
  induction fs with
  | nil => rfl
  | cons f fs ih =>
    unfold modify
    split
    · exact congrArg (· :: _) (h f)
    · exact congrArg (_ :: ·) ih

/-- A change of one field that keeps its outline keeps the layout. -/
theorem LaidOut.modify {s : Sensor} (h : s.LaidOut) (tag : String) {change : Field → Field}
    (hc : ∀ f, (change f).outline = f.outline) :
    LaidOut { s with fields := Sensor.modify tag change s.fields } :=
  (map_outline_modify hc tag s.fields).trans h

/-- Overwriting a reading leaves a sensor the fields of its kind. -/
theorem LaidOut.setReading {s : Sensor} (h : s.LaidOut) (tag : String) (n : Int) :
    (s.setReading tag n).2.LaidOut := by
  unfold Sensor.setReading
  split
  · exact h.modify tag fun _ => rfl
  · exact h

/-- Setting a target leaves a sensor the fields of its kind. -/
theorem LaidOut.setTarget {s : Sensor} (h : s.LaidOut) (tag : String) (n : Int) :
    (s.setTarget tag n).2.LaidOut := by
  unfold Sensor.setTarget
  split
  · exact h.modify tag fun _ => rfl
  · exact h

/-- The tags of a sensor are those of its kind. -/
theorem LaidOut.tags_eq {s : Sensor} (h : s.LaidOut) :
    s.fields.map Field.tag = (Field.layout s.kind).map Field.tag := by
  have := congrArg (List.map Prod.fst) h
  rwa [List.map_map, List.map_map] at this

/-- The fields of a kind have tags of their own. -/
theorem LaidOut.nodup {s : Sensor} (h : s.LaidOut) : (s.fields.map Field.tag).Nodup := by
  rw [h.tags_eq]
  cases s.kind <;> decide

end Sensor

/-! ## What a model can become -/

namespace Model

/-- The fields of a sensor are those of its kind; an actuator has none. -/
def LaidOut : Model → Prop
  | actuator _ => True
  | sensor s => s.LaidOut

/-- Carrying out a command leaves a sensor the fields of its kind. -/
theorem LaidOut.obey {m : Model} (h : m.LaidOut) (a : Assignment) : (m.obey a).value.2.LaidOut := by
  cases m with
  | actuator act => cases ha : a.get? act.key <;> simp [Model.obey, ha, LaidOut]
  | sensor s =>
    obtain ⟨s', hs', h'⟩ :=
      obey_preserves (P := Sensor.LaidOut) (fun _ tag n hs => hs.setTarget tag n) h a
    rw [hs']
    exact h'

/-- Whatever a payload asks for, a sensor keeps the fields of its kind. -/
theorem LaidOut.put [Json.Writer] {m : Model} (h : m.LaidOut) (payload : Bytes) :
    (m.put payload).value.2.LaidOut := put_preserves (fun _ a hm => hm.obey a) h payload

/-- **What a model can become**: it is built for a kind, and then commands come to it, single values
are set, samples are taken, and it is made safe. -/
inductive Reachable [Json.Writer] : Model → Prop
  | actuator (kind : Kind) : Reachable (.actuator (.ofKind kind))
  | sensor (kind : Kind) (seed : UInt64) : Reachable (.sensor (.ofKind kind seed))
  | put {m : Model} (h : Reachable m) (payload : Bytes) : Reachable (m.put payload).value.2
  | answer {m : Model} (h : Reachable m) (request : Coap.Message) (id : UInt16) :
      Reachable (m.answer request id).value.2
  | obey {m : Model} (h : Reachable m) (a : Assignment) : Reachable (m.obey a).value.2
  | sample {m : Model} (h : Reachable m) : Reachable m.sample
  | makeSafe {m : Model} (h : Reachable m) : Reachable m.makeSafe.value
  | setReading {m : Model} (h : Reachable m) (tag : String) (n : Int) :
      Reachable (m.setReading tag n).2
  | setTarget {s : Sensor} (h : Reachable (.sensor s)) (tag : String) (n : Int) :
      Reachable (.sensor (s.setTarget tag n).2)
  | request {a : Actuator} (h : Reachable (.actuator a)) (n : Int) :
      Reachable (.actuator (a.request n).value.2)

/-- **The fields of a sensor stay those of its kind.** -/
theorem Reachable.laidOut [Json.Writer] {m : Model} (h : Reachable m) : m.LaidOut := by
  induction h with
  | actuator kind => trivial
  | sensor kind seed => exact Sensor.laidOut_ofKind kind seed
  | put h payload ih => exact ih.put payload
  | @answer m h request id ih =>
    rcases m.answer_cases request id with ⟨-, hm⟩ | ⟨-, hm⟩
    · rw [hm]
      exact ih
    · rw [hm]
      exact ih.put request.payload.bytes
  | obey h a ih => exact ih.obey a
  | @sample m h ih =>
    cases m with
    | actuator a => trivial
    | sensor s => exact Sensor.LaidOut.sample ih
  | @makeSafe m h ih =>
    cases m with
    | actuator a => trivial
    | sensor s => exact ih
  | @setReading m h tag n ih =>
    cases m with
    | actuator a => trivial
    | sensor s => exact Sensor.LaidOut.setReading ih tag n
  | setTarget h tag n ih => exact Sensor.LaidOut.setTarget ih tag n
  | request h n ih => trivial

end Model

/-! ## New targets -/

namespace Sensor

omit [RandomSource] in
/-- Where tags are not given twice, a field is changed wherever it stands. -/
theorem modify_eq_map {fs : List Field} (hn : (fs.map Field.tag).Nodup) (tag : String)
    (change : Field → Field) :
    modify tag change fs = fs.map fun f => if f.tag = tag then change f else f := by
  induction fs with
  | nil => rfl
  | cons f fs ih =>
    rw [List.map_cons, List.nodup_cons] at hn
    unfold modify
    rw [List.map_cons]
    by_cases hf : f.tag = tag
    · have hrest : fs.map (fun f => if f.tag = tag then change f else f) = fs := by
        refine (List.map_congr_left fun g hg => ?_).trans (List.map_id fs)
        exact if_neg fun (hgt : g.tag = tag) =>
          hn.1 (hf.trans hgt.symm ▸ List.mem_map_of_mem hg)
      rw [if_pos hf, if_pos hf, hrest]
    · rw [if_neg hf, if_neg hf, ih hn.2]

/-- A target is accepted if there is a field for it that can take it. -/
theorem accepts_iff {s : Sensor} (hs : s.LaidOut) {tag : String} {n : Int} :
    s.accepts tag n = true ↔ ∃ f ∈ s.fields, f.tag = tag ∧ f.Accepts n := by
  unfold accepts field?
  cases hf : s.fields.find? fun f => f.tag == tag with
  | none =>
    simp only [List.find?_eq_none, beq_iff_eq] at hf
    simp only [Bool.false_eq_true, false_iff]
    rintro ⟨f, hm, ht, -⟩
    exact hf f hm ht
  | some f =>
    have hm := List.mem_of_find?_eq_some hf
    have ht : f.tag = tag := by simpa using List.find?_some hf
    simp only [decide_eq_true_eq]
    refine ⟨fun ha => ⟨f, hm, ht, ha⟩, ?_⟩
    rintro ⟨g, hg, hgt, ha⟩
    obtain rfl : g = f := List.inj_on_of_nodup_map hs.nodup hg hm (hgt.trans ht.symm)
    exact ha

/-- What is accepted depends on the kind alone. -/
theorem accepts_eq {s s' : Sensor} (hs : s.LaidOut) (hs' : s'.LaidOut) (hk : s'.kind = s.kind)
    (tag : String) (n : Int) : s'.accepts tag n = s.accepts tag n := by
  have houtline : s'.fields.map Field.outline = s.fields.map Field.outline :=
    hs'.trans (hk ▸ hs.symm)
  have hiff : ∀ fs : List Field, (∃ f ∈ fs, f.tag = tag ∧ f.Accepts n) ↔
      ∃ o ∈ fs.map Field.outline, o.1 = tag ∧ (n = 0 ∨ o.2.1 ≤ n ∧ n < o.2.2) := by
    simp [Field.outline, Field.Accepts]
  rw [Bool.eq_iff_iff, accepts_iff hs', accepts_iff hs, hiff, hiff, houtline]

/-- A field that moves to the value under its tag, if there is one. -/
def aim (entries : List (String × Int)) (f : Field) : Field :=
  { f with target := ((entries.find? fun e => e.1 == f.tag).map Prod.snd).getD f.target }

/-- **The second look finds nothing wrong**: where all targets are accepted to begin with, all are
taken. -/
theorem setTargets_eq {s : Sensor} (hs : s.LaidOut) {entries : List (String × Int)}
    (hn : (entries.map Prod.fst).Nodup) (ha : ∀ e ∈ entries, s.accepts e.1 e.2 = true) :
    Model.setTargets s entries = { s with fields := s.fields.map (aim entries) } := by
  induction entries generalizing s with
  | nil =>
    have hsame : s.fields.map (aim []) = s.fields := List.map_id s.fields
    rw [hsame]
    rfl
  | cons e entries ih =>
    obtain ⟨hae, ha⟩ := List.forall_mem_cons.1 ha
    rw [List.map_cons, List.nodup_cons] at hn
    have hfirst : (s.setTarget e.1 e.2).2 =
        { s with
          fields := s.fields.map fun f =>
            if f.tag = e.1 then { f with target := e.2 } else f } := by
      rw [setTarget, if_pos hae, modify_eq_map hs.nodup]
    have hs' := hs.setTarget e.1 e.2
    have hrest := ih hs' hn.2 fun e' he' =>
      (accepts_eq hs hs' (by rw [hfirst]) e'.1 e'.2).trans (ha e' he')
    have haim : ∀ f : Field,
        aim entries (if f.tag = e.1 then { f with target := e.2 } else f) =
          aim (e :: entries) f := by
      intro f
      by_cases hf : f.tag = e.1
      · have hnone : entries.find? (fun e' => e'.1 == e.1) = none := by
          rw [List.find?_eq_none]
          intro e' he' heq
          exact hn.1 (eq_of_beq heq ▸ List.mem_map_of_mem he')
        simp [aim, hf, hnone]
      · have hne : (e.1 == f.tag) = false := by simpa using Ne.symm hf
        rw [if_neg hf, aim, aim, List.find?_cons_of_neg (by simp [hne])]
    show Model.setTargets (s.setTarget e.1 e.2).2 entries = _
    rw [hrest, hfirst, List.map_map]
    exact congrArg (Sensor.mk s.kind · s.generator) (List.map_congr_left fun f _ => haim f)

end Sensor

/-! ## Acceptable commands -/

namespace Model

/-- **A model can take a value under a key**: an actuator takes what is off or inside its range
under the key of its setpoint, and a sensor takes `0` or what is inside the range of a field under
the tag of that field. -/
def CanTake (m : Model) (key : String) (n : Int) : Prop :=
  match m with
  | actuator act => key = act.key ∧ act.Accepts n
  | sensor s => ∃ f ∈ s.fields, f.tag = key ∧ f.Accepts n

/-- A command is acceptable: it assigns something, and the model can take all of it. -/
def Acceptable (m : Model) (a : Assignment) : Prop :=
  a.entries ≠ [] ∧ ∀ e ∈ a.entries, m.CanTake e.1 e.2

/-- **What a command assigns is in place**: the setpoint of an actuator, or the targets of exactly
the fields that are named. Nothing else has changed. -/
inductive Assigned (a : Assignment) : Model → Model → Prop
  | actuator {act : Actuator} {n : Int} (h : a.entries = [(act.key, n)]) :
      Assigned a (actuator act) (actuator { act with setpoint := n })
  | sensor {s : Sensor} (h : ∀ e ∈ a.entries, ∃ f ∈ s.fields, f.tag = e.1) :
      Assigned a (sensor s) (sensor { s with
        fields := s.fields.map fun f => { f with target := (a.get? f.tag).getD f.target } })

omit [RandomSource] in
/-- Where all entries have the same key, there is only one. -/
theorem exists_entries_eq {a : Assignment} {key : String} (hne : a.entries ≠ [])
    (hkey : ∀ e ∈ a.entries, e.1 = key) : ∃ n, a.entries = [(key, n)] := by
  obtain ⟨⟨k, n⟩, es, he⟩ := List.exists_cons_of_ne_nil hne
  have hn := a.nodup
  rw [he] at hkey hn
  obtain ⟨rfl, hkey⟩ := List.forall_mem_cons.1 hkey
  obtain rfl : es = [] := by
    rw [List.eq_nil_iff_forall_not_mem]
    intro e hm
    exact (List.nodup_cons.1 hn).1 (List.mem_map.2 ⟨e, hm, hkey e hm⟩)
  exact ⟨n, he⟩

omit [RandomSource] in
/-- The value of the only key is the one that stands with it. -/
theorem get?_of_entries_eq {a : Assignment} {key : String} {n : Int} (h : a.entries = [(key, n)]) :
    a.get? key = some n :=
  Assignment.get?_eq_some_iff.2 (h ▸ List.mem_singleton_self _)

/-- The first refused entry is missing exactly if all are accepted. -/
theorem firstRefused_eq_none_iff {s : Sensor} (hs : s.LaidOut) {a : Assignment} :
    firstRefused s a = none ↔ ∀ e ∈ a.entries, (sensor s).CanTake e.1 e.2 := by
  rw [firstRefused, List.find?_eq_none]
  refine forall₂_congr fun e _ => ?_
  rw [CanTake, ← Sensor.accepts_iff hs]
  simp

/-- **An acceptable command is carried out.** -/
theorem assigned_obey {m : Model} (hm : m.LaidOut) {a : Assignment} (ha : m.Acceptable a) :
    ∃ m', (m.obey a).value = (.ok (), m') ∧ m.Assigned a m' := by
  obtain ⟨hne, htake⟩ := ha
  cases m with
  | actuator act =>
    obtain ⟨n, he⟩ := exists_entries_eq hne fun e h => (htake e h).1
    have hn : act.Accepts n := (htake (act.key, n) (he ▸ List.mem_singleton_self _)).2
    refine ⟨_, ?_, .actuator he⟩
    simp [obey, get?_of_entries_eq he, Actuator.value_request, hn]
  | sensor s =>
    have hnone := (firstRefused_eq_none_iff hm).2 htake
    have hall : ∀ e ∈ a.entries, s.accepts e.1 e.2 = true :=
      fun e h => (Sensor.accepts_iff hm).2 (htake e h)
    have hnamed : ∀ e ∈ a.entries, ∃ f ∈ s.fields, f.tag = e.1 := by
      intro e h
      obtain ⟨f, hf, ht, -⟩ := htake e h
      exact ⟨f, hf, ht⟩
    refine ⟨_, ?_, .sensor hnamed⟩
    simp only [obey, hnone, Logged.value_bind, Logged.value_pure]
    rw [Sensor.setTargets_eq hm a.nodup hall]
    rfl

/-- **Any other command is refused.** -/
theorem exists_error_of_not_acceptable {m : Model} (hm : m.LaidOut) {a : Assignment}
    (hne : a.entries ≠ []) (hkeys : ∀ e ∈ a.entries, e.1 ∈ m.keys) (ha : ¬ m.Acceptable a) :
    ∃ v, (m.obey a).value = (.error v, m) := by
  have htake : ¬ ∀ e ∈ a.entries, m.CanTake e.1 e.2 := fun h => ha ⟨hne, h⟩
  cases m with
  | actuator act =>
    obtain ⟨n, he⟩ := exists_entries_eq hne fun e h => List.mem_singleton.1 (hkeys e h)
    have hn : ¬ act.Accepts n := by
      intro hn
      refine htake fun e h => ?_
      rw [he, List.mem_singleton] at h
      subst h
      exact ⟨rfl, hn⟩
    refine ⟨⟨act.key, n⟩, ?_⟩
    simp [obey, get?_of_entries_eq he, Actuator.value_request, hn]
  | sensor s =>
    cases hf : firstRefused s a with
    | none => exact absurd ((firstRefused_eq_none_iff hm).1 hf) htake
    | some e =>
      refine ⟨⟨e.1, e.2⟩, ?_⟩
      simp only [obey, hf, Logged.value_pure]

end Model

/-! ## Explanations -/

/-- What commands can be about, in words. -/
def subjects : List String := ["temperature", "ventilation", "values"]

/-- What commands assign is one of a few things. -/
theorem Model.subject_mem (m : Model) : m.subject ∈ subjects := by
  cases m with
  | actuator a =>
    unfold subject Actuator.quantity
    dsimp only
    split <;> decide
  | sensor s => exact List.mem_cons_of_mem _ (List.mem_cons_of_mem _ (List.mem_singleton_self _))

omit [RandomSource] in
/-- There is room for an explanation. -/
theorem Reply.isSome_body_of_plain [Json.Writer] [Json.Writer.Lawful] {r : Refusal}
    (hp : Json.Plain r.explanation) (hs : r.explanation.utf8ByteSize ≤ 54) :
    (ofRefusal r).body.isSome = true := by
  have hkey : "msg".utf8ByteSize = 3 := rfl
  have hsize : (Json.compact [("msg", .text r.explanation)]).utf8ByteSize ≤ maxReply := by
    rw [Json.size_compact_singleton, Json.size_member_text, maxReply]
    omega
  have hmsg : Json.Plain "msg" := by decide
  have hplain : Json.PlainMember ("msg", .text r.explanation) := ⟨hmsg, hp⟩
  obtain ⟨text, htext, -⟩ := Json.exists_write (List.forall_mem_singleton.2 hplain) hsize
  exact Option.isSome_of_eq_some htext

/-- There is room for every explanation that a model gives. -/
theorem Reply.isSome_body [Json.Writer] [Json.Writer.Lawful] {r : Refusal} {m : Model}
    (hr : r = .empty ∨ r = .malformed ∨ r = .missing m.subject ∨ ∃ v, r = .invalid m.subject v) :
    (ofRefusal r).body.isSome = true := by
  have hall : ∀ e ∈ ["Empty PUT payload", "Malformed PUT payload"] ++
      subjects.map (fun s => s!"Missing {s}") ++ subjects.map (fun s => s!"Requested invalid {s}"),
      Json.Plain e ∧ e.utf8ByteSize ≤ 54 := by decide
  suffices he : r.explanation ∈ ["Empty PUT payload", "Malformed PUT payload"] ++
      subjects.map (fun s => s!"Missing {s}") ++
        subjects.map (fun s => s!"Requested invalid {s}") from
    isSome_body_of_plain (hall _ he).1 (hall _ he).2
  have hs := m.subject_mem
  simp only [List.mem_append, List.mem_map]
  rcases hr with rfl | rfl | rfl | ⟨v, rfl⟩
  · exact .inl (.inl (List.mem_cons_self))
  · exact .inl (.inl (List.mem_cons_of_mem _ (List.mem_singleton_self _)))
  · exact .inl (.inr ⟨_, hs, rfl⟩)
  · exact .inr ⟨_, hs, rfl⟩

/-! ## Payloads -/

omit [RandomSource] in
/-- A payload without anything in it is malformed as a command. -/
theorem Command.read_of_blank {payload : Bytes} (h : payload.all Blank.isCommand = true)
    (keys : List String) : (read payload keys).value = .malformed := by
  have hskip : skipBlanks payload = [] := List.dropWhile_eq_nil_iff.2 (List.all_eq_true.1 h)
  rw [read, pairs_of_blank hskip]
  rfl

namespace Model

/-- **How a payload is answered and what it changes.** The answer is 2.05 without a body, or 4.00 or
4.06 with one, and then nothing has changed. It is 2.05 exactly if the payload is read and what it
assigns is acceptable, and then that is in place. It is 4.06 exactly if the payload is read and what
it assigns is not acceptable. -/
structure AllOrNothing (m : Model) (payload : Bytes) (reply : Reply) (m' : Model) : Prop where
  answered : reply.code = .content ∧ reply.body = none ∨
    (reply.code = .badRequest ∨ reply.code = .notAcceptable) ∧ reply.body.isSome = true
  unchanged : reply.code ≠ .content → m' = m
  content_iff : reply.code = .content ↔
    ∃ a, (Command.read payload m.keys).value = .found a ∧ m.Acceptable a
  notAcceptable_iff : reply.code = .notAcceptable ↔
    ∃ a, (Command.read payload m.keys).value = .found a ∧ ¬ m.Acceptable a
  assigned : ∀ a, (Command.read payload m.keys).value = .found a → m.Acceptable a →
    m.Assigned a m'

/-- A payload that cannot be read is refused. -/
theorem allOrNothing_of_unread [Json.Writer] [Json.Writer.Lawful] {m : Model} {payload : Bytes}
    {r : Reply.Refusal} (hr : r = .empty ∨ r = .malformed ∨ r = .missing m.subject)
    (hread : ∀ a, (Command.read payload m.keys).value ≠ .found a) :
    m.AllOrNothing payload (.ofRefusal r) m := by
  have hcode : (Reply.ofRefusal r).code = .badRequest := by
    rcases hr with rfl | rfl | rfl <;> rfl
  have hbody : (Reply.ofRefusal r).body.isSome = true :=
    Reply.isSome_body (m := m) (by tauto)
  refine ⟨.inr ⟨.inl hcode, hbody⟩, fun _ => rfl, iff_of_false ?_ ?_, iff_of_false ?_ ?_,
    fun a ha => absurd ha (hread a)⟩
  · rw [hcode]
    decide
  · exact fun ⟨a, ha, _⟩ => hread a ha
  · rw [hcode]
    decide
  · exact fun ⟨a, ha, _⟩ => hread a ha

section

variable {m : Model} {payload : Bytes} {a : Assignment}
  (hread : (Command.read payload m.keys).value = .found a)

include hread

/-- The assignment that was found is the only one that can be found. -/
theorem eq_of_found {b : Assignment} (h : (Command.read payload m.keys).value = .found b) : b = a :=
  Command.Verdict.found.inj (h.symm.trans hread)

/-- What is read and acceptable is carried out. -/
theorem allOrNothing_of_acceptable {m' : Model} (ha : m.Acceptable a) (h : m.Assigned a m') :
    m.AllOrNothing payload .success m' := by
  refine ⟨.inl ⟨rfl, rfl⟩, fun hne => absurd rfl hne, iff_of_true rfl ⟨a, hread, ha⟩,
    iff_of_false (by decide) ?_, fun b hb _ => eq_of_found hread hb ▸ h⟩
  rintro ⟨b, hb, hn⟩
  exact hn (eq_of_found hread hb ▸ ha)

/-- What is read and not acceptable is refused. -/
theorem allOrNothing_of_not_acceptable [Json.Writer] [Json.Writer.Lawful] (ha : ¬ m.Acceptable a)
    (v : InvalidValue) :
    m.AllOrNothing payload (.ofRefusal (.invalid m.subject v)) m := by
  have hbody := Reply.isSome_body (m := m) (.inr (.inr (.inr ⟨v, rfl⟩)))
  have hnot : ∀ b, (Command.read payload m.keys).value = .found b → ¬ m.Acceptable b :=
    fun b hb => eq_of_found hread hb ▸ ha
  refine ⟨.inr ⟨.inr rfl, hbody⟩, fun _ => rfl, iff_of_false ?_ ?_, iff_of_true rfl ⟨a, hread, ha⟩,
    fun b hb hacc => absurd hacc (hnot b hb)⟩
  · exact (Reply.Refusal.invalid m.subject v).code_ne_content
  · exact fun ⟨b, hb, hacc⟩ => hnot b hb hacc

end

/-- **Commands are all or nothing**, for whatever a model has become. -/
theorem allOrNothing_put [Json.Writer] [Json.Writer.Lawful] {m : Model} (hm : m.Reachable)
    (payload : Bytes) :
    m.AllOrNothing payload (m.put payload).value.1 (m.put payload).value.2 := by
  by_cases hblank : payload.all Blank.isCommand = true
  · rw [put, if_pos hblank]
    refine allOrNothing_of_unread (.inl rfl) fun a => ?_
    rw [Command.read_of_blank hblank]
    nofun
  · rw [put, if_neg hblank, Logged.value_bind]
    cases hread : (Command.read payload m.keys).value with
    | notFound => exact allOrNothing_of_unread (.inr (.inr rfl)) (by simp [hread])
    | malformed => exact allOrNothing_of_unread (.inr (.inl rfl)) (by simp [hread])
    | found a =>
      obtain ⟨hne, hkeys⟩ := Command.entries_of_gather hread fun e he => absurd he List.not_mem_nil
      by_cases ha : m.Acceptable a
      · obtain ⟨m', ho, hassigned⟩ := assigned_obey hm.laidOut ha
        simp only [Logged.value_bind, Logged.value_pure, ho]
        exact allOrNothing_of_acceptable hread ha hassigned
      · obtain ⟨v, ho⟩ := exists_error_of_not_acceptable hm.laidOut hne hkeys ha
        simp only [Logged.value_bind, ho]
        exact allOrNothing_of_not_acceptable hread ha v

end Model

end

namespace Model

/-- A sensor for temperature, humidity and carbon dioxide. -/
def climate : Model := .sensor (.ofKind .temperatureHumidityCo2 7)

/-- Two targets, of which one is out of range. -/
def halfAcceptable : Bytes := Bytes.ofText "\x7b\"h\":60,\"c\":99\x7d"

/-- Targets for two fields, of which one is named twice and the other is to wander again. -/
def repeatedTarget : Bytes :=
  Bytes.ofText "\x7b\"h\":60,\"c\":\"0\",\"h\":\" 70\"\x7d"

/-- The climate sensor takes neither of two targets of which one is out of range. Where a field is
named twice the last target counts. -/
theorem allOrNothing_put_climate :
    climate.Reachable ∧ (climate.put halfAcceptable).value.2 = climate ∧
      ∃ a, a.entries = [("h", 70), ("c", 0)] ∧
        climate.Assigned a (climate.put repeatedTarget).value.2 := by
  have hm : climate.Reachable := .sensor _ _
  have hhalf := allOrNothing_put hm halfAcceptable
  have hrepeated := allOrNothing_put hm repeatedTarget
  obtain ⟨a, hread, ha⟩ := hrepeated.content_iff.1 (by decide +kernel)
  have hentries : (Command.read repeatedTarget climate.keys).value =
      .found ⟨[("h", 70), ("c", 0)], by decide, by decide⟩ := by decide +kernel
  refine ⟨hm, hhalf.unchanged (by decide +kernel), a, ?_, hrepeated.assigned a hread ha⟩
  rw [hread, Command.Verdict.found.injEq] at hentries
  rw [hentries]

end Model

end EdgeDevice
