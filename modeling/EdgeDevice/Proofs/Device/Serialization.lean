import EdgeDevice.Proofs.Device.Saturation
import EdgeDevice.Proofs.Session.Bodies

set_option autoImplicit false
set_option relaxedAutoImplicit false

/-!
# What is written of a value can be read back

The written value of a device is made for two readers. A server reads the id and then the values,
member by member. The scan for commands reads the same text: the values stand under the keys that
commands use, so that what a device publishes could be sent back to it as a command.

There is room for the longest values. An id takes sixteen digits at most, a value ten and a sign,
and no device has more than three values.

## Main definitions

* `EdgeDevice.Model.values` — the present values under their keys.
* `EdgeDevice.Model.Proper` — a model as it is built for its kind, whatever values it holds.
* `EdgeDevice.Model.Legible` — the present values can be read back.

## Main results

* `EdgeDevice.Command.gather_values` — values under different known keys are all gathered.
* `EdgeDevice.Model.size_document_le` — there is room for what is written.
* `EdgeDevice.Model.legible` — what is written can be read back.
-/

namespace EdgeDevice

/-! ## What is gathered -/

namespace Command

/-- A value under a new key stands behind the others, where there is room. -/
theorem Assignment.exists_set {a : Assignment} {key : String} (hk : key ∉ a.entries.map Prod.fst)
    (hroom : a.entries.length < 3) (n : Int) :
    ∃ a', a.set key n = pure a' ∧ a'.entries = a.entries ++ [(key, n)] := by
  rw [set, dif_neg hk, dif_pos hroom]
  exact ⟨_, rfl, rfl⟩

/-- **Values under different known keys are all gathered**, as long as there are at most three. -/
theorem gather_values {keys : List String} {a : Assignment} {es : List (String × Int)}
    (hsome : a.entries ++ es ≠ []) (hroom : (a.entries ++ es).length ≤ 3)
    (hn : ((a.entries ++ es).map Prod.fst).Nodup) (hk : ∀ e ∈ es, e.1 ∈ keys)
    (hfit : ∀ e ∈ es, Decimal.lowest ≤ e.2 ∧ e.2 ≤ Decimal.highest) :
    ∃ b, gather keys (es.map fun e => .pair e.1 (.integer e.2)) a = pure (.found b) ∧
      b.entries = a.entries ++ es := by
  induction es generalizing a with
  | nil =>
    rw [List.append_nil] at hsome
    rw [List.map_nil, gather, Assignment.isEmpty, if_neg (by simpa using hsome)]
    exact ⟨a, rfl, (List.append_nil _).symm⟩
  | cons e es ih =>
    obtain ⟨hke, hk⟩ := List.forall_mem_cons.1 hk
    obtain ⟨hfe, hfit⟩ := List.forall_mem_cons.1 hfit
    have hnew : e.1 ∉ a.entries.map Prod.fst := by
      rw [List.map_append, List.nodup_append] at hn
      exact fun hmem => hn.2.2 _ hmem _ List.mem_cons_self rfl
    rw [List.length_append, List.length_cons] at hroom
    obtain ⟨a', hset, ha'⟩ := a.exists_set hnew (by omega) e.2
    have hsplit : a'.entries ++ es = a.entries ++ e :: es := by
      rw [ha', List.append_assoc]
      rfl
    obtain ⟨b, hb, hentries⟩ := ih (a := a') (hsplit ▸ hsome)
      (by rw [hsplit, List.length_append]; exact hroom) (hsplit ▸ hn) hk hfit
    refine ⟨b, ?_, hentries.trans hsplit⟩
    rw [List.map_cons, gather, if_pos (List.contains_iff_mem.2 hke), Value.integer?,
      Decimal.clamp_of_le hfe.1 hfe.2]
    simp only [hset, pure_bind]
    exact hb

end Command

/-! ## The values of a model -/

section

variable [RandomSource]

namespace Model

variable {m : Model}

/-- The present values under their keys: the setpoint of an actuator, the readings of a sensor. -/
def values : Model → List (String × Int)
  | actuator a => [(a.key, a.setpoint)]
  | sensor s => s.fields.map fun f => (f.tag, f.reading)

/-- **A model as it is built for its kind**, whatever values it holds. A sensor has the fields of
its kind, and its kind is one that measures. -/
structure Proper (m : Model) : Prop where
  laidOut : m.LaidOut
  measures : m.isSensor = true → m.kind.isActuator = false

/-- A model that is built for a kind is proper. -/
theorem proper_ofKind (kind : Kind) (seed : UInt64) : (ofKind kind seed).Proper := by
  unfold ofKind
  split
  · exact ⟨trivial, fun h => absurd h Bool.false_ne_true⟩
  · rename_i hk
    exact ⟨Sensor.laidOut_ofKind kind seed, fun _ => Bool.eq_false_iff.2 hk⟩

/-- The values stand under the keys that commands use. -/
theorem map_fst_values (m : Model) : m.values.map Prod.fst = m.keys := by
  cases m with
  | actuator a => rfl
  | sensor s => exact List.map_map

/-- A present value stands under a key that commands can assign. -/
theorem fst_mem_keys {e : String × Int} (he : e ∈ m.values) : e.1 ∈ m.keys := by
  rw [← map_fst_values]
  exact List.mem_map_of_mem he

/-- What is written behind the id are the values. -/
theorem readings_eq (m : Model) : m.readings = m.values.map fun e => (e.1, .number e.2) := by
  cases m with
  | actuator a => rfl
  | sensor s =>
    rw [values, List.map_map]
    rfl

/-- Every device has a value. -/
theorem Proper.values_ne_nil (h : m.Proper) : m.values ≠ [] := by
  cases m with
  | actuator a => exact List.cons_ne_nil _ _
  | sensor s =>
    have htags := h.laidOut.tags_eq
    have hkind : s.kind.isActuator = false := h.measures rfl
    intro hnil
    rw [List.map_eq_nil_iff.1 hnil] at htags
    cases hk : s.kind <;> rw [hk] at htags hkind <;> contradiction

/-- What the keys of a model have in common: none is the key of the id. -/
theorem LaidOut.forall_mem_keys (h : m.LaidOut) :
    ∀ k ∈ m.keys, Json.Plain k ∧ k.utf8ByteSize ≤ 2 ∧ k ≠ "i" := by
  cases m with
  | actuator a =>
    intro k hk
    obtain rfl := List.mem_singleton.1 hk
    unfold Actuator.key
    split <;> decide
  | sensor s =>
    rw [Model.keys, Sensor.LaidOut.tags_eq h]
    cases s.kind <;> decide

/-- No device has more than three values. -/
theorem LaidOut.length_values_le (h : m.LaidOut) : m.values.length ≤ 3 := by
  have hkeys := h.length_keys_le
  rwa [← map_fst_values, List.length_map] at hkeys

/-- The keys of a model are different ones. -/
theorem LaidOut.nodup_keys (h : m.LaidOut) : m.keys.Nodup := by
  cases m with
  | actuator a => exact List.nodup_singleton _
  | sensor s => exact Sensor.LaidOut.nodup h

/-! ## What is written -/

section

variable (hm : m.LaidOut)
  (hv : ∀ e ∈ m.values, Decimal.lowest ≤ e.2 ∧ e.2 ≤ Decimal.highest) (d : Identity)

include hm hv

/-- **There is room for what is written.** -/
theorem size_document_le : (m.document d).utf8ByteSize ≤ maxReading := by
  have hmember : ∀ r ∈ m.readings, (Json.member r).utf8ByteSize ≤ 16 := by
    rw [readings_eq]
    intro r hr
    obtain ⟨e, he, rfl⟩ := List.mem_map.1 hr
    obtain ⟨-, hkey, -⟩ := hm.forall_mem_keys e.1 (fst_mem_keys he)
    have hvalue := size_integer_le (hv e he).1 (hv e he).2
    rw [Json.size_member_number]
    omega
  have hlength : m.readings.length ≤ 3 := by
    rw [readings_eq, List.length_map]
    exact hm.length_values_le
  have hid := d.size_member_id
  have hsize := Json.size_compact_le (m := ("i", .text d.hexId)) hmember
  unfold document maxReading
  omega

/-- Nothing of what is written has to be escaped, and no number in it is too large for a scan. -/
theorem readable_document :
    ∀ r ∈ ("i", Json.Scalar.text d.hexId) :: m.readings, Json.Readable r := by
  rw [List.forall_mem_cons, readings_eq]
  refine ⟨Json.readable_text (by decide) d.plain_hexId, fun r hr => ?_⟩
  obtain ⟨e, he, rfl⟩ := List.mem_map.1 hr
  have hfits : Decimal.Fits e.2 :=
    ⟨Int.le_trans (by decide) (hv e he).1, Int.le_trans (hv e he).2 (by decide)⟩
  exact Json.readable_number (hm.forall_mem_keys e.1 (fst_mem_keys he)).1 hfits

/-- A scan yields the id and the values. -/
theorem carries_serialize : Carries (m.serialize d)
    (("i", .text d.hexId) :: m.values.map fun e => (e.1, .integer e.2)) := by
  have hroom := size_document_le hm hv d
  have htext : (⟨m.document d, hroom⟩ : Text maxReading).string =
      Json.compact (("i", .text d.hexId) :: m.readings) := rfl
  have h := carries_of_compact htext (readable_document hm hv d)
  have hviews : m.readings.map Json.view = m.values.map fun e => (e.1, .integer e.2) := by
    rw [readings_eq, List.map_map]
    rfl
  rw [serialize, Text.ofString?_of_le hroom]
  rwa [List.map_cons, hviews] at h

end

/-- **The present values can be read back.** A scan of what is written yields the id and then the
values in their order, and nothing else; the id, read in base sixteen, is the node id; and as a
command what is written assigns to every key the value that it has. -/
structure Legible (m : Model) (d : Identity) : Prop where
  carried : Carries (m.serialize d)
    (("i", .text d.hexId) :: m.values.map fun e => (e.1, .integer e.2))
  nodeId : Hexadecimal.natural? d.hexId.toList = some d.nodeId.toNat
  found : ∀ text, m.serialize d = some text →
    ∃ a, Command.read text.bytes m.keys = pure (.found a) ∧ a.entries = m.values

/-- **What is written can be read back**, for every device and all values of 32 bits. -/
theorem legible (hm : m.Proper)
    (hv : ∀ e ∈ m.values, Decimal.lowest ≤ e.2 ∧ e.2 ≤ Decimal.highest) (d : Identity) :
    m.Legible d where
  carried := carries_serialize hm.laidOut hv d
  nodeId := Hexadecimal.natural?_hexadecimal _
  found := by
    intro text htext
    obtain ⟨text', htext', hpairs⟩ := carries_serialize hm.laidOut hv d
    obtain rfl := Option.some.inj (htext.symm.trans htext')
    have hid : "i" ∉ m.keys := fun hi => (hm.laidOut.forall_mem_keys "i" hi).2.2 rfl
    have hnodup : (m.values.map Prod.fst).Nodup := by
      rw [map_fst_values]
      exact hm.laidOut.nodup_keys
    obtain ⟨a, hgather, hentries⟩ := Command.gather_values (a := .empty) hm.values_ne_nil
      hm.laidOut.length_values_le hnodup (fun _ he => fst_mem_keys he) hv
    refine ⟨a, ?_, hentries⟩
    rw [Command.read, hpairs, List.map_cons, List.map_map, Command.gather,
      if_neg (mt List.contains_iff_mem.1 hid)]
    exact hgather

end Model

end

namespace Model

/-- A counter with the most extreme readings, and the longest id. -/
theorem legible_counter :
    let m : Model := .sensor ⟨.counter, [⟨"in", 0, 65535, -2147483648, 0⟩,
      ⟨"o", 0, 65535, 2147483647, 12⟩], .seed 7⟩
    let d : Identity := ⟨.replicate 8 255, .counter⟩
    m.Proper ∧ (∀ e ∈ m.values, Decimal.lowest ≤ e.2 ∧ e.2 ≤ Decimal.highest) ∧
      m.document d = "\x7b\"i\":\"ffffffffffffffff\",\"in\":-2147483648,\"o\":2147483647\x7d" ∧
      m.Legible d := by
  intro m d
  have hm : m.Proper := ⟨rfl, fun _ => rfl⟩
  have hv : ∀ e ∈ m.values, Decimal.lowest ≤ e.2 ∧ e.2 ≤ Decimal.highest := by decide
  have hdocument : m.document d =
      "\x7b\"i\":\"ffffffffffffffff\",\"in\":-2147483648,\"o\":2147483647\x7d" := by decide +kernel
  exact ⟨hm, hv, hdocument, legible hm hv d⟩

end Model

end EdgeDevice
