import EdgeDevice.Library.Skipping
import EdgeDevice.Proofs.Node.Runs
import EdgeDevice.Session.Broker
import EdgeDevice.Session.Registrar

set_option autoImplicit false
set_option relaxedAutoImplicit false

/-!
# Settings that were read

Settings come from a document, and anybody may have written it. What a device takes from it, it can
run with: no period is nothing, and no number is larger than what the device keeps it in. The lower
bounds are checked by the device; the upper ones rest on the law of the reader, which is all that is
known about the reader.

## Main definitions

* `EdgeDevice.Settings.Follows` — the values that were found are those of known fields.

## Main results

* `EdgeDevice.NodeSettings.usable_of_read` — a node can be created with what was read, and its
  button tells short presses from long ones.
* `EdgeDevice.NodeSettings.exists_of_read_eq_invalid` — what is refused has a field that is zero.
* `EdgeDevice.BrokerSettings.usable_of_read`, `EdgeDevice.RegistrarSettings.usable_of_read` — a
  session can be asked for with what was read.
* `EdgeDevice.BrokerSettings.broker_of_read` — the broker is the one that the document names.
-/

namespace EdgeDevice

/-! ## What was found -/

namespace Settings

/-- The values that were found are those of known fields, each of the shape of its field. -/
def Follows (schema : Schema) (found : List (String × Datum)) : Prop := ∀ e ∈ found, schema.Admits e

variable {schema : Schema} {found : List (String × Datum)} {key : String}

/-- The value under a key is admitted by the shape that the schema gives for the key. -/
theorem Follows.admits_of_lookup (h : Follows schema found) {shape : Shape} {d : Datum}
    (hkey : schema.lookup key = some shape) (hd : found.lookup key = some d) : shape.Admits d := by
  obtain ⟨before, after, rfl, -⟩ := List.lookup_eq_some_iff.1 hd
  obtain ⟨shape', hkey', hadmits⟩ := h (key, d) (by simp)
  obtain rfl := Option.some.inj (hkey.symm.trans hkey')
  exact hadmits

/-- The number of a field is within the bound of the field if its default is. -/
theorem Follows.naturalOr_le (h : Follows schema found) {bound default : Nat}
    (hkey : schema.lookup key = some (.natural bound)) (hdefault : default ≤ bound) :
    naturalOr found key default ≤ bound := by
  unfold naturalOr
  split
  · rename_i n hn
    exact h.admits_of_lookup hkey hn
  · exact hdefault

/-- There is room for a text that was found, so that no default takes its place. -/
theorem Follows.string_textOr (h : Follows schema found) {capacity : Nat} {s : String}
    (hkey : schema.lookup key = some (.text capacity)) (hs : found.lookup key = some (.text s))
    (default : Text capacity) : (textOr found key default).string = s := by
  have hroom : s.utf8ByteSize ≤ capacity := h.admits_of_lookup hkey hs
  rw [textOr, hs]
  dsimp only
  rw [Text.ofString?_of_le hroom, Option.getD_some]

end Settings

open Settings

/-! ## Settings of a node -/

namespace NodeSettings

/-- Settings over which values that follow the schema were put have no field beyond 32 bits, if they
had none before. -/
theorem le_largest_of_follows {s : NodeSettings} {found : List (String × Datum)}
    (h : Follows schema found) (hs : ∀ f ∈ s.fields, f.2 ≤ largest) :
    ∀ f ∈ (s.override found).fields, f.2 ≤ largest := by
  simp only [fields, List.forall_mem_cons] at hs ⊢
  obtain ⟨hprobe, hconfiguration, hblink, hbutton, hsession, -⟩ := hs
  exact ⟨h.naturalOr_le rfl hprobe, h.naturalOr_le rfl hconfiguration, h.naturalOr_le rfl hblink,
    h.naturalOr_le rfl hbutton, h.naturalOr_le rfl hsession, List.forall_mem_nil _⟩

section

variable [Reader] {json : Bytes} {s : NodeSettings}

/-- What is read is what was found, put over the defaults, if that passes the check. -/
theorem read_eq_ok_iff : read json = .ok s ↔
    ∃ found, Reader.read schema json = some found ∧ override {} found = s ∧ s.check = .ok () := by
  unfold read
  cases Reader.read schema json with
  | none => simp
  | some found =>
    simp only [Option.some.injEq, exists_eq_left']
    cases hc : (override {} found).check with
    | error e =>
      simp only [Except.map, reduceCtorEq, false_iff, not_and]
      rintro rfl hs
      simp [hc] at hs
    | ok u =>
      simp only [Except.map, Except.ok.injEq]
      exact ⟨fun h => ⟨h, h ▸ hc⟩, And.left⟩

/-- **What is refused is named**: the field in the error is zero in what was found, put over the
defaults. -/
theorem exists_of_read_eq_invalid {name : String} (h : read json = .error (.invalid name)) :
    ∃ found, Reader.read schema json = some found ∧ (name, 0) ∈ (override {} found).fields := by
  unfold read at h
  cases hf : Reader.read schema json with
  | none => simp [hf] at h
  | some found =>
    refine ⟨found, rfl, ?_⟩
    simp only [hf, check] at h
    split at h
    · rename_i f hfind
      obtain rfl : f.1 = name := by simpa [Except.map] using h
      have hzero : f.2 = 0 := by simpa using List.find?_some hfind
      rw [← hzero]
      exact List.mem_of_find?_eq_some hfind
    · simp [Except.map] at h

/-- **A device can run with what it reads**, whatever the document is: a node is created with it, no
field is beyond 32 bits, and the button can count up to the threshold of a long press. -/
theorem usable_of_read [Reader.Lawful] [RandomSource] {σ : Type} (h : read json = .ok s)
    (identity : Identity) (channel : σ) :
    (∃ n, Node.create identity channel s = .ok n) ∧ (∀ f ∈ s.fields, f.2 ≤ largest) ∧
      s.buttonSeconds ≤ Button.maxElapsed := by
  obtain ⟨found, hfound, rfl, hcheck⟩ := read_eq_ok_iff.1 h
  have hdefault : ∀ f ∈ ({} : NodeSettings).fields, f.2 ≤ largest := by decide
  have hfields := le_largest_of_follows (Reader.Lawful.admits_of_read hfound) hdefault
  refine ⟨Node.exists_create identity channel hcheck, hfields, ?_⟩
  exact hfields ("button_threshold_secs", _) (by simp [fields])

end

/-- A document may leave fields out, and it may have fields that nobody knows. -/
example : (read (Bytes.ofText "\x7b\"blink_period_ms\": 250, \"colour\": [1]\x7d")).toOption =
    some { blinkMillis := 250 } := by decide +kernel

end NodeSettings

/-! ## Settings of the protocols -/

namespace BrokerSettings

variable [Reader] {json : Bytes} {s : BrokerSettings}

/-- What is read has a broker and a period for the signs of life, which are those that were found or
their defaults. -/
theorem exists_of_read_eq_ok (h : read json = .ok s) :
    let default : BrokerSettings := {}
    ∃ found, Reader.read schema json = some found ∧ s.broker.string ≠ "" ∧
      s.broker = textOr found "broker" default.broker ∧ s.keepAliveSeconds ≠ 0 ∧
      s.keepAliveSeconds = naturalOr found "keep_alive_secs" default.keepAliveSeconds := by
  unfold read at h
  cases hfound : Reader.read schema json with
  | none => simp [hfound] at h
  | some found =>
    simp only [hfound] at h
    split at h
    · cases h
    · rename_i hbroker
      split at h
      · cases h
      · rename_i hperiod
        obtain rfl := Except.ok.inj h
        exact ⟨found, rfl, hbroker, rfl, hperiod, rfl⟩

/-- A broker that the document names is the one that is used. -/
theorem broker_of_read [Reader.Lawful] (h : read json = .ok s) {found : List (String × Datum)}
    (hfound : Reader.read schema json = some found) {broker : String}
    (hbroker : found.lookup "broker" = some (.text broker)) : s.broker.string = broker := by
  obtain ⟨found', hfound', -, hs, -⟩ := exists_of_read_eq_ok h
  obtain rfl := Option.some.inj (hfound.symm.trans hfound')
  rw [hs]
  exact Follows.string_textOr (Reader.Lawful.admits_of_read hfound) rfl hbroker _

/-- **A session can be asked for with what was read**: there is a broker, and it is told the period
of the signs of life as it was read, which is not nothing. -/
theorem usable_of_read [Reader.Lawful] (h : read json = .ok s) {d : Identity}
    {options : Mqtt.Options} (ho : s.options d = .ok options) :
    s.broker.string ≠ "" ∧ options.keepAlive.toNat = s.keepAliveSeconds ∧
      0 < s.keepAliveSeconds := by
  obtain ⟨found, hfound, hbroker, -, hzero, hperiod⟩ := exists_of_read_eq_ok h
  have hle : s.keepAliveSeconds ≤ 65535 := by
    rw [hperiod]
    exact Follows.naturalOr_le (Reader.Lawful.admits_of_read hfound) rfl (by decide)
  have hkeepAlive : options.keepAlive = UInt16.ofNat s.keepAliveSeconds := by
    unfold BrokerSettings.options Mqtt.Options.of at ho
    split at ho
    · obtain rfl := Except.ok.inj ho
      rfl
    · cases ho
  refine ⟨hbroker, ?_, Nat.pos_of_ne_zero hzero⟩
  rw [hkeepAlive, UInt16.toNat_ofNat']
  exact Nat.mod_eq_of_lt (Nat.lt_succ_of_le hle)

end BrokerSettings

/-- **A request can be made with what was read**: its answer is waited for for some time. -/
theorem RegistrarSettings.usable_of_read [Reader] {json : Bytes} {s : RegistrarSettings}
    (h : read json = .ok s) : 0 < s.patience.millis := by
  unfold read at h
  split at h
  · cases h
  · dsimp only at h
    split at h
    · cases h
    · rename_i hzero
      obtain rfl := Except.ok.inj h
      rw [patience, Duration.millis_ofSeconds]
      dsimp only
      omega

end EdgeDevice
