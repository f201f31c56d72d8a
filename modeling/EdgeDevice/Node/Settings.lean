import EdgeDevice.Clock
import EdgeDevice.Json.Settings
import EdgeDevice.Node.Button

set_option autoImplicit false
set_option relaxedAutoImplicit false

/-!
# Settings of a node

Five periods and thresholds. None may be zero: a timer that fires again after no time would fire for
ever.

## Main definitions

* `EdgeDevice.NodeSettings` — the settings.
* `EdgeDevice.NodeSettings.check` — whether a node can run with them.
* `EdgeDevice.NodeSettings.read` — reads them from a document.
-/

namespace EdgeDevice

/-- Periods and thresholds of a node. -/
structure NodeSettings where
  /-- Seconds between two looks for connectivity. -/
  probeSeconds : Nat := 10
  /-- Seconds of quiet after a short press until the chosen period is told. -/
  configurationSeconds : Nat := 10
  /-- Milliseconds after which the light toggles while the node is connecting. -/
  blinkMillis : Nat := 500
  /-- Seconds from which on a press is long. -/
  buttonSeconds : Nat := Button.defaultThreshold
  /-- Seconds that a pending session is waited for. -/
  sessionSeconds : Nat := 30
  deriving DecidableEq

namespace NodeSettings

/-- The largest value of a field, the largest number of 32 bits. -/
def largest : Nat := 4294967295

/-- The fields of a settings document. -/
def schema : Settings.Schema :=
  [("probe_period_secs", .natural largest), ("configuration_delay_secs", .natural largest),
    ("blink_period_ms", .natural largest), ("button_threshold_secs", .natural largest),
    ("session_timeout_secs", .natural largest)]

/-- The fields with their names. -/
def fields (s : NodeSettings) : List (String × Nat) :=
  [("probe_period_secs", s.probeSeconds), ("configuration_delay_secs", s.configurationSeconds),
    ("blink_period_ms", s.blinkMillis), ("button_threshold_secs", s.buttonSeconds),
    ("session_timeout_secs", s.sessionSeconds)]

/-- Finds the first field that is zero. -/
def check (s : NodeSettings) : Except SettingsError Unit :=
  match s.fields.find? fun f => f.2 == 0 with
  | some f => .error (.invalid f.1)
  | none => .ok ()

/-- Settings with the fields of a document put over the ones given. -/
def override (s : NodeSettings) (found : List (String × Settings.Datum)) : NodeSettings where
  probeSeconds := Settings.naturalOr found "probe_period_secs" s.probeSeconds
  configurationSeconds := Settings.naturalOr found "configuration_delay_secs" s.configurationSeconds
  blinkMillis := Settings.naturalOr found "blink_period_ms" s.blinkMillis
  buttonSeconds := Settings.naturalOr found "button_threshold_secs" s.buttonSeconds
  sessionSeconds := Settings.naturalOr found "session_timeout_secs" s.sessionSeconds

/-- Reads settings; what is not there keeps its default. -/
def read [Settings.Reader] (json : Bytes) : Except SettingsError NodeSettings :=
  match Settings.Reader.read schema json with
  | none => .error .unreadable
  | some found =>
    let s := override {} found
    s.check.map fun _ => s

/-- The time between two looks for connectivity. -/
def probePeriod (s : NodeSettings) : Duration := Duration.ofSeconds s.probeSeconds

/-- The quiet after a short press until the chosen period is told. -/
def configurationDelay (s : NodeSettings) : Duration := Duration.ofSeconds s.configurationSeconds

/-- The time after which the light toggles while the node is connecting. -/
def blinkPeriod (s : NodeSettings) : Duration := Duration.ofMillis s.blinkMillis

/-- The time that a pending session is waited for. -/
def sessionTimeout (s : NodeSettings) : Duration := Duration.ofSeconds s.sessionSeconds

/-- Settings pass the check exactly if no field is zero. -/
theorem check_eq_ok_iff {s : NodeSettings} :
    s.check = .ok () ↔ 0 < s.probeSeconds ∧ 0 < s.configurationSeconds ∧ 0 < s.blinkMillis ∧
      0 < s.buttonSeconds ∧ 0 < s.sessionSeconds := by
  unfold check
  split
  · rename_i f h
    have hm := List.mem_of_find?_eq_some h
    have hz := List.find?_some h
    simp only [fields, List.mem_cons, List.not_mem_nil, or_false] at hm
    simp only [beq_iff_eq] at hz
    simp only [reduceCtorEq, false_iff]
    rcases hm with rfl | rfl | rfl | rfl | rfl <;> simp only at hz <;> omega
  · rename_i h
    have := List.find?_eq_none.1 h
    simp [fields] at this
    simp
    omega

end NodeSettings

end EdgeDevice
