import EdgeDevice.Library.Escaping
import EdgeDevice.Library.Skipping
import EdgeDevice.Library.Xoshiro
import EdgeDevice.Session.Registrar

set_option autoImplicit false
set_option relaxedAutoImplicit false

/-!
# Simulated counterparts

A scripted channel answers every action as it was told to and records the actions. A scripted server
answers one request after another from a list and records the requests. The device that faces them
is a thermostat. It takes its random numbers from `EdgeDevice.Xoshiro`, and it writes and reads JSON
by `EdgeDevice.Json.Escaping` and `EdgeDevice.Settings.Skipping`.

## Main definitions

* `EdgeDevice.ScriptedChannel` — a channel that follows a script.
* `EdgeDevice.ScriptedServer` — a server that follows a script.
* `EdgeDevice.thermostat` — a device.
-/

namespace EdgeDevice

/-- An action on a channel. -/
inductive ChannelCall where
  | openSession (address : String) (period : Nat)
  | keepAlive (address : String) (period : Nat)
  | configure (address : String) (period : Nat)
  | publish (address : String) (period : Nat) (reading : Bytes)
  | abandon
  deriving DecidableEq

/-- A channel that follows a script. -/
structure ScriptedChannel where
  opening : Progress := .resolved .accepted
  keepingAlive : Outcome := .accepted
  configuring : Outcome := .accepted
  publishing : Outcome := .accepted
  announces : Bool := false
  /-- The changes to report, the next one in front. -/
  changes : List SessionChange := []
  /-- The actions so far, the first one in front. -/
  calls : List ChannelCall := []
  deriving DecidableEq

namespace ScriptedChannel

/-- Records an action. -/
def record (c : ScriptedChannel) (call : ChannelCall) : ScriptedChannel :=
  { c with calls := c.calls ++ [call] }

/-- Reports the next change. -/
def nextChange (c : ScriptedChannel) : Option SessionChange × ScriptedChannel :=
  match c.changes with
  | [] => (none, c)
  | change :: changes => (some change, { c with changes := changes })

instance : Channel ScriptedChannel where
  openSession c ctx :=
    return (c.opening, c.record (.openSession ctx.address.string ctx.period))
  keepAlive c ctx :=
    return (c.keepingAlive, c.record (.keepAlive ctx.address.string ctx.period))
  configure c ctx :=
    return (c.configuring, c.record (.configure ctx.address.string ctx.period))
  publish c ctx reading :=
    return (c.publishing, c.record (.publish ctx.address.string ctx.period reading))
  nextChange c := return c.nextChange
  abandon c := return c.record .abandon
  announces c := c.announces
  backlog c := c.changes.length
  backlog_openSession_le _ _ := Nat.le_refl _
  backlog_keepAlive_le _ _ := Nat.le_refl _
  backlog_configure_le _ _ := Nat.le_refl _
  backlog_publish_le _ _ _ := Nat.le_refl _
  backlog_abandon_le _ := Nat.le_refl _
  backlog_nextChange_le c := by
    simp only [Logged.value_pure, nextChange]
    split <;> simp_all
  backlog_nextChange_lt {c c' change} h := by
    simp only [Logged.value_pure, nextChange] at h
    split at h <;> simp only [Prod.mk.injEq, Option.some.injEq, reduceCtorEq, false_and] at h
    obtain ⟨-, rfl⟩ := h
    simp_all

end ScriptedChannel

/-- A server that follows a script. -/
structure ScriptedServer where
  /-- The answers, the next one in front; without one a request gets no answer in time. -/
  answers : List (Except NetError Coap.Code) := []
  /-- The requests so far with the time each would have waited, the first one in front. -/
  requests : List (String × Bytes × Duration) := []

instance : Requester ScriptedServer where
  post s path body patience :=
    let requests := s.requests ++ [(path, body, patience)]
    match s.answers with
    | [] => (.error .timeout, { s with requests := requests })
    | answer :: answers => (answer, ⟨answers, requests⟩)

/-- A thermostat, with the link address 00124b00060d9a01. -/
def thermostat : Identity :=
  ⟨#v[0x00, 0x12, 0x4b, 0x00, 0x06, 0x0d, 0x9a, 0x01], .temperatureActuator⟩

end EdgeDevice
