import EdgeDevice.Json.Object
import EdgeDevice.Json.Settings
import EdgeDevice.Mqtt.Client
import EdgeDevice.Session.Channel

set_option autoImplicit false
set_option relaxedAutoImplicit false

/-!
# Sessions over a broker

The device opens a session with a broker and publishes the chosen period and its readings. The
broker answers later, so opening a session is left pending until a change of the session is found
among what the broker sends.

## Main definitions

* `EdgeDevice.BrokerSettings` — the broker and what it is told.
* `EdgeDevice.BrokerSession` — the protocol, with its instance of `Channel`.
* `EdgeDevice.BrokerSession.configuration?` — what tells the chosen period.
* `EdgeDevice.BrokerSession.nextChange` — the next change of the session.

## Main results

* `EdgeDevice.BrokerSession.backlog_nextChange_lt` — a change that is reported has used up some of
  what the broker can send.
-/

namespace EdgeDevice

/-- The longest topic of the chosen period. -/
def maxConfigurationTopic : Nat := 32

/-- The broker and what it is told. -/
structure BrokerSettings where
  /-- The address of the broker. -/
  broker : Text Mqtt.maxBroker := ⟨"[fd00::1]:1883", by decide⟩
  /-- The topic on which the chosen period is published. -/
  configurationTopic : Text maxConfigurationTopic := ⟨"configuration", by decide⟩
  /-- Seconds after which the broker gives up on a silent device. -/
  keepAliveSeconds : Nat := 90
  deriving DecidableEq

namespace BrokerSettings

/-- The fields of a settings document. -/
def schema : Settings.Schema :=
  [("broker", .text Mqtt.maxBroker), ("configuration_topic", .text maxConfigurationTopic),
    ("keep_alive_secs", .natural 65535)]

/-- Reads settings; what is not there keeps its default. -/
def read [Settings.Reader] (json : Bytes) : Except SettingsError BrokerSettings :=
  match Settings.Reader.read schema json with
  | none => .error .unreadable
  | some found =>
    let default : BrokerSettings := {}
    let s : BrokerSettings :=
      { broker := Settings.textOr found "broker" default.broker
        configurationTopic := Settings.textOr found "configuration_topic" default.configurationTopic
        keepAliveSeconds := Settings.naturalOr found "keep_alive_secs" default.keepAliveSeconds }
    if s.broker.string = "" then .error (.invalid "broker")
    else if s.keepAliveSeconds = 0 then .error (.invalid "keep_alive_secs")
    else .ok s

/-- What a device asks the broker for a session with. -/
def options (s : BrokerSettings) (d : Identity) : Except NetError Mqtt.Options :=
  Mqtt.Options.of d.clientId (UInt16.ofNat s.keepAliveSeconds)

end BrokerSettings

/-- Sessions over a broker. -/
structure BrokerSession (τ : Type) where
  client : Mqtt.Client τ
  settings : BrokerSettings

namespace BrokerSession

/-- The longest message about the chosen period. -/
def maxBody : Nat := 64

/-- What a broker is told about the chosen period. -/
def configuration (ctx : SessionContext) : List (String × Json.Scalar) :=
  [("i", .text ctx.identity.hexId), ("t", .text ctx.identity.tag), ("s", .number ctx.period)]

/-- What tells the chosen period. -/
def configuration? [Json.Writer] (ctx : SessionContext) : Option (Text maxBody) :=
  Json.Writer.write maxBody (configuration ctx)

/-- What is handed to the broker. -/
inductive Purpose where
  | ping
  | configuration
  | reading
  deriving DecidableEq

/-- A purpose by its name. -/
def Purpose.name : Purpose → String
  | ping => "Ping"
  | configuration => "Configuration"
  | reading => "Reading"

/-- What a session over a broker remarks on. -/
inductive Remark where
  /-- A session was asked for. -/
  | connecting (broker : String)
  /-- No session could be asked for. -/
  | unreachable (broker : String) (e : NetError)
  /-- Something was handed to the broker. -/
  | submitted (p : Purpose)
  /-- Something could not be handed to the broker. -/
  | notSubmitted (p : Purpose) (e : NetError)
  /-- The device has no readings to publish. -/
  | noReadings (tag : String)
  /-- The broker granted the session. -/
  | granted
  /-- The broker refused the session. -/
  | refused (reason : UInt8)
  /-- The connection is lost. -/
  | lost
  /-- Somebody published a message. -/
  | ignored (topic : String)
  /-- A packet made no sense. -/
  | discarded (e : NetError)

instance : Loggable Remark where
  entry
    | .connecting broker => ⟨.info, s!"Connecting to broker {broker}"⟩
    | .unreachable broker e => ⟨.warn, "Cannot reach broker " ++ broker ++ ": " ++ e.message⟩
    | .submitted p => ⟨.debug, p.name ++ " submitted"⟩
    | .notSubmitted p e => ⟨.warn, p.name ++ " not submitted: " ++ e.message⟩
    | .noReadings tag => ⟨.warn, s!"{tag} nodes publish no readings"⟩
    | .granted => ⟨.info, "Broker accepted the session"⟩
    | .refused reason =>
      ⟨.warn, "Broker refused the session (return code " ++ toString reason.toNat ++ ")"⟩
    | .lost => ⟨.warn, "Broker connection lost"⟩
    | .ignored topic => ⟨.debug, s!"Ignoring message on {topic}"⟩
    | .discarded e => ⟨.warn, "Discarding broker packet: " ++ e.message⟩

variable {τ : Type} [DialLink τ]

/-- What handing something to the broker comes to. -/
def submit (p : Purpose) : Except NetError Unit → Logged Outcome
  | .ok () => do
    Logged.remark (Remark.submitted p)
    return .accepted
  | .error e => do
    Logged.remark (Remark.notSubmitted p e)
    return .rejected

/-- Asks the broker for a session. -/
def openSession (b : BrokerSession τ) : Logged (Progress × BrokerSession τ) :=
  match b.client.connect with
  | (.ok (), c) => do
    Logged.remark (Remark.connecting b.settings.broker.string)
    return (.pending, { b with client := c })
  | (.error e, c) => do
    Logged.remark (Remark.unreachable b.settings.broker.string e)
    return (.resolved .rejected, { b with client := c })

/-- Gives the broker a sign of life. -/
def keepAlive (b : BrokerSession τ) : Logged (Outcome × BrokerSession τ) := do
  let (result, c) := b.client.ping
  return (← submit .ping result, { b with client := c })

/-- Publishes the chosen period. -/
def configure [Json.Writer] (b : BrokerSession τ) (ctx : SessionContext) :
    Logged (Outcome × BrokerSession τ) :=
  match configuration? ctx with
  | none => do return (← submit .configuration (.error .bufferOverflow), b)
  | some body => do
    let (result, c) :=
      b.client.publish b.settings.configurationTopic.string body.bytes .atMostOnce
    return (← submit .configuration result, { b with client := c })

/-- Publishes a reading. -/
def publish (b : BrokerSession τ) (ctx : SessionContext) (reading : Bytes) :
    Logged (Outcome × BrokerSession τ) :=
  match ctx.identity.kind.topic? with
  | none => do
    Logged.remark (Remark.noReadings ctx.identity.tag)
    return (.rejected, b)
  | some topic => do
    let (result, c) := b.client.publish topic reading .atMostOnce
    return (← submit .reading result, { b with client := c })

/-- The next change of the session. Messages that others published are passed over; a packet that
makes no sense, or one that says nothing to the device, ends the search. -/
def nextChange (b : BrokerSession τ) : Logged (Option SessionChange × BrokerSession τ) :=
  match h : b.client.poll with
  | (.ok (some .connected), c) => do
    Logged.remark Remark.granted
    return (some .connected, { b with client := c })
  | (.ok (some (.refused reason)), c) => do
    Logged.remark (Remark.refused reason)
    return (some .disconnected, { b with client := c })
  | (.ok (some .disconnected), c) => do
    Logged.remark Remark.lost
    return (some .disconnected, { b with client := c })
  | (.ok (some (.published p)), c) => do
    have := Mqtt.Client.backlog_poll_lt h
    Logged.remark (Remark.ignored p.topic.string)
    nextChange { b with client := c }
  | (.ok none, c) => return (none, { b with client := c })
  | (.error e, c) => do
    Logged.remark (Remark.discarded e)
    return (none, { b with client := c })
termination_by Link.backlog b.client.link

/-- How much the broker can still send. -/
def backlog (b : BrokerSession τ) : Nat := Link.backlog b.client.link

/-- Asking for a session adds nothing to what the broker can send. -/
theorem backlog_openSession_le (b : BrokerSession τ) :
    b.openSession.value.2.backlog ≤ b.backlog := by
  have h := Mqtt.Client.backlog_connect_le b.client
  unfold openSession
  split <;> rename_i he <;> rw [he] at h <;> exact h

/-- A sign of life adds nothing to what the broker can send. -/
theorem backlog_keepAlive_le (b : BrokerSession τ) : b.keepAlive.value.2.backlog ≤ b.backlog :=
  Mqtt.Client.backlog_ping_le b.client

/-- Publishing the chosen period adds nothing to what the broker can send. -/
theorem backlog_configure_le [Json.Writer] (b : BrokerSession τ) (ctx : SessionContext) :
    (b.configure ctx).value.2.backlog ≤ b.backlog := by
  unfold configure
  split
  · exact Nat.le_refl _
  · exact Mqtt.Client.backlog_publish_le b.client ..

/-- Publishing a reading adds nothing to what the broker can send. -/
theorem backlog_publish_le (b : BrokerSession τ) (ctx : SessionContext) (reading : Bytes) :
    (b.publish ctx reading).value.2.backlog ≤ b.backlog := by
  unfold publish
  split
  · exact Nat.le_refl _
  · exact Mqtt.Client.backlog_publish_le b.client ..

/-- A poll of the client adds nothing to what the broker can send. -/
theorem backlog_le_of_poll {b : BrokerSession τ} {c : Mqtt.Client τ}
    {r : Except NetError (Option Mqtt.Notification)} (h : b.client.poll = (r, c)) :
    Link.backlog c.link ≤ b.backlog := by
  have := Mqtt.Client.backlog_poll_le b.client
  rwa [h] at this

/-- A search for a change adds nothing to what the broker can send. -/
theorem backlog_nextChange_le (b : BrokerSession τ) : b.nextChange.value.2.backlog ≤ b.backlog := by
  fun_induction nextChange b with
  | case1 b c h => exact backlog_le_of_poll h
  | case2 b reason c h => exact backlog_le_of_poll h
  | case3 b c h => exact backlog_le_of_poll h
  | case4 b p c h _ ih => exact Nat.le_trans ih (backlog_le_of_poll h)
  | case5 b c h => exact backlog_le_of_poll h
  | case6 b e c h => exact backlog_le_of_poll h

/-- A change that is reported has used up some of what the broker can send. -/
theorem backlog_nextChange_lt {b b' : BrokerSession τ} {change : SessionChange}
    (h : b.nextChange.value = (some change, b')) : b'.backlog < b.backlog := by
  fun_induction nextChange b generalizing b' with
  | case1 b c hp =>
    obtain ⟨-, rfl⟩ := Prod.mk.injEq .. ▸ h
    exact Mqtt.Client.backlog_poll_lt hp
  | case2 b reason c hp =>
    obtain ⟨-, rfl⟩ := Prod.mk.injEq .. ▸ h
    exact Mqtt.Client.backlog_poll_lt hp
  | case3 b c hp =>
    obtain ⟨-, rfl⟩ := Prod.mk.injEq .. ▸ h
    exact Mqtt.Client.backlog_poll_lt hp
  | case4 b p c hp _ ih => exact Nat.lt_trans (ih h) (Mqtt.Client.backlog_poll_lt hp)
  | case5 b c hp => simp at h
  | case6 b e c hp => simp at h

instance [Json.Writer] : Channel (BrokerSession τ) where
  openSession b _ := b.openSession
  keepAlive b _ := b.keepAlive
  configure b ctx := b.configure ctx
  publish b ctx reading := b.publish ctx reading
  nextChange b := b.nextChange
  abandon b := return { b with client := b.client.disconnect }
  announces _ := true
  backlog := backlog
  backlog_openSession_le b _ := backlog_openSession_le b
  backlog_keepAlive_le b _ := backlog_keepAlive_le b
  backlog_configure_le := backlog_configure_le
  backlog_publish_le := backlog_publish_le
  backlog_abandon_le b := Mqtt.Client.backlog_disconnect_le b.client
  backlog_nextChange_le := backlog_nextChange_le
  backlog_nextChange_lt := backlog_nextChange_lt

end BrokerSession

end EdgeDevice
