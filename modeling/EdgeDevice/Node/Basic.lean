import EdgeDevice.Command.Resource
import EdgeDevice.Node.Event
import EdgeDevice.Node.PeriodDial
import EdgeDevice.Node.Settings

set_option autoImplicit false
set_option relaxedAutoImplicit false

/-!
# Nodes

A node is a device at work: who it is, the value it is about, the session it keeps over some
protocol, its timers, its button, its light and the events it still has to deal with.

The steps of a node are functions from a node to a node that leave remarks in the log. The protocol
is a parameter: any type with an instance of `Channel`.

## Main definitions

* `EdgeDevice.NodeState` — not connected, connecting or connected.
* `EdgeDevice.Light`, `EdgeDevice.Connectivity` — the light, and what the network looks like.
* `EdgeDevice.Node` — a node.
* `EdgeDevice.Node.Remark` — what a node remarks on.
-/

namespace EdgeDevice

/-- Whether a node has a session. -/
inductive NodeState where
  /-- The session was lost or refused; only the user can start over. -/
  | notConnected
  /-- The node waits for the network or for the session. -/
  | connecting
  /-- The session is there. -/
  | connected
  deriving DecidableEq, Repr

/-- A state by its name. -/
def NodeState.name : NodeState → String
  | notConnected => "NotConnected"
  | connecting => "Connecting"
  | connected => "Connected"

/-- The light: on while not connected, off while connected, toggling in between. -/
structure Light where
  isOn : Bool := false
  /-- How often it was toggled. -/
  toggles : Nat := 0
  deriving DecidableEq

namespace Light

/-- Switches the light on or off. -/
def set (l : Light) (on : Bool) : Light := { l with isOn := on }

/-- Switches the light over. -/
def toggle (l : Light) : Light := ⟨!l.isOn, l.toggles + 1⟩

/-- A light that is switched is as it was switched. -/
@[simp] theorem isOn_set (l : Light) (on : Bool) : (l.set on).isOn = on := rfl

end Light

/-- What the network looks like. -/
structure Connectivity where
  /-- Whether there are a global address and a route. -/
  available : Bool
  /-- The global address, if there is one. -/
  address : Option (Text maxAddress)
  deriving DecidableEq

variable [RandomSource]

/-- A device at work. -/
structure Node (σ : Type) where
  identity : Identity
  settings : NodeSettings
  /-- The protocol with the state of the session. -/
  channel : σ
  state : NodeState := .connecting
  dial : PeriodDial
  timers : Timers := .empty
  button : Button
  queue : EventQueue := .empty
  model : Model
  light : Light := {}
  /-- The global address when connectivity was last found, empty if there was none. -/
  address : Text maxAddress := .empty
  /-- Whether a session is pending. -/
  awaiting : Bool := false
  /-- The id of the next message that is no acknowledgement. -/
  replyId : UInt16
  /-- The instant of the step under way. -/
  now : Instant := .start

namespace Node

/-- What a node remarks on. -/
inductive Remark where
  | starting (d : Identity)
  | queueFull (e : NodeEvent)
  | moved (old new : NodeState)
  | staleDeadline
  | noAnswer (seconds : Nat)
  | staleConfiguration (s : NodeState)
  | staleProbe (s : NodeState)
  | notAvailable (seconds : Nat)
  | available (address : String)
  | staleCadence (s : NodeState)
  | readingTooLong
  | pressed (seconds period : Nat)
  | reconnecting
  | sessionLost
  | staleChange (c : SessionChange) (s : NodeState)

instance : Loggable Remark where
  entry
    | .starting d => ⟨.info, "Node " ++ d.hexId ++ " (" ++ d.tag ++ ") starting"⟩
    | .queueFull e => ⟨.warn, "Event queue full, dropping " ++ e.describe⟩
    | .moved old new => ⟨.info, old.name ++ " -> " ++ new.name⟩
    | .staleDeadline => ⟨.debug, "Stale session deadline"⟩
    | .noAnswer seconds => ⟨.warn, s!"No session answer within {seconds}s"⟩
    | .staleConfiguration s => ⟨.debug, "Stale configuration push in " ++ s.name⟩
    | .staleProbe s => ⟨.debug, "Stale connectivity probe in " ++ s.name⟩
    | .notAvailable seconds =>
      ⟨.info, s!"Connectivity not available yet, retrying in {seconds}s"⟩
    | .available address => ⟨.info, s!"Connectivity available, global address {address}"⟩
    | .staleCadence s => ⟨.debug, "Stale cadence timer in " ++ s.name⟩
    | .readingTooLong => ⟨.error, "Reading does not fit the payload buffer"⟩
    | .pressed seconds period =>
      ⟨.info, s!"{seconds}s press, session value set to {period}s"⟩
    | .reconnecting => ⟨.info, "Long press, reconnecting"⟩
    | .sessionLost => ⟨.warn, "Session lost"⟩
    | .staleChange c s => ⟨.debug, "Stale " ++ c.name ++ " in " ++ s.name⟩

variable {σ : Type}

/-- What messages to the counterpart are made from. -/
def context (n : Node σ) : SessionContext :=
  { identity := n.identity, address := n.address, period := n.dial.value }

/-- Sets a timer, counted from now. -/
def arm (n : Node σ) (id : TimerId) (d : Duration) : Node σ :=
  { n with timers := n.timers.arm id n.now d }

/-- Takes a timer back. -/
def cancel (n : Node σ) (id : TimerId) : Node σ := { n with timers := n.timers.cancel id }

/-- Lets the channel act and keeps its new state. -/
def act {α : Type} (n : Node σ) (step : σ → Logged (α × σ)) : Logged (α × Node σ) := do
  let (a, channel) ← step n.channel
  return (a, { n with channel := channel })

/-- A node in front of its first step. It fails for settings a node cannot run with. -/
def create (identity : Identity) (channel : σ) (settings : NodeSettings) :
    Except SettingsError (Node σ) :=
  settings.check.map fun _ =>
    { identity := identity, settings := settings, channel := channel,
      dial := .ofKind identity.kind, button := { threshold := settings.buttonSeconds },
      model := .ofKind identity.kind identity.nodeId, replyId := identity.nodeId.toUInt16 }

end Node

end EdgeDevice
