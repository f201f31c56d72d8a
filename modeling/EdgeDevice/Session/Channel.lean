import EdgeDevice.Clock
import EdgeDevice.Device.Identity
import EdgeDevice.Bytes
import EdgeDevice.Log

set_option autoImplicit false
set_option relaxedAutoImplicit false

/-!
# Sessions

A device keeps a session with a counterpart. All it knows of the protocol is the interface below: a
session is opened, kept alive, told the chosen period, given readings and given up. An action has an
outcome at once; only opening a session may be left pending, and then the outcome comes later as a
change of the session.

## Main definitions

* `EdgeDevice.Outcome`, `EdgeDevice.Progress`, `EdgeDevice.SessionChange` — how actions end.
* `EdgeDevice.SessionContext` — what a message to the counterpart is made from.
* `EdgeDevice.Channel` — a protocol for sessions.
-/

namespace EdgeDevice

/-- How an action ended. -/
inductive Outcome where
  /-- The counterpart confirmed it. -/
  | accepted
  /-- The counterpart declined, or could not be asked. -/
  | rejected
  /-- The counterpart did not answer in time. -/
  | timedOut
  deriving DecidableEq, Repr

/-- How opening a session went. -/
inductive Progress where
  /-- The outcome is known. -/
  | resolved (o : Outcome)
  /-- The outcome will come as a change of the session. -/
  | pending
  deriving DecidableEq, Repr

/-- What a counterpart can report on its own. -/
inductive SessionChange where
  /-- The pending session is granted. -/
  | connected
  /-- The pending session is refused, or the session is lost. -/
  | disconnected
  deriving DecidableEq, Repr

/-- A change by its name. -/
def SessionChange.name : SessionChange → String
  | connected => "Connected"
  | disconnected => "Disconnected"

/-- The longest address of a device. -/
def maxAddress : Nat := 40

/-- What a message to the counterpart is made from. -/
structure SessionContext where
  identity : Identity
  /-- The global address of the device, empty if it has none. -/
  address : Text maxAddress
  /-- The chosen period in seconds. -/
  period : Nat

/-- A protocol for sessions, as a state with operations on it. How it acts is its own affair, apart
from one law: the changes it can still report are finite, their number being bounded by the
`backlog`, to which no action adds and which every change that is reported uses up. The law excludes
no protocol; `Metered` makes a channel of any. -/
class Channel (σ : Type) where
  /-- Opens a session. -/
  openSession : σ → SessionContext → Logged (Progress × σ)
  /-- Keeps a session alive. -/
  keepAlive : σ → SessionContext → Logged (Outcome × σ)
  /-- Tells the chosen period. -/
  configure : σ → SessionContext → Logged (Outcome × σ)
  /-- Publishes a reading. -/
  publish : σ → SessionContext → Bytes → Logged (Outcome × σ)
  /-- The next change of the session, if there is one by now. -/
  nextChange : σ → Logged (Option SessionChange × σ)
  /-- Gives up a session. -/
  abandon : σ → Logged σ
  /-- Whether a session that was just opened still has to be told the chosen period. -/
  announces : σ → Bool
  /-- A bound on the changes that can still come in. -/
  backlog : σ → Nat
  backlog_openSession_le : ∀ (c : σ) (ctx : SessionContext),
    backlog (openSession c ctx).value.2 ≤ backlog c
  backlog_keepAlive_le : ∀ (c : σ) (ctx : SessionContext),
    backlog (keepAlive c ctx).value.2 ≤ backlog c
  backlog_configure_le : ∀ (c : σ) (ctx : SessionContext),
    backlog (configure c ctx).value.2 ≤ backlog c
  backlog_publish_le : ∀ (c : σ) (ctx : SessionContext) (reading : Bytes),
    backlog (publish c ctx reading).value.2 ≤ backlog c
  backlog_abandon_le : ∀ c : σ, backlog (abandon c).value ≤ backlog c
  backlog_nextChange_le : ∀ c : σ, backlog (nextChange c).value.2 ≤ backlog c
  backlog_nextChange_lt : ∀ {c c' : σ} {change : SessionChange},
    (nextChange c).value = (some change, c') → backlog c' < backlog c

end EdgeDevice
