import EdgeDevice.Node.Basic

set_option autoImplicit false
set_option relaxedAutoImplicit false

/-!
# What a node does about an event

Every kind of event has a handler. Timers that were taken and changes that were found wait in the
queue like everything else, so a handler looks first whether its event still means anything.

## Main definitions

* `EdgeDevice.Node.moveTo` — enters a state, with what belongs to it.
* `EdgeDevice.Node.conclude` — draws the consequences of an outcome.
* `EdgeDevice.Node.handle` — deals with one event.
-/

namespace EdgeDevice.Node

variable [RandomSource] {σ : Type}

/-! ## States -/

/-- Enters a state: outside of connecting the light is steady. -/
def moveTo (n : Node σ) (s : NodeState) : Logged (Node σ) := do
  if n.state ≠ s then Logged.remark (Remark.moved n.state s)
  let n := { n with state := s }
  match s with
  | .notConnected => return { n.cancel .blink with light := n.light.set true }
  | .connected => return { n.cancel .blink with light := n.light.set false }
  | .connecting => return n

/-- Starts to connect, with a first look for connectivity after some time. -/
def beginConnecting (n : Node σ) (probeAfter : Duration) : Logged (Node σ) := do
  let n ← n.moveTo .connecting
  let n := { n with light := n.light.set true }
  return (n.arm .blink n.settings.blinkPeriod).arm .connectivityProbe probeAfter

/-- The timers that end with a session. -/
def sessionTimers : List TimerId := [.connectivityProbe, .sessionDeadline, .configuration, .cadence]

variable [Channel σ]

/-- Gives up the session and everything that was to be done for it. -/
def dropSession (n : Node σ) : Logged (Node σ) := do
  let n := sessionTimers.foldl cancel { n with awaiting := false }
  let channel ← Channel.abandon n.channel
  { n with channel := channel }.moveTo .notConnected

/-- Goes on with an accepted session: the period starts over, and a new session is told the chosen
period after a while if the channel asks for that. -/
def goOn (n : Node σ) : Logged (Node σ) := do
  let opened := n.state ≠ .connected
  let n ← n.moveTo .connected
  let n := n.arm .cadence (Duration.ofSeconds n.dial.value)
  if opened ∧ Channel.announces n.channel then
    return n.arm .configuration n.settings.configurationDelay
  else return n

/-- Makes the device safe. -/
def makeSafe (n : Node σ) : Logged (Node σ) := do
  return { n with model := ← n.model.makeSafe }

/-- Draws the consequences of an outcome. Where nothing came back the device is made safe before the
session is given up. -/
def conclude (n : Node σ) : Outcome → Logged (Node σ)
  | .accepted => n.goOn
  | .rejected => n.dropSession
  | .timedOut => do (← n.makeSafe).dropSession

/-! ## Timers -/

/-- Looks for connectivity, and opens a session if there is some. -/
def onProbe (n : Node σ) (net : Connectivity) : Logged (Node σ) :=
  if n.state ≠ .connecting ∨ n.awaiting then do
    Logged.remark (Remark.staleProbe n.state)
    return n
  else if !net.available then do
    Logged.remark (Remark.notAvailable n.settings.probeSeconds)
    return n.arm .connectivityProbe n.settings.probePeriod
  else do
    let n := { n with address := net.address.getD .empty }
    Logged.remark (Remark.available n.address.string)
    let (progress, n) ← n.act fun c => Channel.openSession c n.context
    match progress with
    | .resolved outcome => n.conclude outcome
    | .pending => return { n with awaiting := true }.arm .sessionDeadline n.settings.sessionTimeout

/-- Stops to wait for a pending session. -/
def onDeadline (n : Node σ) : Logged (Node σ) :=
  if n.awaiting then do
    Logged.remark (Remark.noAnswer n.settings.sessionSeconds)
    { n with awaiting := false }.conclude .timedOut
  else do
    Logged.remark Remark.staleDeadline
    return n

/-- Tells the chosen period. -/
def onConfiguration (n : Node σ) : Logged (Node σ) :=
  if n.state = .connected then do
    let (outcome, n) ← n.act fun c => Channel.configure c n.context
    n.conclude outcome
  else do
    Logged.remark (Remark.staleConfiguration n.state)
    return n

/-- Publishes a fresh sample. -/
def publishSample (n : Node σ) : Logged (Node σ) := do
  let n := { n with model := n.model.sample }
  match n.model.serialize n.identity with
  | some reading =>
    let (outcome, n) ← n.act fun c => Channel.publish c n.context reading.bytes
    n.conclude outcome
  | none =>
    Logged.remark Remark.readingTooLong
    n.conclude .rejected

/-- Does what is due every period: a sensor publishes, an actuator keeps the session alive. -/
def onCadence (n : Node σ) : Logged (Node σ) :=
  if n.state = .connected then
    if n.model.isSensor then n.publishSample
    else do
      let (outcome, n) ← n.act fun c => Channel.keepAlive c n.context
      n.conclude outcome
  else do
    Logged.remark (Remark.staleCadence n.state)
    return n

/-- Toggles the light. -/
def onBlink (n : Node σ) : Node σ :=
  if n.state = .connecting then
    { n with light := n.light.toggle }.arm .blink n.settings.blinkPeriod
  else n

/-- Deals with a timer that has fired. -/
def onTimer (n : Node σ) (net : Connectivity) : TimerId → Logged (Node σ)
  | .connectivityProbe => n.onProbe net
  | .sessionDeadline => n.onDeadline
  | .configuration => n.onConfiguration
  | .cadence => n.onCadence
  | .blink => return n.onBlink

/-! ## The button -/

/-- Connects again. -/
def onReconnect (n : Node σ) : Logged (Node σ) := do
  Logged.remark Remark.reconnecting
  (n.cancel .configuration).beginConnecting 0

/-- Chooses the next period. A session that is there is told once the user has been quiet for a
while; a new session starts with the chosen period anyway. -/
def onShortPress (n : Node σ) (heldSeconds : Nat) : Logged (Node σ) := do
  let n := { n with dial := n.dial.turn }
  Logged.remark (Remark.pressed heldSeconds n.dial.value)
  if n.state = .connected then
    return (n.cancel .cadence).arm .configuration n.settings.configurationDelay
  else return n

/-- Deals with one more second of a press. -/
def onHeld (n : Node σ) : Logged (Node σ) :=
  let (action, button) := n.button.hold (n.state == .notConnected)
  let n := { n with button := button }
  match action with
  | some .reconnect => n.onReconnect
  | _ => return n

/-- Deals with the end of a press. -/
def onReleased (n : Node σ) : Logged (Node σ) :=
  let (action, button) := n.button.release
  let n := { n with button := button }
  match action with
  | some (.nextPeriod heldSeconds) => n.onShortPress heldSeconds
  | _ => return n

/-! ## The session -/

/-- The outcome that a change means for a pending session. -/
def outcomeOf : SessionChange → Outcome
  | .connected => .accepted
  | .disconnected => .rejected

/-- Deals with a change of the session. -/
def onChange (n : Node σ) (change : SessionChange) : Logged (Node σ) :=
  if n.awaiting then
    ({ n with awaiting := false }.cancel .sessionDeadline).conclude (outcomeOf change)
  else if change = .disconnected ∧ n.state = .connected then do
    Logged.remark Remark.sessionLost
    n.dropSession
  else do
    Logged.remark (Remark.staleChange change n.state)
    return n

/-- Deals with one event. -/
def handle (n : Node σ) (net : Connectivity) : NodeEvent → Logged (Node σ)
  | .timer id => n.onTimer net id
  | .buttonHeld => n.onHeld
  | .buttonReleased => n.onReleased
  | .session change => n.onChange change

end EdgeDevice.Node
