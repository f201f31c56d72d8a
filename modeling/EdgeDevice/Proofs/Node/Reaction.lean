import EdgeDevice.Node.Run
import EdgeDevice.Proofs.Node.Expiry

set_option autoImplicit false
set_option relaxedAutoImplicit false

/-!
# Reactions of a node

What a node does about an event, as a relation: one case for each thing that dealing with the event
can come to, with the guard under which it comes to that. Every invariant of a node is proved by
going through these cases, so that the handlers are opened here and nowhere else.

## Main definitions

* `EdgeDevice.Node.Stale` — the event no longer means anything to the node.
* `EdgeDevice.Node.Reaction` — the cases.
* `EdgeDevice.Node.Concludes` — the consequences of an outcome are the last thing that is done.

## Main results

* `EdgeDevice.Node.value_dropSession`, `EdgeDevice.Node.value_goOn`,
  `EdgeDevice.Node.value_beginConnecting` — what the parts of the handlers leave behind.
* `EdgeDevice.Node.reaction_handle` — dealing with an event is one of the cases.
* `EdgeDevice.Node.Reaction.frame`, `EdgeDevice.Node.Reaction.backlog_le` — what no case changes,
  and what none adds to.
-/

namespace EdgeDevice.Node

variable [RandomSource] {σ : Type}

/-! ## The parts of the handlers -/

/-- Outside of connecting the light is steady and does not toggle. -/
theorem value_moveTo (n : Node σ) (s : NodeState) :
    (n.moveTo s).value =
      { n with
        state := s, timers := if s = .connecting then n.timers else n.timers.cancel .blink,
        light := if s = .connecting then n.light else n.light.set (s == .notConnected) } := by
  unfold moveTo
  by_cases h : n.state = s
  · simp only [h, ne_eq, not_true_eq_false, if_false]
    cases s <;> rfl
  · simp only [h, ne_eq, not_false_eq_true, if_true]
    cases s <;> rfl

/-- A node that begins to connect looks for connectivity after some time, and blinks. -/
theorem value_beginConnecting (n : Node σ) (d : Duration) :
    (n.beginConnecting d).value =
      { n with
        state := .connecting, light := n.light.set true,
        timers := (n.timers.arm .blink n.now n.settings.blinkPeriod).arm .connectivityProbe n.now d
      } := by
  unfold beginConnecting
  rw [Logged.value_bind, value_moveTo]
  rfl

/-- A node that is started is connecting: it blinks, and it looks for connectivity a period
later. -/
theorem value_start (n : Node σ) (i : Instant) :
    (n.start i).value =
      { n with
        now := i, state := .connecting, light := n.light.set true,
        timers := (n.timers.arm .blink i n.settings.blinkPeriod).arm .connectivityProbe i
          n.settings.probePeriod } := by
  unfold start
  rw [Logged.value_bind, value_beginConnecting]

section

variable [Channel σ]

/-- Giving up a session takes back every timer. -/
theorem value_dropSession (n : Node σ) :
    n.dropSession.value =
      { n with
        awaiting := false, timers := .empty, channel := (Channel.abandon n.channel).value,
        state := .notConnected, light := n.light.set true } := by
  unfold dropSession
  rw [Logged.value_bind, value_moveTo]
  rfl

/-- The timers of a node whose session was just accepted or confirmed. -/
def workingTimers (n : Node σ) : Timers :=
  let working := (n.timers.cancel .blink).arm .cadence n.now (Duration.ofSeconds n.dial.value)
  if n.state ≠ .connected ∧ Channel.announces n.channel then
    working.arm .configuration n.now n.settings.configurationDelay
  else working

/-- The timers of a working node are the cadence and what was set before but the blinking; the push
of the chosen period is set if the counterpart does not know it yet. -/
theorem isPending_workingTimers {n : Node σ} {id : TimerId} :
    n.workingTimers.isPending id = true ↔
      id = .cadence ∨ id ≠ .blink ∧ (n.timers.isPending id = true ∨
        id = .configuration ∧ n.state ≠ .connected ∧ Channel.announces n.channel = true) := by
  unfold workingTimers
  by_cases h : n.state = .connected <;> cases ha : Channel.announces n.channel <;>
    cases id <;> simp [h]

/-- A node that goes on is connected, with its light off and the timers of a working node. -/
theorem value_goOn (n : Node σ) :
    n.goOn.value =
      { n with state := .connected, light := n.light.set false, timers := n.workingTimers } := by
  unfold goOn workingTimers
  rw [Logged.value_bind, value_moveTo]
  by_cases h : n.state ≠ .connected ∧ Channel.announces n.channel = true
  · rw [if_pos h]
    exact congrArg Logged.value (if_pos h)
  · rw [if_neg h]
    exact congrArg Logged.value (if_neg h)

/-- A session that is accepted goes on. -/
@[simp] theorem value_conclude_accepted (n : Node σ) :
    (n.conclude .accepted).value = n.goOn.value := rfl

/-- A session that is rejected is dropped. -/
@[simp] theorem value_conclude_rejected (n : Node σ) :
    (n.conclude .rejected).value = n.dropSession.value := rfl

/-- A session that times out is dropped, and the model is made safe before. -/
@[simp] theorem value_conclude_timedOut (n : Node σ) :
    (n.conclude .timedOut).value = { n with model := n.model.makeSafe.value }.dropSession.value :=
  rfl

/-- An outcome decides about the session and leaves the rest of the node alone. -/
theorem frame_conclude (n : Node σ) (o : Outcome) :
    (n.conclude o).value.identity = n.identity ∧ (n.conclude o).value.settings = n.settings ∧
      (n.conclude o).value.dial = n.dial ∧ (n.conclude o).value.button = n.button ∧
      (n.conclude o).value.queue = n.queue ∧ (n.conclude o).value.address = n.address ∧
      (n.conclude o).value.replyId = n.replyId ∧ (n.conclude o).value.now = n.now := by
  cases o <;> simp [value_goOn, value_dropSession]

/-- After an outcome nothing is pending if nothing was. -/
theorem awaiting_conclude (n : Node σ) (o : Outcome) (hw : n.awaiting = false) :
    (n.conclude o).value.awaiting = false := by
  cases o <;> simp [value_goOn, value_dropSession, hw]

/-- An outcome alone decides whether there is a session afterwards. -/
theorem connected_conclude_iff (n : Node σ) (o : Outcome) :
    (n.conclude o).value.state = .connected ↔ o = .accepted := by
  cases o <;> simp [value_goOn, value_dropSession]

/-- An outcome adds nothing to what the other side can still report. -/
theorem backlog_conclude_le (n : Node σ) (o : Outcome) :
    Channel.backlog (n.conclude o).value.channel ≤ Channel.backlog n.channel := by
  cases o with
  | accepted => simp [value_goOn]
  | rejected => simpa [value_dropSession] using Channel.backlog_abandon_le n.channel
  | timedOut => simpa [value_dropSession] using Channel.backlog_abandon_le n.channel

end

/-! ## The cases -/

/-- An event no longer means anything: the timer has fired, or the change has come in, for a state
that the node has left. -/
def Stale (n : Node σ) : NodeEvent → Prop
  | .timer .connectivityProbe => n.state ≠ .connecting ∨ n.awaiting = true
  | .timer .sessionDeadline => n.awaiting = false
  | .timer .configuration => n.state ≠ .connected
  | .timer .cadence => n.state ≠ .connected
  | .timer .blink => n.state ≠ .connecting
  | .session change => n.awaiting = false ∧ ¬(change = .disconnected ∧ n.state = .connected)
  | .buttonHeld => False
  | .buttonReleased => False

/-- The node once it has found connectivity. -/
def located (n : Node σ) (net : Connectivity) : Node σ :=
  { n with address := net.address.getD .empty }

variable [Channel σ]

/-- **The reactions of a node**: what becomes of a node that deals with an event, while the network
looks as it does. -/
inductive Reaction (net : Connectivity) (n : Node σ) : NodeEvent → Node σ → Prop
  | stale {e : NodeEvent} (h : n.Stale e) : Reaction net n e n
  | unavailable (hs : n.state = .connecting) (hw : n.awaiting = false)
      (ha : net.available = false) :
      Reaction net n (.timer .connectivityProbe)
        (n.arm .connectivityProbe n.settings.probePeriod)
  | resolved {o : Outcome} {c : σ} (hs : n.state = .connecting) (hw : n.awaiting = false)
      (ha : net.available = true)
      (h : (Channel.openSession n.channel (n.located net).context).value = (.resolved o, c)) :
      Reaction net n (.timer .connectivityProbe)
        ({ n.located net with channel := c }.conclude o).value
  | pending {c : σ} (hs : n.state = .connecting) (hw : n.awaiting = false)
      (ha : net.available = true)
      (h : (Channel.openSession n.channel (n.located net).context).value = (.pending, c)) :
      Reaction net n (.timer .connectivityProbe)
        ({ n.located net with channel := c, awaiting := true }.arm .sessionDeadline
          n.settings.sessionTimeout)
  | expired (hw : n.awaiting = true) :
      Reaction net n (.timer .sessionDeadline)
        ({ n with awaiting := false }.conclude .timedOut).value
  | configured {o : Outcome} {c : σ} (hs : n.state = .connected)
      (h : (Channel.configure n.channel n.context).value = (o, c)) :
      Reaction net n (.timer .configuration) ({ n with channel := c }.conclude o).value
  | keptAlive {o : Outcome} {c : σ} (hs : n.state = .connected) (hm : n.model.isSensor = false)
      (h : (Channel.keepAlive n.channel n.context).value = (o, c)) :
      Reaction net n (.timer .cadence) ({ n with channel := c }.conclude o).value
  | published {reading : Text Model.maxReading} {o : Outcome} {c : σ} (hs : n.state = .connected)
      (hm : n.model.isSensor = true) (hr : n.model.sample.serialize n.identity = some reading)
      (h : (Channel.publish n.channel n.context reading.bytes).value = (o, c)) :
      Reaction net n (.timer .cadence)
        ({ n with model := n.model.sample, channel := c }.conclude o).value
  | unreadable (hs : n.state = .connected) (hm : n.model.isSensor = true)
      (hr : n.model.sample.serialize n.identity = none) :
      Reaction net n (.timer .cadence) ({ n with model := n.model.sample }.conclude .rejected).value
  | blinked (hs : n.state = .connecting) :
      Reaction net n (.timer .blink)
        ({ n with light := n.light.toggle }.arm .blink n.settings.blinkPeriod)
  | held (h : (n.button.hold (n.state == .notConnected)).1 = none) :
      Reaction net n .buttonHeld
        { n with button := (n.button.hold (n.state == .notConnected)).2 }
  | reconnected (hs : n.state = .notConnected) (h : (n.button.hold true).1 = some .reconnect) :
      Reaction net n .buttonHeld
        (({ n with button := (n.button.hold true).2 }.cancel .configuration).beginConnecting
          0).value
  | released (h : n.button.threshold ≤ n.button.elapsed) :
      Reaction net n .buttonReleased { n with button := n.button.release.2 }
  | pressed (h : n.button.elapsed < n.button.threshold) (hs : n.state = .connected) :
      Reaction net n .buttonReleased
        (({ n with button := n.button.release.2, dial := n.dial.turn }.cancel .cadence).arm
          .configuration n.settings.configurationDelay)
  | chosen (h : n.button.elapsed < n.button.threshold) (hs : n.state ≠ .connected) :
      Reaction net n .buttonReleased
        { n with button := n.button.release.2, dial := n.dial.turn }
  | answered {change : SessionChange} (hw : n.awaiting = true) :
      Reaction net n (.session change)
        (({ n with awaiting := false }.cancel .sessionDeadline).conclude (outcomeOf change)).value
  | lost (hw : n.awaiting = false) (hs : n.state = .connected) :
      Reaction net n (.session .disconnected) n.dropSession.value

/-! ## Every event leads to one of the cases -/

/-- A look for connectivity finds none, or it opens a session that is settled at once or left
pending; with a state that has passed it means nothing. -/
theorem reaction_onProbe (n : Node σ) (net : Connectivity) :
    Reaction net n (.timer .connectivityProbe) (n.onProbe net).value := by
  unfold onProbe
  split
  · rename_i h
    exact .stale h
  · rename_i h
    obtain ⟨hs, hw⟩ : n.state = .connecting ∧ n.awaiting = false := by simpa using h
    split
    · rename_i ha
      exact .unavailable hs hw (by simpa using ha)
    · rename_i ha
      have ha : net.available = true := by simpa using ha
      rcases h : (Channel.openSession n.channel (n.located net).context).value with ⟨progress, c⟩
      cases progress with
      | resolved o =>
        have : Reaction net n _ _ := .resolved hs hw ha h
        unfold located at h this
        simpa [act, h] using this
      | pending =>
        have : Reaction net n _ _ := .pending hs hw ha h
        unfold located at h this
        simpa [act, h] using this

/-- The end of the wait for a session is an outcome that did not come in time, if the node still
waits. -/
theorem reaction_onDeadline (n : Node σ) (net : Connectivity) :
    Reaction net n (.timer .sessionDeadline) n.onDeadline.value := by
  unfold onDeadline
  split
  · rename_i hw
    exact .expired hw
  · rename_i hw
    exact .stale (by simpa [Stale] using hw)

/-- The chosen period is told to the counterpart while there is a session. -/
theorem reaction_onConfiguration (n : Node σ) (net : Connectivity) :
    Reaction net n (.timer .configuration) n.onConfiguration.value := by
  unfold onConfiguration
  split
  · rename_i hs
    rcases h : (Channel.configure n.channel n.context).value with ⟨o, c⟩
    have : Reaction net n _ _ := .configured hs h
    simpa [act, h] using this
  · rename_i hs
    exact .stale hs

/-- A sensor with a session publishes a reading, or gives up the session if it does not fit. -/
theorem reaction_publishSample (n : Node σ) (net : Connectivity) (hs : n.state = .connected)
    (hm : n.model.isSensor = true) :
    Reaction net n (.timer .cadence) n.publishSample.value := by
  unfold publishSample
  rcases hr : n.model.sample.serialize n.identity with _ | reading
  · have : Reaction net n _ _ := .unreadable hs hm hr
    simpa [hr] using this
  · rcases h : (Channel.publish n.channel n.context reading.bytes).value with ⟨o, c⟩
    have : Reaction net n _ _ := .published hs hm hr h
    have hc : ({ n with model := n.model.sample } : Node σ).context = n.context := rfl
    simpa [hr, act, hc, h] using this

/-- In every period a sensor publishes a reading and an actuator keeps the session alive. -/
theorem reaction_onCadence (n : Node σ) (net : Connectivity) :
    Reaction net n (.timer .cadence) n.onCadence.value := by
  unfold onCadence
  split
  · rename_i hs
    split
    · rename_i hm
      exact reaction_publishSample n net hs hm
    · rename_i hm
      rcases h : (Channel.keepAlive n.channel n.context).value with ⟨o, c⟩
      have : Reaction net n _ _ := .keptAlive hs (by simpa using hm) h
      simpa [act, h] using this
  · rename_i hs
    exact .stale hs

/-- A timer that has fired makes the node react. -/
theorem reaction_onTimer (n : Node σ) (net : Connectivity) (id : TimerId) :
    Reaction net n (.timer id) (n.onTimer net id).value := by
  cases id with
  | connectivityProbe => exact reaction_onProbe n net
  | sessionDeadline => exact reaction_onDeadline n net
  | configuration => exact reaction_onConfiguration n net
  | cadence => exact reaction_onCadence n net
  | blink =>
    show Reaction net n (.timer .blink) n.onBlink
    unfold onBlink
    split
    · rename_i hs
      exact .blinked hs
    · rename_i hs
      exact .stale hs

/-- A second of a press makes the node connect again, or is only counted. -/
theorem reaction_onHeld (n : Node σ) (net : Connectivity) :
    Reaction net n .buttonHeld n.onHeld.value := by
  unfold onHeld
  rcases n.button.fst_hold (n.state == .notConnected) with h | ⟨h, hs⟩
  · have : Reaction net n _ _ := .held h
    simpa [h] using this
  · have hn : n.state = .notConnected := by simpa using hs
    rw [hs] at h ⊢
    have : Reaction net n _ _ := .reconnected hn h
    simpa [h, onReconnect] using this

/-- The end of a press chooses the next period, if the press was short. -/
theorem reaction_onReleased (n : Node σ) (net : Connectivity) :
    Reaction net n .buttonReleased n.onReleased.value := by
  unfold onReleased
  by_cases h : n.button.elapsed < n.button.threshold
  · have ha : n.button.release.1 = some (.nextPeriod n.button.elapsed) := if_pos h
    by_cases hs : n.state = .connected
    · have : Reaction net n _ _ := .pressed h hs
      simpa [ha, onShortPress, hs] using this
    · have : Reaction net n _ _ := .chosen h hs
      simpa [ha, onShortPress, hs] using this
  · have ha : n.button.release.1 = none := if_neg h
    have : Reaction net n _ _ := .released (Nat.le_of_not_lt h)
    simpa [ha] using this

/-- A change answers the session that is pending, or ends the one that is there. -/
theorem reaction_onChange (n : Node σ) (net : Connectivity) (change : SessionChange) :
    Reaction net n (.session change) (n.onChange change).value := by
  unfold onChange
  split
  · rename_i hw
    exact .answered hw
  · rename_i hw
    have hw : n.awaiting = false := by simpa using hw
    split
    · rename_i h
      obtain ⟨rfl, hs⟩ := h
      exact .lost hw hs
    · rename_i h
      exact .stale ⟨hw, h⟩

/-- **Dealing with an event is a reaction of the node.** -/
theorem reaction_handle (n : Node σ) (net : Connectivity) (e : NodeEvent) :
    Reaction net n e (n.handle net e).value := by
  cases e with
  | timer id => exact reaction_onTimer n net id
  | buttonHeld => exact reaction_onHeld n net
  | buttonReleased => exact reaction_onReleased n net
  | session change => exact reaction_onChange n net change

/-! ## Where an outcome is dealt with -/

/-- Dealing with an event ends in the consequences of an outcome, drawn for the node as it is by
then. -/
def Concludes (n : Node σ) (net : Connectivity) (e : NodeEvent) (m : Node σ) (o : Outcome) : Prop :=
  ∃ x : Logged (Node σ), x.value = m ∧ n.handle net e = x >>= fun m => m.conclude o

/-- An opening that is settled at once ends in the consequences of its outcome. -/
theorem concludes_opening {net : Connectivity} {n : Node σ} {o : Outcome} {c : σ}
    (hs : n.state = .connecting) (hw : n.awaiting = false) (ha : net.available = true)
    (h : (Channel.openSession n.channel (n.located net).context).value = (.resolved o, c)) :
    n.Concludes net (.timer .connectivityProbe) { n.located net with channel := c } o := by
  unfold located at h ⊢
  refine ⟨do
    Logged.remark (Remark.available (n.located net).address.string)
    Prod.snd <$> (n.located net).act fun c => Channel.openSession c (n.located net).context, ?_, ?_⟩
  · simp [act, located, h]
  · show n.onProbe net = _
    unfold onProbe
    rw [if_neg (by simp [hs, hw]), if_neg (by simp [ha])]
    refine Logged.ext ?_ ?_ <;> simp [act, located, h]

/-- The end of the wait for a session ends in the consequences of an outcome that did not come in
time. -/
theorem concludes_deadline {n : Node σ} (hw : n.awaiting = true) (net : Connectivity) :
    n.Concludes net (.timer .sessionDeadline) { n with awaiting := false } .timedOut := by
  refine ⟨do
    Logged.remark (Remark.noAnswer n.settings.sessionSeconds)
    return { n with awaiting := false }, rfl, ?_⟩
  show n.onDeadline = _
  unfold onDeadline
  rw [if_pos hw]
  rfl

/-- The push of the chosen period ends in the consequences of its outcome. -/
theorem concludes_configuration {n : Node σ} {o : Outcome} {c : σ} (hs : n.state = .connected)
    (h : (Channel.configure n.channel n.context).value = (o, c)) (net : Connectivity) :
    n.Concludes net (.timer .configuration) { n with channel := c } o := by
  refine ⟨Prod.snd <$> n.act fun c => Channel.configure c n.context, ?_, ?_⟩
  · simp [act, h]
  · show n.onConfiguration = _
    unfold onConfiguration
    rw [if_pos hs]
    refine Logged.ext ?_ ?_ <;> simp [act, h]

/-- A sign of life ends in the consequences of its outcome. -/
theorem concludes_keepAlive {n : Node σ} {o : Outcome} {c : σ} (hs : n.state = .connected)
    (hm : n.model.isSensor = false)
    (h : (Channel.keepAlive n.channel n.context).value = (o, c)) (net : Connectivity) :
    n.Concludes net (.timer .cadence) { n with channel := c } o := by
  refine ⟨Prod.snd <$> n.act fun c => Channel.keepAlive c n.context, ?_, ?_⟩
  · simp [act, h]
  · show n.onCadence = _
    unfold onCadence
    rw [if_pos hs, if_neg (by simp [hm])]
    refine Logged.ext ?_ ?_ <;> simp [act, h]

/-- A change that answers the pending session ends in the consequences of what it says. -/
theorem concludes_change {n : Node σ} (hw : n.awaiting = true) (net : Connectivity)
    (change : SessionChange) :
    n.Concludes net (.session change) ({ n with awaiting := false }.cancel .sessionDeadline)
      (outcomeOf change) := by
  refine ⟨return { n with awaiting := false }.cancel .sessionDeadline, rfl, ?_⟩
  show n.onChange change = _
  unfold onChange
  rw [if_pos hw, pure_bind]

/-! ## What every reaction leaves alone -/

namespace Reaction

variable {net : Connectivity} {n n' : Node σ} {e : NodeEvent}

/-- A reaction changes neither who the node is nor its settings, the events that wait or the
instant. -/
theorem frame (h : Reaction net n e n') :
    n'.identity = n.identity ∧ n'.settings = n.settings ∧ n'.queue = n.queue ∧ n'.now = n.now := by
  cases h <;> simp [value_beginConnecting, value_dropSession, frame_conclude, arm, cancel, located]

/-- A reaction uses up no id of a message. -/
theorem replyId (h : Reaction net n e n') : n'.replyId = n.replyId := by
  cases h <;> simp [value_beginConnecting, value_dropSession, frame_conclude, arm, cancel, located]

/-- A reaction leaves the chosen period alone or goes on to the next one. -/
theorem dial (h : Reaction net n e n') : n'.dial = n.dial ∨ n'.dial = n.dial.turn := by
  cases h <;> simp [value_beginConnecting, value_dropSession, frame_conclude, arm, cancel, located]

/-- Nothing the node does adds to what the other side can still report. -/
theorem backlog_le (h : Reaction net n e n') :
    Channel.backlog n'.channel ≤ Channel.backlog n.channel := by
  cases h with
  | resolved _ _ _ h =>
    have := Channel.backlog_openSession_le n.channel (n.located net).context
    rw [h] at this
    exact Nat.le_trans (backlog_conclude_le ..) this
  | pending _ _ _ h =>
    have := Channel.backlog_openSession_le n.channel (n.located net).context
    rwa [h] at this
  | configured _ h =>
    have := Channel.backlog_configure_le n.channel n.context
    rw [h] at this
    exact Nat.le_trans (backlog_conclude_le ..) this
  | keptAlive _ _ h =>
    have := Channel.backlog_keepAlive_le n.channel n.context
    rw [h] at this
    exact Nat.le_trans (backlog_conclude_le ..) this
  | published _ _ _ h =>
    have := Channel.backlog_publish_le n.channel n.context ‹Text Model.maxReading›.bytes
    rw [h] at this
    exact Nat.le_trans (backlog_conclude_le ..) this
  | expired => exact backlog_conclude_le ..
  | unreadable => exact backlog_conclude_le ..
  | answered => exact backlog_conclude_le ..
  | lost => exact backlog_conclude_le n .rejected
  | reconnected => simp [value_beginConnecting, cancel]
  | _ => exact Nat.le_refl _

end Reaction

end EdgeDevice.Node
