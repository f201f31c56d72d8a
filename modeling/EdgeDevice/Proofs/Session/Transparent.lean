import EdgeDevice.Proofs.Node.Inputs
import EdgeDevice.Proofs.Session.Record
import EdgeDevice.Proofs.Session.Registrar

set_option autoImplicit false
set_option relaxedAutoImplicit false

/-!
# Records change nothing

A node with a recorded channel does what it does with the channel itself. So what is proved of the
records of all runs is true of all runs. The same holds of a registrar whose requester writes down
its answers.

The handlers look at the channel only through its operations. If a channel is looked at in a way
that leaves every operation as it is, then each handler is the same for what is looked at and for
what is seen, and so are a turn, a poll and whatever else comes to the node. To look at a channel
without its record is such a way.

## Main definitions

* `EdgeDevice.Faithful` — a way of looking at a channel that leaves its actions as they are.
* `EdgeDevice.Relays` — it leaves the next change as it is.
* `EdgeDevice.Transparent` — it leaves everything as it is.
* `EdgeDevice.Node.through` — a node, as it is seen with its channel looked at in some way.
* `EdgeDevice.Node.forget`, `EdgeDevice.Node.Turn.forget` — a node, a turn without the record.

## Main results

* `EdgeDevice.Node.through_handle` — dealing with an event is the same for what is seen.
* `EdgeDevice.Node.through_takeTurns` — so are the turns of a poll, if the changes are.
* `EdgeDevice.Node.through_inputs`, `EdgeDevice.Node.through_run` — so is whatever comes, and a run.
* `EdgeDevice.Node.forget_inputs`, `EdgeDevice.Node.forget_run` — a record changes nothing.
* `EdgeDevice.Node.through_run_unnoted` — answers that are written down change nothing.
-/

namespace EdgeDevice

/-! ## Ways of looking at a channel -/

section

variable {σ τ : Type} [Channel σ] [Channel τ]

/-- **A way of looking at a channel that leaves its actions as they are**: what is seen answers the
same, and goes on as what is seen of the channel then. -/
structure Faithful (f : σ → τ) : Prop where
  openSession : ∀ c ctx, (Channel.openSession (f c) ctx).value =
    (Channel.openSession c ctx).value.map id f
  keepAlive : ∀ c ctx, (Channel.keepAlive (f c) ctx).value =
    (Channel.keepAlive c ctx).value.map id f
  configure : ∀ c ctx, (Channel.configure (f c) ctx).value =
    (Channel.configure c ctx).value.map id f
  publish : ∀ c ctx reading, (Channel.publish (f c) ctx reading).value =
    (Channel.publish c ctx reading).value.map id f
  abandon : ∀ c, (Channel.abandon (f c)).value = f (Channel.abandon c).value
  announces : ∀ c, Channel.announces (f c) = Channel.announces c

/-- What is seen of a channel reports the change that the channel reports, if any. -/
def Relays (f : σ → τ) (c : σ) : Prop :=
  (Channel.nextChange (f c)).value = (Channel.nextChange c).value.map id f

/-- **A way of looking at a channel that leaves everything as it is.** -/
structure Transparent (f : σ → τ) : Prop extends Faithful f where
  relays : ∀ c, Relays f c
  backlog : ∀ c, Channel.backlog (f c) = Channel.backlog c

end

/-- A recorded channel, looked at without its record. -/
theorem transparent_channel {σ : Type} [Channel σ] :
    Transparent (Recorded.channel : Recorded σ → σ) where
  openSession _ _ := rfl
  keepAlive _ _ := rfl
  configure _ _ := rfl
  publish _ _ _ := rfl
  abandon _ := rfl
  announces _ := rfl
  relays _ := rfl
  backlog _ := rfl

namespace Registrar

variable [Json.Writer] {ρ : Type}

/-- A registrar without the answers that its requester has written down. -/
def unnoted (r : Registrar (Noted ρ)) : Registrar ρ := ⟨r.requester.requester, r.settings⟩

variable [Requester ρ]

omit [Json.Writer] in
/-- A request comes to the same without the record of its answers. -/
theorem exchange_unnoted (r : Registrar (Noted ρ)) (p : Purpose) (path : Text maxResourcePath)
    (body : Option (Text maxBody)) :
    (r.unnoted.exchange p path body).value = (r.exchange p path body).value.map id unnoted := by
  cases body with
  | none => rfl
  | some body =>
    rw [value_exchange, value_exchange]
    rfl

/-- A registrar, looked at without the answers that are written down. -/
theorem transparent_unnoted : Transparent (unnoted : Registrar (Noted ρ) → Registrar ρ) where
  openSession r ctx := by
    have h := r.exchange_unnoted .registration r.settings.registrationPath (registration? ctx)
    rw [value_openSession, value_openSession]
    generalize r.exchange .registration r.settings.registrationPath (registration? ctx) = x at h ⊢
    have h' : (r.unnoted.exchange .registration r.unnoted.settings.registrationPath
        (registration? ctx)).value = x.value.map id unnoted := h
    rw [h']
    rfl
  keepAlive r ctx := r.exchange_unnoted .keepalive r.settings.keepalivePath (keepalive? ctx)
  configure r ctx :=
    r.exchange_unnoted .configuration r.settings.configurationPath (registration? ctx)
  publish _ _ _ := rfl
  abandon _ := rfl
  announces _ := rfl
  relays _ := rfl
  backlog _ := rfl

end Registrar

namespace Node

variable [RandomSource] {σ τ : Type}

/-- A node, as it is seen with its channel looked at in some way. -/
def through (f : σ → τ) (n : Node σ) : Node τ := { n with channel := f n.channel }

/-- A turn, as it is seen. -/
def Turn.through (f : σ → τ) (t : Turn σ) : Turn τ := ⟨t.node.through f, t.net, t.event⟩

/-- A node without the record. -/
def forget (n : Node (Recorded σ)) : Node σ := { n with channel := n.channel.channel }

/-- A turn without the record. -/
def Turn.forget (t : Turn (Recorded σ)) : Turn σ := ⟨t.node.forget, t.net, t.event⟩

/-! ## The handlers -/

section

variable (f : σ → τ)

/-- Where both go the same way, they do the same if they do on each way. -/
theorem through_ite {c : Prop} [Decidable c] {a b : Logged (Node σ)} {a' b' : Logged (Node τ)}
    (ha : c → a.value.through f = a'.value) (hb : ¬c → b.value.through f = b'.value) :
    (if c then a else b).value.through f = (if c then a' else b').value := by
  by_cases h : c
  · rw [if_pos h, if_pos h]
    exact ha h
  · rw [if_neg h, if_neg h]
    exact hb h

/-- What is seen of a node begins to connect as the node does. -/
theorem through_beginConnecting (n : Node σ) (d : Duration) :
    (n.beginConnecting d).value.through f = ((n.through f).beginConnecting d).value := by
  rw [value_beginConnecting, value_beginConnecting]
  rfl

/-- What is seen of a node starts as the node does. -/
theorem through_start (n : Node σ) (now : Instant) :
    (n.start now).value.through f = ((n.through f).start now).value := by
  rw [value_start, value_start]
  rfl

/-- What is seen of a node takes a second of a press as the node does. -/
theorem through_onHeld (n : Node σ) :
    n.onHeld.value.through f = (n.through f).onHeld.value := by
  have hb : (n.through f).button.hold ((n.through f).state == .notConnected) =
      n.button.hold (n.state == .notConnected) := rfl
  unfold onHeld
  rw [hb]
  rcases n.button.hold (n.state == .notConnected) with ⟨action, button⟩
  rcases action with _ | (_ | _)
  · rfl
  · exact through_beginConnecting f ({ n with button := button }.cancel .configuration) 0
  · rfl

/-- What is seen of a node takes the end of a press as the node does. -/
theorem through_onReleased (n : Node σ) :
    n.onReleased.value.through f = (n.through f).onReleased.value := by
  have hb : (n.through f).button.release = n.button.release := rfl
  unfold onReleased
  rw [hb]
  rcases n.button.release with ⟨action, button⟩
  rcases action with _ | (_ | heldSeconds)
  · rfl
  · rfl
  · exact through_ite f (fun _ => rfl) fun _ => rfl

/-- What is seen of a node is told of the user as the node is. -/
theorem through_post (n : Node σ) (e : NodeEvent) :
    (n.post e).value.through f = ((n.through f).post e).value := by
  have hq : (n.through f).queue.push? e = n.queue.push? e := rfl
  unfold post
  rw [hq]
  cases n.queue.push? e with
  | some queue => rfl
  | none => rfl

end

/-- What is asked of the channel is answered the same, and the node goes on with the channel that is
seen. -/
theorem through_act {f : σ → τ} {α : Type} (n : Node σ) (ask : σ → Logged (α × σ))
    (ask' : τ → Logged (α × τ))
    (h : (ask' (f n.channel)).value = (ask n.channel).value.map id f) :
    ((n.through f).act ask').value = (n.act ask).value.map id (through f) := by
  rcases hx : (ask n.channel).value with ⟨a, c⟩
  rw [hx] at h
  have h' : (ask' (n.through f).channel).value = (a, f c) := h
  simp only [act, Logged.value_bind, Logged.value_pure, hx, h']
  rfl

section

variable [Channel σ] [Channel τ] {f : σ → τ} (hf : Faithful f)
include hf

/-- What is seen of a channel gives up its session as the channel does. -/
theorem through_abandon (n : Node σ) :
    (Channel.abandon (n.through f).channel).value = f (Channel.abandon n.channel).value :=
  hf.abandon n.channel

/-- What is seen of a node draws the consequences of an outcome as the node does. -/
theorem through_conclude (n : Node σ) (o : Outcome) :
    (n.conclude o).value.through f = ((n.through f).conclude o).value := by
  have hdrop : ∀ m : Node σ, m.dropSession.value.through f = (m.through f).dropSession.value := by
    intro m
    rw [value_dropSession, value_dropSession, through_abandon hf]
    rfl
  cases o with
  | accepted =>
    have hw : (n.through f).workingTimers = n.workingTimers := by
      have ha : Channel.announces (n.through f).channel = Channel.announces n.channel :=
        hf.announces n.channel
      unfold workingTimers
      rw [ha]
      rfl
    rw [value_conclude_accepted, value_conclude_accepted, value_goOn, value_goOn, hw]
    rfl
  | rejected => exact hdrop n
  | timedOut => exact hdrop { n with model := n.model.makeSafe.value }

/-- What is seen of a node looks for connectivity as the node does. -/
theorem through_onProbe (n : Node σ) (net : Connectivity) :
    (n.onProbe net).value.through f = ((n.through f).onProbe net).value := by
  unfold onProbe
  refine through_ite f (fun _ => rfl) fun _ => ?_
  refine through_ite f (fun _ => rfl) fun _ => ?_
  rcases hx : ((n.located net).act fun c => Channel.openSession c (n.located net).context).value
    with ⟨progress, m⟩
  have ha : (((n.through f).located net).act fun c =>
      Channel.openSession c ((n.through f).located net).context).value =
      (progress, m.through f) := by
    have ha := through_act (n.located net) (fun c => Channel.openSession c (n.located net).context)
      (fun c => Channel.openSession c (n.located net).context) (hf.openSession _ _)
    rw [hx] at ha
    exact ha
  unfold located at hx ha
  cases progress with
  | resolved o =>
    simp only [Logged.value_bind, hx, ha]
    exact through_conclude hf m o
  | pending =>
    simp only [Logged.value_bind, Logged.value_pure, hx, ha]
    rfl

/-- What is seen of a node ends its wait for a session as the node does. -/
theorem through_onDeadline (n : Node σ) :
    n.onDeadline.value.through f = (n.through f).onDeadline.value := by
  unfold onDeadline
  exact through_ite f (fun _ => through_conclude hf _ .timedOut) fun _ => rfl

/-- An outcome that the channel answers with has the same consequences. -/
theorem through_act_conclude {n : Node σ} {ask : σ → Logged (Outcome × σ)}
    {ask' : τ → Logged (Outcome × τ)}
    (h : (ask' (f n.channel)).value = (ask n.channel).value.map id f) :
    (n.act ask >>= fun (o, m) => m.conclude o).value.through f =
      ((n.through f).act ask' >>= fun (o, m) => m.conclude o).value := by
  rw [Logged.value_bind, Logged.value_bind, through_act _ _ _ h]
  exact through_conclude hf _ _

/-- What is seen of a node tells the chosen period as the node does. -/
theorem through_onConfiguration (n : Node σ) :
    n.onConfiguration.value.through f = (n.through f).onConfiguration.value := by
  unfold onConfiguration
  refine through_ite f (fun _ => ?_) fun _ => rfl
  exact through_act_conclude hf (hf.configure n.channel n.context)

/-- What is seen of a node publishes a reading as the node does. -/
theorem through_publishSample (n : Node σ) :
    n.publishSample.value.through f = (n.through f).publishSample.value := by
  have hr : (n.through f).model.sample.serialize (n.through f).identity =
      n.model.sample.serialize n.identity := rfl
  unfold publishSample
  dsimp only
  rw [hr]
  cases n.model.sample.serialize n.identity with
  | none => exact through_conclude hf { n with model := n.model.sample } .rejected
  | some reading =>
    exact through_act_conclude hf (n := { n with model := n.model.sample })
      (hf.publish n.channel n.context reading.bytes)

/-- What is seen of a node does what is due every period as the node does. -/
theorem through_onCadence (n : Node σ) :
    n.onCadence.value.through f = (n.through f).onCadence.value := by
  unfold onCadence
  refine through_ite f (fun _ => ?_) fun _ => rfl
  refine through_ite f (fun _ => through_publishSample hf n) fun _ => ?_
  exact through_act_conclude hf (hf.keepAlive n.channel n.context)

/-- What is seen of a node takes a change of its session as the node does. -/
theorem through_onChange (n : Node σ) (change : SessionChange) :
    (n.onChange change).value.through f = ((n.through f).onChange change).value := by
  unfold onChange
  refine through_ite f (fun _ => through_conclude hf _ _) fun _ => ?_
  exact through_ite f (fun _ => through_conclude hf n .rejected) fun _ => rfl

/-- **Dealing with an event is the same for what is seen.** -/
theorem through_handle (n : Node σ) (net : Connectivity) (e : NodeEvent) :
    (n.handle net e).value.through f = ((n.through f).handle net e).value := by
  cases e with
  | timer id =>
    cases id with
    | connectivityProbe => exact through_onProbe hf n net
    | sessionDeadline => exact through_onDeadline hf n
    | configuration => exact through_onConfiguration hf n
    | cadence => exact through_onCadence hf n
    | blink =>
      show n.onBlink.through f = (n.through f).onBlink
      have hs : (n.through f).state = n.state := rfl
      unfold onBlink
      rw [hs]
      split
      · rfl
      · rfl
  | buttonHeld => exact through_onHeld f n
  | buttonReleased => exact through_onReleased f n
  | session change => exact through_onChange hf n change

/-! ## Turns -/

omit hf in
/-- What is seen of a node takes in what the node does, if the same change is seen of the
channel. -/
theorem through_take {n : Node σ} (hn : Relays f n.channel) :
    n.take.value.through f = (n.through f).take.value := by
  unfold take
  refine through_ite f (fun _ => rfl) fun _ => ?_
  have ha := through_act n Channel.nextChange Channel.nextChange hn
  rcases hx : (n.act Channel.nextChange).value with ⟨change, m⟩
  rw [hx] at ha
  simp only [Logged.value_bind, hx, ha]
  cases change with
  | some change => exact through_post f m (.session change)
  | none =>
    have ht : (m.through f).timers.takeExpired (m.through f).now = m.timers.takeExpired m.now := rfl
    dsimp only [Prod.map]
    rw [ht]
    rcases m.timers.takeExpired m.now with ⟨id, timers⟩
    cases id with
    | none => rfl
    | some id => exact through_post f { m with timers := timers } (.timer id)

/-- What is seen after a turn is what becomes of what is seen. -/
theorem after_through (t : Turn σ) : (t.through f).after = t.after.through f :=
  (through_handle hf t.node t.net t.event).symm

omit hf in
/-- The turn that is seen is the turn that is taken, if what is seen of the channel reports the same
change. -/
theorem turn?_through {n : Node σ} (hn : Relays f n.channel) (net : Connectivity) :
    (n.through f).turn? net = (n.turn? net).map (Turn.through f) := by
  unfold turn?
  rw [← through_take hn]
  show n.take.value.queue.pop?.map _ = _
  cases n.take.value.queue.pop? with
  | none => rfl
  | some found => rfl

/-- **The turns of a poll are the same for what is seen**, if the changes are that channels report
which have at least the backlog of the last one. -/
theorem through_takeTurns {nets : Nat → Connectivity} {k : Nat} {n : Node σ}
    (hn : ∀ c,
      Channel.backlog (takeTurns nets k n).value.channel ≤ Channel.backlog c → Relays f c) :
    (takeTurns nets k n).value.through f = (takeTurns nets k (n.through f)).value ∧
      (turns nets k n).map (Turn.through f) = turns nets k (n.through f) := by
  induction k generalizing n with
  | zero => exact ⟨rfl, rfl⟩
  | succ k ih =>
    have hhere : Relays f n.channel := hn n.channel (backlog_takeTurns_le nets (k + 1) n)
    rw [value_takeTurns_succ] at hn
    rw [value_takeTurns_succ, value_takeTurns_succ, turns, turns, turn?_through hhere]
    cases ht : n.turn? (nets k) with
    | none => exact ⟨through_take hhere, rfl⟩
    | some t =>
      rw [ht] at hn
      obtain ⟨hv, hturns⟩ := ih hn
      rw [← after_through hf] at hv hturns
      exact ⟨hv, congrArg (t.through f :: ·) hturns⟩

end

/-! ## Runs -/

section

variable [Json.Writer] [Channel σ] [Channel τ] {f : σ → τ} (hf : Transparent f)
include hf

omit [Json.Writer] in
/-- What is seen of a node comes to rest within as many turns. -/
theorem enoughTurns_through (n : Node σ) : (n.through f).enoughTurns = n.enoughTurns := by
  have hb : Channel.backlog (n.through f).channel = Channel.backlog n.channel :=
    hf.backlog n.channel
  unfold enoughTurns
  rw [hb]
  rfl

/-- **A poll is the same however one looks at the channel**, and so are its turns. -/
theorem through_poll (n : Node σ) (now : Instant) (nets : Nat → Connectivity) :
    (n.call (.poll now nets)).through f = (n.through f).call (.poll now nets) ∧
      (n.turnsOf (.poll now nets)).map (Turn.through f) =
        (n.through f).turnsOf (.poll now nets) := by
  rw [call_poll, call_poll, turnsOf_poll, turnsOf_poll, ← enoughTurns_through hf]
  exact through_takeTurns hf.toFaithful fun c _ => hf.relays c

variable {υ : Type} (carry : (υ → υ) → σ → σ) (carry' : (υ → υ) → τ → τ)

/-- A call is the same however one looks at the channel. -/
theorem through_call {carry : (υ → υ) → σ → σ} {carry' : (υ → υ) → τ → τ}
    (hc : ∀ change c, f (carry change c) = carry' change (f c)) (n : Node σ)
    (c : Call υ) : (n.call (c.lift carry)).through f = (n.through f).call (c.lift carry') := by
  cases c with
  | post edge => exact through_post f n edge.event
  | poll now nets => exact (through_poll hf n now nets).1
  | put payload => rfl
  | answer request => rfl
  | outside change =>
    show ({ n with channel := f (carry change n.channel) } : Node τ) = _
    rw [hc]
    rfl

/-- The turns of a call are the same however one looks at the channel. -/
theorem map_through_turnsOf (n : Node σ) (c : Call υ) :
    (n.turnsOf (c.lift carry)).map (Turn.through f) = (n.through f).turnsOf (c.lift carry') := by
  cases c with
  | poll now nets => exact (through_poll hf n now nets).2
  | _ => rfl

/-- An input is the same however one looks at the channel. -/
theorem through_input {carry : (υ → υ) → σ → σ} {carry' : (υ → υ) → τ → τ}
    (hc : ∀ change c, f (carry change c) = carry' change (f c)) (n : Node σ)
    (i : Input υ) : (n.input (i.lift carry)).through f = (n.through f).input (i.lift carry') := by
  cases i with
  | start now => exact through_start f n now
  | post e => exact through_post f n e
  | amend change => rfl
  | call c => exact through_call hf hc n c

/-- The turns of an input are the same however one looks at the channel. -/
theorem map_through_turnsAt (n : Node σ) (i : Input υ) :
    (n.turnsAt (i.lift carry)).map (Turn.through f) = (n.through f).turnsAt (i.lift carry') := by
  cases i with
  | call c => exact map_through_turnsOf hf carry carry' n c
  | _ => rfl

/-- **Whatever comes, the node is the same for what is seen**, whatever the other side does to what
is inside. -/
theorem through_inputs (hc : ∀ change c, f (carry change c) = carry' change (f c)) (n : Node σ)
    (is : List (Input υ)) :
    (n.inputs (is.map (Input.lift carry))).through f =
      (n.through f).inputs (is.map (Input.lift carry')) := by
  induction is generalizing n with
  | nil => rfl
  | cons i is ih =>
    have := ih (n.input (i.lift carry))
    rw [through_input hf hc] at this
    exact this

/-- The turns that are taken meanwhile are the same for what is seen. -/
theorem map_through_chronicle (hc : ∀ change c, f (carry change c) = carry' change (f c))
    (n : Node σ) (is : List (Input υ)) :
    (n.chronicle (is.map (Input.lift carry))).map (Turn.through f) =
      (n.through f).chronicle (is.map (Input.lift carry')) := by
  induction is generalizing n with
  | nil => rfl
  | cons i is ih =>
    rw [List.map_cons, List.map_cons, chronicle, chronicle, List.map_append,
      map_through_turnsAt hf carry carry', ih, through_input hf hc]

/-- So a run is the same for what is seen. -/
theorem through_run (hc : ∀ change c, f (carry change c) = carry' change (f c)) (n : Node σ)
    (calls : List (Call υ)) :
    (n.run (calls.map (Call.lift carry))).through f =
      (n.through f).run (calls.map (Call.lift carry')) := by
  have h := through_inputs hf carry carry' hc n (calls.map .call)
  rwa [Input.map_lift_calls, Input.map_lift_calls, inputs_calls, inputs_calls] at h

end

/-! ## Records -/

/-- What an input carries to the channel itself it brings as it is. -/
theorem map_lift_id (is : List (Input σ)) : is.map (Input.lift fun change => change) = is := by
  refine List.map_id'' (fun i => ?_) is
  cases i with
  | call c => cases c <;> rfl
  | _ => rfl

variable [Json.Writer] [Channel σ]

/-- **The record changes nothing**: whatever comes, a node with a recorded channel is the node with
the channel. -/
theorem forget_inputs (n : Node (Recorded σ)) (is : List (Input σ)) :
    (n.inputs (is.map (Input.lift Recorded.onChannel))).forget = n.forget.inputs is := by
  have h := through_inputs transparent_channel Recorded.onChannel (fun change => change)
    (fun _ _ => rfl) n is
  rw [map_lift_id] at h
  exact h

/-- The turns that are taken meanwhile over a recorded channel are those over the channel. -/
theorem forget_chronicle (n : Node (Recorded σ)) (is : List (Input σ)) :
    (n.chronicle (is.map (Input.lift Recorded.onChannel))).map Turn.forget =
      n.forget.chronicle is := by
  have h := map_through_chronicle transparent_channel Recorded.onChannel (fun change => change)
    (fun _ _ => rfl) n is
  rw [map_lift_id] at h
  exact h

/-- A run over a recorded channel is the run over the channel. -/
theorem forget_run (n : Node (Recorded σ)) (calls : List (Call σ)) :
    (n.run (calls.map (Call.lift Recorded.onChannel))).forget = n.forget.run calls := by
  have h := n.forget_inputs (calls.map .call)
  rwa [Input.map_lift_calls, inputs_calls, inputs_calls] at h

/-- The turns of a run over a recorded channel are those of the run over the channel. -/
theorem forget_history (n : Node (Recorded σ)) (calls : List (Call σ)) :
    (n.history (calls.map (Call.lift Recorded.onChannel))).map Turn.forget =
      n.forget.history calls := by
  have h := n.forget_chronicle (calls.map .call)
  rwa [Input.map_lift_calls, chronicle_calls, chronicle_calls] at h

/-- **Answers that are written down change nothing**: a run over a registrar whose requester writes
down its answers is the run over the registrar. -/
theorem through_run_unnoted {ρ : Type} [Requester ρ] (n : Node (Registrar (Noted ρ)))
    (calls : List (Call ρ)) :
    (n.run (calls.map (Call.lift Registrar.onRequester))).through Registrar.unnoted =
      (n.through Registrar.unnoted).run (calls.map (Call.lift fun change r =>
        { r with requester := change r.requester })) :=
  through_run Registrar.transparent_unnoted _ _ (fun _ _ => rfl) n calls

end Node

end EdgeDevice
