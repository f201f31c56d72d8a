import EdgeDevice.Proofs.Node.Inputs
import EdgeDevice.Proofs.Node.Phase
import EdgeDevice.Proofs.Session.Record
import EdgeDevice.Simulation.Counterpart

set_option autoImplicit false
set_option relaxedAutoImplicit false

/-!
# Actuators are safe without an answer

The setpoint of an actuator is off or inside the range of its kind, whatever comes in. Two things
move it: a command that is answered by 2.05 sets it to the value that was asked for, and an outcome
that did not come in time sets it to off. In the latter case it is off before the session is given
up, so that a device is never believed to be on that has given up its session for want of an answer.

There are four ways in which want of an answer comes to the node: opening a session, keeping it
alive, telling the chosen period, and the end of the wait for a pending session. `Turn.outcome?`
finds all of them in what happens in a turn.

## Main definitions

* `EdgeDevice.Node.Turn.outcome?` — the outcome that is dealt with in a turn.
* `EdgeDevice.Node.Admissible` — the setpoint is off or inside the range of the kind.
* `EdgeDevice.Node.Turn.FailSafe`, `EdgeDevice.Node.FailSafe` — what a turn, what a call may do to
  the setpoint.

## Main results

* `EdgeDevice.Node.Turn.handled` — a turn ends in the consequences of its outcome, if it has one,
  and leaves the model alone up to there.
* `EdgeDevice.Node.failSafe_run` — whatever comes, every call is fail-safe.
-/

namespace EdgeDevice

/-- The setpoint of an actuator; a sensor has none. -/
def Model.setpoint? [RandomSource] : Model → Option Int
  | actuator a => some a.setpoint
  | sensor _ => none

/-- An actuator that is made safe is off. -/
theorem Model.setpoint?_makeSafe [RandomSource] {m : Model} (h : m.isSensor = false) :
    m.makeSafe.value.setpoint? = some Actuator.off := by
  cases m with
  | actuator a => simp [makeSafe, setpoint?, Actuator.value_switchOff]
  | sensor s => simp [isSensor] at h

/-- The outcome of an act, if it has one. -/
def SessionAct.outcome? : SessionAct → Option Outcome
  | opened _ (.resolved o) => some o
  | opened _ .pending => none
  | keptAlive _ o => some o
  | configured _ o => some o
  | published _ _ o => some o
  | abandoned => none

namespace Node

section

variable [RandomSource] {σ : Type}

/-! ## The setpoint of a node -/

/-- The setpoint of a node, if it is an actuator. -/
def setpoint? (n : Node σ) : Option Int := n.model.setpoint?

/-- **The setpoint is admissible**: the node is an actuator of its kind, and its setpoint is off or
inside the range of the kind. -/
def Admissible (n : Node σ) : Prop :=
  ∃ a : Actuator, n.model = .actuator a ∧ a.kind = n.identity.kind ∧ a.Accepts a.setpoint

/-- Whether a setpoint is admissible is a matter of the model and of the identity. -/
theorem Admissible.of_eq {n n' : Node σ} (h : n.Admissible) (hm : n'.model = n.model)
    (hi : n'.identity = n.identity) : n'.Admissible := by
  obtain ⟨a, ha, hk, hs⟩ := h
  exact ⟨a, hm.trans ha, hk.trans (congrArg Identity.kind hi.symm), hs⟩

/-- A node with an admissible setpoint is no sensor. -/
theorem Admissible.isSensor {n : Node σ} (h : n.Admissible) : n.model.isSensor = false := by
  obtain ⟨a, ha, -⟩ := h
  rw [ha]
  rfl

/-- An actuator that is made safe is switched off. -/
theorem Admissible.makeSafe {n : Node σ} (h : n.Admissible) :
    ∃ a : Actuator, n.model.makeSafe.value = .actuator a ∧ a.kind = n.identity.kind ∧
      a.setpoint = Actuator.off := by
  obtain ⟨a, ha, hk, -⟩ := h
  refine ⟨{ a with setpoint := Actuator.off }, ?_, hk, rfl⟩
  rw [ha]
  simp [Model.makeSafe, Actuator.value_switchOff]

/-- An actuator is switched off when it is built. -/
theorem admissible_of_create {identity : Identity} {channel : σ} {settings : NodeSettings}
    {n : Node σ} (hk : identity.kind.isActuator = true)
    (hn : create identity channel settings = .ok n) : n.Admissible := by
  obtain ⟨-, rfl⟩ := create_eq_ok_iff.1 hn
  exact ⟨.ofKind identity.kind, if_pos hk, rfl, .inl rfl⟩

/-- No event moves the setpoint by being posted. -/
theorem setpoint?_post (n : Node σ) (e : NodeEvent) :
    (n.post e).value.setpoint? = n.setpoint? := by
  unfold Node.post
  split <;> rfl

/-- No start moves the setpoint. -/
theorem setpoint?_start (n : Node σ) (now : Instant) :
    (n.start now).value.setpoint? = n.setpoint? := by
  rw [value_start]
  rfl

/-- What a command does to the setpoint, if it is answered with this code. -/
def Heeds (n n' : Node σ) (payload : Bytes) (code : Coap.Code) : Prop :=
  ∃ a a' : Actuator, n.model = .actuator a ∧ n'.model = .actuator a' ∧ a.Heeds payload code a'

variable [Channel σ]

/-! ## The outcome of a turn -/

/-- **The outcome that is dealt with in a turn**, if one is: what the channel answered to what it
was asked, or for a pending session what its change means, or that the wait for it is over. -/
def Turn.outcome? (t : Turn (Recorded σ)) : Option Outcome :=
  match t.event with
  | .timer .sessionDeadline => if t.node.awaiting then some .timedOut else none
  | .session change => if t.node.awaiting then some (outcomeOf change) else none
  | _ => t.acts.findSome? SessionAct.outcome?

/-- Whether an outcome is dealt with in a turn that did not come in time. -/
def Turn.timesOut (t : Turn (Recorded σ)) : Bool := t.outcome? == some .timedOut

/-- Apart from pending sessions an outcome is the answer to something that was asked. -/
theorem Turn.outcome?_of_event {t : Turn (Recorded σ)} (hs : ∀ change, t.event ≠ .session change)
    (hd : t.event ≠ .timer .sessionDeadline) :
    t.outcome? = t.acts.findSome? SessionAct.outcome? := by
  unfold outcome?
  split
  · exact absurd ‹_› hd
  · exact absurd ‹_› (hs _)
  · rfl

/-- What means nothing to the node has no outcome. -/
theorem Turn.outcome?_of_stale {t : Turn (Recorded σ)} (h : t.node.Stale t.event)
    (hv : t.after = t.node) : t.outcome? = none := by
  unfold outcome?
  split
  · rename_i he
    rw [he] at h
    rw [if_neg (by simpa [Stale] using h)]
  · rename_i he
    rw [he] at h
    rw [if_neg (by simpa using h.1)]
  · have hnil : t.acts = [] := Turn.acts_eq (by rw [hv, List.append_nil])
    rw [hnil]
    rfl

/-- A turn of an actuator deals with an outcome, and the consequences of that are the last thing it
does; or there is no outcome. Up to there the model is left alone. -/
inductive Turn.Handled (t : Turn (Recorded σ)) : Prop
  | outcome {m : Node (Recorded σ)} {o : Outcome} (hc : t.node.Concludes t.net t.event m o)
      (hm : m.model = t.node.model) (hs : m.state ≠ .notConnected) (ho : t.outcome? = some o)
  | nothing (hm : t.after.model = t.node.model) (ho : t.outcome? = none)

/-- A turn of an actuator ends in the consequences of its outcome, if there is one. -/
theorem Turn.handled {t : Turn (Recorded σ)} (hk : t.node.model.isSensor = false)
    (hw : t.node.awaiting = true → t.node.state = .connecting) : t.Handled := by
  have hr := t.reaction
  generalize he : t.event = e at hr
  generalize hv : t.after = n' at hr
  -- Where the channel is asked nothing, and no wait ends, there is no outcome.
  have hnothing : n'.model = t.node.model → n'.channel.acts = t.node.channel.acts →
      (∀ change, e ≠ .session change) → e ≠ .timer .sessionDeadline → t.Handled := by
    rintro hm hacts hs hd
    have hnil : t.acts = [] := Turn.acts_eq (by rw [hv, hacts, List.append_nil])
    refine .nothing (hv ▸ hm) ?_
    rw [Turn.outcome?_of_event (he ▸ hs) (he ▸ hd), hnil]
    rfl
  -- Where the channel is asked something, its answer is the outcome.
  have hasked : ∀ {m : Node (Recorded σ)} {a : SessionAct} {o : Outcome},
      t.node.Concludes t.net e m o → m.model = t.node.model → m.state ≠ .notConnected →
      n' = (m.conclude o).value → m.channel.acts = t.node.channel.acts ++ [a] →
      a.outcome? = some o → (∀ change, e ≠ .session change) → e ≠ .timer .sessionDeadline →
      t.Handled := by
    rintro m a o hc hm hs hn hacts ha hsession hdeadline
    have hcons : t.acts = a :: closing o := by
      refine Turn.acts_eq ?_
      rw [hv, hn, acts_conclude, hacts, List.append_assoc, List.singleton_append]
    refine .outcome (he ▸ hc) hm hs ?_
    rw [Turn.outcome?_of_event (he ▸ hsession) (he ▸ hdeadline), hcons, List.findSome?_cons, ha]
  cases hr with
  | stale h => exact .nothing (by rw [hv]) (Turn.outcome?_of_stale (he ▸ h) hv)
  | unavailable => exact hnothing rfl rfl (by simp) (by simp)
  | resolved hs hw' ha h =>
    have hacts := Recorded.acts_of_note h
    exact hasked (concludes_opening hs hw' ha h) rfl (by simp [located, hs]) rfl hacts rfl
      (by simp) (by simp)
  | pending hs hw' ha h =>
    have hacts := Recorded.acts_of_note h
    refine .nothing (by rw [hv]; rfl) ?_
    rw [Turn.outcome?_of_event (by simp [he]) (by simp [he]),
      Turn.acts_eq (by rw [hv]; exact hacts)]
    rfl
  | expired hw' =>
    have hc := concludes_deadline hw' t.net
    rw [← he] at hc
    exact .outcome hc rfl (by simp [hw hw']) (by simp [Turn.outcome?, he, hw'])
  | configured hs h =>
    have hacts := Recorded.acts_of_note h
    exact hasked (concludes_configuration hs h t.net) rfl (by simp [hs]) rfl hacts rfl (by simp)
      (by simp)
  | keptAlive hs hm h =>
    have hacts := Recorded.acts_of_note h
    exact hasked (concludes_keepAlive hs hm h t.net) rfl (by simp [hs]) rfl hacts rfl (by simp)
      (by simp)
  | published hs hm => simp [hk] at hm
  | unreadable hs hm => simp [hk] at hm
  | blinked => exact hnothing rfl rfl (by simp) (by simp)
  | held => exact hnothing rfl rfl (by simp) (by simp)
  | reconnected =>
    rw [value_beginConnecting] at hnothing
    exact hnothing rfl rfl (by simp) (by simp)
  | released => exact hnothing rfl rfl (by simp) (by simp)
  | pressed => exact hnothing rfl rfl (by simp) (by simp)
  | chosen => exact hnothing rfl rfl (by simp) (by simp)
  | @answered change hw' =>
    have hc := concludes_change hw' t.net change
    rw [← he] at hc
    exact .outcome hc rfl (by simp [cancel, hw hw']) (by simp [Turn.outcome?, he, hw'])
  | lost hw' hs =>
    refine .nothing (by rw [hv, value_dropSession]) ?_
    simp [Turn.outcome?, he, hw']

/-! ## What a turn does to the setpoint -/

/-- **What a turn may do to the setpoint.** Where an outcome did not come in time, the turn gives up
the session as the last thing it does, and by then the setpoint is off. Any other turn leaves the
setpoint alone, whether it deals with a refusal, with a change of the session, or with anything
else. -/
structure Turn.FailSafe (t : Turn (Recorded σ)) : Prop where
  timedOut : t.outcome? = some .timedOut →
    t.after.setpoint? = some Actuator.off ∧
      ∃ x : Logged (Node (Recorded σ)), t.node.handle t.net t.event = x >>= dropSession ∧
        x.value.setpoint? = some Actuator.off ∧ x.value.state ≠ .notConnected
  rejected : t.outcome? = some .rejected → t.after.setpoint? = t.node.setpoint?
  reported : ∀ change, t.event = .session change → t.after.setpoint? = t.node.setpoint?
  kept : t.outcome? ≠ some .timedOut → t.after.setpoint? = t.node.setpoint?

/-- **Every turn is fail-safe**, and the setpoint is admissible after it. -/
theorem Turn.failSafe {t : Turn (Recorded σ)} (ha : t.node.Admissible)
    (hw : t.node.awaiting = true → t.node.state = .connecting) :
    t.FailSafe ∧ t.after.Admissible := by
  have hid : t.after.identity = t.node.identity := t.reaction.frame.1
  have hkept : t.after.model = t.node.model → t.outcome? ≠ some .timedOut →
      t.FailSafe ∧ t.after.Admissible := by
    intro hm ho
    have hsame : t.after.setpoint? = t.node.setpoint? := congrArg Model.setpoint? hm
    exact ⟨⟨fun h => absurd h ho, fun _ => hsame, fun _ _ => hsame, fun _ => hsame⟩,
      ha.of_eq hm hid⟩
  cases Turn.handled ha.isSensor hw with
  | nothing hm ho => exact hkept hm (by simp [ho])
  | @outcome m o hc hm hs ho =>
    obtain ⟨x, hx, hh⟩ := hc
    have hv : t.after = (m.conclude o).value := by
      rw [Turn.after, hh, Logged.value_bind, hx]
    cases o with
    | accepted =>
      exact hkept (by rw [hv, value_conclude_accepted, value_goOn, hm]) (by simp [ho])
    | rejected =>
      exact hkept (by rw [hv, value_conclude_rejected, value_dropSession, hm]) (by simp [ho])
    | timedOut =>
      obtain ⟨a, hsafe, hk, hoff⟩ := ha.makeSafe
      have hmodel : t.after.model = .actuator a := by
        rw [hv, value_conclude_timedOut, value_dropSession]
        dsimp only
        rw [hm, hsafe]
      have hset : t.after.setpoint? = some Actuator.off := by
        rw [setpoint?, hmodel, Model.setpoint?, hoff]
      -- By the time the session is given up the model was made safe.
      refine ⟨⟨fun _ => ⟨hset, x >>= makeSafe, ?_, ?_, ?_⟩, fun h => ?_, fun change he => ?_,
        fun h => absurd ho h⟩, a, hmodel, hk.trans (congrArg Identity.kind hid.symm), .inl hoff⟩
      · rw [hh, bind_assoc]
        rfl
      · rw [Logged.value_bind, hx]
        show (m.model.makeSafe.value).setpoint? = _
        rw [hm, hsafe, Model.setpoint?, hoff]
      · rw [Logged.value_bind, hx]
        exact hs
      · simp [ho] at h
      · cases change <;> simp [Turn.outcome?, he, outcomeOf] at ho

/-! ## What a poll does to the setpoint -/

/-- The setpoint after some turns: off if an outcome did not come in time in one of them, and as it
was before otherwise. -/
def setpointAfter (s : Option Int) (turns : List (Turn (Recorded σ))) : Option Int :=
  if turns.any Turn.timesOut then some Actuator.off else s

/-- The setpoint after a turn that is fail-safe is what the turns so far make of it. -/
theorem Turn.FailSafe.setpoint? {t : Turn (Recorded σ)} (h : t.FailSafe) {s : Option Int}
    {turns : List (Turn (Recorded σ))} (hs : t.node.setpoint? = setpointAfter s turns) :
    t.after.setpoint? = setpointAfter s (turns ++ [t]) := by
  by_cases ho : t.outcome? = some .timedOut
  · rw [(h.timedOut ho).1]
    simp [setpointAfter, Turn.timesOut, ho]
  · rw [h.kept ho, hs]
    simp [setpointAfter, Turn.timesOut, ho]

/-- What is known in the middle of a poll: the turns so far were fail-safe, each in front of a node
with the setpoint that the turns before it have led to. -/
structure PollSafe (s : Option Int) (turns : List (Turn (Recorded σ))) (n : Node (Recorded σ)) :
    Prop where
  connecting_of_awaiting : n.awaiting = true → n.state = .connecting
  admissible : n.Admissible
  setpoint : n.setpoint? = setpointAfter s turns
  turn : ∀ before t after, turns = before ++ t :: after →
    t.FailSafe ∧ t.node.Admissible ∧ t.node.setpoint? = setpointAfter s before

/-- What is known in the middle of a poll is a matter of the state, of the wait for the session, of
the model and of the identity. -/
theorem PollSafe.of_eq {s : Option Int} {turns : List (Turn (Recorded σ))}
    {n n' : Node (Recorded σ)} (h : PollSafe s turns n) (hs : n'.state = n.state)
    (hw : n'.awaiting = n.awaiting) (hm : n'.model = n.model) (hi : n'.identity = n.identity) :
    PollSafe s turns n' := by
  refine ⟨?_, h.admissible.of_eq hm hi, ?_, h.turn⟩
  · rw [hs, hw]
    exact h.connecting_of_awaiting
  · rw [setpoint?, hm]
    exact h.setpoint

/-- What is known in the middle of a poll stays known with every turn. -/
theorem pollSafe_kept (s : Option Int) : Kept fun h (n : Node (Recorded σ)) => PollSafe s h n where
  take h hi := by cases hi <;> exact h.of_eq rfl rfl rfl rfl
  turn {_ t _} h _ := by
    have hn : PollSafe s _ t.node := h.of_eq rfl rfl rfl rfl
    obtain ⟨hsafe, hadm⟩ := Turn.failSafe hn.admissible hn.connecting_of_awaiting
    exact ⟨t.reaction.connecting_of_awaiting hn.connecting_of_awaiting, hadm,
      hsafe.setpoint? hn.setpoint,
      forall_split_concat hn.turn ⟨hsafe, hn.admissible, hn.setpoint⟩⟩

/-! ## What a call does to the setpoint -/

/-- **What a call may do to the setpoint.** A command sets it to what was asked for if it is
answered by 2.05 and leaves it alone otherwise. In a poll every turn is fail-safe; afterwards the
setpoint is off if an outcome did not come in time, and as it was before otherwise. Nothing else
moves it. -/
def FailSafe [Json.Writer] (n : Node (Recorded σ)) : Call (Recorded σ) → Prop
  | .post edge => (n.call (.post edge)).setpoint? = n.setpoint?
  | .put payload => n.Heeds (n.call (.put payload)) payload (n.put payload).value.1.code
  | .answer request =>
    n.Heeds (n.call (.answer request)) request.payload.bytes (n.answer request).value.1.code
  | .outside change => (n.call (.outside change)).setpoint? = n.setpoint?
  | .poll now nets =>
    (∀ before t after, n.turnsOf (.poll now nets) = before ++ t :: after →
      t.FailSafe ∧ t.node.Admissible ∧ t.node.setpoint? = setpointAfter n.setpoint? before) ∧
      (n.call (.poll now nets)).setpoint? =
        setpointAfter n.setpoint? (n.turnsOf (.poll now nets))

/-- What is known between calls. -/
structure Guarded (n : Node (Recorded σ)) : Prop where
  connecting_of_awaiting : n.awaiting = true → n.state = .connecting
  admissible : n.Admissible

/-- A poll that starts guarded is safe as a whole. -/
theorem Guarded.pollSafe [Json.Writer] {n : Node (Recorded σ)} (h : n.Guarded) (now : Instant)
    (nets : Nat → Connectivity) :
    PollSafe n.setpoint? (n.turnsOf (.poll now nets)) (n.call (.poll now nets)) := by
  have hstart : PollSafe n.setpoint? [] { n with now := now } :=
    ⟨h.connecting_of_awaiting, h.admissible.of_eq rfl rfl, rfl,
      fun before t after ht => by simp at ht⟩
  rw [turnsOf_poll, call_poll]
  exact (pollSafe_kept n.setpoint?).takeTurns nets _ hstart

/-- **Every call of a guarded node is fail-safe.** -/
theorem Guarded.failSafe [Json.Writer] {n : Node (Recorded σ)} (h : n.Guarded)
    (c : Call (Recorded σ)) : n.FailSafe c := by
  cases c with
  | post edge => exact n.setpoint?_post edge.event
  | poll now nets =>
    have hp := h.pollSafe now nets
    exact ⟨hp.turn, hp.setpoint⟩
  | put payload =>
    obtain ⟨a, ha, -⟩ := h.admissible
    obtain ⟨a', ha', hh⟩ := a.heeds_put payload
    rw [← ha] at ha' hh
    exact ⟨a, a', ha, ha', hh⟩
  | answer request =>
    obtain ⟨a, ha, -⟩ := h.admissible
    obtain ⟨a', ha', hh⟩ := a.heeds_answer request n.replyId
    rw [← ha] at ha' hh
    exact ⟨a, a', ha, ha', hh⟩
  | outside change => rfl

/-- **Nothing that comes breaks what is known between calls**, as long as the model is left to the
node. -/
theorem guarded_robust [Json.Writer] :
    Robust (fun _ _ : Recorded σ => True) Eq fun _ (n : Node (Recorded σ)) => n.Guarded where
  post _ h _ := ⟨h.connecting_of_awaiting, h.admissible.of_eq rfl rfl⟩
  command _ h hm := by
    obtain ⟨a, ha, hk, hs⟩ := h.admissible
    obtain ⟨a', rfl, hk', hs'⟩ := Actuator.accepts_of_commanded (ha ▸ hm) hs
    exact ⟨h.connecting_of_awaiting, a', rfl, hk'.trans hk, hs'⟩
  outside h _ := ⟨h.connecting_of_awaiting, h.admissible.of_eq rfl rfl⟩
  tick _ h := ⟨h.connecting_of_awaiting, h.admissible.of_eq rfl rfl⟩
  take h hi := by cases hi <;> exact ⟨h.connecting_of_awaiting, h.admissible.of_eq rfl rfl⟩
  turn {_ t _} h _ :=
    ⟨t.reaction.connecting_of_awaiting h.connecting_of_awaiting,
      (Turn.failSafe (h.admissible.of_eq rfl rfl) h.connecting_of_awaiting).2⟩
  start now h := by
    rw [value_start]
    exact ⟨fun _ => rfl, h.admissible.of_eq rfl rfl⟩
  enqueue _ h _ := ⟨h.connecting_of_awaiting, h.admissible.of_eq rfl rfl⟩
  amend h hm := ⟨h.connecting_of_awaiting, h.admissible.of_eq hm.symm rfl⟩

/-- **Actuators are fail-safe.** Whatever comes to an actuator, as long as its model is left to it,
its setpoint is off or inside the range of its kind, and every call that may come next is fail-safe;
a start and an event that is posted, of whatever kind, leave the setpoint alone. -/
theorem failSafe_run [Json.Writer] {identity : Identity} {channel : σ} {settings : NodeSettings}
    {n : Node (Recorded σ)} (hk : identity.kind.isActuator = true)
    (hn : create identity ⟨channel, []⟩ settings = .ok n) {is : List (Input σ)}
    (his : ∀ i ∈ is, i.Keeps (fun _ _ => True) Eq) :
    let m := n.inputs (is.map (Input.lift Recorded.onChannel))
    m.Admissible ∧ (∀ c : Call σ, m.FailSafe (c.lift Recorded.onChannel)) ∧
      (∀ now, (m.start now).value.setpoint? = m.setpoint?) ∧
      ∀ e, (m.post e).value.setpoint? = m.setpoint? := by
  intro m
  obtain ⟨-, -, -, hw⟩ := idle_of_create hn
  have hfirst : n.Guarded :=
    ⟨fun h => absurd (hw.symm.trans h) (by decide), admissible_of_create hk hn⟩
  have hlift : ∀ i ∈ is.map (Input.lift Recorded.onChannel), i.Keeps (fun _ _ => True) Eq := by
    intro i hi
    obtain ⟨i, hmem, rfl⟩ := List.mem_map.1 hi
    exact (his i hmem).lift _
  have hm : m.Guarded := guarded_robust.inputs (h := []) hfirst hlift
  exact ⟨hm.admissible, fun c => hm.failSafe _, m.setpoint?_start, m.setpoint?_post⟩

end

/-- A thermostat connects at the tenth second and is then told to heat to 20 degrees. -/
def heating : List (Input ScriptedChannel) :=
  [.start .start, .call (.poll (.ofSeconds 10) fun _ => ⟨true, none⟩),
    .call (.put [0x7b, 0x22, 0x74, 0x22, 0x3a, 0x32, 0x30, 0x7d])]

/-- When nobody answers half a minute later, it is off. -/
theorem failSafe_run_heating :
    thermostat.kind.isActuator = true ∧ (∀ i ∈ heating, i.Keeps (fun _ _ => True) Eq) ∧
      ∃ n : Node (Recorded ScriptedChannel),
        create thermostat ⟨{ keepingAlive := .timedOut }, []⟩ {} = .ok n ∧
          let m := n.inputs (heating.map (Input.lift Recorded.onChannel))
          m.setpoint? = some 20 ∧
            (m.call (.poll (.ofSeconds 40) fun _ => ⟨true, none⟩)).setpoint? =
              some Actuator.off := by
  have hkeeps : ∀ i ∈ heating, i.Keeps (fun _ _ => True) Eq := by
    simp [heating, Input.Keeps, Call.Keeps]
  obtain ⟨n, hn⟩ : ∃ n : Node (Recorded ScriptedChannel),
      create thermostat ⟨{ keepingAlive := .timedOut }, []⟩ {} = .ok n := ⟨_, rfl⟩
  have h := ((failSafe_run rfl hn hkeeps).2.1 (.poll (.ofSeconds 40) fun _ => ⟨true, none⟩)).2
  obtain rfl := Except.ok.inj hn
  exact ⟨rfl, hkeeps, _, rfl, by decide +kernel, h.trans (by decide +kernel)⟩

end Node

end EdgeDevice
