import EdgeDevice.Proofs.Node.Phase
import EdgeDevice.Proofs.Node.Rest
import EdgeDevice.Proofs.Session.Record

set_option autoImplicit false
set_option relaxedAutoImplicit false

/-!
# What a node with a session does

A node with a session has five things to do in a turn: it deals with a short press, it tells the
chosen period, it does what is due every period, it loses the session without having sent anything,
or it does nothing that matters to the session. `Activity` is the list of these, with what is sent
and what becomes of the node.

## Main definitions

* `EdgeDevice.Node.Turn.IsPress`, `EdgeDevice.Node.Turn.sends` — a turn deals with a short press;
  what is sent in a turn.
* `EdgeDevice.Node.inSession` — the events that the node comes to while it has the session.
* `EdgeDevice.Node.Activity` — what a node with a session does in a turn.
* `EdgeDevice.Node.Ready`, `EdgeDevice.Node.Busy` — what holds of every node, between calls and in
  the middle of a poll.

## Main results

* `EdgeDevice.Node.Turn.activity` — a turn with a session is one of the five.
* `EdgeDevice.Node.Busy.take`, `EdgeDevice.Node.Busy.turn` — what holds of every node keeps holding.
-/

namespace EdgeDevice.Node

variable [RandomSource] {σ : Type}

/-! ## The events of a session -/

/-- Whether an event ends a session that is there before anything is sent: the session is lost, or a
reading is due that does not fit. -/
def endsSession (n : Node σ) : NodeEvent → Bool
  | .session .disconnected => true
  | .timer .cadence => n.model.isSensor && (n.model.sample.serialize n.identity).isNone
  | _ => false

/-- The events that wait in front of the first one that ends the session. -/
def inSession (n : Node σ) : List NodeEvent :=
  n.queue.events.takeWhile fun e => !n.endsSession e

/-- The events in the session are among those that wait. -/
theorem inSession_subset (n : Node σ) : n.inSession ⊆ n.queue.events := List.takeWhile_subset _

/-- Whether an event ends the session is a matter of the model and of the identity. -/
theorem endsSession_congr {n n' : Node σ} (hm : n'.model = n.model)
    (hi : n'.identity = n.identity) : n'.endsSession = n.endsSession := by
  funext e
  simp only [endsSession, hm, hi]

/-- An event that means nothing to a node with a session leaves the session alone. -/
theorem endsSession_of_stale {n : Node σ} {e : NodeEvent} (hs : n.state = .connected)
    (h : n.Stale e) : n.endsSession e = false := by
  cases e with
  | timer id =>
    cases id with
    | cadence => exact absurd hs h
    | _ => rfl
  | session change =>
    cases change with
    | connected => rfl
    | disconnected => exact absurd ⟨rfl, hs⟩ h.2
  | _ => rfl

/-- An event that comes in last is in the session if the others leave the session alone. -/
theorem mem_inSession_append {n n' : Node σ} {e e' : NodeEvent} (h : e' ∈ n'.inSession)
    (hq : n'.queue.events = n.queue.events ++ [e]) (hm : n'.model = n.model)
    (hi : n'.identity = n.identity) : e' ∈ n.inSession ∨ e' = e := by
  rw [inSession, hq, endsSession_congr hm hi, List.takeWhile_append] at h
  split at h
  · rename_i hlen
    rw [List.mem_append] at h
    refine h.imp (fun h => ?_) fun h => List.mem_singleton.1 (List.takeWhile_subset _ h)
    rwa [inSession, (List.takeWhile_prefix _).eq_of_length hlen]
  · exact .inl h

/-- An event that comes in last takes none of the others out of the session. -/
theorem inSession_subset_append {n n' : Node σ} {e : NodeEvent}
    (hq : n'.queue.events = n.queue.events ++ [e]) (hm : n'.model = n.model)
    (hi : n'.identity = n.identity) : n.inSession ⊆ n'.inSession := by
  rw [inSession, inSession, hq, endsSession_congr hm hi, List.takeWhile_append]
  split
  · exact List.subset_append_of_subset_left _ (List.takeWhile_subset _)
  · exact List.Subset.refl _

/-- Of the events in the session the one in front is dealt with, and the others stay. -/
theorem Turn.inSession_eq {t : Turn σ} {q : EventQueue}
    (hq : q.events = t.event :: t.node.queue.events) :
    inSession { t.node with queue := q } =
      if t.node.endsSession t.event then [] else t.event :: t.node.inSession := by
  have hends : endsSession { t.node with queue := q } = t.node.endsSession :=
    endsSession_congr rfl rfl
  rw [inSession, hends, hq, List.takeWhile_cons, inSession]
  cases t.node.endsSession t.event <;> rfl

/-! ## What a node with a session does in a turn -/

section

variable [Channel σ]

/-- A turn deals with a short press while there is a session. -/
def Turn.IsPress (t : Turn σ) : Prop :=
  t.event = .buttonReleased ∧ t.node.state = .connected ∧
    t.node.button.elapsed < t.node.button.threshold

instance (t : Turn σ) : Decidable t.IsPress := inferInstanceAs (Decidable (_ ∧ _ ∧ _))

/-- What the channel is asked to pass on in a turn. -/
def Turn.sends (t : Turn (Recorded σ)) : List SessionAct := t.acts.filter SessionAct.isSend

/-- **What a node with a session does in a turn**, with what it sends and what becomes of it. It is
told the outcome of what it sends, and goes on or gives up the session. -/
inductive Activity (t : Turn (Recorded σ)) : Prop
  | pressed (hp : t.IsPress) (hs : t.sends = [])
      (hv : t.after =
        ({ t.node with button := t.node.button.release.2, dial := t.node.dial.turn }.cancel
          .cadence).arm .configuration t.node.settings.configurationDelay)
  | idle {b : Button} (hp : ¬t.IsPress) (hs : t.sends = [])
      (he : t.node.endsSession t.event = false) (hcad : t.event ≠ .timer .cadence)
      (hconf : t.event ≠ .timer .configuration)
      (hv : t.after = { t.node with button := b })
  | ended (hp : ¬t.IsPress) (hs : t.sends = []) (he : t.node.endsSession t.event = true)
      (hv : t.after.state = .notConnected)
  | told {o : Outcome} {c : Recorded σ} (he : t.event = .timer .configuration)
      (hs : t.sends = [.configured t.node.context o])
      (hv : t.after = ({ t.node with channel := c }.conclude o).value)
  | beaten {a : SessionAct} {o : Outcome} {m : Model} {c : Recorded σ}
      (he : t.event = .timer .cadence) (hends : t.node.endsSession t.event = false)
      (hs : t.sends = [a]) (ha : ∀ ctx o, a ≠ .configured ctx o)
      (hv : t.after = ({ t.node with model := m, channel := c }.conclude o).value)

/-- An act that was written down is what was sent, whatever became of the session. -/
theorem Turn.sends_of_conclude {t : Turn (Recorded σ)} {m : Node (Recorded σ)} {o : Outcome}
    {acts : List SessionAct} (hm : m.channel.acts = t.node.channel.acts ++ acts)
    (hv : t.after = (m.conclude o).value) (ha : ∀ a ∈ acts, a.isSend = true) :
    t.sends = acts := by
  have hacts : t.acts = acts ++ closing o := by
    refine Turn.acts_eq ?_
    rw [hv, acts_conclude, hm, List.append_assoc]
  have hclosing : (closing o).filter SessionAct.isSend = [] := by cases o <;> rfl
  rw [Turn.sends, hacts, List.filter_append, hclosing, List.append_nil, List.filter_eq_self.2 ha]

/-- Where the record stays as it is, nothing was sent. -/
theorem Turn.sends_of_acts_eq {t : Turn (Recorded σ)}
    (h : t.after.channel.acts = t.node.channel.acts) : t.sends = [] := by
  have hacts : t.acts = [] := Turn.acts_eq (by rw [h, List.append_nil])
  rw [Turn.sends, hacts, List.filter_nil]

/-- **A turn with a session is one of the five**, unless the node still waits for that session. -/
theorem Turn.activity {t : Turn (Recorded σ)} (hs : t.node.state = .connected)
    (hw : t.node.awaiting = false) : Activity t := by
  have hr := t.reaction
  have hpress : t.event ≠ .buttonReleased → ¬t.IsPress := fun he hp => he hp.1
  generalize he : t.event = e at hr hpress
  generalize hv : t.after = n' at hr
  cases hr with
  | unavailable hs' => simp [hs] at hs'
  | resolved hs' => simp [hs] at hs'
  | pending hs' => simp [hs] at hs'
  | blinked hs' => simp [hs] at hs'
  | reconnected hs' => simp [hs] at hs'
  | chosen h hs' => exact absurd hs hs'
  | expired hw' => simp [hw] at hw'
  | answered hw' => simp [hw] at hw'
  | stale h =>
    have hends : t.node.endsSession t.event = false := by
      rw [he]
      exact endsSession_of_stale hs h
    refine .idle (hpress ?_) (Turn.sends_of_acts_eq (by rw [hv])) hends ?_ ?_ hv
    · rintro rfl
      exact h
    · rw [he]
      rintro rfl
      exact h hs
    · rw [he]
      rintro rfl
      exact h hs
  | held h =>
    exact .idle (hpress (by simp)) (Turn.sends_of_acts_eq (by rw [hv])) (by rw [he]; rfl)
      (by simp [he]) (by simp [he]) hv
  | released h =>
    refine .idle (fun hp => Nat.not_lt.2 h hp.2.2) (Turn.sends_of_acts_eq (by rw [hv]))
      (by rw [he]; rfl) (by simp [he]) (by simp [he]) hv
  | pressed h =>
    refine .pressed ⟨he, hs, h⟩ (Turn.sends_of_acts_eq ?_) hv
    rw [hv]
    rfl
  | configured hs' h =>
    have hacts := Recorded.acts_of_note h
    exact .told he (Turn.sends_of_conclude hacts hv (by simp [SessionAct.isSend])) hv
  | keptAlive hs' hm h =>
    have hacts := Recorded.acts_of_note h
    exact .beaten he (by simp [he, endsSession, hm])
      (Turn.sends_of_conclude hacts hv (by simp [SessionAct.isSend])) (by simp) hv
  | published hs' hm hr h =>
    have hacts := Recorded.acts_of_note h
    exact .beaten he (by simp [he, endsSession, hr])
      (Turn.sends_of_conclude hacts hv (by simp [SessionAct.isSend])) (by simp) hv
  | unreadable hs' hm hr =>
    -- The session is given up before the reading could be sent.
    refine .ended (hpress (by simp)) (Turn.sends_of_conclude ?_ hv ?_) ?_ ?_
    · exact (List.append_nil _).symm
    · simp
    · simp [he, endsSession, hm, hr]
    · simp [hv, value_dropSession]
  | lost =>
    refine .ended (hpress (by simp)) (Turn.sends_of_conclude (o := .rejected) ?_ hv ?_) ?_ ?_
    · exact (List.append_nil _).symm
    · simp
    · rw [he]
      rfl
    · simp [hv, value_dropSession]

/-- A press sends nothing; it takes back the cadence and sets the push of the chosen period anew. -/
theorem Turn.IsPress.value {t : Turn (Recorded σ)} (hp : t.IsPress) (h : Activity t) :
    t.sends = [] ∧ t.after =
      ({ t.node with button := t.node.button.release.2, dial := t.node.dial.turn }.cancel
        .cadence).arm .configuration t.node.settings.configurationDelay := by
  cases h with
  | pressed _ hs hv => exact ⟨hs, hv⟩
  | idle hp' => exact absurd hp hp'
  | ended hp' => exact absurd hp hp'
  | told he => simp [hp.1] at he
  | beaten he => simp [hp.1] at he

/-! ## What holds of every node -/

/-- What holds of a node between calls. -/
structure Ready (n : Node σ) : Prop where
  timed : n.Timed
  connecting_of_awaiting : n.awaiting = true → n.state = .connecting
  onlyButtons : n.OnlyButtons

/-- What holds of a node in the middle of a poll. -/
structure Busy (n : Node σ) : Prop where
  timed : n.Timed
  connecting_of_awaiting : n.awaiting = true → n.state = .connecting
  beforeLast : n.now < .last
  /-- The chosen period is told at most once in a poll. -/
  once : n.waiting .configuration ≤ 1

omit [Channel σ] in
/-- What the user does keeps a node ready. -/
theorem Ready.post {n : Node σ} {q : EventQueue} {edge : ButtonEdge} (h : n.Ready)
    (hq : q.events = n.queue.events ++ [edge.event]) : Ready { n with queue := q } :=
  ⟨⟨h.timed.settings, h.timed.dial⟩, h.connecting_of_awaiting, h.onlyButtons.post hq⟩

omit [Channel σ] in
/-- A request keeps a node ready, whatever it makes of the model. -/
theorem Ready.command {n : Node σ} (h : n.Ready) (m : Model) (id : UInt16) :
    Ready { n with model := m, replyId := id } :=
  ⟨⟨h.timed.settings, h.timed.dial⟩, h.connecting_of_awaiting, h.onlyButtons⟩

omit [Channel σ] in
/-- What the other side of the channel does keeps a node ready. -/
theorem Ready.outside {n : Node σ} (h : n.Ready) (c : σ) : Ready { n with channel := c } :=
  ⟨⟨h.timed.settings, h.timed.dial⟩, h.connecting_of_awaiting, h.onlyButtons⟩

omit [Channel σ] in
/-- The passing of time keeps a node ready. -/
theorem Ready.tick {n : Node σ} (h : n.Ready) (now : Instant) : Ready { n with now := now } :=
  ⟨⟨h.timed.settings, h.timed.dial⟩, h.connecting_of_awaiting, h.onlyButtons⟩

omit [Channel σ] in
/-- A node that is ready can start a poll before the last instant. Nothing but the user's events
waits, so that the chosen period is told once in the poll, if it is told at all. -/
theorem Ready.enter {n : Node σ} {now : Instant} (h : n.Ready) (hl : now < .last) :
    Busy { n with now := now } := by
  refine ⟨⟨h.timed.settings, h.timed.dial⟩, h.connecting_of_awaiting, hl, ?_⟩
  have hcount := List.count_eq_zero.2 (h.onlyButtons.timer_notMem .configuration)
  rw [waiting]
  dsimp only
  rw [hcount]
  split <;> omega

omit [Channel σ] in
/-- A node that has nothing left to deal with is ready again. -/
theorem Busy.leave {n : Node σ} (h : n.Busy) (hq : n.queue.events = []) : n.Ready :=
  ⟨h.timed, h.connecting_of_awaiting, onlyButtons_of_nil hq⟩

/-- An intake breaks nothing: no timer is dealt with more often for having been taken. -/
theorem Busy.take {n n' : Node σ} (h : n.Busy) (hi : Intake n n') : n'.Busy := by
  refine ⟨hi.timed h.timed, ?_, hi.now_eq ▸ h.beforeLast, hi.waiting_eq _ ▸ h.once⟩
  cases hi with
  | full => exact h.connecting_of_awaiting
  | change => exact h.connecting_of_awaiting
  | timer => exact h.connecting_of_awaiting
  | nothing => exact h.connecting_of_awaiting

/-- A turn breaks nothing: what it sets is not due before the poll is over. -/
theorem Busy.turn {t : Turn σ} {q : EventQueue} (h : Busy { t.node with queue := q })
    (hq : q.events = t.event :: t.node.queue.events) : t.after.Busy := by
  have htimed : t.node.Timed := ⟨h.timed.settings, h.timed.dial⟩
  have hwait : t.after.waiting .configuration ≤ t.node.waiting .configuration :=
    t.waiting_after_le htimed h.beforeLast (by simp)
  have honce : t.node.waiting .configuration ≤ 1 := by
    refine Nat.le_trans ?_ h.once
    simp only [waiting, hq]
    exact Nat.add_le_add_right (List.count_le_count_cons ..) _
  exact ⟨t.reaction.timed htimed, t.reaction.connecting_of_awaiting h.connecting_of_awaiting,
    t.reaction.frame.2.2.2 ▸ h.beforeLast, Nat.le_trans hwait honce⟩

omit [Channel σ] in
/-- While the chosen period is being told, it does not wait to be told again. -/
theorem Busy.not_mem_of_cons {t : Turn σ} {q : EventQueue} (h : Busy { t.node with queue := q })
    (hq : q.events = t.event :: t.node.queue.events) (he : t.event = .timer .configuration) :
    .timer .configuration ∉ t.node.queue.events := by
  intro hm
  have honce := h.once
  have hpos := List.count_pos_iff.2 hm
  simp only [waiting, hq, he, List.count_cons_self] at honce
  omega

/-- In the middle of a poll a node with a session waits for none. -/
theorem Busy.activity {t : Turn (Recorded σ)} {q : EventQueue}
    (h : Busy { t.node with queue := q }) (hs : t.node.state = .connected) : Activity t :=
  t.activity hs (awaiting_of_ne_connecting h.connecting_of_awaiting (by simp [hs]))

omit [Channel σ] in
/-- A node that was just started is ready. -/
theorem ready_start {identity : Identity} {channel : σ} {settings : NodeSettings} {n : Node σ}
    (hn : create identity channel settings = .ok n) (i : Instant) : (n.start i).value.Ready := by
  obtain ⟨-, -, hq, hw⟩ := idle_of_create hn
  refine ⟨(timed_of_create hn).start i, fun _ => by rw [value_start], onlyButtons_of_nil ?_⟩
  rw [value_start]
  exact congrArg EventQueue.events hq

end

end EdgeDevice.Node
