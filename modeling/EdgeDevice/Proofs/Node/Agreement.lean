import EdgeDevice.Proofs.Mqtt.Session
import EdgeDevice.Proofs.Node.Phase
import EdgeDevice.Proofs.Node.Rest
import EdgeDevice.Simulation.Counterpart
import EdgeDevice.Simulation.Wire

set_option autoImplicit false
set_option relaxedAutoImplicit false

/-!
# Node and broker session agree

A node keeps its own account of the session, and so does the client it talks to the broker with. The
two are told of the same things at different times: a change that the client has found waits in the
queue until the node deals with it, behind what the user did. Between calls they agree.

In between, the client is ahead of the node by the changes that wait. What makes that work is an
order: what the user did is dealt with before anything that came in during the poll. So when the
user asks to connect again no change from an earlier session is left that could be taken for an
answer.

## Main definitions

* `EdgeDevice.Node.changes` — the changes among the events that wait.
* `EdgeDevice.Node.Coupled` — the client is ahead of the node by the changes that wait.
* `EdgeDevice.Node.Agrees` — node and client agree.

## Main results

* `EdgeDevice.Node.Reaction.coupled`, `EdgeDevice.Node.Intake.coupled` — no turn breaks the
  coupling.
* `EdgeDevice.Node.agrees_run` — between calls node and client agree.
-/

namespace EdgeDevice

/-- The phase a client sees. -/
def Mqtt.Session.phase : Mqtt.Session → SessionPhase
  | idle => .closed
  | awaiting => .asked
  | connected => .granted

/-- The phase of a client tells its session. -/
theorem Mqtt.Session.phase_inj {s s' : Mqtt.Session} (h : s.phase = s'.phase) : s = s' := by
  cases s <;> cases s' <;> first | rfl | cases h

namespace Node

/-- The changes among events, in order. -/
def changes (es : List NodeEvent) : List SessionChange :=
  es.filterMap fun
    | .session change => some change
    | _ => none

/-- Where nothing waits, no change waits. -/
@[simp] theorem changes_nil : changes [] = [] := rfl

/-- A timer that has fired is no change. -/
@[simp] theorem changes_timer (id : TimerId) (es : List NodeEvent) :
    changes (.timer id :: es) = changes es := rfl

/-- A change is the first one if it is in front. -/
@[simp] theorem changes_session (change : SessionChange) (es : List NodeEvent) :
    changes (.session change :: es) = change :: changes es := rfl

/-- A second of a press is no change. -/
@[simp] theorem changes_buttonHeld (es : List NodeEvent) :
    changes (.buttonHeld :: es) = changes es := rfl

/-- The end of a press is no change. -/
@[simp] theorem changes_buttonReleased (es : List NodeEvent) :
    changes (.buttonReleased :: es) = changes es := rfl

/-- The changes of two lists follow each other as the lists do. -/
@[simp] theorem changes_append (es es' : List NodeEvent) :
    changes (es ++ es') = changes es ++ changes es' := List.filterMap_append

section

variable [RandomSource] {τ : Type}

/-- **The client is ahead of the node by the changes that wait**, where `es` still has to be dealt
with. -/
structure Coupled (es : List NodeEvent) (n : Node (BrokerSession τ)) : Prop where
  connecting_of_awaiting : n.awaiting = true → n.state = .connecting
  tidy : n.channel.client.Tidy
  /-- What the user did comes first. -/
  buttons : es.Pairwise fun e e' => e'.isButton = true → e.isButton = true
  session : n.channel.client.session.phase = (changes es).foldl SessionPhase.settle n.phase
  /-- No change waits that could be taken for the answer to a session still to be asked for. -/
  quiet : n.phase = .closed → (n.state = .connecting ∨ ∃ e ∈ es, e.isButton = true) →
    changes es = []

namespace Coupled

variable {es : List NodeEvent} {e : NodeEvent} {n n' : Node (BrokerSession τ)}

/-- The coupling is a matter of the state, of the wait for the session and of the client. -/
theorem of_eq (h : Coupled es n) (hs : n'.state = n.state) (hw : n'.awaiting = n.awaiting)
    (ho : n'.channel.client.isOpen = n.channel.client.isOpen)
    (hc : n'.channel.client.session = n.channel.client.session) : Coupled es n' := by
  have hph := phase_congr hs hw
  refine ⟨?_, ?_, h.buttons, ?_, ?_⟩
  · rw [hs, hw]
    exact h.connecting_of_awaiting
  · rw [Mqtt.Client.Tidy, ho, hc]
    exact h.tidy
  · rw [hc, hph]
    exact h.session
  · rw [hs, hph]
    exact h.quiet

/-- Behind an event that is not of the user there is none of the user. -/
theorem not_button (h : Coupled (e :: es) n) (he : e.isButton = false) :
    ¬∃ e ∈ es, e.isButton = true := by
  rintro ⟨e', he', hb⟩
  have := List.rel_of_pairwise_cons h.buttons he' hb
  simp [he] at this

/-- An event that leaves the node as it is, because it changes nothing about the session. -/
theorem tail (h : Coupled (e :: es) n)
    (he : ∀ change, e = .session change → n.phase.settle change = n.phase) : Coupled es n := by
  refine ⟨h.connecting_of_awaiting, h.tidy, (List.pairwise_cons.1 h.buttons).2, ?_, ?_⟩
  · have := h.session
    cases e with
    | session change => rwa [changes_session, List.foldl_cons, he change rfl] at this
    | _ => exact this
  · intro hph hor
    have hq := h.quiet hph (hor.imp_right fun ⟨e', he', hb⟩ =>
      ⟨e', List.mem_cons_of_mem e he', hb⟩)
    cases e with
    | session change => simp at hq
    | _ => exact hq

end Coupled

variable [Json.Writer] [DialLink τ]

/-- A session that was given up: there is none on either side. -/
theorem coupled_dropSession {es : List NodeEvent} {n : Node (BrokerSession τ)}
    (hp : es.Pairwise fun e e' => e'.isButton = true → e.isButton = true)
    (hb : ¬∃ e ∈ es, e.isButton = true) : Coupled es n.dropSession.value := by
  have hph : n.dropSession.value.phase = .closed := phase_conclude n .rejected
  refine ⟨?_, ?_, hp, ?_, ?_⟩
  · simp [value_dropSession]
  · rw [value_dropSession]
    exact ⟨nofun, fun h => absurd rfl h⟩
  · rw [hph, SessionPhase.foldl_settle_closed, value_dropSession]
    rfl
  · rintro - (hs | hs)
    · simp [value_dropSession] at hs
    · exact absurd hs hb

/-- An outcome that is accepted in a session that the client still has, or that is not accepted. -/
theorem coupled_conclude {es : List NodeEvent} {n : Node (BrokerSession τ)} {o : Outcome}
    (hw : n.awaiting = false) (ht : n.channel.client.Tidy)
    (hp : es.Pairwise fun e e' => e'.isButton = true → e.isButton = true)
    (hb : ¬∃ e ∈ es, e.isButton = true)
    (hs : o = .accepted →
      n.channel.client.session.phase = (changes es).foldl SessionPhase.settle .granted) :
    Coupled es (n.conclude o).value := by
  cases o with
  | rejected => exact coupled_dropSession hp hb
  | timedOut => exact coupled_dropSession hp hb
  | accepted =>
    have hph : n.goOn.value.phase = .granted := phase_conclude n .accepted
    rw [value_conclude_accepted]
    refine ⟨?_, ?_, hp, ?_, ?_⟩
    · simp [value_goOn, hw]
    · rw [value_goOn]
      exact ht
    · rw [hph, value_goOn]
      exact hs rfl
    · intro h
      simp [hph] at h

/-- **Dealing with an event keeps the coupling.** -/
theorem Reaction.coupled {net : Connectivity} {n n' : Node (BrokerSession τ)} {e : NodeEvent}
    {es : List NodeEvent} (h : Reaction net n e n') (hn : Coupled (e :: es) n) :
    Coupled es n' := by
  have hp := (List.pairwise_cons.1 hn.buttons).2
  have hwait := awaiting_of_ne_connecting hn.connecting_of_awaiting
  -- Something was sent in a session: the client has the session it had.
  have hsent : ∀ (m : Node (BrokerSession τ)) (o : Outcome) (id : TimerId), e = .timer id →
      n.state = .connected → m.awaiting = n.awaiting →
      m.channel.client.session = n.channel.client.session ∧
        m.channel.client.isOpen = n.channel.client.isOpen →
      Coupled es (m.conclude o).value := by
    rintro m o id rfl hs hmw ⟨hms, hmo⟩
    have htidy : m.channel.client.Tidy := by
      rw [Mqtt.Client.Tidy, hms, hmo]
      exact hn.tidy
    refine coupled_conclude (hmw.trans (hwait (by simp [hs]))) htidy hp
      (hn.not_button rfl) fun _ => ?_
    have := hn.session
    rw [phase_of_connected hs] at this
    rw [hms]
    exact this
  cases h with
  | stale h =>
    refine hn.tail ?_
    rintro change rfl
    have : Reaction net n (.session change) n := .stale h
    exact (this.phase_of_session hn.connecting_of_awaiting).symm
  | unavailable hs hw ha => exact (hn.tail (by simp)).of_eq rfl rfl rfl rfl
  | resolved hs hw ha h =>
    obtain rfl := BrokerSession.eq_rejected_of_openSession h
    exact coupled_dropSession hp (hn.not_button rfl)
  | pending hs hw ha h =>
    obtain ⟨hcs, hco⟩ := BrokerSession.session_of_openSession h
    -- No change waits that could be taken for the answer to what is asked now.
    have hq : changes es = [] := hn.quiet (phase_of_idle (by simp [hs]) hw) (.inl hs)
    refine ⟨fun _ => hs, ?_, hp, ?_, fun _ _ => hq⟩
    · exact ⟨fun _ => by simp [arm, hcs], fun _ => hco⟩
    · rw [hq, phase_of_awaiting (by simp [arm, located, hs]) rfl]
      exact congrArg Mqtt.Session.phase hcs
  | expired hw => exact coupled_dropSession hp (hn.not_button rfl)
  | configured hs h => exact hsent _ _ _ rfl hs rfl (BrokerSession.configure_frame h)
  | keptAlive hs hm h => exact hsent _ _ _ rfl hs rfl (BrokerSession.keepAlive_frame h)
  | published hs hm hr h => exact hsent _ _ _ rfl hs rfl (BrokerSession.publish_frame h)
  | unreadable hs hm hr => exact coupled_dropSession hp (hn.not_button rfl)
  | blinked hs => exact (hn.tail (by simp)).of_eq rfl rfl rfl rfl
  | held h => exact (hn.tail (by simp)).of_eq rfl rfl rfl rfl
  | reconnected hs h =>
    have hw := hwait (by simp [hs])
    have hph : n.phase = .closed := phase_of_idle (by simp [hs]) hw
    -- The user asks for it, and no change waits behind what the user did.
    have hq : changes es = [] := hn.quiet hph (.inr ⟨.buttonHeld, List.mem_cons_self, rfl⟩)
    rw [value_beginConnecting]
    refine ⟨fun _ => rfl, hn.tidy, hp, ?_, fun _ _ => hq⟩
    rw [phase_of_idle (by simp) (by exact hw)]
    have := hn.session
    rwa [hph] at this
  | released h => exact (hn.tail (by simp)).of_eq rfl rfl rfl rfl
  | pressed h hs => exact (hn.tail (by simp)).of_eq rfl rfl rfl rfl
  | chosen h hs => exact (hn.tail (by simp)).of_eq rfl rfl rfl rfl
  | @answered change hw =>
    refine coupled_conclude rfl hn.tidy hp (hn.not_button rfl) fun ho => ?_
    have := hn.session
    rw [phase_of_awaiting (by simp [hn.connecting_of_awaiting hw]) hw] at this
    cases change with
    | connected => exact this
    | disconnected => cases ho
  | lost hw hs => exact coupled_dropSession hp (hn.not_button rfl)

/-! ## What is taken in -/

omit [RandomSource] [Json.Writer] in
/-- What the user did stays in front of an event that comes in last and is none of the user's. -/
theorem pairwise_append_of_not_button {es : List NodeEvent} {e : NodeEvent}
    (hp : es.Pairwise fun e e' => e'.isButton = true → e.isButton = true)
    (he : e.isButton = false) :
    (es ++ [e]).Pairwise fun e e' => e'.isButton = true → e.isButton = true := by
  refine List.pairwise_append.2 ⟨hp, List.pairwise_singleton .., ?_⟩
  intro e' _ e'' he'' hb
  rw [List.mem_singleton.1 he'', he] at hb
  cases hb

omit [RandomSource] [Json.Writer] in
/-- What the user did is among the others, if the last event is none of the user's. -/
theorem exists_button_of_append {es : List NodeEvent} {e : NodeEvent} (he : e.isButton = false)
    (h : ∃ e' ∈ es ++ [e], e'.isButton = true) : ∃ e' ∈ es, e'.isButton = true := by
  obtain ⟨e', he', hb⟩ := h
  rcases List.mem_append.1 he' with he' | he'
  · exact ⟨e', he', hb⟩
  · rw [List.mem_singleton.1 he', he] at hb
    cases hb

omit [Json.Writer] [DialLink τ] in
/-- A timer that fires does not matter to the coupling. -/
theorem Coupled.append_timer {es : List NodeEvent} {n : Node (BrokerSession τ)} (h : Coupled es n)
    (id : TimerId) : Coupled (es ++ [.timer id]) n := by
  have hc : changes (es ++ [.timer id]) = changes es := by simp
  refine ⟨h.connecting_of_awaiting, h.tidy, pairwise_append_of_not_button h.buttons rfl, ?_, ?_⟩
  · rw [hc]
    exact h.session
  · rw [hc]
    exact fun hph hor => h.quiet hph (hor.imp_right (exists_button_of_append rfl))

omit [Json.Writer] [DialLink τ] in
/-- A change is found only over an open connection, so it is news to the client, and no session is
still to be asked for. -/
theorem Coupled.append_change {es : List NodeEvent} {n : Node (BrokerSession τ)} (h : Coupled es n)
    {b : BrokerSession τ} {change : SessionChange}
    (hr : BrokerSession.Reports n.channel.client b.client (some change)) :
    Coupled (es ++ [.session change]) { n with channel := b } := by
  have hc : changes (es ++ [.session change]) = changes es ++ [change] := by simp
  have hopen : n.channel.client.isOpen = true := by cases change <;> exact hr.1
  have hidle : n.channel.client.session ≠ .idle := h.tidy.1 hopen
  have hph : n.channel.client.session.phase ≠ .closed := by
    cases hs : n.channel.client.session with
    | idle => exact absurd hs hidle
    | awaiting => simp [Mqtt.Session.phase]
    | connected => simp [Mqtt.Session.phase]
  refine ⟨h.connecting_of_awaiting, ?_, pairwise_append_of_not_button h.buttons rfl, ?_, ?_⟩
  · cases change with
    | connected => exact ⟨fun _ => by simp [hr.2.1], fun _ => hr.2.2⟩
    | disconnected => exact ⟨fun ho => by simp [hr.2.2] at ho, fun hs => absurd hr.2.1 hs⟩
  · rw [hc, List.foldl_append]
    show b.client.session.phase = (List.foldl _ n.phase _).settle change
    rw [← h.session]
    cases change with
    | connected =>
      rw [SessionPhase.settle_connected hph, hr.2.1]
      rfl
    | disconnected =>
      rw [SessionPhase.settle_disconnected, hr.2.1]
      rfl
  · intro hn hor
    have hq := h.quiet hn (hor.imp_right (exists_button_of_append rfl))
    have hs := h.session
    rw [hq, show n.phase = .closed from hn] at hs
    exact absurd hs hph

/-- **What is taken in keeps the coupling.** -/
theorem Intake.coupled {n n' : Node (BrokerSession τ)} (h : Intake n n')
    (hn : Coupled n.queue.events n) : Coupled n'.queue.events n' := by
  have hr := BrokerSession.reports_nextChange n.channel
  cases h with
  | full => exact hn
  | nothing h hc hd =>
    rw [show n.channel.nextChange.value = _ from hc] at hr
    exact hn.of_eq rfl rfl hr.2 hr.1
  | timer h hc hd hq =>
    rw [show n.channel.nextChange.value = _ from hc] at hr
    dsimp only
    rw [hq]
    exact (hn.append_timer _).of_eq rfl rfl hr.2 hr.1
  | change h hc hq =>
    rw [show n.channel.nextChange.value = _ from hc] at hr
    dsimp only
    rw [hq]
    exact (hn.append_change hr).of_eq rfl rfl rfl rfl

/-! ## Between calls -/

/-- What holds between calls: only what the user did waits, and node and client see the same
phase. -/
structure Settled (n : Node (BrokerSession τ)) : Prop where
  onlyButtons : n.OnlyButtons
  connecting_of_awaiting : n.awaiting = true → n.state = .connecting
  tidy : n.channel.client.Tidy
  session : n.channel.client.session.phase = n.phase

omit [RandomSource] [Json.Writer] in
/-- What the user does is no change. -/
theorem changes_of_onlyButtons {es : List NodeEvent} (h : ∀ e ∈ es, e.isButton = true) :
    changes es = [] := by
  rw [changes, List.filterMap_eq_nil_iff]
  intro e he
  have := h e he
  cases e <;> simp_all [NodeEvent.isButton]

omit [Json.Writer] [DialLink τ] in
/-- Between calls a node and its client are coupled: no change waits. -/
theorem Settled.coupled {n : Node (BrokerSession τ)} (h : n.Settled) :
    Coupled n.queue.events n := by
  have hc := changes_of_onlyButtons h.onlyButtons
  refine ⟨h.connecting_of_awaiting, h.tidy, ?_, ?_, fun _ _ => hc⟩
  · exact List.pairwise_of_forall_mem_list fun e he _ _ _ => h.onlyButtons e he
  · rw [hc]
    exact h.session

/-- **Between calls node and client see the same phase**, as every poll starts and ends with it. -/
theorem settled_cycle :
    Cycle (fun b b' : BrokerSession τ =>
        b'.client.session = b.client.session ∧ b'.client.isOpen = b.client.isOpen)
      (fun _ n => Coupled n.queue.events n) fun _ n => n.Settled where
  take h hi := hi.coupled h
  turn {_ t q} h hq := by
    have h : Coupled (t.event :: t.node.queue.events) t.node := hq ▸ h.of_eq rfl rfl rfl rfl
    rw [t.reaction.frame.2.2.1]
    exact t.reaction.coupled h
  post _ h hq := ⟨h.onlyButtons.post hq, h.connecting_of_awaiting, h.tidy, h.session⟩
  command _ _ h := ⟨h.onlyButtons, h.connecting_of_awaiting, h.tidy, h.session⟩
  outside {_ n c} h hr := by
    refine ⟨h.onlyButtons, h.connecting_of_awaiting, ?_, ?_⟩
    · rw [Mqtt.Client.Tidy, hr.1, hr.2]
      exact h.tidy
    · rw [hr.1]
      exact h.session
  enter _ h := h.coupled.of_eq rfl rfl rfl rfl
  leave {_ n} h hq _ := by
    rw [hq] at h
    exact ⟨onlyButtons_of_nil hq, h.connecting_of_awaiting, h.tidy, h.session⟩

/-- **Node and client agree**: about a session that is there, about one that is asked for, and in
every other case there is nothing, and no connection is open. -/
structure Agrees (n : Node (BrokerSession τ)) : Prop where
  connected : n.state = .connected ↔ n.channel.client.session = .connected
  awaiting : n.state = .connecting ∧ n.awaiting = true ↔ n.channel.client.session = .awaiting
  idle : n.state ≠ .connected → ¬(n.state = .connecting ∧ n.awaiting = true) →
    n.channel.client.session = .idle ∧ n.channel.client.isOpen = false

omit [Json.Writer] [DialLink τ] in
/-- Where both see the same phase, node and client agree. -/
theorem Settled.agrees {n : Node (BrokerSession τ)} (h : n.Settled) : n.Agrees := by
  have hiff : ∀ s : Mqtt.Session, n.channel.client.session = s ↔ n.phase = s.phase := by
    intro s
    rw [← h.session]
    exact ⟨fun hs => hs ▸ rfl, Mqtt.Session.phase_inj⟩
  have hawait : n.state = .connecting ∧ n.awaiting = true ↔ n.phase = .asked := by
    rw [phase_eq_asked_iff]
    constructor
    · rintro ⟨hs, hw⟩
      exact ⟨by simp [hs], hw⟩
    · rintro ⟨-, hw⟩
      exact ⟨h.connecting_of_awaiting hw, hw⟩
  refine ⟨?_, ?_, ?_⟩
  · rw [hiff]
    exact phase_eq_granted_iff.symm
  · rw [hiff]
    exact hawait
  · intro hs hw
    have hidle : n.channel.client.session = .idle := by
      rw [hiff]
      show n.phase = .closed
      cases hph : n.phase with
      | closed => rfl
      | asked => exact absurd (hawait.2 hph) hw
      | granted => exact absurd (phase_eq_granted_iff.1 hph) hs
    refine ⟨hidle, Bool.eq_false_iff.2 fun ho => ?_⟩
    exact h.tidy.1 ho hidle

/-- **Between calls node and client agree**, whatever the broker and the link do. The polls have to
come to rest, which those before the last instant of the clock all do. -/
theorem agrees_run {identity : Identity} {link : τ} {broker : String} {options : Mqtt.Options}
    {client : Mqtt.Client τ} {brokerSettings : BrokerSettings} {settings : NodeSettings}
    {n : Node (BrokerSession τ)} (hclient : Mqtt.Client.of link broker options = .ok client)
    (hn : create identity ⟨client, brokerSettings⟩ settings = .ok n) (i : Instant)
    {calls : List (Call τ)}
    (hc : (n.start i).value.Completes (calls.map (Call.lift BrokerSession.onLink))) :
    ((n.start i).value.run (calls.map (Call.lift BrokerSession.onLink))).Agrees := by
  obtain ⟨hch, -, hq, hw⟩ := idle_of_create hn
  have hidle : client.session = .idle ∧ client.isOpen = false := by
    unfold Mqtt.Client.of at hclient
    split at hclient
    · obtain rfl := Except.ok.inj hclient
      exact ⟨rfl, rfl⟩
    · cases hclient
  have h₀ : (n.start i).value.Settled := by
    rw [value_start]
    refine ⟨onlyButtons_of_nil (by rw [hq]; rfl), fun _ => rfl, ?_, ?_⟩
    · simp [Mqtt.Client.Tidy, hch, hidle]
    · rw [phase_of_idle (by simp) (by exact hw), hch, hidle.1]
      rfl
  have hk : ∀ change (b : BrokerSession τ), (b.onLink change).client.session = b.client.session ∧
      (b.onLink change).client.isOpen = b.client.isOpen := fun _ _ => ⟨rfl, rfl⟩
  exact (settled_cycle.run (h := []) h₀ (fun _ => Call.keeps_of_mem_lift hk) hc).agrees

end

/-- A poll in the tenth second, when there is connectivity. -/
def firstPoll : List (Call Wire) := [.poll (.ofSeconds 10) fun _ => ⟨true, none⟩]

/-- A thermostat whose broker grants the session and then falls silent: node and client both have
the session. -/
theorem agrees_run_thermostat :
    ∃ (client : Mqtt.Client Wire) (n : Node (BrokerSession Wire)),
      Mqtt.Client.of { inbound := [.chunk [0x20, 0x02, 0x00, 0x00]] } "[fd00::1]:1883"
        { clientId := ⟨"00124b0d9a01", by decide⟩, keepAlive := 90 } = .ok client ∧
      create thermostat ⟨client, {}⟩ {} = .ok n ∧
      ((n.start .start).value.run (firstPoll.map (Call.lift BrokerSession.onLink))).state =
        .connected ∧
      ((n.start .start).value.run
        (firstPoll.map (Call.lift BrokerSession.onLink))).channel.client.session = .connected ∧
      ((n.start .start).value.run (firstPoll.map (Call.lift BrokerSession.onLink))).Agrees := by
  obtain ⟨client, hclient⟩ : ∃ client : Mqtt.Client Wire,
      Mqtt.Client.of { inbound := [.chunk [0x20, 0x02, 0x00, 0x00]] } "[fd00::1]:1883"
        { clientId := ⟨"00124b0d9a01", by decide⟩, keepAlive := 90 } = .ok client := ⟨_, rfl⟩
  obtain ⟨n, hn⟩ : ∃ n, create thermostat (⟨client, {}⟩ : BrokerSession Wire) {} = .ok n :=
    ⟨_, rfl⟩
  have hcompletes : (n.start .start).value.Completes
      (firstPoll.map (Call.lift BrokerSession.onLink)) :=
    completes_of_beforeLast ((timed_of_create hn).start .start) (by decide)
  have ha := agrees_run hclient hn .start hcompletes
  have hs : ((n.start .start).value.run
      (firstPoll.map (Call.lift BrokerSession.onLink))).state = .connected := by
    obtain rfl := Except.ok.inj hclient
    obtain rfl := Except.ok.inj hn
    decide +kernel
  exact ⟨client, n, hclient, hn, hs, ha.connected.1 hs, ha⟩

end Node

end EdgeDevice
