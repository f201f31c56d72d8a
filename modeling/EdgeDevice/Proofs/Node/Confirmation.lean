import EdgeDevice.Proofs.Node.FailSafe
import EdgeDevice.Proofs.Session.Registrar
import EdgeDevice.Simulation.Wire

set_option autoImplicit false
set_option relaxedAutoImplicit false

/-!
# Connected means confirmed by the server

An actuator that keeps its session with a registrar is connected exactly while the last of its
requests was answered by a success. Nothing but an answer takes it into that state, and it stays
there until a request is answered otherwise or not at all. If one is not answered in time, the
setpoint is off when the poll is over.

## Main definitions

* `EdgeDevice.Node.Direct` — nothing but answers moves the session, and there is room for every
  request.
* `EdgeDevice.Node.Answered` — what an answer, or none, makes of the node in a turn.

## Main results

* `EdgeDevice.Node.Reaction.direct` — a turn has an answer that decides about the session, or has
  none and leaves the session as it was.
* `EdgeDevice.Node.confirmed_run` — after every poll the node is connected exactly if the last
  answer was a success.
-/

namespace EdgeDevice

/-- The chosen period is within a bound if all periods are. -/
theorem PeriodDial.value_lt {d : PeriodDial} {bound : Nat} (hb : 0 < bound)
    (h : ∀ p ∈ d.values, p < bound) : d.value < bound := by
  rw [value, List.getD_eq_getElem?_getD]
  rcases hi : d.values[d.index]? with _ | p
  · exact hb
  · exact h p (List.mem_of_getElem? hi)

/-- To choose the next period does not change what there is to choose from. -/
theorem PeriodDial.values_turn (d : PeriodDial) : d.turn.values = d.values := by
  unfold turn
  split <;> rfl

namespace Node

section

variable [RandomSource] [Json.Writer] {ρ : Type} [Requester ρ]

/-- The answers that a node has had. -/
def answers (n : Node (Registrar (Noted ρ))) : List (Except NetError Coap.Code) := n.channel.answers

/-! ## What an answer makes of a node -/

/-- **Nothing but answers moves the session**, and there is room for every request: no session is
pending and no change of one waits, the node has no readings to publish, its address is plain and
its periods have at most five digits. -/
structure Direct (n : Node (Registrar (Noted ρ))) : Prop where
  awaiting : n.awaiting = false
  unreported : ∀ change, .session change ∉ n.queue.events
  isSensor : n.model.isSensor = false
  plain : Json.Plain n.address.string
  periods : ∀ p ∈ n.dial.values, p < 100000

/-- What an answer, or none, makes of a node. -/
inductive Answered (n n' : Node (Registrar (Noted ρ))) : Prop
  | nothing (ha : n'.answers = n.answers) (hm : n'.model = n.model)
      (hs : n'.state = .connected ↔ n.state = .connected)
  | answer (answer : Except NetError Coap.Code) (ha : n'.answers = n.answers ++ [answer])
      (hm : n'.model =
        if Registrar.outcomeOf answer = .timedOut then n.model.makeSafe.value else n.model)
      (hs : n'.state = .connected ↔ Registrar.outcomeOf answer = .accepted)

omit [Json.Writer] [Requester ρ] in
/-- What is direct about a node is a matter of its wait, its queue, its model, its address and its
periods. -/
theorem Direct.of_eq {n n' : Node (Registrar (Noted ρ))} (h : n.Direct)
    (hw : n'.awaiting = n.awaiting) (hq : n'.queue = n.queue) (hm : n'.model = n.model)
    (hx : n'.address = n.address) (hd : n'.dial.values = n.dial.values) : n'.Direct :=
  ⟨hw ▸ h.awaiting, hq ▸ h.unreported, hm ▸ h.isSensor, hx ▸ h.plain, hd ▸ h.periods⟩

/-- The consequences of an outcome leave a node direct. If the model is made safe it stays that of
an actuator. -/
theorem Direct.conclude {n : Node (Registrar (Noted ρ))} (h : n.Direct) (o : Outcome) :
    (n.conclude o).value.Direct := by
  obtain ⟨-, -, hdial, -, hqueue, haddress, -, -⟩ := frame_conclude n o
  refine ⟨awaiting_conclude n o h.awaiting, hqueue ▸ h.unreported, ?_, haddress ▸ h.plain,
    hdial ▸ h.periods⟩
  have hm := h.isSensor
  cases o with
  | accepted => simpa [value_goOn] using hm
  | rejected => simpa [value_dropSession] using hm
  | timedOut =>
    rw [value_conclude_timedOut, value_dropSession]
    cases hn : n.model with
    | actuator a => rfl
    | sensor s => simp [hn, Model.isSensor] at hm

/-- An outcome that an answer decides makes of the node what the answer says. -/
theorem answered_conclude {n m : Node (Registrar (Noted ρ))} {o : Outcome} (hd : m.Direct)
    (h : ∃ answer, m.answers = n.answers ++ [answer] ∧ o = Registrar.outcomeOf answer)
    (hm : m.model = n.model) :
    (m.conclude o).value.Direct ∧ Answered n (m.conclude o).value := by
  obtain ⟨answer, ha, rfl⟩ := h
  refine ⟨hd.conclude _, .answer answer ?_ ?_ (connected_conclude_iff m _)⟩
  · rw [← ha]
    cases Registrar.outcomeOf answer with
    | accepted => simp [answers, value_goOn]
    | rejected =>
      rw [value_conclude_rejected, value_dropSession]
      rfl
    | timedOut =>
      rw [value_conclude_timedOut, value_dropSession]
      rfl
  · rw [← hm]
    cases Registrar.outcomeOf answer <;> simp [value_goOn, value_dropSession]

/-- **A turn has an answer that decides about the session, or has none** and leaves the session as
it was. -/
theorem Reaction.direct [Json.Writer.Lawful] {net : Connectivity}
    {n n' : Node (Registrar (Noted ρ))} {e : NodeEvent}
    (h : Reaction net n e n') (hp : ∀ a, net.address = some a → Json.Plain a.string)
    (he : ∀ change, e ≠ .session change) (hn : n.Direct) : n'.Direct ∧ Answered n n' := by
  have hperiod : n.dial.value < 100000 := PeriodDial.value_lt (by decide) hn.periods
  have hsame : ∀ {m : Node (Registrar (Noted ρ))}, m.awaiting = n.awaiting → m.queue = n.queue →
      m.model = n.model → m.address = n.address → m.dial.values = n.dial.values →
      m.channel = n.channel → (m.state = .connected ↔ n.state = .connected) →
      m.Direct ∧ Answered n m := by
    intro m hw hq hm hx hd hc hs
    exact ⟨hn.of_eq hw hq hm hx hd, .nothing (congrArg Registrar.answers hc) hm hs⟩
  cases h with
  | stale h => exact hsame rfl rfl rfl rfl rfl rfl Iff.rfl
  | unavailable => exact hsame rfl rfl rfl rfl rfl rfl Iff.rfl
  | resolved hs hw ha h =>
    have hplain : Json.Plain (n.located net).address.string := by
      unfold located
      cases hx : net.address with
      | none =>
        intro c hc
        exact absurd hc List.not_mem_nil
      | some a => exact hp a hx
    rw [Registrar.value_openSession, Prod.mk.injEq, Progress.resolved.injEq] at h
    have hbody : (Registrar.registration? (n.located net).context).isSome = true :=
      Registrar.isSome_registration? hplain hperiod
    have hd : (n.located net).Direct :=
      ⟨hn.awaiting, hn.unreported, hn.isSensor, hplain, hn.periods⟩
    exact answered_conclude (hd.of_eq rfl rfl rfl rfl rfl)
      (Registrar.exists_answer_of_exchange hbody (Prod.ext h.1 h.2)) rfl
  | pending hs hw ha h => simp [Registrar.value_openSession] at h
  | expired hw => simp [hn.awaiting] at hw
  | configured hs h =>
    have hbody : (Registrar.registration? n.context).isSome = true :=
      Registrar.isSome_registration? hn.plain hperiod
    exact answered_conclude (hn.of_eq rfl rfl rfl rfl rfl)
      (Registrar.exists_answer_of_exchange hbody h) rfl
  | keptAlive hs hm h =>
    exact answered_conclude (hn.of_eq rfl rfl rfl rfl rfl)
      (Registrar.exists_answer_of_exchange (Registrar.isSome_keepalive? n.context) h) rfl
  | published hs hm => simp [hn.isSensor] at hm
  | unreadable hs hm => simp [hn.isSensor] at hm
  | blinked => exact hsame rfl rfl rfl rfl rfl rfl Iff.rfl
  | held => exact hsame rfl rfl rfl rfl rfl rfl Iff.rfl
  | reconnected hs h =>
    rw [value_beginConnecting]
    exact hsame rfl rfl rfl rfl rfl rfl (by simp [hs])
  | released => exact hsame rfl rfl rfl rfl rfl rfl Iff.rfl
  | pressed => exact hsame rfl rfl rfl rfl n.dial.values_turn rfl Iff.rfl
  | chosen => exact hsame rfl rfl rfl rfl n.dial.values_turn rfl Iff.rfl
  | answered => exact absurd rfl (he _)
  | lost => exact absurd rfl (he _)

/-- An intake leaves a node direct and brings no answer: a registrar has no changes to report. -/
theorem Intake.direct {n n' : Node (Registrar (Noted ρ))} (h : Intake n n') (hn : n.Direct) :
    n'.Direct ∧ n'.answers = n.answers ∧ n'.state = n.state ∧ n'.model = n.model := by
  cases h with
  | full => exact ⟨hn, rfl, rfl, rfl⟩
  | change h hc hq => cases hc
  | timer h hc hd hq =>
    cases hc
    refine ⟨⟨hn.awaiting, fun change hm => ?_, hn.isSensor, hn.plain, hn.periods⟩, rfl, rfl, rfl⟩
    rw [hq] at hm
    exact hn.unreported change (by simpa using hm)
  | nothing h hc hd =>
    cases hc
    exact ⟨hn.of_eq rfl rfl rfl rfl rfl, rfl, rfl, rfl⟩

/-- A turn of a node that nothing but answers moves. -/
theorem Direct.turn [Json.Writer.Lawful] {t : Turn (Registrar (Noted ρ))} {q : EventQueue}
    (h : Direct { t.node with queue := q }) (hq : q.events = t.event :: t.node.queue.events)
    (hp : ∀ a, t.net.address = some a → Json.Plain a.string) :
    t.after.Direct ∧ Answered t.node t.after := by
  have hunreported := h.unreported
  dsimp only at hunreported
  rw [hq] at hunreported
  refine t.reaction.direct hp (fun change he => ?_) ⟨h.awaiting, fun change hm => ?_, h.isSensor,
    h.plain, h.periods⟩
  · exact hunreported change (he ▸ List.mem_cons_self)
  · exact hunreported change (List.mem_cons_of_mem _ hm)

/-! ## What the answers say -/

/-- The addresses that are found in some turns are plain. -/
def PlainTurns (turns : List (Turn (Registrar (Noted ρ)))) : Prop :=
  ∀ t ∈ turns, ∀ a, t.net.address = some a → Json.Plain a.string

/-- The node is connected exactly if the last answer was a success. -/
structure Confirming (n : Node (Registrar (Noted ρ))) : Prop where
  direct : n.Direct
  confirmed : n.state = .connected ↔ Confirmed n.answers

/-- No step of a run breaks the account of the answers, as long as the addresses that are found are
plain. -/
theorem confirming_lasting [Json.Writer.Lawful] :
    Lasting (fun r r' : Registrar (Noted ρ) => r'.answers = r.answers)
      fun h n => PlainTurns h → n.Confirming where
  post {_ n _} edge hn hq hp := by
    obtain ⟨hd, hc⟩ := hn hp
    refine ⟨⟨hd.awaiting, fun change hm => ?_, hd.isSensor, hd.plain, hd.periods⟩, hc⟩
    rw [hq] at hm
    rcases List.mem_append.1 hm with hm | hm
    · exact hd.unreported change hm
    · cases edge <;> simp [ButtonEdge.event] at hm
  command id hn hm hp := by
    obtain ⟨hd, hc⟩ := hn hp
    exact ⟨⟨hd.awaiting, hd.unreported, Model.isSensor_of_commanded hm hd.isSensor, hd.plain,
      hd.periods⟩, hc⟩
  outside hn hr hp := by
    obtain ⟨hd, hc⟩ := hn hp
    refine ⟨hd.of_eq rfl rfl rfl rfl rfl, ?_⟩
    rw [answers, hr]
    exact hc
  tick now hn hp := by
    obtain ⟨hd, hc⟩ := hn hp
    exact ⟨hd.of_eq rfl rfl rfl rfl rfl, hc⟩
  take hn hi hp := by
    obtain ⟨hd, hc⟩ := hn hp
    obtain ⟨hd', ha, hs, -⟩ := hi.direct hd
    exact ⟨hd', by rw [ha, hs, hc]⟩
  turn {_ t _} hn hq hp := by
    obtain ⟨hp, hpt⟩ := List.forall_mem_append.1 hp
    obtain ⟨hd, hc⟩ := hn hp
    obtain ⟨hd', hx⟩ := hd.turn hq (hpt t (List.mem_singleton_self t))
    refine ⟨hd', ?_⟩
    cases hx with
    | nothing ha hm hs => rw [hs, ha]; exact hc
    | answer answer ha hm hs => rw [hs, ha, confirmed_concat_iff]

/-- If one of the answers beyond the first ones did not come in time, the setpoint is off. -/
def OffSince (before : List (Except NetError Coap.Code)) (n : Node (Registrar (Noted ρ))) : Prop :=
  ∃ since, n.answers = before ++ since ∧
    (.error .timeout ∈ since → n.setpoint? = some Actuator.off)

omit [Json.Writer] [Requester ρ] in
/-- The account of the answers of a poll is a matter of the answers and of the model. -/
theorem OffSince.of_eq {before : List (Except NetError Coap.Code)}
    {n n' : Node (Registrar (Noted ρ))} (h : OffSince before n) (ha : n'.answers = n.answers)
    (hm : n'.model = n.model) : OffSince before n' := by
  obtain ⟨since, hsince, hoff⟩ := h
  refine ⟨since, ha.trans hsince, ?_⟩
  rw [setpoint?, hm]
  exact hoff

/-- No turn of a poll breaks the account of its answers. -/
theorem offSince_kept [Json.Writer.Lawful] (before : List (Except NetError Coap.Code)) :
    Kept fun h (n : Node (Registrar (Noted ρ))) => PlainTurns h → n.Direct ∧ OffSince before n where
  take hn hi hp := by
    obtain ⟨hd, ho⟩ := hn hp
    obtain ⟨hd', ha, -, hm⟩ := hi.direct hd
    exact ⟨hd', ho.of_eq ha hm⟩
  turn {_ t _} hn hq hp := by
    obtain ⟨hp, hpt⟩ := List.forall_mem_append.1 hp
    obtain ⟨hd, ho⟩ := hn hp
    obtain ⟨hd', hx⟩ := hd.turn hq (hpt t (List.mem_singleton_self t))
    refine ⟨hd', ?_⟩
    cases hx with
    | nothing ha hm hs => exact ho.of_eq ha hm
    | answer answer ha hm hs =>
      obtain ⟨since, hsince, hoff⟩ := ho
      refine ⟨since ++ [answer], ?_, fun ht => ?_⟩
      · rw [ha, ← List.append_assoc, ← hsince]
        rfl
      · rw [setpoint?, hm]
        split
        · exact Model.setpoint?_makeSafe hd.isSensor
        · rename_i hanswer
          rcases List.mem_append.1 ht with ht | ht
          · exact hoff ht
          · rw [← List.mem_singleton.1 ht] at hanswer
            exact absurd rfl hanswer

/-! ## Runs -/

/-- The addresses that a call can find are plain. -/
def Call.PlainAddresses {σ : Type} : Call σ → Prop
  | poll _ nets => ∀ k a, (nets k).address = some a → Json.Plain a.string
  | _ => True

omit [RandomSource] [Json.Writer] [Requester ρ] in
/-- Where the calls of an inner channel find plain addresses, so do those of the outer one. -/
theorem Call.plainAddresses_of_mem_lift {σ τ : Type} {carry : (τ → τ) → σ → σ}
    {calls : List (Call τ)} (h : ∀ c ∈ calls, c.PlainAddresses) {c : Call σ}
    (hc : c ∈ calls.map (Call.lift carry)) : c.PlainAddresses := by
  obtain ⟨c, hm, rfl⟩ := List.mem_map.1 hc
  cases c with
  | poll now nets => exact h _ hm
  | _ => trivial

/-- The turns of a run find plain addresses if its calls do. -/
theorem plainTurns_history {n : Node (Registrar (Noted ρ))}
    {calls : List (Call (Registrar (Noted ρ)))} (h : ∀ c ∈ calls, c.PlainAddresses) :
    PlainTurns (n.history calls) := by
  intro t ht a ha
  obtain ⟨now, nets, j, hc, hj⟩ := exists_poll_of_mem_history ht
  exact h _ hc j a (hj ▸ ha)

omit [Json.Writer] [Requester ρ] in
/-- An actuator that was just started is not connected, and no answer has come. -/
theorem confirming_start {identity : Identity} {requester : ρ} {registrar : RegistrarSettings}
    {settings : NodeSettings} {n : Node (Registrar (Noted ρ))}
    (hk : identity.kind.isActuator = true)
    (hn : create identity ⟨⟨requester, []⟩, registrar⟩ settings = .ok n) (i : Instant) :
    (n.start i).value.Confirming := by
  obtain ⟨-, rfl⟩ := create_eq_ok_iff.1 hn
  rw [value_start]
  refine ⟨⟨rfl, fun change hm => absurd hm List.not_mem_nil, ?_, ?_, ?_⟩, ?_⟩
  · simp [Model.ofKind, hk, Model.isSensor]
  · intro c hc
    exact absurd hc List.not_mem_nil
  · show ∀ p ∈ identity.kind.periods, p < 100000
    simp [Kind.periods, hk]
  · simp [answers, Registrar.answers, Confirmed]

/-- **Connected means confirmed by the server.** After every poll of an actuator that keeps its
session with a registrar, whatever the wire does, the node is connected exactly if the last exchange
ended in a success; and if an exchange of the poll ended without an answer in time, the setpoint is
off. -/
theorem confirmed_run [Json.Writer.Lawful] {τ : Type} [TimedLink τ] {identity : Identity}
    {client : Coap.Client τ} {registrar : RegistrarSettings} {settings : NodeSettings}
    {n : Node (Registrar (Noted (Coap.Client τ)))} (hk : identity.kind.isActuator = true)
    (hn : create identity ⟨⟨client, []⟩, registrar⟩ settings = .ok n) (i : Instant)
    {calls : List (Call (Coap.Client τ))} {now : Instant} {nets : Nat → Connectivity}
    (hx : ∀ c ∈ calls ++ [.poll now nets], c.PlainAddresses) :
    let before := (n.start i).value.run (calls.map (Call.lift Registrar.onRequester))
    let after := before.call (.poll now nets)
    (after.state = .connected ↔ Confirmed after.answers) ∧
      ∃ since, after.answers = before.answers ++ since ∧
        (.error .timeout ∈ since → after.setpoint? = some Actuator.off) := by
  intro before after
  obtain ⟨hx, hpoll⟩ := List.forall_mem_append.1 hx
  have hbefore : before.Confirming := by
    have hkeep : ∀ change (r : Registrar (Noted (Coap.Client τ))),
        (r.onRequester change).answers = r.answers := fun _ _ => rfl
    exact confirming_lasting.run (h := []) (fun _ => confirming_start hk hn i)
      (fun c hc => Call.keeps_of_mem_lift hkeep hc)
      (plainTurns_history fun c => Call.plainAddresses_of_mem_lift hx)
  have hturns : PlainTurns (before.turnsOf (.poll now nets)) := by
    intro t ht a ha
    obtain ⟨j, hj⟩ := exists_net_of_mem_turns (turnsOf_poll before now nets ▸ ht)
    exact hpoll _ (List.mem_singleton_self _) j a (hj ▸ ha)
  refine ⟨?_, ?_⟩
  · have hafter : after.Confirming :=
      confirming_lasting.call (h := []) (fun _ => hbefore) (by trivial) hturns
    exact hafter.confirmed
  · have hstart : Direct { before with now := now } ∧
        OffSince before.answers { before with now := now } :=
      ⟨hbefore.direct.of_eq rfl rfl rfl rfl rfl, [], (List.append_nil _).symm,
        fun h => absurd h List.not_mem_nil⟩
    have hoff := (offSince_kept before.answers).takeTurns (h := []) nets
      { before with now := now }.enoughTurns (fun _ => hstart)
    rw [← turnsOf_poll, ← call_poll] at hoff
    exact (hoff hturns).2

end

/-- A server that answers the first request by 2.01, in the acknowledgement, and no other. -/
def welcoming : Coap.Client Wire := ⟨{ inbound := [.chunk [0x60, 0x41, 0x00, 0x01]] }, 1⟩

/-- A thermostat finds an address and registers: it is connected, and its last request was answered
by a success. -/
theorem confirmed_run_welcoming :
    thermostat.kind.isActuator = true ∧ ∃ n : Node (Registrar (Noted (Coap.Client Wire))),
      create thermostat ⟨⟨welcoming, []⟩, {}⟩ {} = .ok n ∧
        Confirmed ((n.start .start).value.call
          (.poll (.ofSeconds 10) fun _ => ⟨true, some ⟨"fd00::1", by decide⟩⟩)).answers := by
  obtain ⟨n, hn⟩ : ∃ n : Node (Registrar (Noted (Coap.Client Wire))),
      create thermostat ⟨⟨welcoming, []⟩, {}⟩ {} = .ok n := ⟨_, rfl⟩
  have hx : ∀ c ∈ [] ++ [(.poll (.ofSeconds 10) fun _ => ⟨true, some ⟨"fd00::1", by decide⟩⟩ :
      Call (Coap.Client Wire))], c.PlainAddresses := by
    rintro c hc
    obtain rfl := List.mem_singleton.1 hc
    intro k a ha
    obtain rfl := Option.some.inj ha
    decide
  have h := (confirmed_run rfl hn .start hx).1
  obtain rfl := Except.ok.inj hn
  exact ⟨rfl, _, rfl, h.1 (by decide +kernel)⟩

end Node

end EdgeDevice
