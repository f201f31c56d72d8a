import EdgeDevice.Proofs.Node.Phase
import EdgeDevice.Proofs.Node.Rest
import EdgeDevice.Proofs.Session.Record
import EdgeDevice.Proofs.Session.Registrar
import EdgeDevice.Session.Broker
import EdgeDevice.Simulation.Counterpart
import EdgeDevice.Simulation.Wire

set_option autoImplicit false
set_option relaxedAutoImplicit false

/-!
# The chosen period reaches the counterpart

The user may choose another period at any time: before there is a session, while one is being
opened, while a push of the period is put off, or in the poll in which the push fires. Whenever the
node rests with a session and no push is put off, the counterpart knows the period that is chosen.

What holds all the time is that a node with a session has the push before it, set or fired, unless
the counterpart knows the chosen period already. A session that is granted later, on a change, was
opened with a period that may have been changed since; so a channel that leaves a session pending
has to have the period told once the session is there. Both protocols do one or the other.

## Main definitions

* `EdgeDevice.lastTold` — the period that the counterpart was told last in the session under way.
* `EdgeDevice.Node.Forthcoming` — the channel settles every opening at once, or has the period told
  in every session.
* `EdgeDevice.Node.Conveyed` — the push is before the node, or the counterpart knows.

## Main results

* `EdgeDevice.Node.Reaction.conveyed` — dealing with an event loses no choice.
* `EdgeDevice.Node.conveyed_run` — the counterpart knows the chosen period.
-/

namespace EdgeDevice

/-! ## What the counterpart was told -/

/-- What the counterpart knows of the chosen period after an act, if it knew `known` before. It is
told by a session that is opened and accepted at once, and by a push that is accepted. -/
def SessionAct.tell (known : Option Nat) : SessionAct → Option Nat
  | opened ctx progress => if progress = .resolved .accepted then some ctx.period else none
  | configured ctx outcome => if outcome = .accepted then some ctx.period else known
  | abandoned => none
  | keptAlive .. => known
  | published .. => known

/-- The period that the counterpart was told last in the session under way, if it was told one. -/
def lastTold (acts : List SessionAct) : Option Nat := acts.foldl SessionAct.tell none

/-- One more act tells the counterpart something or leaves it at what it knew. -/
@[simp] theorem lastTold_concat (acts : List SessionAct) (a : SessionAct) :
    lastTold (acts ++ [a]) = a.tell (lastTold acts) := by
  simp [lastTold]

/-! ## Channels that keep no choice back -/

/-- Writing down what is asked keeps nothing back. -/
theorem settles_recorded {σ : Type} [Channel σ] {r : Recorded σ} (h : Settles r.channel) :
    Settles r := by
  intro ctx
  have hr : (Channel.openSession r ctx).value.1 = (Channel.openSession r.channel ctx).value.1 := rfl
  rw [hr]
  exact h ctx

/-- A broker is told the chosen period in every session. -/
theorem BrokerSession.announces_eq_true [Json.Writer] {τ : Type} [DialLink τ]
    (b : BrokerSession τ) : Channel.announces b = true := rfl

namespace Node

section

variable [RandomSource] {σ : Type} [Channel σ]

/-- **A channel keeps no choice back** in the turns of a run: it settles every opening at once in
all of them, or has the chosen period told in all of them. -/
def Forthcoming (history : List (Turn (Recorded σ))) : Prop :=
  (∀ t ∈ history, Settles t.node.channel.channel) ∨
    ∀ t ∈ history, Channel.announces t.node.channel.channel = true

/-- A channel that keeps no choice back has kept none back up to some turn. -/
theorem Forthcoming.of_append {history rest : List (Turn (Recorded σ))}
    (h : Forthcoming (history ++ rest)) : Forthcoming history :=
  h.imp (fun h t ht => h t (List.mem_append_left _ ht)) fun h t ht =>
    h t (List.mem_append_left _ ht)

/-! ## No step loses a choice -/

/-- A node with a session has the push of the chosen period before it, set or among the events that
still have to be dealt with, or the counterpart knows the chosen period. -/
def Conveyed (es : List NodeEvent) (n : Node (Recorded σ)) : Prop :=
  n.state = .connected →
    n.timers.isPending .configuration = true ∨ .timer .configuration ∈ es ∨
      lastTold n.channel.acts = some n.dial.value

omit [Channel σ] in
/-- Where there is no session there is nothing to convey. -/
theorem conveyed_of_ne {es : List NodeEvent} {n : Node (Recorded σ)} (hs : n.state ≠ .connected) :
    Conveyed es n := fun h => absurd h hs

/-- An outcome that is not accepted leaves nothing to be told. -/
theorem conveyed_conclude {es : List NodeEvent} {n : Node (Recorded σ)} {o : Outcome}
    (h : o = .accepted → Conveyed es n.goOn.value) : Conveyed es (n.conclude o).value := by
  cases o with
  | accepted => exact h rfl
  | rejected => exact conveyed_of_ne (by simp [value_dropSession])
  | timedOut => exact conveyed_of_ne (by simp [value_dropSession])

/-- An outcome leaves nothing to be told if its act has just told the counterpart the chosen
period. -/
theorem conveyed_conclude_of_tell {es : List NodeEvent} {n : Node (Recorded σ)} {o : Outcome}
    {acts : List SessionAct} {a : SessionAct} (hacts : n.channel.acts = acts ++ [a])
    (ha : o = .accepted → a.tell (lastTold acts) = some n.dial.value) :
    Conveyed es (n.conclude o).value := by
  refine conveyed_conclude fun ho => ?_
  rw [value_goOn]
  refine fun _ => .inr (.inr ?_)
  dsimp only
  rw [hacts, lastTold_concat]
  exact ha ho

/-- **Dealing with an event loses no choice**, if a session that was left pending is granted only
where the period is still going to be told.

**Proof sketch.** A press while there is a session sets the push. A push and an opening that are
accepted at once tell the period that is chosen at that moment. The beat of the period leaves alone
what is set and what was told. A session granted on a change sets the push. All else ends the
session or is not about it. -/
theorem Reaction.conveyed {net : Connectivity} {n n' : Node (Recorded σ)} {e : NodeEvent}
    {es : List NodeEvent} (h : Reaction net n e n')
    (hw : n.awaiting = true → n.state ≠ .connected ∧ Channel.announces n.channel = true)
    (hn : Conveyed (e :: es) n) : Conveyed es n' := by
  -- An event that is not the push takes away nothing of what was known.
  have htail : ∀ {m : Node (Recorded σ)}, e ≠ .timer .configuration → m.dial = n.dial →
      lastTold m.channel.acts = lastTold n.channel.acts →
      (n.timers.isPending .configuration = true → m.timers.isPending .configuration = true) →
      n.state = .connected → Conveyed es m := by
    intro m he hd ht hp hs _
    rcases hn hs with hc | hc | hc
    · exact .inl (hp hc)
    · exact .inr (.inl ((List.mem_cons.1 hc).resolve_left he.symm))
    · exact .inr (.inr (by rw [ht, hd, hc]))
  -- A message that tells no period leaves the counterpart with what it knew.
  have hkeep : ∀ {c : Recorded σ} {m : Model} {a : SessionAct} {o : Outcome},
      n.state = .connected → e ≠ .timer .configuration → c.acts = n.channel.acts ++ [a] →
      (∀ known, a.tell known = known) →
      Conveyed es ({ n with model := m, channel := c }.conclude o).value := by
    intro c m a o hs he hc ha
    refine conveyed_conclude fun _ => ?_
    rw [value_goOn]
    refine htail he rfl ?_ ?_ hs
    · rw [hc, lastTold_concat, ha]
    · exact fun hp => isPending_workingTimers.2 (.inr ⟨by simp, .inl hp⟩)
  cases h with
  | stale h =>
    intro hs
    by_cases he : e = .timer .configuration
    · subst he
      exact absurd hs h
    · exact htail he rfl rfl id hs hs
  | unavailable hs hw' ha => exact conveyed_of_ne (by simp [arm, hs])
  | resolved hs hw' ha h =>
    refine conveyed_conclude_of_tell (Recorded.acts_of_note h) ?_
    rintro rfl
    rfl
  | pending hs hw' ha h => exact conveyed_of_ne (by simp [arm, located, hs])
  | expired hw' => exact conveyed_conclude (by simp)
  | configured hs h =>
    refine conveyed_conclude_of_tell (Recorded.acts_of_note h) ?_
    rintro rfl
    rfl
  | keptAlive hs hm h =>
    exact hkeep (m := n.model) hs (by simp) (Recorded.acts_of_note h) fun _ => rfl
  | published hs hm hr h => exact hkeep hs (by simp) (Recorded.acts_of_note h) fun _ => rfl
  | unreadable hs hm hr => exact conveyed_conclude (by simp)
  | blinked hs => exact conveyed_of_ne (by simp [arm, hs])
  | held h => exact fun hs => htail (by simp) rfl rfl id hs hs
  | reconnected hs h => exact conveyed_of_ne (by simp [value_beginConnecting])
  | released h => exact fun hs => htail (by simp) rfl rfl id hs hs
  | pressed h hs => exact fun _ => .inl (by simp [arm])
  | chosen h hs => exact conveyed_of_ne hs
  | answered hw' =>
    -- The session was left pending, and that told nothing: to go on sets the push.
    refine conveyed_conclude fun _ => ?_
    rw [value_goOn]
    obtain ⟨hs, ha⟩ := hw hw'
    exact fun _ => .inl (isPending_workingTimers.2 (.inr ⟨by simp, .inr ⟨rfl, hs, ha⟩⟩))
  | lost hw' hs => exact conveyed_of_ne (by simp [value_dropSession])

/-- What is taken in has fired and waits. -/
theorem Intake.conveyed {n n' : Node (Recorded σ)} (h : Intake n n')
    (hn : Conveyed n.queue.events n) : Conveyed n'.queue.events n' := by
  have hacts := h.acts_eq
  cases h with
  | full => exact hn
  | nothing h hc hd =>
    intro hs
    rw [hacts]
    exact hn hs
  | change h hc hq =>
    intro hs
    rw [hacts, hq]
    exact (hn hs).imp_right (Or.imp_left (List.mem_append_left _))
  | @timer id c q h hc hd hq =>
    intro hs
    rw [hacts, hq]
    rcases hn hs with hp | hm | ht
    · by_cases hid : id = .configuration
      · exact .inr (.inl (by simp [hid]))
      · exact .inl (by simpa [Ne.symm hid] using hp)
    · exact .inr (.inl (List.mem_append_left _ hm))
    · exact .inr (.inr ht)

/-- Where every opening is settled at once, no session is waited for. -/
theorem Reaction.awaiting_of_settles {net : Connectivity} {n n' : Node (Recorded σ)}
    {e : NodeEvent} (h : Reaction net n e n') (hs : Settles n.channel.channel)
    (hw : n.awaiting = false) : n'.awaiting = false := by
  cases h with
  | resolved => exact awaiting_conclude _ _ hw
  | pending _ _ _ h => exact absurd (congrArg Prod.fst h) (settles_recorded hs _)
  | expired => exact awaiting_conclude _ _ rfl
  | configured => exact awaiting_conclude _ _ hw
  | keptAlive => exact awaiting_conclude _ _ hw
  | published => exact awaiting_conclude _ _ hw
  | unreadable => exact awaiting_conclude _ _ hw
  | reconnected =>
    rw [value_beginConnecting]
    exact hw
  | answered => exact awaiting_conclude _ _ rfl
  | lost => exact awaiting_conclude n .rejected hw
  | _ => exact hw

/-! ## Runs -/

/-- What is known of a node and of the turns that led to it. -/
structure Conveys (history : List (Turn (Recorded σ))) (n : Node (Recorded σ)) : Prop where
  connecting_of_awaiting : n.awaiting = true → n.state = .connecting
  awaiting_of_settles : (∀ t ∈ history, Settles t.node.channel.channel) → n.awaiting = false
  conveyed : Forthcoming history → Conveyed n.queue.events n

/-- A turn breaks nothing: a choice sets the push, and a push that is accepted tells the choice. -/
theorem Conveys.turn {history : List (Turn (Recorded σ))} {t : Turn (Recorded σ)} {q : EventQueue}
    (h : Conveys history { t.node with queue := q })
    (hq : q.events = t.event :: t.node.queue.events) : Conveys (history ++ [t]) t.after where
  connecting_of_awaiting := t.reaction.connecting_of_awaiting h.connecting_of_awaiting
  awaiting_of_settles hs := by
    have hs' := List.forall_mem_append.1 hs
    exact t.reaction.awaiting_of_settles (hs'.2 t (List.mem_singleton_self t))
      (h.awaiting_of_settles hs'.1)
  conveyed hf := by
    have hn : Conveyed (t.event :: t.node.queue.events) t.node := hq ▸ h.conveyed hf.of_append
    rw [t.reaction.frame.2.2.1]
    refine t.reaction.conveyed (fun hw => ⟨?_, ?_⟩) hn
    · simp [show t.node.state = .connecting from h.connecting_of_awaiting hw]
    · rcases hf with hs | ha
      · have hw' := h.awaiting_of_settles (List.forall_mem_append.1 hs).1
        exact absurd hw (by simp [show t.node.awaiting = false from hw'])
      · exact ha t (by simp)

/-- No step of a run leaves the counterpart without the chosen period for good. -/
theorem conveys_invariant :
    Invariant (fun r r' : Recorded σ => r'.acts = r.acts) Conveys where
  post _ h hq := by
    refine ⟨h.connecting_of_awaiting, h.awaiting_of_settles, fun hf hs => ?_⟩
    rw [hq]
    exact (h.conveyed hf hs).imp_right (Or.imp_left (List.mem_append_left _))
  command _ _ h := ⟨h.connecting_of_awaiting, h.awaiting_of_settles, h.conveyed⟩
  outside h hr := by
    refine ⟨h.connecting_of_awaiting, h.awaiting_of_settles, fun hf hs => ?_⟩
    rw [hr]
    exact h.conveyed hf hs
  tick _ h := ⟨h.connecting_of_awaiting, h.awaiting_of_settles, h.conveyed⟩
  take h hi := by
    refine ⟨?_, ?_, fun hf => hi.conveyed (h.conveyed hf)⟩
    · cases hi <;> exact h.connecting_of_awaiting
    · cases hi <;> exact h.awaiting_of_settles
  turn h hq := h.turn hq

/-- A node that was just started has no session to convey anything in. -/
theorem conveys_start {n : Node (Recorded σ)} (hw : n.awaiting = false) (i : Instant) :
    Conveys [] (n.start i).value := by
  rw [value_start]
  exact ⟨fun _ => rfl, fun _ => hw, fun _ => conveyed_of_ne (by simp)⟩

/-- **No choice of the user is lost.** Over a channel that settles every opening at once, as a
registrar does, or that has the period told in every session, as a broker session does: whenever a
node rests with a session and no push is put off, the period that the counterpart was told last in
that session is the one that is chosen. -/
theorem conveyed_run [Json.Writer] {ρ τ : Type} [Requester ρ] [DialLink τ] {identity : Identity}
    {channel : σ} {settings : NodeSettings} {n : Node (Recorded σ)}
    (hn : create identity ⟨channel, []⟩ settings = .ok n) (i : Instant) (calls : List (Call σ))
    (hr : (n.start i).value.Completes (calls.map (Call.lift Recorded.onChannel)))
    (hf : Forthcoming ((n.start i).value.history (calls.map (Call.lift Recorded.onChannel)))) :
    (∀ r : Registrar ρ, Settles r) ∧ (∀ b : BrokerSession τ, Channel.announces b = true) ∧
      let m := (n.start i).value.run (calls.map (Call.lift Recorded.onChannel))
      m.state = .connected → m.timers.isPending .configuration = false →
        lastTold m.channel.acts = some m.dial.value := by
  obtain ⟨-, -, hq, hw⟩ := idle_of_create hn
  refine ⟨Registrar.settles, BrokerSession.announces_eq_true, ?_⟩
  intro m hs hp
  have h : Conveys _ m :=
    conveys_invariant.run (h := []) (conveys_start hw i) fun _ => keeps_acts calls
  have hbut : m.OnlyButtons := by
    refine onlyButtons_run (onlyButtons_of_nil ?_) hr
    rw [value_start]
    exact congrArg EventQueue.events hq
  rcases h.conveyed hf hs with hc | hc | hc
  · simp [hp] at hc
  · exact absurd hc (hbut.timer_notMem .configuration)
  · exact hc

end

/-- A thermostat opens a session at the tenth second, which is left pending. The user chooses the
next period, and only then the session is granted. -/
def chosenWhilePending : List (Call ScriptedChannel) :=
  [.poll (.ofSeconds 10) fun _ => ⟨true, none⟩, .post .released,
    .outside fun c => { c with changes := [.connected] },
    .poll (.ofSeconds 15) fun _ => ⟨true, none⟩, .poll (.ofSeconds 25) fun _ => ⟨true, none⟩]

/-- Ten seconds after the session was granted the counterpart knows the period of one minute. -/
theorem conveyed_run_chosenWhilePending :
    ∃ n : Node (Recorded ScriptedChannel),
      create thermostat ⟨{ opening := .pending, announces := true }, []⟩ {} = .ok n ∧
        lastTold ((n.start .start).value.run
          (chosenWhilePending.map (Call.lift Recorded.onChannel))).channel.acts = some 60 := by
  obtain ⟨n, hn⟩ : ∃ n : Node (Recorded ScriptedChannel),
      create thermostat ⟨{ opening := .pending, announces := true }, []⟩ {} = .ok n := ⟨_, rfl⟩
  have hbefore : ∀ c ∈ chosenWhilePending, c.BeforeLast := by decide
  have hr : (n.start .start).value.Completes
      (chosenWhilePending.map (Call.lift Recorded.onChannel)) :=
    completes_of_beforeLast ((timed_of_create hn).start .start)
      fun c => Call.beforeLast_of_mem_lift hbefore
  have h := conveyed_run (ρ := ScriptedServer) (τ := Wire) hn .start chosenWhilePending hr
  obtain rfl := Except.ok.inj hn
  exact ⟨_, rfl, (h (.inr (by decide))).2.2 (by decide) (by decide)⟩

end Node

end EdgeDevice
