import EdgeDevice.Proofs.Node.Rest
import EdgeDevice.Simulation.Counterpart

set_option autoImplicit false
set_option relaxedAutoImplicit false

/-!
# The state of a node and its timers

Between calls the timers of a node match its state: without a session nothing is set and the device
waits for its user, with a session something is set that will use it, and while the node connects
the light toggles and either the next look for connectivity or the end of the wait is set. So a node
never sleeps for ever unless only the user can help.

In the middle of a poll this is not so, because a timer that was taken waits in the queue while
others are dealt with, and may mean nothing any more when its turn comes. What holds all the time is
an account of the timers that are still outstanding, set or taken: `Coherent`.

## Main definitions

* `EdgeDevice.Node.outstanding` — how often a timer is set or waits to be dealt with.
* `EdgeDevice.Node.Coherent` — the account of the outstanding timers.
* `EdgeDevice.Node.Standing` — what belongs to a state between calls.

## Main results

* `EdgeDevice.Node.Reaction.coherent` — dealing with an event keeps the account.
* `EdgeDevice.Node.standing_run` — between calls exactly what belongs to the state holds.
-/

namespace EdgeDevice

namespace Node

/-! ## Outstanding timers -/

/-- How often a timer is set or is among the events that still have to be dealt with. -/
def outstanding (t : Timers) (es : List NodeEvent) (id : TimerId) : Nat :=
  (if t.isPending id then 1 else 0) + es.count (.timer id)

/-- Where no timer is set, a timer is outstanding as often as it has fired and waits. -/
@[simp] theorem outstanding_empty (es : List NodeEvent) (id : TimerId) :
    outstanding .empty es id = es.count (.timer id) := by
  simp [outstanding]

/-- A timer that is armed is outstanding once more than it waits, and the others as before. -/
@[simp] theorem outstanding_arm (t : Timers) (es : List NodeEvent) (id id' : TimerId)
    (now : Instant) (d : Duration) :
    outstanding (t.arm id now d) es id' =
      if id' = id then es.count (.timer id') + 1 else outstanding t es id' := by
  by_cases h : id' = id <;> simp [outstanding, h, Nat.add_comm]

/-- A timer that is cancelled is outstanding as often as it waits, and the others as before. -/
@[simp] theorem outstanding_cancel (t : Timers) (es : List NodeEvent) (id id' : TimerId) :
    outstanding (t.cancel id) es id' =
      if id' = id then es.count (.timer id') else outstanding t es id' := by
  by_cases h : id' = id <;> simp [outstanding, h]

/-- A timer that has fired is outstanding once more for it. -/
theorem outstanding_cons (t : Timers) (e : NodeEvent) (es : List NodeEvent) (id : TimerId) :
    outstanding t (e :: es) id = outstanding t es id + if e = .timer id then 1 else 0 := by
  simp [outstanding, List.count_cons, Nat.add_assoc]

/-- An event of something else does not count. -/
theorem outstanding_cons_of_ne {e : NodeEvent} {id : TimerId} (h : e ≠ .timer id) (t : Timers)
    (es : List NodeEvent) : outstanding t (e :: es) id = outstanding t es id := by
  rw [outstanding_cons, if_neg h, Nat.add_zero]

/-- A timer is outstanding at least as often as it waits. -/
theorem count_le_outstanding (t : Timers) (es : List NodeEvent) (id : TimerId) :
    es.count (.timer id) ≤ outstanding t es id := Nat.le_add_left _ _

/-- A timer that is set is outstanding. -/
theorem outstanding_pos {t : Timers} {id : TimerId} (h : t.isPending id = true)
    (es : List NodeEvent) : 0 < outstanding t es id := by
  rw [outstanding, if_pos h]
  omega

/-- A timer that is taken stays outstanding. -/
theorem outstanding_take {t : Timers} {id : TimerId} (h : t.isPending id = true)
    (es : List NodeEvent) (id' : TimerId) :
    outstanding (t.cancel id) (es ++ [.timer id]) id' = outstanding t es id' := by
  by_cases hid : id' = id
  · subst hid
    simp [outstanding, h, List.count_append, Nat.add_comm]
  · have : id ≠ id' := fun h => hid h.symm
    simp [outstanding, hid, this, List.count_append]

section

variable [RandomSource] {σ : Type}

/-- **The account of the outstanding timers**, where `es` still has to be dealt with: what is set or
waits belongs to the state, and what the state needs is set or waits. A look for connectivity is
outstanding exactly once or not at all. -/
structure Coherent (es : List NodeEvent) (n : Node σ) : Prop where
  connecting_of_awaiting : n.awaiting = true → n.state = .connecting
  probe : outstanding n.timers es .connectivityProbe =
    if n.state = .connecting ∧ n.awaiting = false then 1 else 0
  awaiting_of_deadline : n.timers.isPending .sessionDeadline = true → n.awaiting = true
  deadline : n.awaiting = true → 0 < outstanding n.timers es .sessionDeadline
  connecting_of_blink : n.timers.isPending .blink = true → n.state = .connecting
  blink : n.state = .connecting → 0 < outstanding n.timers es .blink
  connected_of_cadence : n.timers.isPending .cadence = true → n.state = .connected
  connected_of_configuration : n.timers.isPending .configuration = true → n.state = .connected
  work : n.state = .connected →
    0 < outstanding n.timers es .cadence + outstanding n.timers es .configuration
  light : n.state ≠ .connecting → n.light.isOn = (n.state == .notConnected)

namespace Coherent

variable {es : List NodeEvent} {n n' : Node σ} {e : NodeEvent}

/-- The account is about nothing but the state, the light, what is set and what is outstanding. -/
theorem of_outstanding {es' : List NodeEvent} (h : Coherent es n) (hs : n'.state = n.state)
    (hw : n'.awaiting = n.awaiting) (hl : n'.light = n.light)
    (hp : ∀ id, n'.timers.isPending id = true → n.timers.isPending id = true)
    (ho : ∀ id, outstanding n'.timers es' id = outstanding n.timers es id) :
    Coherent es' n' where
  connecting_of_awaiting := hs ▸ hw ▸ h.connecting_of_awaiting
  probe := by rw [ho, hs, hw, h.probe]
  awaiting_of_deadline hd := hw ▸ h.awaiting_of_deadline (hp _ hd)
  deadline hw' := ho _ ▸ h.deadline (hw ▸ hw')
  connecting_of_blink hb := hs ▸ h.connecting_of_blink (hp _ hb)
  blink hs' := ho _ ▸ h.blink (hs ▸ hs')
  connected_of_cadence hc := hs ▸ h.connected_of_cadence (hp _ hc)
  connected_of_configuration hc := hs ▸ h.connected_of_configuration (hp _ hc)
  work hs' := by
    rw [ho, ho]
    exact h.work (hs ▸ hs')
  light hs' := by
    rw [hl, hs]
    exact h.light (hs ▸ hs')

/-- The account is a matter of the state, of the wait for the session, of the timers and of the
light. -/
theorem of_eq (h : Coherent es n) (hs : n'.state = n.state) (hw : n'.awaiting = n.awaiting)
    (ht : n'.timers = n.timers) (hl : n'.light = n.light) : Coherent es n' :=
  h.of_outstanding hs hw hl (fun _ hp => ht ▸ hp) fun _ => by rw [ht]

/-- A node that does not connect waits for no session. -/
theorem awaiting_of_ne_connecting (h : Coherent es n) (hs : n.state ≠ .connecting) :
    n.awaiting = false := Bool.eq_false_iff.2 fun hw => hs (h.connecting_of_awaiting hw)

/-- While nothing is awaited no wait is bounded. -/
theorem isPending_sessionDeadline (h : Coherent es n) (hw : n.awaiting = false) :
    n.timers.isPending .sessionDeadline = false :=
  Bool.eq_false_iff.2 fun hd => by simp [h.awaiting_of_deadline hd] at hw

/-- Without a session there is nothing to use it. -/
theorem isPending_cadence (h : Coherent es n) (hs : n.state ≠ .connected) :
    n.timers.isPending .cadence = false ∧ n.timers.isPending .configuration = false :=
  ⟨Bool.eq_false_iff.2 fun hc => hs (h.connected_of_cadence hc),
    Bool.eq_false_iff.2 fun hc => hs (h.connected_of_configuration hc)⟩

/-- A node that does not connect does not blink. -/
theorem isPending_blink (h : Coherent es n) (hs : n.state ≠ .connecting) :
    n.timers.isPending .blink = false :=
  Bool.eq_false_iff.2 fun hb => hs (h.connecting_of_blink hb)

/-- While a session is there or awaited, or given up, no look for connectivity is outstanding. -/
theorem outstanding_probe (h : Coherent es n) (hs : n.state ≠ .connecting ∨ n.awaiting = true) :
    outstanding n.timers es .connectivityProbe = 0 := by
  rw [h.probe, if_neg]
  rintro ⟨hc, hw⟩
  rcases hs with hs | hs
  · exact hs hc
  · simp [hw] at hs

/-- The look for connectivity at hand is the only one. -/
theorem outstanding_probe_tail (h : Coherent (.timer .connectivityProbe :: es) n) :
    outstanding n.timers es .connectivityProbe = 0 := by
  have := h.probe
  rw [outstanding_cons, if_pos rfl] at this
  split at this <;> omega

/-- An event that means nothing, or is no timer, is no loss. -/
theorem tail (h : Coherent (e :: es) n) (he : ∀ id, e = .timer id → n.Stale e) : Coherent es n := by
  constructor
  · exact h.connecting_of_awaiting
  · by_cases hp : e = .timer .connectivityProbe
    · have hs := he _ hp
      subst hp
      have := h.outstanding_probe hs
      rw [outstanding_cons, if_pos rfl] at this
      omega
    · exact outstanding_cons_of_ne hp n.timers es ▸ h.probe
  · exact h.awaiting_of_deadline
  · intro hw
    by_cases hd : e = .timer .sessionDeadline
    · have hs := he _ hd
      subst hd
      simp [Stale, hw] at hs
    · exact outstanding_cons_of_ne hd n.timers es ▸ h.deadline hw
  · exact h.connecting_of_blink
  · intro hs
    by_cases hb : e = .timer .blink
    · have hs' := he _ hb
      subst hb
      exact absurd hs hs'
    · exact outstanding_cons_of_ne hb n.timers es ▸ h.blink hs
  · exact h.connected_of_cadence
  · exact h.connected_of_configuration
  · intro hs
    have hc : e ≠ .timer .cadence := by
      rintro rfl
      exact absurd hs (he _ rfl)
    have hf : e ≠ .timer .configuration := by
      rintro rfl
      exact absurd hs (he _ rfl)
    have := h.work hs
    rwa [outstanding_cons_of_ne hc, outstanding_cons_of_ne hf] at this
  · exact h.light

end Coherent

/-- The account is right for a node that was just started. -/
theorem coherent_start {n : Node σ} (ht : n.timers = .empty) (hw : n.awaiting = false)
    (i : Instant) : Coherent [] (n.start i).value := by
  rw [value_start]
  constructor <;> simp [ht, hw]

/-! ## The ends of the handlers -/

variable [Channel σ]

/-- A session that was accepted or confirmed: nothing waits any more for it to come. -/
theorem coherent_goOn {es : List NodeEvent} {n : Node σ} (hw : n.awaiting = false)
    (hp : outstanding n.timers es .connectivityProbe = 0)
    (hd : n.timers.isPending .sessionDeadline = false) : Coherent es n.goOn.value := by
  rw [value_goOn]
  rw [outstanding] at hp
  constructor
  case work =>
    have hcad : n.workingTimers.isPending .cadence = true := isPending_workingTimers.2 (.inl rfl)
    exact fun _ => Nat.add_pos_left (outstanding_pos hcad es) _
  all_goals simp_all [outstanding, isPending_workingTimers]

/-- A session that was given up: nothing is set any more. -/
theorem coherent_dropSession {es : List NodeEvent} {n : Node σ}
    (hp : es.count (.timer .connectivityProbe) = 0) : Coherent es n.dropSession.value := by
  rw [value_dropSession]
  constructor <;> simp [hp]

/-- The consequences of an outcome keep the account, if the node has stopped to look and to wait. -/
theorem coherent_conclude {es : List NodeEvent} {n : Node σ} (hw : n.awaiting = false)
    (hp : outstanding n.timers es .connectivityProbe = 0)
    (hd : n.timers.isPending .sessionDeadline = false) (o : Outcome) :
    Coherent es (n.conclude o).value := by
  have hp' := Nat.le_zero.1 (hp ▸ count_le_outstanding n.timers es .connectivityProbe)
  cases o with
  | accepted => exact coherent_goOn hw hp hd
  | rejected => exact coherent_dropSession hp'
  | timedOut => exact coherent_dropSession hp'

/-! ## No step breaks the account -/

/-- **Dealing with an event keeps the account.**

**Proof sketch.** The event at hand counted as waiting and no longer does. Where the handler ends in
an outcome, the session was up, or the look for connectivity at hand was the only one, or the wait
for the session excluded one, so none is left. In the other cases the timer that the event used up
is set again, or means nothing in the state the node is in. -/
theorem Reaction.coherent {net : Connectivity} {n n' : Node σ} {e : NodeEvent}
    {es : List NodeEvent} (h : Reaction net n e n') (hn : Coherent (e :: es) n) :
    Coherent es n' := by
  -- With a session there is nothing left of the way to it.
  have hconn : n.state = .connected → ∀ (m : Node σ) (o : Outcome), m.awaiting = n.awaiting →
      m.timers = n.timers → e ≠ .timer .connectivityProbe → Coherent es (m.conclude o).value := by
    intro hs m o hmw hmt he
    have hw := hn.awaiting_of_ne_connecting (by simp [hs])
    have hp := hn.outstanding_probe (.inl (by simp [hs]))
    rw [outstanding_cons_of_ne he] at hp
    exact coherent_conclude (hmw.trans hw) (hmt ▸ hp) (hmt ▸ hn.isPending_sessionDeadline hw) o
  cases h with
  | stale h => exact hn.tail fun _ _ => h
  | unavailable hs hw ha =>
    -- The probe that was dealt with was the only one, and the one that is set takes its place.
    have hp := count_le_outstanding n.timers es .connectivityProbe
    rw [hn.outstanding_probe_tail, Nat.le_zero] at hp
    have hd := hn.isPending_sessionDeadline hw
    have hb := hn.blink hs
    have hc := hn.isPending_cadence (by simp [hs])
    rw [outstanding_cons_of_ne (by simp)] at hb
    constructor <;> simp [arm, hs, hw, hp, hd, hc, hb]
  | resolved hs hw ha h =>
    refine coherent_conclude ?_ ?_ ?_ _
    · exact hw
    · exact hn.outstanding_probe_tail
    · exact hn.isPending_sessionDeadline hw
  | pending hs hw ha h =>
    have hp := hn.outstanding_probe_tail
    have hb := hn.blink hs
    have hc := hn.isPending_cadence (by simp [hs])
    rw [outstanding_cons_of_ne (by simp)] at hb
    constructor <;> simp [arm, located, hs, hp, hc, hb]
  | expired hw =>
    have hp := hn.outstanding_probe (.inr hw)
    rw [outstanding_cons_of_ne (by simp)] at hp
    have := count_le_outstanding n.timers es .connectivityProbe
    exact coherent_dropSession (by omega)
  | configured hs h => exact hconn hs _ _ rfl rfl (by simp)
  | keptAlive hs hm h => exact hconn hs _ _ rfl rfl (by simp)
  | published hs hm hr h => exact hconn hs _ _ rfl rfl (by simp)
  | unreadable hs hm hr => exact hconn hs _ _ rfl rfl (by simp)
  | blinked hs =>
    have hp := hn.probe
    have hd := hn.deadline
    have hc := hn.isPending_cadence (by simp [hs])
    rw [outstanding_cons_of_ne (by simp)] at hp hd
    constructor <;> simp [arm, hs, hc]
    · simpa [hs] using hp
    · exact hn.awaiting_of_deadline
    · exact hd
  | held h => exact (hn.tail (by simp)).of_eq rfl rfl rfl rfl
  | reconnected hs h =>
    have hn := hn.tail (by simp)
    have hw := hn.awaiting_of_ne_connecting (by simp [hs])
    -- In the state that is left no probe is outstanding.
    have hp := count_le_outstanding n.timers es .connectivityProbe
    rw [hn.outstanding_probe (.inl (by simp [hs])), Nat.le_zero] at hp
    have hd := hn.isPending_sessionDeadline hw
    have hc := hn.isPending_cadence (by simp [hs])
    rw [value_beginConnecting]
    constructor <;> simp [cancel, hw, hp, hd, hc]
  | released h => exact (hn.tail (by simp)).of_eq rfl rfl rfl rfl
  | pressed h hs =>
    have hn := hn.tail (by simp)
    have hw := hn.awaiting_of_ne_connecting (by simp [hs])
    have hp := hn.outstanding_probe (.inl (by simp [hs]))
    have hd := hn.isPending_sessionDeadline hw
    have hb := hn.isPending_blink (by simp [hs])
    have hl := hn.light (by simp [hs])
    constructor
    -- The cadence is taken back, so that it is the push that keeps the session at work.
    case work => exact fun _ => Nat.add_pos_right _ (by simp [arm])
    all_goals simp [arm, cancel, hs, hw, hp, hd, hb, hl]
  | chosen h hs => exact (hn.tail (by simp)).of_eq rfl rfl rfl rfl
  | answered hw =>
    have hn := hn.tail (by simp)
    refine coherent_conclude rfl ?_ ?_ _
    · simpa [cancel] using hn.outstanding_probe (.inr hw)
    · simp [cancel]
  | lost hw hs => exact hconn hs n .rejected rfl rfl (by simp)

/-- What is taken in stays outstanding. -/
theorem Intake.coherent {n n' : Node σ} (h : Intake n n') (hn : Coherent n.queue.events n) :
    Coherent n'.queue.events n' := by
  cases h with
  | full => exact hn
  | nothing => exact hn.of_eq rfl rfl rfl rfl
  | change h hc hq =>
    refine hn.of_outstanding rfl rfl rfl (fun _ hp => hp) fun id => ?_
    simp [outstanding, hq, List.count_append]
  | timer h hc hd hq =>
    refine hn.of_outstanding rfl rfl rfl ?_ fun id => ?_
    · intro id hp
      simp only [Timers.isPending_cancel, Bool.and_eq_true] at hp
      exact hp.2
    · rw [hq]
      exact outstanding_take (Timers.isPending_of_firstDue hd) n.queue.events id

/-- The account is kept by every step, whatever the other side does. -/
theorem coherent_invariant :
    Invariant (fun _ _ : σ => True) fun _ (n : Node σ) => Coherent n.queue.events n where
  post {_ _ q} edge hn hq := by
    refine hn.of_outstanding rfl rfl rfl (fun _ hp => hp) fun id => ?_
    cases edge <;> simp [outstanding, hq, List.count_append, ButtonEdge.event]
  command _ _ hn := hn.of_eq rfl rfl rfl rfl
  outside hn _ := hn.of_eq rfl rfl rfl rfl
  tick _ hn := hn.of_eq rfl rfl rfl rfl
  take hn hi := hi.coherent hn
  turn {_ t q} hn hq := by
    have hn : Coherent (t.event :: t.node.queue.events) t.node :=
      hq ▸ hn.of_eq rfl rfl rfl rfl
    rw [t.reaction.frame.2.2.1]
    exact t.reaction.coherent hn

/-! ## Between calls -/

/-- What belongs to a state between calls. -/
def Standing (n : Node σ) : NodeState → Prop
  | .notConnected =>
    (∀ id, n.timers.isPending id = false) ∧ n.awaiting = false ∧ n.light.isOn = true
  | .connected =>
    (n.timers.isPending .cadence = true ∨ n.timers.isPending .configuration = true) ∧
      n.timers.isPending .connectivityProbe = false ∧
      n.timers.isPending .sessionDeadline = false ∧ n.timers.isPending .blink = false ∧
      n.awaiting = false ∧ n.light.isOn = false
  | .connecting =>
    n.timers.isPending .blink = true ∧ n.timers.isPending .cadence = false ∧
      n.timers.isPending .configuration = false ∧
      n.timers.isPending .sessionDeadline = n.awaiting ∧
      n.timers.isPending .connectivityProbe = !n.awaiting

omit [Channel σ] in
/-- What belongs to one state excludes what belongs to another. -/
theorem Standing.eq {n : Node σ} {s s' : NodeState} (h : n.Standing s) (h' : n.Standing s') :
    s = s' := by
  cases s <;> cases s' <;> simp_all [Standing]

omit [Channel σ] in
/-- Between calls a timer is outstanding once if it is set, and otherwise not. -/
theorem outstanding_of_onlyButtons {n : Node σ} (hb : n.OnlyButtons) (id : TimerId) :
    outstanding n.timers n.queue.events id = if n.timers.isPending id then 1 else 0 := by
  rw [outstanding, List.count_eq_zero_of_not_mem (hb.timer_notMem id), Nat.add_zero]

omit [Channel σ] in
/-- Between calls a timer that is outstanding is set. -/
theorem isPending_of_onlyButtons {n : Node σ} (hb : n.OnlyButtons) {id : TimerId}
    (h : 0 < outstanding n.timers n.queue.events id) : n.timers.isPending id = true := by
  rw [outstanding_of_onlyButtons hb] at h
  split at h
  · assumption
  · omega

omit [Channel σ] in
/-- While nothing waits but what the user did, what is outstanding is set. -/
theorem Coherent.standing {n : Node σ} (h : Coherent n.queue.events n) (hb : n.OnlyButtons) :
    n.Standing n.state := by
  have hp := h.probe
  have hl := h.light
  rw [outstanding_of_onlyButtons hb] at hp
  cases hs : n.state with
  | notConnected =>
    have hne : n.state ≠ .connecting := by simp [hs]
    have hw := h.awaiting_of_ne_connecting hne
    have hc := h.isPending_cadence (by simp [hs])
    refine ⟨fun id => ?_, hw, ?_⟩
    · cases id with
      | connectivityProbe => simpa [hs] using hp
      | sessionDeadline => exact h.isPending_sessionDeadline hw
      | configuration => exact hc.2
      | cadence => exact hc.1
      | blink => exact h.isPending_blink hne
    · rw [hl hne, hs]
      rfl
  | connected =>
    have hne : n.state ≠ .connecting := by simp [hs]
    have hw := h.awaiting_of_ne_connecting hne
    refine ⟨?_, ?_, h.isPending_sessionDeadline hw, h.isPending_blink hne, hw, ?_⟩
    · rcases Nat.add_pos_iff_pos_or_pos.1 (h.work hs) with hc | hc
      · exact .inl (isPending_of_onlyButtons hb hc)
      · exact .inr (isPending_of_onlyButtons hb hc)
    · simpa [hs] using hp
    · rw [hl hne, hs]
      rfl
  | connecting =>
    have hc := h.isPending_cadence (by simp [hs])
    refine ⟨isPending_of_onlyButtons hb (h.blink hs), hc.1, hc.2, ?_, ?_⟩
    · cases hw : n.awaiting with
      | false => exact h.isPending_sessionDeadline hw
      | true => exact isPending_of_onlyButtons hb (h.deadline hw)
    · cases hw : n.awaiting <;> simpa [hs, hw] using hp

omit [Channel σ] in
/-- A node waits without a deadline exactly when it is not connected. -/
theorem Standing.nextDeadline_eq_none_iff {n : Node σ} (h : n.Standing n.state) :
    n.timers.nextDeadline = none ↔ n.state = .notConnected := by
  rw [Timers.nextDeadline_eq_none_iff]
  cases hs : n.state with
  | notConnected =>
    rw [hs] at h
    simpa using h.1
  | connected =>
    rw [hs] at h
    simp only [reduceCtorEq, iff_false]
    intro hn
    rcases h.1 with hc | hc
    · simp [hn] at hc
    · simp [hn] at hc
  | connecting =>
    rw [hs] at h
    simp only [reduceCtorEq, iff_false]
    intro hn
    have := h.1
    simp [hn] at this

/-- **Between calls exactly what belongs to the state of a node holds**, so that it waits without a
deadline exactly when it is not connected. -/
theorem standing_run [Json.Writer] {identity : Identity} {channel : σ} {settings : NodeSettings}
    {n : Node σ} (hn : create identity channel settings = .ok n) (i : Instant)
    {calls : List (Call σ)} (hc : ∀ c ∈ calls, c.BeforeLast) :
    (∀ s, ((n.start i).value.run calls).Standing s ↔ ((n.start i).value.run calls).state = s) ∧
      (((n.start i).value.run calls).timers.nextDeadline = none ↔
        ((n.start i).value.run calls).state = .notConnected) := by
  obtain ⟨-, ht, hq, hw⟩ := idle_of_create hn
  have hqs : (n.start i).value.queue.events = [] := by
    rw [value_start, hq]
    rfl
  have hcoh :
      Coherent ((n.start i).value.run calls).queue.events ((n.start i).value.run calls) := by
    have h₀ : Coherent (n.start i).value.queue.events (n.start i).value :=
      hqs ▸ coherent_start ht hw i
    exact coherent_invariant.run (h := []) h₀ fun c _ => c.keeps_true
  have hbut : ((n.start i).value.run calls).OnlyButtons :=
    onlyButtons_run (onlyButtons_of_nil hqs)
      (completes_of_beforeLast ((timed_of_create hn).start i) hc)
  have hst := hcoh.standing hbut
  refine ⟨fun s => ⟨fun hs => hst.eq hs, ?_⟩, hst.nextDeadline_eq_none_iff⟩
  rintro rfl
  exact hst

end

/-- A thermostat that has found connectivity at the tenth second is connected. -/
theorem standing_run_thermostat :
    ∃ n : Node ScriptedChannel, create thermostat {} {} = .ok n ∧
      ((n.start .start).value.run [.poll (.ofSeconds 10) fun _ => ⟨true, none⟩]).Standing
        .connected := by
  obtain ⟨n, hn⟩ : ∃ n : Node ScriptedChannel, create thermostat {} {} = .ok n := ⟨_, rfl⟩
  have hc : ∀ c ∈ [(.poll (.ofSeconds 10) fun _ => ⟨true, none⟩ : Call ScriptedChannel)],
      c.BeforeLast := by decide
  refine ⟨n, hn, ((standing_run hn .start hc).1 .connected).2 ?_⟩
  obtain rfl := Except.ok.inj hn
  rfl

end Node

end EdgeDevice
