import EdgeDevice.Proofs.Node.Inputs

set_option autoImplicit false
set_option relaxedAutoImplicit false

/-!
# Polls come to rest

A poll refills the queue it empties: it takes in changes and timers, and dealing with an event sets
timers. It comes to rest all the same, because before the last instant of the clock a timer that is
set to fire after some time is not due in the same poll. Only the look for connectivity after a long
press is due at once, and the press that asked for it is used up.

So each waiting event counts, one of the user twice, and so does each timer that is due; every turn
lowers the sum, apart from the changes it takes in, of which there are finitely many.

## Main definitions

* `EdgeDevice.Node.Timed` — the periods of a node are not nothing.
* `EdgeDevice.Node.load` — what a poll still has to do.
* `EdgeDevice.Node.waiting` — how often a timer is still dealt with in a poll.

## Main results

* `EdgeDevice.Node.Reaction.isDue_of_isDue` — a reaction makes no timer due unless the user asks.
* `EdgeDevice.Node.Reaction.load_lt` — dealing with an event is progress.
* `EdgeDevice.Node.completes_of_beforeLast` — polls before the last instant come to rest.
-/

namespace EdgeDevice

namespace NodeSettings

/-- With usable settings some time passes between two looks for connectivity. -/
theorem millis_probePeriod_pos {s : NodeSettings} (h : s.check = .ok ()) :
    0 < s.probePeriod.millis := by
  have := check_eq_ok_iff.1 h
  rw [probePeriod, Duration.millis_ofSeconds]
  omega

/-- With usable settings some time passes before the chosen period is told. -/
theorem millis_configurationDelay_pos {s : NodeSettings} (h : s.check = .ok ()) :
    0 < s.configurationDelay.millis := by
  have := check_eq_ok_iff.1 h
  rw [configurationDelay, Duration.millis_ofSeconds]
  omega

/-- With usable settings some time passes between two blinks. -/
theorem millis_blinkPeriod_pos {s : NodeSettings} (h : s.check = .ok ()) :
    0 < s.blinkPeriod.millis := by
  have := check_eq_ok_iff.1 h
  rw [blinkPeriod, Duration.millis_ofMillis]
  omega

/-- With usable settings some time passes before the wait for a session is over. -/
theorem millis_sessionTimeout_pos {s : NodeSettings} (h : s.check = .ok ()) :
    0 < s.sessionTimeout.millis := by
  have := check_eq_ok_iff.1 h
  rw [sessionTimeout, Duration.millis_ofSeconds]
  omega

end NodeSettings

/-! ## The chosen period is not nothing -/

/-- There are periods to choose from, none of them is nothing, and one of them is chosen. -/
structure PeriodDial.Sound (d : PeriodDial) : Prop where
  positive : ∀ p ∈ d.values, 0 < p
  chosen : d.index < d.values.length

namespace PeriodDial

/-- The periods of every kind are sound. -/
theorem sound_ofKind (k : Kind) : (ofKind k).Sound :=
  ⟨fun _ hp => Kind.periods_pos hp, List.length_pos_iff.2 k.periods_ne_nil⟩

/-- The chosen period is not nothing. -/
theorem Sound.value_pos {d : PeriodDial} (h : d.Sound) : 0 < d.value := by
  rw [value, List.getD_eq_getElem?_getD, List.getElem?_eq_getElem h.chosen]
  exact h.positive _ (List.getElem_mem h.chosen)

/-- The next period is one of the periods as well. -/
theorem Sound.turn {d : PeriodDial} (h : d.Sound) : d.turn.Sound := by
  unfold PeriodDial.turn
  split
  · exact h
  · exact ⟨h.positive, Nat.mod_lt _ (Nat.zero_lt_of_lt h.chosen)⟩

end PeriodDial

namespace Node

variable [RandomSource] {σ : Type} [Channel σ]

/-- The periods of a node are not nothing. -/
structure Timed (n : Node σ) : Prop where
  settings : n.settings.check = .ok ()
  dial : n.dial.Sound

omit [Channel σ] in
/-- The periods of a node that was just built are not nothing. -/
theorem timed_of_create {identity : Identity} {channel : σ} {settings : NodeSettings} {n : Node σ}
    (h : create identity channel settings = .ok n) : n.Timed := by
  obtain ⟨hs, rfl⟩ := create_eq_ok_iff.1 h
  exact ⟨hs, PeriodDial.sound_ofKind identity.kind⟩

omit [Channel σ] in
/-- A node that is started has the periods it was built with. -/
theorem Timed.start {n : Node σ} (hn : n.Timed) (i : Instant) : (n.start i).value.Timed := by
  rw [value_start]
  exact ⟨hn.settings, hn.dial⟩

/-- No reaction makes a period nothing. -/
theorem Reaction.timed {net : Connectivity} {n n' : Node σ} {e : NodeEvent}
    (h : Reaction net n e n') (hn : n.Timed) : n'.Timed := by
  refine ⟨h.frame.2.1 ▸ hn.settings, ?_⟩
  rcases h.dial with hd | hd
  · exact hd ▸ hn.dial
  · exact hd ▸ hn.dial.turn

/-! ## What is left to do -/

/-- How much there is to an event: what the user does can make a timer due at once. -/
def weight (e : NodeEvent) : Nat := if e.isButton then 2 else 1

omit [RandomSource] in
/-- There is something to every event. -/
theorem weight_pos (e : NodeEvent) : 0 < weight e := by
  unfold weight
  split <;> omega

omit [Channel σ] in
/-- What a poll still has to do: the events that wait, those of the user twice, and the timers that
are due. -/
def load (n : Node σ) : Nat :=
  n.queue.events.length + n.queue.events.countP NodeEvent.isButton + n.timers.overdue n.now

omit [Channel σ] in
/-- The event in front takes its weight off what a poll still has to do. -/
theorem load_of_cons {n : Node σ} {q : EventQueue} {e : NodeEvent}
    (hq : q.events = e :: n.queue.events) : load { n with queue := q } = n.load + weight e := by
  simp only [load, hq, List.length_cons, List.countP_cons, weight]
  split <;> omega

omit [Channel σ] in
/-- What a poll still has to do is bounded by the size of the queue. -/
theorem load_le (n : Node σ) : n.load ≤ 2 * n.queue.size + 5 := by
  have h₁ : n.queue.events.countP NodeEvent.isButton ≤ n.queue.events.length :=
    List.countP_le_length
  have h₂ := n.timers.overdue_le n.now
  unfold load EventQueue.size
  omega

/-- What is taken in was there before. -/
theorem Intake.load_le {n n' : Node σ} (h : Intake n n') :
    n'.load + Channel.backlog n'.channel ≤ n.load + Channel.backlog n.channel := by
  cases h with
  | full => exact Nat.le_refl _
  | change h hc hq =>
    have := Channel.backlog_nextChange_lt hc
    simp only [load, hq, List.length_append, List.length_singleton, List.countP_append,
      List.countP_singleton, NodeEvent.isButton, Bool.false_eq_true, if_false]
    omega
  | timer h hc hd hq =>
    have hb := Channel.backlog_nextChange_le n.channel
    have ho := Timers.overdue_cancel hd
    rw [hc] at hb
    dsimp only at hb
    simp only [load, hq, List.length_append, List.length_singleton, List.countP_append,
      List.countP_singleton, NodeEvent.isButton, Bool.false_eq_true, if_false]
    omega
  | nothing h hc hd =>
    have hb := Channel.backlog_nextChange_le n.channel
    rw [hc] at hb
    exact Nat.add_le_add_left hb n.load

/-- An intake does not touch the periods. -/
theorem Intake.timed {n n' : Node σ} (h : Intake n n') (hn : n.Timed) : n'.Timed := by
  cases h <;> exact ⟨hn.settings, hn.dial⟩

/-- An intake takes no time. -/
theorem Intake.now_eq {n n' : Node σ} (h : Intake n n') : n'.now = n.now := by
  cases h <;> rfl

/-! ## Dealing with an event is progress -/

/-- The timers that an outcome sets are not due in the same poll. -/
theorem isDue_of_conclude {n : Node σ} (hn : n.Timed) (hl : n.now < .last) {o : Outcome}
    {id : TimerId} (h : (n.conclude o).value.timers.isDue n.now id = true) :
    n.timers.isDue n.now id = true := by
  cases o with
  | rejected => simp [value_dropSession] at h
  | timedOut => simp [value_dropSession] at h
  | accepted =>
    have hv : 0 < (Duration.ofSeconds n.dial.value).millis := by
      have := hn.dial.value_pos
      rw [Duration.millis_ofSeconds]
      omega
    have hd := NodeSettings.millis_configurationDelay_pos hn.settings
    rw [value_conclude_accepted, value_goOn] at h
    dsimp only [workingTimers] at h
    split at h
    · exact Timers.isDue_of_cancel (Timers.isDue_of_arm hl hv (Timers.isDue_of_arm hl hd h))
    · exact Timers.isDue_of_cancel (Timers.isDue_of_arm hl hv h)

/-- **A reaction makes no timer due**, apart from the look for connectivity that the user asks
for. -/
theorem Reaction.isDue_of_isDue {net : Connectivity} {n n' : Node σ} {e : NodeEvent}
    (h : Reaction net n e n') (hn : n.Timed) (hl : n.now < .last) {id : TimerId}
    (hdue : n'.timers.isDue n.now id = true) :
    n.timers.isDue n.now id = true ∨ id = .connectivityProbe ∧ e = .buttonHeld := by
  have hc : ∀ {m : Node σ} {o : Outcome}, (m.conclude o).value.timers.isDue n.now id = true →
      m.settings = n.settings → m.dial = n.dial → m.now = n.now →
      m.timers.isDue n.now id = true := by
    intro m o ht hs hd hm
    have hmt : m.Timed := ⟨hs ▸ hn.settings, hd ▸ hn.dial⟩
    rw [← hm] at hl ht ⊢
    exact isDue_of_conclude hmt hl ht
  cases h with
  | stale => exact .inl hdue
  | held => exact .inl hdue
  | released => exact .inl hdue
  | chosen => exact .inl hdue
  | unavailable =>
    exact .inl (Timers.isDue_of_arm hl (NodeSettings.millis_probePeriod_pos hn.settings) hdue)
  | pending =>
    exact .inl (Timers.isDue_of_arm hl (NodeSettings.millis_sessionTimeout_pos hn.settings) hdue)
  | blinked =>
    exact .inl (Timers.isDue_of_arm hl (NodeSettings.millis_blinkPeriod_pos hn.settings) hdue)
  | pressed =>
    have hd := NodeSettings.millis_configurationDelay_pos hn.settings
    have := Timers.isDue_of_arm hl hd hdue
    exact .inl (Timers.isDue_of_cancel this)
  | reconnected =>
    rw [value_beginConnecting] at hdue
    -- Of the two timers that are set only the probe is set without a delay.
    by_cases hid : id = .connectivityProbe
    · exact .inr ⟨hid, rfl⟩
    · have hb := NodeSettings.millis_blinkPeriod_pos hn.settings
      dsimp only [cancel] at hdue
      rw [Timers.arm, Timers.isDue_put, if_neg hid] at hdue
      exact .inl (Timers.isDue_of_cancel (Timers.isDue_of_arm hl hb hdue))
  | resolved => exact .inl (hc hdue rfl rfl rfl :)
  | expired => exact .inl (hc hdue rfl rfl rfl :)
  | configured => exact .inl (hc hdue rfl rfl rfl :)
  | keptAlive => exact .inl (hc hdue rfl rfl rfl :)
  | published => exact .inl (hc hdue rfl rfl rfl :)
  | unreadable => exact .inl (hc hdue rfl rfl rfl :)
  | answered => exact .inl (Timers.isDue_of_cancel (hc hdue rfl rfl rfl))
  | lost => exact .inl (hc (o := .rejected) hdue rfl rfl rfl)

/-- **Only the user makes a timer due at once**, and then it is one. A reaction to anything else
leaves no more timers due than there were. -/
theorem Reaction.overdue_le {net : Connectivity} {n n' : Node σ} {e : NodeEvent}
    (h : Reaction net n e n') (hn : n.Timed) (hl : n.now < .last) :
    n'.timers.overdue n.now + 1 ≤ n.timers.overdue n.now + weight e := by
  by_cases he : e = .buttonHeld
  · have hle : ∀ id, id ≠ .connectivityProbe → n'.timers.isDue n.now id = true →
        n.timers.isDue n.now id = true :=
      fun id hid hdue => (h.isDue_of_isDue hn hl hdue).resolve_right fun hp => hid hp.1
    subst he
    exact Nat.succ_le_succ (Timers.overdue_le_succ .connectivityProbe hle)
  · have hle : n'.timers.overdue n.now ≤ n.timers.overdue n.now :=
      List.countP_mono_left fun id _ hdue =>
        (h.isDue_of_isDue hn hl hdue).resolve_right fun hp => he hp.2
    have := weight_pos e
    omega

/-- **Dealing with an event is progress**: what is left to do afterwards is less than it was with
the event. -/
theorem Reaction.load_lt {net : Connectivity} {n n' : Node σ} {e : NodeEvent}
    (h : Reaction net n e n') (hn : n.Timed) (hl : n.now < .last) :
    n'.load < n.load + weight e := by
  have ho := h.overdue_le hn hl
  obtain ⟨-, -, hq, ht⟩ := h.frame
  rw [load, load, hq, ht]
  omega

/-! ## A timer fires once in a poll -/

omit [Channel σ] in
/-- How often a timer is still dealt with in a poll if nothing sets it: once for each time it has
fired and waits, and once more if it is due. -/
def waiting (n : Node σ) (id : TimerId) : Nat :=
  n.queue.events.count (.timer id) + if n.timers.isDue n.now id then 1 else 0

/-- What is taken in goes from one place where it waits to the other. -/
theorem Intake.waiting_eq {n n' : Node σ} (h : Intake n n') (id : TimerId) :
    n'.waiting id = n.waiting id := by
  cases h with
  | full => rfl
  | change h hc hq => simp [waiting, hq]
  | nothing => rfl
  | @timer id' c q h hc hd hq =>
    have hdue := Timers.isDue_of_firstDue hd
    by_cases hid : id = id'
    · subst hid
      simp [waiting, hq, Timers.isDue_cancel, hdue]
    · simp [waiting, hq, Timers.isDue_cancel, hid, Ne.symm hid]

/-- A timer that was dealt with has fired for this poll, unless it is the look for connectivity. -/
theorem Turn.waiting_after_le {t : Turn σ} (hn : t.node.Timed) (hl : t.node.now < .last)
    {id : TimerId} (hid : id ≠ .connectivityProbe) : t.after.waiting id ≤ t.node.waiting id := by
  obtain ⟨-, -, hq, hnow⟩ := t.reaction.frame
  have hle : t.after.timers.isDue t.node.now id = true → t.node.timers.isDue t.node.now id = true :=
    fun hdue => (t.reaction.isDue_of_isDue hn hl hdue).resolve_right fun hp => hid hp.1
  rw [waiting, waiting, hq, hnow]
  split <;> split <;> simp_all

/-! ## Every poll comes to rest -/

/-- A poll with more turns than there is to do comes to rest. -/
theorem rests_of_load_lt {nets : Nat → Connectivity} {k : Nat} {n : Node σ} (hn : n.Timed)
    (hl : n.now < .last) (hk : n.load + Channel.backlog n.channel < k) : Rests nets k n := by
  induction k generalizing n with
  | zero => omega
  | succ k ih =>
    have hi := intake_take n
    rw [Rests]
    rcases ht : n.turn? (nets k) with _ | t
    · trivial
    · obtain ⟨q, hq, hv⟩ := queue_of_turn? ht
      have htn := hi.timed hn
      have hnow := hi.now_eq
      have hle := hi.load_le
      rw [hv] at htn hnow hle
      have htt : t.node.Timed := ⟨htn.settings, htn.dial⟩
      have htl : t.node.now < .last := hnow ▸ hl
      have hload : Node.load { t.node with queue := q } = t.node.load + weight t.event :=
        load_of_cons hq
      have hlt := t.reaction.load_lt htt htl
      have hb := t.reaction.backlog_le
      have hat : t.after.now < .last := by
        rw [t.reaction.frame.2.2.2]
        exact htl
      refine ih (t.reaction.timed htt) hat ?_
      rw [hload] at hle
      dsimp only at hle
      omega

/-- The instant of a poll is before the last one. -/
def Call.BeforeLast : Call σ → Prop
  | poll now _ => now < .last
  | _ => True

instance : (c : Call σ) → Decidable c.BeforeLast
  | .poll now _ => inferInstanceAs (Decidable (now < .last))
  | .post _ => .isTrue trivial
  | .put _ => .isTrue trivial
  | .answer _ => .isTrue trivial
  | .outside _ => .isTrue trivial

omit [RandomSource] [Channel σ] in
/-- Where the polls of an inner channel are before the last instant, so are those of the outer
one. -/
theorem Call.beforeLast_of_mem_lift {τ : Type} {carry : (τ → τ) → σ → σ} {calls : List (Call τ)}
    (h : ∀ c ∈ calls, c.BeforeLast) {c : Call σ} (hc : c ∈ calls.map (Call.lift carry)) :
    c.BeforeLast := by
  obtain ⟨c, hm, rfl⟩ := List.mem_map.1 hc
  cases c with
  | poll now nets => exact h _ hm
  | _ => trivial

/-- Every call before the last instant is over at some time. -/
theorem returns_of_beforeLast {n : Node σ} (hn : n.Timed) {c : Call σ} (hc : c.BeforeLast) :
    n.Returns c := by
  cases c with
  | poll now nets =>
    rw [returns_poll]
    refine rests_of_load_lt ⟨hn.settings, hn.dial⟩ hc ?_
    have hload := load_le { n with now := now }
    have hlimit : 5 < turnLimit := by decide
    unfold enoughTurns
    dsimp only at hload ⊢
    omega
  | _ => trivial

/-- The periods of a node stay as they are, and the chosen one is always one of them. -/
theorem timed_invariant :
    Invariant (fun _ _ : σ => True) fun _ (n : Node σ) => n.Timed where
  post _ hn _ := ⟨hn.settings, hn.dial⟩
  command _ _ hn := ⟨hn.settings, hn.dial⟩
  outside hn _ := ⟨hn.settings, hn.dial⟩
  tick _ hn := ⟨hn.settings, hn.dial⟩
  take hn hi := hi.timed hn
  turn {_ t _} hn _ := t.reaction.timed ⟨hn.settings, hn.dial⟩

/-- Nothing that can come to a node changes that. -/
theorem Timed.inputs [Json.Writer] {n : Node σ} (hn : n.Timed) (is : List (Input σ)) :
    (n.inputs is).Timed := by
  have hR : Robust (fun _ _ => True) (fun _ _ => True) fun _ (m : Node σ) => m.Timed :=
    timed_invariant.robust (fun now hm => hm.start now) fun _ hm _ => ⟨hm.settings, hm.dial⟩
  exact hR.inputs (h := []) hn fun i _ => i.keeps_true

/-- **Polls before the last instant come to rest.** -/
theorem completes_of_beforeLast [Json.Writer] {n : Node σ} (hn : n.Timed)
    {calls : List (Call σ)} (hc : ∀ c ∈ calls, c.BeforeLast) : n.Completes calls := by
  induction calls generalizing n with
  | nil => trivial
  | cons c calls ih =>
    have hr := returns_of_beforeLast hn (hc c List.mem_cons_self)
    have hn' : (n.call c).Timed := timed_invariant.call (h := []) hn c.keeps_true
    exact ⟨hr, ih hn' fun c' hc' => hc c' (List.mem_cons_of_mem c hc')⟩

end Node

end EdgeDevice
