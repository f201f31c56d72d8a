import EdgeDevice.Proofs.Node.Activity
import EdgeDevice.Proofs.Node.Outlook
import EdgeDevice.Simulation.Counterpart

set_option autoImplicit false
set_option relaxedAutoImplicit false

/-!
# Quiet after a short press

While there is a session, a short press puts off whatever the node would send: for a while nothing
is sent, and then the chosen period is told once, however often the user pressed. To that end the
press takes back one timer and sets another. It does not look at the queue, though, and so it comes
too late for a timer that has fired already and waits there.

The quiet is kept exactly if no press is overtaken in that way. Once a press is not overtaken
nothing in the node can break the quiet (`Hushed`), and once it is, nothing but the end of the
session can save it (`Doomed`).

## Main definitions

* `EdgeDevice.Node.Quiet`, `EdgeDevice.Node.Coalesces` — what the turns after a press, after every
  press should be like.
* `EdgeDevice.Node.Turn.Overtaken` — a timer that makes the node send waits behind the press.

## Main results

* `EdgeDevice.Node.coalesces_iff` — the quiet is kept in a run exactly if no press is overtaken.
-/

namespace EdgeDevice.Node

section

variable [RandomSource] {σ : Type}

/-! ## What the quiet is -/

section

variable [Channel σ]

/-- The instant up to which a press asks for quiet. -/
def Turn.due (t : Turn σ) : Instant := t.node.now.after t.node.settings.configurationDelay

/-- **The chosen period is not told again** before the next press or the end of the session. -/
inductive Told : List (Turn (Recorded σ)) → Prop
  | nil : Told []
  | pressed {t : Turn (Recorded σ)} {rest : List (Turn (Recorded σ))} (hs : t.sends = [])
      (hp : t.IsPress) : Told (t :: rest)
  | other {t : Turn (Recorded σ)} {rest : List (Turn (Recorded σ))}
      (hs : ∀ ctx o, SessionAct.configured ctx o ∉ t.sends)
      (h : t.after.state = .connected → Told rest) : Told (t :: rest)

/-- **Quiet up to an instant.** While there is the session, nothing is sent before that instant, and
the first thing that is sent then is the chosen period, once. A further press starts the quiet
over. -/
inductive Quiet : Instant → List (Turn (Recorded σ)) → Prop
  | nil {due : Instant} : Quiet due []
  | pressed {due : Instant} {t : Turn (Recorded σ)} {rest : List (Turn (Recorded σ))}
      (hs : t.sends = []) (hp : t.IsPress) (h : Quiet t.due rest) : Quiet due (t :: rest)
  | silent {due : Instant} {t : Turn (Recorded σ)} {rest : List (Turn (Recorded σ))}
      (hs : t.sends = []) (hp : ¬t.IsPress) (h : t.after.state = .connected → Quiet due rest) :
      Quiet due (t :: rest)
  | told {due : Instant} {t : Turn (Recorded σ)} {rest : List (Turn (Recorded σ))}
      {ctx : SessionContext} {o : Outcome} (hs : t.sends = [.configured ctx o])
      (hv : ctx.period = t.node.dial.value) (hd : due ≤ t.node.now)
      (h : t.after.state = .connected → Told rest) : Quiet due (t :: rest)

/-- Every press is followed by quiet, up to the instant it asks for. -/
def Coalesces (history : List (Turn (Recorded σ))) : Prop :=
  ∀ before t after, history = before ++ t :: after → t.IsPress → Quiet t.due after

/-- Where there are no turns there are no presses. -/
theorem coalesces_nil : Coalesces ([] : List (Turn (Recorded σ))) := by
  intro before t after h
  simp at h

/-- Every press is followed by quiet, if the first turn is and the others are. -/
theorem coalesces_cons {t : Turn (Recorded σ)} {rest : List (Turn (Recorded σ))} :
    Coalesces (t :: rest) ↔ (t.IsPress → Quiet t.due rest) ∧ Coalesces rest := by
  constructor
  · intro h
    exact ⟨h [] t rest rfl, fun before t' after hr => h (t :: before) t' after (by rw [hr]; rfl)⟩
  · rintro ⟨ht, hr⟩ before t' after h
    rcases List.cons_eq_append_iff.1 h with ⟨rfl, hc⟩ | ⟨before, rfl, hc⟩
    · obtain ⟨rfl, rfl⟩ := List.cons.inj hc
      exact ht
    · exact hr before t' after hc

end

/-! ## What overtakes a press -/

/-- A timer that makes the node send has fired, and its event waits to be dealt with in the
session. -/
def Fired (n : Node σ) : Prop :=
  .timer .cadence ∈ n.inSession ∨ .timer .configuration ∈ n.inSession

instance (n : Node σ) : Decidable n.Fired := inferInstanceAs (Decidable (_ ∨ _))

variable [Channel σ]

/-- A short press is overtaken by a timer that has fired and waits behind it: the session goes on,
and the timer makes the node send as if nobody had pressed. -/
def Turn.Overtaken (t : Turn σ) : Prop := t.node.Fired

instance (t : Turn σ) : Decidable t.Overtaken := inferInstanceAs (Decidable t.node.Fired)

/-- No press is overtaken. -/
def Undisturbed (history : List (Turn σ)) : Prop := ∀ t ∈ history, t.IsPress → ¬t.Overtaken

instance (history : List (Turn σ)) : Decidable (Undisturbed history) :=
  inferInstanceAs (Decidable (∀ t ∈ history, _))

/-! ## A press that is not overtaken -/

/-- A node in the quiet up to an instant: nothing that would break it is set or waits, and the
chosen period waits to be told only once the instant has come. -/
structure Hushed (due : Instant) (n : Node σ) : Prop where
  connected : n.state = .connected
  cadence : n.timers.deadline .cadence = none
  configuration : n.timers.deadline .configuration = none ∨
    n.timers.deadline .configuration = some due
  cadence_notMem : .timer .cadence ∉ n.inSession
  of_mem : .timer .configuration ∈ n.inSession →
    n.timers.deadline .configuration = none ∧ due ≤ n.now

/-- A node that has told the chosen period and will not tell it again by itself. -/
structure Spoken (n : Node σ) : Prop where
  connected : n.state = .connected
  configuration : n.timers.deadline .configuration = none
  notMem : .timer .configuration ∉ n.queue.events

/-- An intake keeps the quiet: what it takes in is late enough. -/
theorem Hushed.take {due : Instant} {n n' : Node σ} (h : Hushed due n) (hi : Intake n n') :
    Hushed due n' := by
  cases hi with
  | full => exact h
  | nothing => exact ⟨h.connected, h.cadence, h.configuration, h.cadence_notMem, h.of_mem⟩
  | change hf hc hq =>
    refine ⟨h.connected, h.cadence, h.configuration, fun hm => ?_, fun hm => ?_⟩
    · rcases mem_inSession_append hm hq rfl rfl with hm | hm
      · exact h.cadence_notMem hm
      · simp at hm
    · rcases mem_inSession_append hm hq rfl rfl with hm | hm
      · exact h.of_mem hm
      · simp at hm
  | @timer id c q hf hc hd hq =>
    obtain ⟨i, hid, hnow⟩ := Timers.deadline_of_firstDue hd
    refine ⟨h.connected, ?_, ?_, fun hm => ?_, fun hm => ?_⟩
    · simp [Timers.deadline_cancel, h.cadence]
    · by_cases hconf : id = .configuration
      · exact .inl (by simp [Timers.deadline_cancel, hconf])
      · simpa [Timers.deadline_cancel, Ne.symm hconf] using h.configuration
    · rcases mem_inSession_append hm hq rfl rfl with hm | hm
      · exact h.cadence_notMem hm
      · -- the cadence is not set, so it is not what has fired
        obtain rfl : TimerId.cadence = id := by simpa using hm
        simp [h.cadence] at hid
    · rcases mem_inSession_append hm hq rfl rfl with hm | hm
      · obtain ⟨hnone, hdue⟩ := h.of_mem hm
        exact ⟨by simp [Timers.deadline_cancel, hnone], hdue⟩
      · obtain rfl : TimerId.configuration = id := by simpa using hm
        have hi : i = due := by
          rcases h.configuration with hnone | hsome
          · simp [hnone] at hid
          · exact Option.some.inj (hid.symm.trans hsome)
        exact ⟨by simp [Timers.deadline_cancel], hi ▸ hnow⟩

/-- An intake sets no push, so that nothing is told again. -/
theorem Spoken.take {n n' : Node σ} (h : n.Spoken) (hi : Intake n n') : n'.Spoken := by
  cases hi with
  | full => exact h
  | nothing => exact ⟨h.connected, h.configuration, h.notMem⟩
  | change hf hc hq => exact ⟨h.connected, h.configuration, by simp [hq, h.notMem]⟩
  | @timer id c q hf hc hd hq =>
    obtain ⟨i, hid, -⟩ := Timers.deadline_of_firstDue hd
    have hne : id ≠ .configuration := by
      rintro rfl
      simp [h.configuration] at hid
    refine ⟨h.connected, by simp [Timers.deadline_cancel, h.configuration], ?_⟩
    simp [hq, h.notMem, Ne.symm hne]

/-- What is promised of the turns to come. -/
inductive Promise where
  | nothing
  /-- There is quiet up to an instant. -/
  | quiet (due : Instant)
  /-- The chosen period is not told again. -/
  | told

namespace Promise

omit [Channel σ] in
/-- A node can make the promise. -/
def Holds : Promise → Node σ → Prop
  | nothing, _ => True
  | quiet due, n => Hushed due n
  | told, n => n.Spoken

/-- The turns are as was promised. -/
def Kept : Promise → List (Turn (Recorded σ)) → Prop
  | nothing, _ => True
  | quiet due, history => Quiet due history
  | told, history => Told history

/-- Of no turns everything is kept that can be promised. -/
theorem kept_nil (p : Promise) : p.Kept ([] : List (Turn (Recorded σ))) := by
  cases p with
  | nothing => trivial
  | quiet due => exact .nil
  | told => exact .nil

/-- A press that is followed by quiet breaks no promise. -/
theorem kept_press (p : Promise) {t : Turn (Recorded σ)} {rest : List (Turn (Recorded σ))}
    (hs : t.sends = []) (hp : t.IsPress) (h : Quiet t.due rest) : p.Kept (t :: rest) := by
  cases p with
  | nothing => trivial
  | quiet due => exact .pressed hs hp h
  | told => exact .pressed hs hp

/-- An intake lets a node keep its promise. -/
theorem Holds.take {p : Promise} {n n' : Node σ} (h : p.Holds n) (hi : Intake n n') :
    p.Holds n' := by
  cases p with
  | nothing => trivial
  | quiet due => exact Hushed.take h hi
  | told => exact Spoken.take h hi

omit [Channel σ] in
/-- Between calls it depends on the state and the timers only what a node can promise. -/
theorem Holds.of_ready {p : Promise} {n n' : Node σ} (h : p.Holds n) (hr : n'.Ready)
    (hs : n'.state = n.state) (ht : n'.timers = n.timers) : p.Holds n' := by
  have hin : ∀ id, .timer id ∉ n'.inSession :=
    fun id hm => hr.onlyButtons.timer_notMem id (inSession_subset _ hm)
  cases p with
  | nothing => trivial
  | quiet due =>
    exact ⟨hs.trans h.connected, ht ▸ h.cadence, ht ▸ h.configuration, hin _,
      fun hm => absurd hm (hin _)⟩
  | told => exact ⟨hs.trans h.connected, ht ▸ h.configuration, hr.onlyButtons.timer_notMem _⟩

end Promise

/-- A session that goes on does not have the chosen period told again. -/
theorem Spoken.conclude {n : Node (Recorded σ)} (h : n.Spoken) (o : Outcome) :
    ∃ p : Promise, p.Holds (n.conclude o).value ∧
      ∀ rest : List (Turn (Recorded σ)), p.Kept rest →
        (n.conclude o).value.state = .connected → Told rest := by
  cases o with
  | rejected => exact ⟨.nothing, trivial, fun rest _ hs => by simp [value_dropSession] at hs⟩
  | timedOut => exact ⟨.nothing, trivial, fun rest _ hs => by simp [value_dropSession] at hs⟩
  | accepted =>
    refine ⟨.told, ?_, fun rest hr _ => hr⟩
    rw [value_conclude_accepted, value_goOn]
    refine ⟨rfl, ?_, h.notMem⟩
    simp [workingTimers, h.connected, h.configuration, Timers.deadline_arm, Timers.deadline_cancel]

/-- A press that is not overtaken leads into the quiet. -/
theorem Turn.IsPress.hushed {t : Turn (Recorded σ)} (hp : t.IsPress) (ho : ¬t.Overtaken)
    (h : Activity t) : Hushed t.due t.after := by
  rw [(hp.value h).2]
  refine ⟨hp.2.1, ?_, .inr ?_, fun hm => ho (.inl hm), fun hm => absurd (.inr hm) ho⟩
  · simp [arm, cancel, Timers.deadline_arm, Timers.deadline_cancel]
  · simp [arm, cancel, Timers.deadline_arm, Turn.due]

/-- In the quiet a node sends nothing but the chosen period, and that in time. -/
theorem Hushed.turn {t : Turn (Recorded σ)} {q : EventQueue} {due : Instant}
    (hb : Busy { t.node with queue := q }) (h : Hushed due { t.node with queue := q })
    (hq : q.events = t.event :: t.node.queue.events) (hp : ¬t.IsPress) :
    ∃ p : Promise, p.Holds t.after ∧ ∀ rest, p.Kept rest → Quiet due (t :: rest) := by
  have hin := Turn.inSession_eq hq
  cases hb.activity h.connected with
  | pressed hp' => exact absurd hp' hp
  | idle _ hs he _ _ hv =>
    have hsub : t.node.inSession ⊆ inSession { t.node with queue := q } := by
      rw [hin, he]
      exact List.subset_cons_self ..
    refine ⟨.quiet due, ?_, fun rest hr => .silent hs hp fun _ => hr⟩
    rw [hv]
    exact ⟨h.connected, h.cadence, h.configuration, fun hm => h.cadence_notMem (hsub hm),
      fun hm => h.of_mem (hsub hm)⟩
  | ended _ hs _ hv =>
    exact ⟨.nothing, trivial, fun rest _ => .silent hs hp fun hc => by simp [hv] at hc⟩
  | @told o c he hs hv =>
    have hmem : .timer .configuration ∈ inSession { t.node with queue := q } := by
      rw [hin, he]
      exact List.mem_cons_self
    obtain ⟨hnone, hdue⟩ := h.of_mem hmem
    have hspoken : Spoken { t.node with channel := c } :=
      ⟨h.connected, hnone, hb.not_mem_of_cons hq he⟩
    obtain ⟨p, hp, hk⟩ := hspoken.conclude o
    rw [← hv] at hp hk
    exact ⟨p, hp, fun rest hr => .told hs rfl hdue (hk rest hr)⟩
  | beaten he hends =>
    refine absurd ?_ h.cadence_notMem
    rw [hin, hends, he]
    exact List.mem_cons_self

/-- A node that has told the chosen period does not tell it again. -/
theorem Spoken.turn {t : Turn (Recorded σ)} {q : EventQueue}
    (hb : Busy { t.node with queue := q }) (h : Spoken { t.node with queue := q })
    (hq : q.events = t.event :: t.node.queue.events) (hp : ¬t.IsPress) :
    ∃ p : Promise, p.Holds t.after ∧ ∀ rest, p.Kept rest → Told (t :: rest) := by
  have hrest : .timer .configuration ∉ t.node.queue.events := fun hm =>
    h.notMem (hq ▸ List.mem_cons_of_mem _ hm)
  cases hb.activity h.connected with
  | pressed hp' => exact absurd hp' hp
  | idle _ hs _ _ _ hv =>
    refine ⟨.told, ?_, fun rest hr => .other (by simp [hs]) fun _ => hr⟩
    rw [hv]
    exact ⟨h.connected, h.configuration, hrest⟩
  | ended _ hs _ hv =>
    exact ⟨.nothing, trivial, fun rest _ => .other (by simp [hs]) fun hc => by simp [hv] at hc⟩
  | told he =>
    refine absurd ?_ h.notMem
    rw [hq, he]
    exact List.mem_cons_self
  | @beaten a o m c he _ hs ha hv =>
    have hsends : ∀ ctx o, SessionAct.configured ctx o ∉ t.sends := by
      intro ctx o hm
      rw [hs, List.mem_singleton] at hm
      exact ha ctx o hm.symm
    have hspoken : Spoken { t.node with model := m, channel := c } :=
      ⟨h.connected, h.configuration, hrest⟩
    obtain ⟨p, hp, hk⟩ := hspoken.conclude o
    rw [← hv] at hp hk
    exact ⟨p, hp, fun rest hr => .other hsends (hk rest hr)⟩

omit [Channel σ] in
/-- Where no press is overtaken, none of the later ones is. -/
theorem Undisturbed.tail {t : Turn σ} {rest : List (Turn σ)} (h : Undisturbed (t :: rest)) :
    Undisturbed rest :=
  fun t' ht' => h t' (List.mem_cons_of_mem t ht')

/-- While no press is overtaken, the promises are kept. -/
theorem promise_outlook :
    Outlook (fun (p : Promise) (n : Node (Recorded σ)) => n.Busy ∧ p.Holds n)
      (fun p n => n.Ready ∧ p.Holds n)
      fun p history => Undisturbed history → Coalesces history ∧ p.Kept history where
  take h hi := ⟨h.1.take hi, h.2.take hi⟩
  turn {p t q} h hq := by
    have hb := h.1.turn hq
    by_cases hp : t.IsPress
    · by_cases ho : t.Overtaken
      · exact ⟨.nothing, ⟨hb, trivial⟩, fun rest _ hu => absurd ho (hu t List.mem_cons_self hp)⟩
      · have ha := h.1.activity hp.2.1
        refine ⟨.quiet t.due, ⟨hb, hp.hushed ho ha⟩, fun rest hr hu => ?_⟩
        obtain ⟨hc, hk⟩ := hr hu.tail
        exact ⟨coalesces_cons.2 ⟨fun _ => hk, hc⟩, p.kept_press (hp.value ha).1 hp hk⟩
    · obtain ⟨p', hp', hk⟩ :
          ∃ p' : Promise, p'.Holds t.after ∧ ∀ rest, p'.Kept rest → p.Kept (t :: rest) := by
        cases p with
        | nothing => exact ⟨.nothing, trivial, fun _ _ => trivial⟩
        | quiet due => exact Hushed.turn h.1 h.2 hq hp
        | told => exact Spoken.turn h.1 h.2 hq hp
      refine ⟨p', ⟨hb, hp'⟩, fun rest hr hu => ?_⟩
      obtain ⟨hc, hkr⟩ := hr hu.tail
      exact ⟨coalesces_cons.2 ⟨fun h => absurd h hp, hc⟩, hk rest hkr⟩
  post edge h hq := ⟨h.1.post hq, h.2.of_ready (h.1.post hq) rfl rfl⟩
  command m id h := ⟨h.1.command m id, h.2.of_ready (h.1.command m id) rfl rfl⟩
  outside c h := ⟨h.1.outside c, h.2.of_ready (h.1.outside c) rfl rfl⟩
  enter {p n now} h hl := ⟨h.1.enter hl, h.2.of_ready (h.1.tick now) rfl rfl⟩
  leave h hq := ⟨h.1.leave hq, h.2⟩
  nil {p _} _ _ := ⟨coalesces_nil, p.kept_nil⟩

/-! ## A press that is overtaken -/

/-- A node on the way to sending something before an instant. -/
structure Doomed (due : Instant) (n : Node σ) : Prop where
  connected : n.state = .connected
  early : n.now < due
  fired : n.Fired

omit [Channel σ] in
/-- What has fired has fired still when more events wait. -/
theorem Fired.mono {n n' : Node σ} (h : n.Fired) (hsub : n.inSession ⊆ n'.inSession) : n'.Fired :=
  h.imp (fun h => hsub h) fun h => hsub h

/-- An intake saves no node from sending too early: what has fired stays in the queue. -/
theorem Doomed.take {due : Instant} {n n' : Node σ} (h : Doomed due n) (hi : Intake n n') :
    Doomed due n' := by
  cases hi with
  | full => exact h
  | nothing => exact ⟨h.connected, h.early, h.fired⟩
  | change hf hc hq =>
    exact ⟨h.connected, h.early, h.fired.mono (inSession_subset_append hq rfl rfl)⟩
  | timer hf hc hd hq =>
    exact ⟨h.connected, h.early, h.fired.mono (inSession_subset_append hq rfl rfl)⟩

omit [Channel σ] in
/-- A timer that has fired still waits once another event was dealt with. -/
theorem Turn.fired_of_ne {t : Turn σ} {q : EventQueue} (h : Fired { t.node with queue := q })
    (hq : q.events = t.event :: t.node.queue.events) (hcad : t.event ≠ .timer .cadence)
    (hconf : t.event ≠ .timer .configuration) : t.node.Fired := by
  rw [Fired, Turn.inSession_eq hq] at h
  split at h
  · simp at h
  · exact h.imp (fun h => List.mem_of_ne_of_mem hcad.symm h)
      fun h => List.mem_of_ne_of_mem hconf.symm h

/-- A press that is overtaken leads to something being sent too early. -/
theorem Turn.IsPress.doomed {t : Turn (Recorded σ)} (hp : t.IsPress) (ho : t.Overtaken)
    (h : Activity t) (hn : t.node.Timed) (hl : t.node.now < .last) : Doomed t.due t.after := by
  rw [(hp.value h).2]
  exact ⟨hp.2.1, Instant.lt_after hl (NodeSettings.millis_configurationDelay_pos hn.settings), ho⟩

/-- What is expected of the turns to come: with an instant, that they break the quiet up to it. -/
def Disturbed : Option Instant → List (Turn (Recorded σ)) → Prop
  | none, history => Coalesces history → Undisturbed history
  | some due, history => ¬Quiet due history

/-- A node that is on the way to sending something too early gets there. -/
theorem Doomed.turn {t : Turn (Recorded σ)} {q : EventQueue} {due : Instant}
    (hb : Busy { t.node with queue := q }) (h : Doomed due { t.node with queue := q })
    (hq : q.events = t.event :: t.node.queue.events) :
    ∃ j : Option Instant, (∀ due' ∈ j, Doomed due' t.after) ∧
      ∀ rest, Disturbed j rest → ¬Quiet due (t :: rest) := by
  cases hb.activity h.connected with
  | pressed hp hs hv =>
    -- The press starts the quiet over, and what has fired overtakes this press as well.
    have ho : t.Overtaken := Turn.fired_of_ne h.fired hq (by simp [hp.1]) (by simp [hp.1])
    have hd := hp.doomed ho (.pressed hp hs hv) ⟨hb.timed.settings, hb.timed.dial⟩ hb.beforeLast
    refine ⟨some t.due, by simpa using hd, fun rest hr hQ => ?_⟩
    cases hQ with
    | pressed _ _ hQ => exact hr hQ
    | silent _ hp' => exact hp' hp
    | told hs' => simp [hs] at hs'
  | idle hp hs _ hcad hconf hv =>
    have hd : Doomed due t.after := by
      rw [hv]
      exact ⟨h.connected, h.early, Turn.fired_of_ne h.fired hq hcad hconf⟩
    refine ⟨some due, by simpa using hd, fun rest hr hQ => ?_⟩
    cases hQ with
    | pressed _ hp' => exact hp hp'
    | silent _ _ hQ => exact hr (hQ hd.connected)
    | told hs' => simp [hs] at hs'
  | ended _ _ he =>
    -- What has fired would not wait in the session behind an event that ends it.
    have := h.fired
    simp [Fired, Turn.inSession_eq hq, he] at this
  | told _ hs =>
    refine ⟨none, by simp, fun rest _ hQ => ?_⟩
    cases hQ with
    | pressed hs' => simp [hs] at hs'
    | silent hs' => simp [hs] at hs'
    -- It is the chosen period that is told, but too early.
    | told _ _ hd => exact Instant.not_le.2 h.early hd
  | beaten _ _ hs hne =>
    refine ⟨none, by simp, fun rest _ hQ => ?_⟩
    cases hQ with
    | pressed hs' => simp [hs] at hs'
    | silent hs' => simp [hs] at hs'
    | told hs' =>
      rw [hs] at hs'
      exact hne _ _ (List.cons.inj hs').1

/-- Once a press is overtaken, the quiet is broken. -/
theorem disturbed_outlook :
    Outlook (fun (j : Option Instant) (n : Node (Recorded σ)) =>
      n.Busy ∧ ∀ due ∈ j, Doomed due n) (fun j n => n.Ready ∧ j = none) Disturbed where
  take h hi := ⟨h.1.take hi, fun due hd => (h.2 due hd).take hi⟩
  turn {j t q} h hq := by
    have hb := h.1.turn hq
    cases j with
    | some due =>
      obtain ⟨j, hj, hk⟩ := Doomed.turn h.1 (h.2 due rfl) hq
      exact ⟨j, ⟨hb, hj⟩, hk⟩
    | none =>
      by_cases hp : t.IsPress ∧ t.Overtaken
      · obtain ⟨hp, ho⟩ := hp
        have htimed : t.node.Timed := ⟨h.1.timed.settings, h.1.timed.dial⟩
        have hd := hp.doomed ho (h.1.activity hp.2.1) htimed h.1.beforeLast
        refine ⟨some t.due, ⟨hb, by simpa using hd⟩, fun rest hr hc => ?_⟩
        exact absurd ((coalesces_cons.1 hc).1 hp) hr
      · refine ⟨none, ⟨hb, by simp⟩, fun rest hr hc t' ht' hp' ho' => ?_⟩
        rcases List.mem_cons.1 ht' with rfl | ht'
        · exact hp ⟨hp', ho'⟩
        · exact hr (coalesces_cons.1 hc).2 t' ht' hp' ho'
  post edge h hq := ⟨h.1.post hq, h.2⟩
  command m id h := ⟨h.1.command m id, h.2⟩
  outside c h := ⟨h.1.outside c, h.2⟩
  enter h hl := ⟨h.1.enter hl, by simp [h.2]⟩
  leave {j n} h hq := by
    refine ⟨h.1.leave hq, Option.eq_none_iff_forall_not_mem.2 fun due hd => ?_⟩
    have := (h.2 due hd).fired
    simp [Fired, inSession, hq] at this
  nil h := by
    rw [h.2]
    exact fun _ t ht => absurd ht List.not_mem_nil

/-! ## The quiet is kept exactly if no press is overtaken -/

/-- Where the quiet is kept no press is overtaken: what had fired would break it. -/
theorem undisturbed_of_coalesces [Json.Writer] {n : Node (Recorded σ)} (hn : n.Ready)
    {calls : List (Call (Recorded σ))} (hc : ∀ c ∈ calls, c.BeforeLast)
    (h : Coalesces (n.history calls)) : Undisturbed (n.history calls) :=
  disturbed_outlook.history (i := none) ⟨hn, rfl⟩ hc (completes_of_beforeLast hn.timed hc) h

/-- Where no press is overtaken the quiet is kept: each one makes a promise, and the turns after it
keep it. -/
theorem coalesces_of_undisturbed [Json.Writer] {n : Node (Recorded σ)} (hn : n.Ready)
    {calls : List (Call (Recorded σ))} (hc : ∀ c ∈ calls, c.BeforeLast)
    (h : Undisturbed (n.history calls)) : Coalesces (n.history calls) :=
  (promise_outlook.history (i := .nothing) ⟨hn, trivial⟩ hc (completes_of_beforeLast hn.timed hc)
    h).1

/-- **The quiet after the presses of a run is kept exactly if no press is overtaken**, that is, if
no press is dealt with while a timer that makes the node send has fired and waits behind it.

**Proof sketch.** A press takes back the cadence and sets the push anew, so that what can still send
before the push is what waits already. If nothing waits, nothing is sent before the push has fired;
that is dealt with in the poll in which it fires, and sets no second push. If something does wait,
the poll does not come to rest before it was dealt with, and the instant is still that of the
press. -/
theorem coalesces_iff [Json.Writer] {identity : Identity} {channel : σ}
    {settings : NodeSettings} {n : Node (Recorded σ)}
    (hn : create identity ⟨channel, []⟩ settings = .ok n) (i : Instant) {calls : List (Call σ)}
    (hc : ∀ c ∈ calls, c.BeforeLast) :
    Coalesces ((n.start i).value.history (calls.map (Call.lift Recorded.onChannel))) ↔
      Undisturbed ((n.start i).value.history (calls.map (Call.lift Recorded.onChannel))) := by
  have hready := ready_start hn i
  have hbefore : ∀ c ∈ calls.map (Call.lift Recorded.onChannel), c.BeforeLast :=
    fun c => Call.beforeLast_of_mem_lift hc
  exact ⟨undisturbed_of_coalesces hready hbefore, coalesces_of_undisturbed hready hbefore⟩

end

/-- The user presses after a thermostat has connected, and the next poll is at some later second.
The session is to be kept alive half a minute after it was opened, at 40 seconds. -/
def pressedBefore (seconds : Nat) : List (Call ScriptedChannel) :=
  [.poll (.ofSeconds 10) fun _ => ⟨true, none⟩, .post .released,
    .poll (.ofSeconds seconds) fun _ => ⟨true, none⟩]

/-- A poll at 20 seconds finds nothing but the press, and the poll at 30 seconds tells the chosen
period. -/
theorem coalesces_pressedBefore :
    ∃ n : Node (Recorded ScriptedChannel), create thermostat ⟨{}, []⟩ {} = .ok n ∧
      Coalesces ((n.start .start).value.history
        ((pressedBefore 20 ++ [Call.poll (.ofSeconds 30) fun _ => ⟨true, none⟩]).map
          (Call.lift Recorded.onChannel))) := by
  obtain ⟨n, hn⟩ : ∃ n : Node (Recorded ScriptedChannel),
      create thermostat ⟨{}, []⟩ {} = .ok n := ⟨_, rfl⟩
  refine ⟨n, hn, (coalesces_iff hn .start (by decide)).2 ?_⟩
  obtain rfl := Except.ok.inj hn
  decide

/-- In a poll at 40 seconds the press is overtaken, and the session is kept alive at once. -/
theorem not_coalesces_pressedBefore :
    ∃ n : Node (Recorded ScriptedChannel), create thermostat ⟨{}, []⟩ {} = .ok n ∧
      ¬Coalesces ((n.start .start).value.history
        ((pressedBefore 40).map (Call.lift Recorded.onChannel))) := by
  obtain ⟨n, hn⟩ : ∃ n : Node (Recorded ScriptedChannel),
      create thermostat ⟨{}, []⟩ {} = .ok n := ⟨_, rfl⟩
  have hbefore : ∀ c ∈ pressedBefore 40, c.BeforeLast := by decide
  refine ⟨n, hn, fun h => ?_⟩
  have hu := undisturbed_of_coalesces (ready_start hn .start)
    (fun c => Call.beforeLast_of_mem_lift hbefore) h
  obtain rfl := Except.ok.inj hn
  revert hu
  decide

end EdgeDevice.Node
