import EdgeDevice.Proofs.Node.Rest
import EdgeDevice.Simulation.Counterpart

set_option autoImplicit false
set_option relaxedAutoImplicit false

/-!
# How much a poll has to do

Before the last instant of the clock a poll deals with twice as many events as wait at its
beginning, with as many as changes come in while it goes on, and with five more, at most; then no
event waits and no timer is due.

What is left to do, `Node.load`, is lowered by every event that is dealt with, and only a change
that comes in adds to it. So the events that are dealt with are paid for by what was to be done at
the beginning and by the changes. That only finitely many changes come in in a poll is the law of
channels; between two polls the other side may add as many as it likes.

## Main definitions

* `EdgeDevice.Node.delivered?` — the change that comes in at the beginning of a turn.
* `EdgeDevice.Node.deliveries`, `EdgeDevice.Node.deliveriesOf` — the changes that come in in a poll.

## Main results

* `EdgeDevice.Node.length_turns_le` — the turns of a poll are paid for.
* `EdgeDevice.Node.effort_run` — how many events a poll deals with; nothing is due after it.
-/

namespace EdgeDevice.Node

section

variable [RandomSource] {σ : Type} [Channel σ]

/-! ## The changes that come in -/

/-- The change that comes in at the beginning of a turn, if there is room for one and there is
one. -/
def delivered? (n : Node σ) : Option SessionChange :=
  if n.queue.isFull then none else (Channel.nextChange n.channel).value.1

/-- The changes that come in in a poll of at most `k` turns, in order. -/
def deliveries (nets : Nat → Connectivity) : Nat → Node σ → List SessionChange
  | 0, _ => []
  | k + 1, n =>
    n.delivered?.toList ++
      match n.turn? (nets k) with
      | none => []
      | some t => deliveries nets k t.after

/-- What is taken in is a change that comes in, or was there before. -/
theorem load_take_le (n : Node σ) : n.take.value.load ≤ n.load + n.delivered?.toList.length := by
  have hi := intake_take n
  generalize n.take.value = m at hi
  cases hi with
  | full => exact Nat.le_add_right ..
  | change h hc hq =>
    simp [load, delivered?, h, hc, hq, NodeEvent.isButton]
    omega
  | timer h hc hd hq =>
    have ho := Timers.overdue_cancel hd
    simp [load, delivered?, h, hc, hq, NodeEvent.isButton]
    omega
  | nothing => exact Nat.le_add_right ..

/-- A change that comes in can no longer be reported. -/
theorem backlog_take_le (n : Node σ) :
    n.delivered?.toList.length + Channel.backlog n.take.value.channel ≤
      Channel.backlog n.channel := by
  have hi := intake_take n
  generalize n.take.value = m at hi
  have hb := hi.backlog_le
  cases hi with
  | full h => simp [delivered?, h]
  | change h hc hq =>
    have hlt := Channel.backlog_nextChange_lt hc
    simp only [delivered?, h, hc, Bool.false_eq_true, if_false, Option.toList_some,
      List.length_singleton]
    omega
  | timer h hc hd hq => simpa [delivered?, h, hc] using hb
  | nothing h hc hd => simpa [delivered?, h, hc] using hb

/-- No more changes come in in a poll than the other side can report. -/
theorem length_deliveries_le (nets : Nat → Connectivity) (k : Nat) (n : Node σ) :
    (deliveries nets k n).length ≤ Channel.backlog n.channel := by
  induction k generalizing n with
  | zero => exact Nat.zero_le _
  | succ k ih =>
    have htake := n.backlog_take_le
    rw [deliveries, List.length_append]
    rcases ht : n.turn? (nets k) with _ | t
    · simp only [List.length_nil]
      omega
    · obtain ⟨q, -, hv⟩ := queue_of_turn? ht
      have hafter := t.reaction.backlog_le
      have hrest := ih t.after
      rw [hv] at htake
      dsimp only at htake ⊢
      omega

/-! ## What a poll deals with is paid for -/

/-- A turn lowers what is left to do, apart from the change that comes in with it. -/
theorem load_after_lt {n : Node σ} {net : Connectivity} {t : Turn σ} (hn : n.Timed)
    (hl : n.now < .last) (ht : n.turn? net = some t) :
    t.after.Timed ∧ t.after.now = n.now ∧
      t.after.load < n.load + n.delivered?.toList.length := by
  obtain ⟨q, hq, hv⟩ := queue_of_turn? ht
  have hi := intake_take n
  have htimed := hi.timed hn
  have hnow := hi.now_eq
  have hload := n.load_take_le
  rw [hv] at htimed hnow hload
  rw [load_of_cons hq] at hload
  have htt : t.node.Timed := ⟨htimed.settings, htimed.dial⟩
  have htn : t.node.now = n.now := hnow
  have hlt := t.reaction.load_lt htt (htn ▸ hl)
  exact ⟨t.reaction.timed htt, t.reaction.frame.2.2.2.trans htn, Nat.lt_of_lt_of_le hlt hload⟩

/-- **The turns of a poll are paid for** by what there is to do at its beginning and by the changes
that come in. -/
theorem length_turns_le {nets : Nat → Connectivity} {k : Nat} {n : Node σ} (hn : n.Timed)
    (hl : n.now < .last) : (turns nets k n).length ≤ n.load + (deliveries nets k n).length := by
  induction k generalizing n with
  | zero => exact Nat.zero_le _
  | succ k ih =>
    rw [turns, deliveries]
    rcases ht : n.turn? (nets k) with _ | t
    · exact Nat.zero_le _
    · obtain ⟨htimed, hnow, hlt⟩ := load_after_lt hn hl ht
      have := ih htimed (hnow ▸ hl)
      simp only [List.length_cons, List.length_append]
      omega

/-! ## The end of a poll -/

/-- A poll does not move the clock. -/
theorem now_takeTurns (nets : Nat → Connectivity) (k : Nat) (n : Node σ) :
    (takeTurns nets k n).value.now = n.now := by
  have hK : Kept fun _ (m : Node σ) => m.now = n.now :=
    { take := fun hm hi => hi.now_eq.trans hm
      turn := fun {_ t _} hm _ => t.reaction.frame.2.2.2.trans hm }
  exact hK.takeTurns (h := []) nets k rfl

/-- The changes that come in in a poll that takes all its turns. -/
def deliveriesOf (n : Node σ) (now : Instant) (nets : Nat → Connectivity) : List SessionChange :=
  let n := { n with now := now }
  deliveries nets n.enoughTurns n

/-- What comes in during a poll comes in from the instant of the poll on. -/
theorem deliveriesOf_eq (n : Node σ) (now : Instant) (nets : Nat → Connectivity) :
    n.deliveriesOf now nets =
      deliveries nets { n with now := now }.enoughTurns { n with now := now } := by
  simp only [deliveriesOf]

/-- No more changes come in during a poll than the channel has to report. -/
theorem length_deliveriesOf_le (n : Node σ) (now : Instant) (nets : Nat → Connectivity) :
    (n.deliveriesOf now nets).length ≤ Channel.backlog n.channel := by
  rw [deliveriesOf_eq]
  exact length_deliveries_le ..

/-- An event that waits is dealt with, and can set off one more; so can a change that comes in; and
each of the five timers may be due. -/
theorem length_turnsOf_le [Json.Writer] {n : Node σ} (hn : n.Timed) {now : Instant}
    (hl : now < .last) (nets : Nat → Connectivity) :
    (n.turnsOf (.poll now nets)).length ≤
      2 * n.queue.size + (n.deliveriesOf now nets).length + 5 := by
  have hload := load_le { n with now := now }
  have hlen : (turns nets _ { n with now := now }).length ≤ _ :=
    length_turns_le (k := { n with now := now }.enoughTurns) ⟨hn.settings, hn.dial⟩ hl
  rw [turnsOf_poll, deliveriesOf_eq]
  dsimp only at hload
  omega

/-- When a poll comes to rest, every deadline is later than now. -/
theorem lt_deadline_of_returns [Json.Writer] {n : Node σ} {now : Instant}
    {nets : Nat → Connectivity} (hr : n.Returns (.poll now nets)) {id : TimerId} {i : Instant}
    (hi : (n.call (.poll now nets)).timers.deadline id = some i) : now < i := by
  have hdue := (rest_of_rests (returns_poll.1 hr)).2
  rw [now_takeTurns, Timers.firstDue_eq_none_iff, ← call_poll] at hdue
  exact hdue id i hi

/-- **How much a poll has to do.** Whatever has come to a node, at an instant before the last one a
poll comes to rest. It deals with twice as many events as waited, with as many as changes came in,
and with five more, at most. After it no event waits and no timer is due; the next deadline, if
there is one, is later than now. -/
theorem effort_run [Json.Writer] {identity : Identity} {channel : σ} {settings : NodeSettings}
    {n : Node σ} (hn : create identity channel settings = .ok n) (is : List (Input σ))
    {now : Instant} (hl : now < .last) (nets : Nat → Connectivity) :
    let m := n.inputs is
    m.Returns (.poll now nets) ∧
      (m.turnsOf (.poll now nets)).length ≤
        2 * m.queue.size + (m.deliveriesOf now nets).length + 5 ∧
      (m.call (.poll now nets)).queue.events = [] ∧
      (∀ id d, (m.call (.poll now nets)).timers.deadline id = some d → now < d) ∧
      ∀ d, (m.call (.poll now nets)).timers.nextDeadline = some d → now < d := by
  intro m
  have hm : m.Timed := (timed_of_create hn).inputs is
  have hr : m.Returns (.poll now nets) := returns_of_beforeLast hm hl
  refine ⟨hr, length_turnsOf_le hm hl nets, ?_, fun _ _ => lt_deadline_of_returns hr, ?_⟩
  · rw [call_poll]
    exact (rest_of_rests (returns_poll.1 hr)).1
  · intro d hd
    obtain ⟨id, hid⟩ := Timers.exists_deadline_of_nextDeadline hd
    exact lt_deadline_of_returns hr hid

end

/-- A thermostat whose button was pressed finds connectivity in a poll, and the other side reports a
change at that moment. Four events are dealt with, where eight would be the most, and the next
deadline is a minute later: the press has chosen that period. -/
theorem effort_run_thermostat :
    Instant.ofSeconds 10 < .last ∧
      ∃ n : Node ScriptedChannel, create thermostat { changes := [.connected] } {} = .ok n ∧
        let m := n.inputs [.start .start, .post .buttonReleased]
        let c : Call ScriptedChannel := .poll (.ofSeconds 10) fun _ => ⟨true, none⟩
        (m.turnsOf c).map Turn.event =
            [.buttonReleased, .session .connected, .timer .blink, .timer .connectivityProbe] ∧
          (m.turnsOf c).length ≤ 8 ∧ (m.call c).queue.events = [] ∧
          (m.call c).timers.nextDeadline = some (.ofSeconds 70) := by
  have hl : Instant.ofSeconds 10 < .last := by decide
  obtain ⟨n, hn⟩ : ∃ n : Node ScriptedChannel,
      create thermostat { changes := [.connected] } {} = .ok n := ⟨_, rfl⟩
  obtain ⟨-, hlength, hempty, -⟩ :=
    effort_run hn [.start .start, .post .buttonReleased] hl fun _ => ⟨true, none⟩
  refine ⟨hl, n, hn, ?_⟩
  obtain rfl := Except.ok.inj hn
  exact ⟨rfl, hlength, hempty, rfl⟩

end EdgeDevice.Node
