import EdgeDevice.Proofs.Node.Rest
import EdgeDevice.Simulation.Counterpart

set_option autoImplicit false
set_option relaxedAutoImplicit false

/-!
# The order of events

A poll deals with the events that wait at its beginning in the order in which they were posted, and
then with the changes and timers that it takes in, in the order in which it takes them in. To take a
timer in is to take it back, so an event that the queue refused then would be lost for good; but a
poll takes something in only while there is room. What is posted while there is no room is the only
thing that is ever lost.

The law behind it is one equation: the events dealt with so far, followed by those that still wait,
are the ones that waited at the beginning, followed by those taken in so far. Every turn keeps it,
whatever dealing with the event comes to, because no handler touches the queue.

## Main definitions

* `EdgeDevice.Node.taken?` — what a turn takes in.
* `EdgeDevice.Node.fronts`, `EdgeDevice.Node.takings` — the nodes at the beginnings of the turns of
  a poll, and what they take in.
* `EdgeDevice.Node.TakesIn` — the order in which a turn looks for something to take in.
* `EdgeDevice.Node.admitted`, `EdgeDevice.Node.arrivals` — the events that come into the queue.

## Main results

* `EdgeDevice.Node.events_turns` — the equation for the turns of a poll.
* `EdgeDevice.Node.events_inputs` — the equation for whatever comes.
* `EdgeDevice.Node.order_run` — no event is lost, dealt with twice or moved before another.
-/

namespace EdgeDevice

/-- A queue is full exactly if as many events wait as can. -/
theorem EventQueue.isFull_eq_false_iff {q : EventQueue} :
    q.isFull = false ↔ q.size < EventQueue.capacity := by
  have := q.length_le
  simp only [isFull, size, capacity, beq_eq_false_iff_ne]
  omega

namespace Node

section

variable [RandomSource] {σ : Type} [Channel σ]

/-! ## What a turn takes in -/

/-- What a node takes in at the beginning of a turn: nothing while its queue is full, otherwise the
change that the channel reports, or else the timer that is due first. -/
def taken? (n : Node σ) : Option NodeEvent :=
  if n.queue.isFull then none
  else
    match (Channel.nextChange n.channel).value.1 with
    | some change => some (.session change)
    | none => (n.timers.firstDue n.now).map .timer

/-- **How a turn takes something in.** A full queue leaves everything as it is. Otherwise the
channel is asked once, and a timer is taken back only if the channel has nothing to report. Whatever
is taken in is then the last event of the queue. -/
structure TakesIn (n : Node σ) : Prop where
  full : n.queue.isFull = true → n.taken? = none ∧ n.take.value = n
  change : ∀ change c, n.queue.isFull = false →
    (Channel.nextChange n.channel).value = (some change, c) →
      n.taken? = some (.session change) ∧ n.take.value.channel = c ∧ n.take.value.timers = n.timers
  timer : ∀ id c, n.queue.isFull = false → (Channel.nextChange n.channel).value = (none, c) →
    n.timers.firstDue n.now = some id →
      n.taken? = some (.timer id) ∧ n.take.value.channel = c ∧
        n.take.value.timers = n.timers.cancel id
  nothing : ∀ c, n.queue.isFull = false → (Channel.nextChange n.channel).value = (none, c) →
    n.timers.firstDue n.now = none →
      n.taken? = none ∧ n.take.value.channel = c ∧ n.take.value.timers = n.timers
  queue : n.take.value.queue.events = n.queue.events ++ n.taken?.toList

/-- There is room for what is taken in. -/
theorem queue_take (n : Node σ) :
    n.take.value.queue.events = n.queue.events ++ n.taken?.toList := by
  have hi := intake_take n
  generalize n.take.value = m at hi
  cases hi with
  | full h => simp [taken?, h]
  | change h hc hq => simp [taken?, h, hc, hq]
  | timer h hc hd hq => simp [taken?, h, hc, hd, hq]
  | nothing h hc hd => simp [taken?, h, hc, hd]

/-- Every intake takes in what it says, at the end of the queue. -/
theorem takesIn (n : Node σ) : n.TakesIn := by
  have hi := intake_take n
  refine ⟨?_, ?_, ?_, ?_, n.queue_take⟩
  · intro hf
    refine ⟨if_pos hf, ?_⟩
    unfold take
    rw [if_pos hf]
    rfl
  all_goals
    intros
    generalize n.take.value = m at hi
    cases hi <;> simp_all [taken?]

/-! ## The turns of a poll -/

/-- The nodes at the beginnings of the turns of a poll, `k` turns at most. In the last one there is
nothing left to do, unless the poll was broken off. -/
def fronts (nets : Nat → Connectivity) : Nat → Node σ → List (Node σ)
  | 0, _ => []
  | k + 1, n =>
    n :: match n.turn? (nets k) with
      | none => []
      | some t => fronts nets k t.after

/-- What a poll takes in, in this order. -/
def takings (nets : Nat → Connectivity) (k : Nat) (n : Node σ) : List NodeEvent :=
  (fronts nets k n).filterMap taken?

/-- A poll takes in something or nothing, and goes on if there is an event to deal with. -/
theorem takings_succ (nets : Nat → Connectivity) (k : Nat) (n : Node σ) :
    takings nets (k + 1) n = n.taken?.toList ++
      match n.turn? (nets k) with
      | none => []
      | some t => takings nets k t.after := by
  rw [takings, fronts, List.filterMap_cons]
  rcases n.turn? (nets k) with _ | t <;> rcases n.taken? with _ | e <;> rfl

/-- **The events of a poll.** The events dealt with so far, followed by those that still wait, are
the ones that waited at the beginning, followed by those taken in so far. -/
theorem events_turns (nets : Nat → Connectivity) (k : Nat) (n : Node σ) :
    (turns nets k n).map Turn.event ++ (takeTurns nets k n).value.queue.events =
      n.queue.events ++ takings nets k n := by
  induction k generalizing n with
  | zero => simp [turns, takeTurns, takings, fronts]
  | succ k ih =>
    have htake := n.queue_take
    rw [turns, value_takeTurns_succ, takings_succ]
    rcases ht : n.turn? (nets k) with _ | t
    · simpa using htake
    · obtain ⟨q, hq, hv⟩ := queue_of_turn? ht
      have hrest := ih t.after
      rw [t.reaction.frame.2.2.1] at hrest
      rw [hv, hq] at htake
      calc t.event :: (turns nets k t.after).map Turn.event ++ _
          = t.event :: (t.node.queue.events ++ takings nets k t.after) := by
            rw [List.cons_append, hrest]
        _ = (n.queue.events ++ n.taken?.toList) ++ takings nets k t.after := by
            rw [← htake, List.cons_append]
        _ = n.queue.events ++ (n.taken?.toList ++ takings nets k t.after) :=
            List.append_assoc ..

/-- A poll that does not come to rest takes all its turns. -/
theorem length_turns_of_not_rests {nets : Nat → Connectivity} {k : Nat} {n : Node σ}
    (h : ¬Rests nets k n) : (turns nets k n).length = k := by
  induction k generalizing n with
  | zero => rfl
  | succ k ih =>
    rw [turns]
    rcases ht : n.turn? (nets k) with _ | t
    · exact absurd (by rw [Rests, ht]; trivial) h
    · have hrest : ¬Rests nets k t.after := by
        intro hr
        apply h
        rw [Rests, ht]
        exact hr
      exact congrArg Nat.succ (ih hrest)

/-- What a poll takes in that takes all its turns. -/
def takingsOf (n : Node σ) (now : Instant) (nets : Nat → Connectivity) : List NodeEvent :=
  let n := { n with now := now }
  takings nets n.enoughTurns n

/-- What a poll takes in is taken in from the instant of the poll on. -/
theorem takingsOf_eq (n : Node σ) (now : Instant) (nets : Nat → Connectivity) :
    n.takingsOf now nets =
      takings nets { n with now := now }.enoughTurns { n with now := now } := by
  simp only [takingsOf]

/-- The events that a call deals with. -/
def eventsOf (n : Node σ) (c : Call σ) : List NodeEvent := (n.turnsOf c).map Turn.event

/-- **A poll deals with the events in order**: with those that waited and then with those it takes
in, and what it does not get to is left in the queue. -/
theorem eventsOf_poll [Json.Writer] (n : Node σ) (now : Instant) (nets : Nat → Connectivity) :
    n.eventsOf (.poll now nets) ++ (n.call (.poll now nets)).queue.events =
      n.queue.events ++ n.takingsOf now nets := by
  rw [eventsOf, turnsOf_poll, call_poll, takingsOf_eq]
  exact events_turns nets _ { n with now := now }

/-! ## Whatever comes -/

variable [Json.Writer]

/-- What is accepted of an event that is posted: nothing if there is no room for it. -/
def accepted (n : Node σ) (e : NodeEvent) : List NodeEvent :=
  if n.queue.size < EventQueue.capacity then [e] else []

/-- The events that come into the queue with an input. -/
def admitted (n : Node σ) : Input σ → List NodeEvent
  | .post e => n.accepted e
  | .call (.post edge) => n.accepted edge.event
  | .call (.poll now nets) => n.takingsOf now nets
  | _ => []

/-- The events that come into the queue while some inputs come, in this order. -/
def arrivals (n : Node σ) : List (Input σ) → List NodeEvent
  | [] => []
  | i :: is => n.admitted i ++ (n.input i).arrivals is

omit [Json.Writer] [Channel σ] in
/-- **Posting.** An event that is posted is the last one of the queue if there is room for it;
otherwise it is lost, and nothing else happens. -/
theorem post_cases (n : Node σ) (e : NodeEvent) :
    (n.queue.size < EventQueue.capacity → (n.post e).value.queue.events = n.queue.events ++ [e]) ∧
      (n.queue.size = EventQueue.capacity → (n.post e).value = n) := by
  constructor
  · intro h
    obtain ⟨q, hp, hq⟩ := EventQueue.exists_push? (EventQueue.isFull_eq_false_iff.2 h) e
    rw [value_post_of_push? hp, hq]
  · intro h
    have hfull : n.queue.isFull = true := beq_iff_eq.2 h
    have hp : n.queue.push? e = none := EventQueue.push?_eq_none_iff.2 hfull
    unfold Node.post
    rw [hp]
    rfl

omit [Json.Writer] [Channel σ] in
/-- What is posted is the last event that waits, if it is accepted. -/
theorem queue_post (n : Node σ) (e : NodeEvent) :
    (n.post e).value.queue.events = n.queue.events ++ n.accepted e := by
  by_cases h : n.queue.size < EventQueue.capacity
  · rw [(n.post_cases e).1 h, accepted, if_pos h]
  · have hle : n.queue.size ≤ EventQueue.capacity := n.queue.length_le
    rw [(n.post_cases e).2 (by omega), accepted, if_neg h, List.append_nil]

/-- What is dealt with when an input comes, and what waits afterwards, is what waited before and
what came in. -/
theorem events_input (n : Node σ) (i : Input σ) :
    (n.turnsAt i).map Turn.event ++ (n.input i).queue.events =
      n.queue.events ++ n.admitted i := by
  have hnothing : ∀ m : Node σ, m.queue = n.queue →
      [] ++ m.queue.events = n.queue.events ++ [] := by
    intro m hq
    rw [hq, List.nil_append, List.append_nil]
  cases i with
  | start now => exact hnothing _ (by rw [input, value_start])
  | post e => exact n.queue_post e
  | amend change => exact hnothing _ rfl
  | call c =>
    cases c with
    | post edge => exact n.queue_post edge.event
    | poll now nets => exact n.eventsOf_poll now nets
    | put payload => exact hnothing _ rfl
    | answer request => exact hnothing _ rfl
    | outside change => exact hnothing _ rfl

/-- **The events of a row of inputs.** The events dealt with, followed by those that still wait, are
the ones that waited at the beginning, followed by those that came into the queue, in the order in
which they came. -/
theorem events_inputs (n : Node σ) (is : List (Input σ)) :
    (n.chronicle is).map Turn.event ++ (n.inputs is).queue.events =
      n.queue.events ++ n.arrivals is := by
  induction is generalizing n with
  | nil => simp [chronicle, inputs, arrivals]
  | cons i is ih =>
    rw [chronicle, arrivals, List.map_append, List.append_assoc]
    show _ ++ (((n.input i).chronicle is).map Turn.event ++
      ((n.input i).inputs is).queue.events) = _
    rw [ih, ← List.append_assoc, events_input, List.append_assoc]

/-- **No event is lost, dealt with twice or moved before another.** Whatever has come to a node, the
events dealt with and those that still wait are the ones that came into the queue, in this order;
what is posted comes in unless eight events wait. In a poll that follows, at whatever instant, the
same is true after every number of turns: it deals with what waited and then with what it takes in,
and nothing that it takes in is refused. Before the last instant a poll comes to rest, and nothing
is left. -/
theorem order_run {identity : Identity} {channel : σ} {settings : NodeSettings} {n : Node σ}
    (hn : create identity channel settings = .ok n) (is : List (Input σ)) :
    let m := n.inputs is
    (n.chronicle is).map Turn.event ++ m.queue.events = n.arrivals is ∧
      (∀ e, (m.queue.size < EventQueue.capacity →
          (m.post e).value.queue.events = m.queue.events ++ [e]) ∧
        (m.queue.size = EventQueue.capacity → (m.post e).value = m)) ∧
      ∀ (now : Instant) (nets : Nat → Connectivity),
        (∀ k, (turns nets k { m with now := now }).map Turn.event ++
            (takeTurns nets k { m with now := now }).value.queue.events =
              m.queue.events ++ takings nets k { m with now := now } ∧
          (∀ front ∈ fronts nets k { m with now := now }, front.TakesIn) ∧
          (Rests nets k { m with now := now } →
            (takeTurns nets k { m with now := now }).value.queue.events = []) ∧
          (¬Rests nets k { m with now := now } →
            (turns nets k { m with now := now }).length = k)) ∧
        (now < .last →
          m.eventsOf (.poll now nets) = m.queue.events ++ m.takingsOf now nets) := by
  intro m
  have hqueue : n.queue.events = [] := by
    rw [(idle_of_create hn).2.2.1]
    rfl
  have hm : m.Timed := (timed_of_create hn).inputs is
  refine ⟨?_, m.post_cases, fun now nets => ⟨fun k => ⟨?_, ?_, ?_, ?_⟩, fun hl => ?_⟩⟩
  · rw [events_inputs, hqueue, List.nil_append]
  · exact events_turns nets k { m with now := now }
  · exact fun front _ => front.takesIn
  · exact fun hr => (rest_of_rests hr).1
  · exact length_turns_of_not_rests
  · have hr : m.Returns (.poll now nets) := returns_of_beforeLast hm hl
    have hrest := (rest_of_rests (returns_poll.1 hr)).1
    have hpoll := m.eventsOf_poll now nets
    rw [call_poll, hrest, List.append_nil] at hpoll
    exact hpoll

end

/-- A thermostat connects at the tenth second. Half a minute later, when it is to keep the session
alive, its queue is full of an impatient user, and the session is reported lost. -/
def crowded : List (Input ScriptedChannel) :=
  [.start .start, .call (.poll (.ofSeconds 10) fun _ => ⟨true, none⟩),
    .call (.outside fun c => { c with changes := [.disconnected] })] ++
    List.replicate 9 (.post .buttonHeld)

/-- The ninth second of the press is lost. The other eight come first, then the change, and then the
timer, though it was due before the change was reported. -/
theorem order_run_crowded :
    ∃ n : Node ScriptedChannel, create thermostat {} {} = .ok n ∧ Instant.ofSeconds 40 < .last ∧
      (n.inputs crowded).eventsOf (.poll (.ofSeconds 40) fun _ => ⟨true, none⟩) =
        List.replicate 8 .buttonHeld ++ [.session .disconnected, .timer .cadence] := by
  obtain ⟨n, hn⟩ : ∃ n : Node ScriptedChannel, create thermostat {} {} = .ok n := ⟨_, rfl⟩
  have hl : Instant.ofSeconds 40 < .last := by decide
  have h := ((order_run hn crowded).2.2 (.ofSeconds 40) fun _ => ⟨true, none⟩).2 hl
  obtain rfl := Except.ok.inj hn
  exact ⟨_, rfl, hl, h.trans (by decide +kernel)⟩

end Node

end EdgeDevice
