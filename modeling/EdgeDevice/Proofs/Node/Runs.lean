import EdgeDevice.Proofs.Device.Obedience
import EdgeDevice.Proofs.Node.Reaction

set_option autoImplicit false
set_option relaxedAutoImplicit false

/-!
# Runs of a node

A run is what happens to a node after it was started: the user's doings are posted, the node is
polled, commands come in, and in between the other side of the channel does as it likes. The history
of a run is the row of turns that its polls took, each with the node in front of it.

Most properties of runs are proved by showing that no single step breaks them; `Invariant` lists the
steps, and `Invariant.run` goes from the steps to the runs. A property of the model is broken by
some changes of it and yet by no command; it is `Lasting`. Some properties hold only between calls;
those come with another property that holds in the middle of a poll, and the two together are a
`Cycle`.

## Main definitions

* `EdgeDevice.Node.Intake` — what a turn takes in before it deals with an event.
* `EdgeDevice.Node.Turn`, `EdgeDevice.Node.turns` — the turns of a poll.
* `EdgeDevice.Node.Rests`, `EdgeDevice.Node.Completes` — a poll, every poll of a run comes to rest.
* `EdgeDevice.Node.Call`, `EdgeDevice.Node.run`, `EdgeDevice.Node.history` — runs and the turns they
  took.
* `EdgeDevice.Node.Invariant`, `EdgeDevice.Node.Lasting` — a property that no step breaks.
* `EdgeDevice.Node.Cycle` — a property that every poll comes back to.

## Main results

* `EdgeDevice.Node.rest_of_rests` — when a poll comes to rest, no event waits and no timer is due.
* `EdgeDevice.Node.Lasting.run`, `EdgeDevice.Node.Invariant.run`, `EdgeDevice.Node.Cycle.run` — such
  a property holds after every run.
* `EdgeDevice.Node.onlyButtons_run` — between calls nothing waits but what the user did.
-/

namespace EdgeDevice

/-! ## What the user does -/

/-- What the user does to the button. -/
inductive ButtonEdge where
  /-- The button has been down for one more second. -/
  | held
  /-- The button came up. -/
  | released
  deriving DecidableEq

/-- The event that tells a node of it. -/
def ButtonEdge.event : ButtonEdge → NodeEvent
  | held => .buttonHeld
  | released => .buttonReleased

/-- Whether an event is something the user did. -/
def NodeEvent.isButton : NodeEvent → Bool
  | .buttonHeld => true
  | .buttonReleased => true
  | _ => false

/-- What the user does to the button is an event of the user. -/
@[simp] theorem ButtonEdge.isButton_event (edge : ButtonEdge) : edge.event.isButton = true := by
  cases edge <;> rfl

namespace EventQueue

/-- A queue that is not full takes one more event, at its end. -/
theorem exists_push? {q : EventQueue} (h : q.isFull = false) (e : NodeEvent) :
    ∃ q' : EventQueue, q.push? e = some q' ∧ q'.events = q.events ++ [e] := by
  rcases hq : q.push? e with _ | q'
  · rw [push?_eq_none_iff.1 hq] at h
    exact absurd h (by decide)
  · exact ⟨q', rfl, events_of_push? hq⟩

/-- There is an event to deal with unless nothing waits. -/
theorem pop?_eq_none_iff {q : EventQueue} : q.pop? = none ↔ q.events = [] := by
  unfold pop?
  split <;> simp

end EventQueue

namespace Node

variable [RandomSource] {σ : Type} [Channel σ]

/-! ## What a turn takes in -/

/-- What becomes of a node that takes in a change or a timer. -/
inductive Intake (n : Node σ) : Node σ → Prop
  | full (h : n.queue.isFull = true) : Intake n n
  | change {change : SessionChange} {c : σ} {q : EventQueue} (h : n.queue.isFull = false)
      (hc : (Channel.nextChange n.channel).value = (some change, c))
      (hq : q.events = n.queue.events ++ [.session change]) :
      Intake n { n with channel := c, queue := q }
  | timer {id : TimerId} {c : σ} {q : EventQueue} (h : n.queue.isFull = false)
      (hc : (Channel.nextChange n.channel).value = (none, c))
      (hd : n.timers.firstDue n.now = some id)
      (hq : q.events = n.queue.events ++ [.timer id]) :
      Intake n { n with channel := c, timers := n.timers.cancel id, queue := q }
  | nothing {c : σ} (h : n.queue.isFull = false)
      (hc : (Channel.nextChange n.channel).value = (none, c))
      (hd : n.timers.firstDue n.now = none) : Intake n { n with channel := c }

omit [Channel σ] in
/-- What is posted goes into the queue and leaves the rest of the node alone. -/
theorem value_post_of_push? {n : Node σ} {e : NodeEvent} {q : EventQueue}
    (h : n.queue.push? e = some q) : (n.post e).value = { n with queue := q } := by
  unfold post
  rw [h]
  rfl

/-- What is taken in can no longer be reported. -/
theorem Intake.backlog_le {n n' : Node σ} (h : Intake n n') :
    Channel.backlog n'.channel ≤ Channel.backlog n.channel := by
  have hb := Channel.backlog_nextChange_le n.channel
  cases h with
  | full => exact Nat.le_refl _
  | change h hc hq => rwa [hc] at hb
  | timer h hc hd hq => rwa [hc] at hb
  | nothing h hc hd => rwa [hc] at hb

/-- A node that takes something in makes one of the intakes. -/
theorem intake_take (n : Node σ) : Intake n n.take.value := by
  unfold take
  split
  · rename_i h
    exact .full h
  · rename_i h
    have h : n.queue.isFull = false := by simpa using h
    rcases hc : (Channel.nextChange n.channel).value with ⟨change, c⟩
    cases change with
    | some change =>
      obtain ⟨q, hp, hq⟩ := EventQueue.exists_push? h (.session change)
      have hv : (({ n with channel := c } : Node σ).post (.session change)).value = _ :=
        value_post_of_push? hp
      have : Intake n _ := .change h hc hq
      simpa [act, hc, hv] using this
    | none =>
      rcases hd : n.timers.firstDue n.now with _ | id
      · have : Intake n _ := .nothing h hc hd
        simpa [act, hc, Timers.takeExpired, hd] using this
      · obtain ⟨q, hp, hq⟩ := EventQueue.exists_push? h (.timer id)
        have hv : (({ n with channel := c, timers := n.timers.cancel id } : Node σ).post
            (.timer id)).value = _ := value_post_of_push? hp
        have : Intake n _ := .timer h hc hd hq
        simpa [act, hc, Timers.takeExpired, hd, hv] using this

/-! ## The turns of a poll -/

/-- A turn of a poll that found an event to deal with. -/
structure Turn (σ : Type) where
  /-- The node that deals with the event, which is no longer in the queue. -/
  node : Node σ
  /-- What the network looks like. -/
  net : Connectivity
  event : NodeEvent

/-- The node after the turn. -/
def Turn.after (t : Turn σ) : Node σ := (t.node.handle t.net t.event).value

/-- What a node does in a turn is one of its reactions. -/
theorem Turn.reaction (t : Turn σ) : Reaction t.net t.node t.event t.after :=
  reaction_handle t.node t.net t.event

/-- The turn that follows the intake of a node, if there is an event to deal with. -/
def turn? (n : Node σ) (net : Connectivity) : Option (Turn σ) :=
  n.take.value.queue.pop?.map fun (e, q) => ⟨{ n.take.value with queue := q }, net, e⟩

/-- The turns of a poll, `k` at most. -/
def turns (nets : Nat → Connectivity) : Nat → Node σ → List (Turn σ)
  | 0, _ => []
  | k + 1, n =>
    match n.turn? (nets k) with
    | none => []
    | some t => t :: turns nets k t.after

/-- **A poll comes to rest**: one of its turns, the last of `k` at the latest, finds nothing to
do. -/
def Rests (nets : Nat → Connectivity) : Nat → Node σ → Prop
  | 0, _ => False
  | k + 1, n =>
    match n.turn? (nets k) with
    | none => True
    | some t => Rests nets k t.after

/-- A turn deals with the event that was in front. -/
theorem queue_of_turn? {n : Node σ} {net : Connectivity} {t : Turn σ} (h : n.turn? net = some t) :
    ∃ q : EventQueue, q.events = t.event :: t.node.queue.events ∧
      n.take.value = { t.node with queue := q } := by
  obtain ⟨⟨e, q⟩, hp, rfl⟩ := Option.map_eq_some_iff.1 h
  exact ⟨n.take.value.queue, EventQueue.events_of_pop? hp, rfl⟩

/-- Where there is no turn to take, nothing waits. -/
theorem queue_of_turn?_eq_none {n : Node σ} {net : Connectivity} (h : n.turn? net = none) :
    n.take.value.queue.events = [] :=
  EventQueue.pop?_eq_none_iff.1 (Option.map_eq_none_iff.1 h)

/-- A poll ends where there is no turn to take, and goes on behind its first turn otherwise. -/
theorem value_takeTurns_succ (nets : Nat → Connectivity) (k : Nat) (n : Node σ) :
    (takeTurns nets (k + 1) n).value =
      match n.turn? (nets k) with
      | none => n.take.value
      | some t => (takeTurns nets k t.after).value := by
  rw [takeTurns]
  unfold takeTurn turn?
  rcases h : n.take.value.queue.pop? with _ | ⟨e, q⟩
  · simp [h]
  · simp [h, Turn.after]

/-- When a poll comes to rest, no event waits and no timer is due. -/
theorem rest_of_rests {nets : Nat → Connectivity} {k : Nat} {n : Node σ} (h : Rests nets k n) :
    (takeTurns nets k n).value.queue.events = [] ∧
      (takeTurns nets k n).value.timers.firstDue (takeTurns nets k n).value.now = none := by
  induction k generalizing n with
  | zero => exact h.elim
  | succ k ih =>
    rw [value_takeTurns_succ]
    rcases ht : n.turn? (nets k) with _ | t
    · have he := queue_of_turn?_eq_none ht
      refine ⟨he, ?_⟩
      show n.take.value.timers.firstDue n.take.value.now = none
      have hi := intake_take n
      generalize n.take.value = m at he hi
      cases hi with
      | full h => simp [EventQueue.isFull, EventQueue.size, EventQueue.capacity, he] at h
      | change h hc hq => simp [hq] at he
      | timer h hc hd hq => simp [hq] at he
      | nothing h hc hd => exact hd
    · rw [Rests, ht] at h
      exact ih h

/-! ## Runs -/

omit [Channel σ] in
/-- A node is built exactly with settings that it can run with, and then it is in its first
state. -/
theorem create_eq_ok_iff {identity : Identity} {channel : σ} {settings : NodeSettings}
    {n : Node σ} :
    create identity channel settings = .ok n ↔ settings.check = .ok () ∧
      n = { identity := identity, settings := settings, channel := channel
            dial := .ofKind identity.kind, button := { threshold := settings.buttonSeconds }
            model := .ofKind identity.kind identity.nodeId
            replyId := identity.nodeId.toUInt16 } := by
  unfold create
  cases settings.check with
  | error e => simp [Except.map]
  | ok u => simp [Except.map, eq_comm]

omit [Channel σ] in
/-- With settings that pass the check a node can be built. -/
theorem exists_create (identity : Identity) (channel : σ) {settings : NodeSettings}
    (h : settings.check = .ok ()) : ∃ n, create identity channel settings = .ok n :=
  ⟨_, create_eq_ok_iff.2 ⟨h, rfl⟩⟩

omit [Channel σ] in
/-- A node in front of its first step has nothing to do and no session. -/
theorem idle_of_create {identity : Identity} {channel : σ} {settings : NodeSettings} {n : Node σ}
    (h : create identity channel settings = .ok n) :
    n.channel = channel ∧ n.timers = .empty ∧ n.queue = .empty ∧ n.awaiting = false := by
  obtain ⟨-, rfl⟩ := create_eq_ok_iff.1 h
  exact ⟨rfl, rfl, rfl, rfl⟩

/-- What can happen to a node that was started. -/
inductive Call (σ : Type) where
  /-- The user does something. -/
  | post (edge : ButtonEdge)
  /-- The node is polled, while the network looks like this. -/
  | poll (now : Instant) (nets : Nat → Connectivity)
  /-- A command comes in. -/
  | put (payload : Bytes)
  /-- A request comes in. -/
  | answer (request : Coap.Message)
  /-- The other side of the channel does something on its own. -/
  | outside (change : σ → σ)

variable [Json.Writer]

/-- The node after a call. -/
def call (n : Node σ) : Call σ → Node σ
  | .post edge => (n.post edge.event).value
  | .poll now nets => (n.pollThrough now nets).value
  | .put payload => (n.put payload).value.2
  | .answer request => (n.answer request).value.2
  | .outside change => { n with channel := change n.channel }

/-- The node after a run. -/
def run (n : Node σ) (calls : List (Call σ)) : Node σ := calls.foldl call n

/-- The turns a call takes. -/
def turnsOf (n : Node σ) : Call σ → List (Turn σ)
  | .poll now nets =>
    let n := { n with now := now }
    turns nets n.enoughTurns n
  | _ => []

/-- The turns a run takes. -/
def history (n : Node σ) : List (Call σ) → List (Turn σ)
  | [] => []
  | c :: calls => n.turnsOf c ++ (n.call c).history calls

/-- A call is over at some time: if it is a poll, it comes to rest. -/
def Returns (n : Node σ) : Call σ → Prop
  | .poll now nets =>
    let n := { n with now := now }
    Rests nets n.enoughTurns n
  | _ => True

/-- Every poll of a run comes to rest. -/
def Completes (n : Node σ) : List (Call σ) → Prop
  | [] => True
  | c :: calls => n.Returns c ∧ (n.call c).Completes calls

/-- The other side of the channel does only what a relation allows. -/
def Call.Keeps (R : σ → σ → Prop) : Call σ → Prop
  | outside change => ∀ c, R c (change c)
  | _ => True

omit [RandomSource] [Json.Writer] [Channel σ] in
/-- Every call keeps the relation that allows everything. -/
theorem Call.keeps_true (c : Call σ) : c.Keeps fun _ _ => True := by
  cases c <;> simp [Call.Keeps]

/-- A call as it comes to a node whose channel has another inside; what the other side does to the
inner one is carried over to the outer one. -/
def Call.lift {τ : Type} (carry : (τ → τ) → σ → σ) : Call τ → Call σ
  | post edge => post edge
  | poll now nets => poll now nets
  | put payload => put payload
  | answer request => answer request
  | outside change => outside (carry change)

omit [RandomSource] [Json.Writer] [Channel σ] in
/-- A call that is carried over keeps a relation if the carrying does. -/
theorem Call.keeps_of_mem_lift {τ : Type} {carry : (τ → τ) → σ → σ} {R : σ → σ → Prop}
    (h : ∀ change c, R c (carry change c)) {calls : List (Call τ)} {c : Call σ}
    (hc : c ∈ calls.map (Call.lift carry)) : c.Keeps R := by
  obtain ⟨c, -, rfl⟩ := List.mem_map.1 hc
  cases c with
  | outside change => exact h change
  | _ => trivial

/-- A poll takes its turns from the instant of the poll on. -/
theorem call_poll (n : Node σ) (now : Instant) (nets : Nat → Connectivity) :
    n.call (.poll now nets) =
      (takeTurns nets { n with now := now }.enoughTurns { n with now := now }).value := by
  simp only [call, pollThrough]

omit [Json.Writer] in
/-- The turns of a poll are those from the instant of the poll on. -/
theorem turnsOf_poll (n : Node σ) (now : Instant) (nets : Nat → Connectivity) :
    n.turnsOf (.poll now nets) =
      turns nets { n with now := now }.enoughTurns { n with now := now } := by
  simp only [turnsOf]

omit [Json.Writer] in
/-- A poll is over at some time if it comes to rest from its instant on. -/
theorem returns_poll {n : Node σ} {now : Instant} {nets : Nat → Connectivity} :
    n.Returns (.poll now nets) ↔
      Rests nets { n with now := now }.enoughTurns { n with now := now } := by
  simp only [Returns]

omit [Json.Writer] in
/-- In the turns of a poll the network looks as it does in the poll. -/
theorem exists_net_of_mem_turns {nets : Nat → Connectivity} {k : Nat} {n : Node σ} {t : Turn σ}
    (h : t ∈ turns nets k n) : ∃ j, t.net = nets j := by
  induction k generalizing n with
  | zero => exact absurd h List.not_mem_nil
  | succ k ih =>
    rw [turns] at h
    rcases ht : n.turn? (nets k) with _ | t'
    · rw [ht] at h
      exact absurd h List.not_mem_nil
    · rw [ht] at h
      rcases List.mem_cons.1 h with rfl | h
      · obtain ⟨_, -, rfl⟩ := Option.map_eq_some_iff.1 ht
        exact ⟨k, rfl⟩
      · exact ih h

/-- Every turn of a run belongs to a poll, and finds the network as that poll has it. -/
theorem exists_poll_of_mem_history {n : Node σ} {calls : List (Call σ)} {t : Turn σ}
    (h : t ∈ n.history calls) : ∃ now nets j, .poll now nets ∈ calls ∧ t.net = nets j := by
  induction calls generalizing n with
  | nil => exact absurd h List.not_mem_nil
  | cons c calls ih =>
    rcases List.mem_append.1 h with h | h
    · cases c with
      | poll now nets =>
        obtain ⟨j, hj⟩ := exists_net_of_mem_turns (turnsOf_poll n now nets ▸ h)
        exact ⟨now, nets, j, List.mem_cons_self, hj⟩
      | _ => exact absurd h List.not_mem_nil
    · obtain ⟨now, nets, j, hc, hj⟩ := ih h
      exact ⟨now, nets, j, List.mem_cons_of_mem c hc, hj⟩

/-! ## Invariants -/

/-- A property of a node and of the turns taken so far that no turn of a poll breaks. -/
structure Kept (P : List (Turn σ) → Node σ → Prop) : Prop where
  take : ∀ {h : List (Turn σ)} {n n' : Node σ}, P h n → Intake n n' → P h n'
  turn : ∀ {h : List (Turn σ)} {t : Turn σ} {q : EventQueue}, P h { t.node with queue := q } →
    q.events = t.event :: t.node.queue.events → P (h ++ [t]) t.after

/-- A property of a node and of the turns taken so far that no step of a run breaks. The other side
of the channel moves within `R`. -/
structure Invariant (R : σ → σ → Prop) (P : List (Turn σ) → Node σ → Prop) : Prop
    extends Kept P where
  post : ∀ {h : List (Turn σ)} {n : Node σ} {q : EventQueue} (edge : ButtonEdge), P h n →
    q.events = n.queue.events ++ [edge.event] → P h { n with queue := q }
  command : ∀ {h : List (Turn σ)} {n : Node σ} (m : Model) (id : UInt16), P h n →
    P h { n with model := m, replyId := id }
  outside : ∀ {h : List (Turn σ)} {n : Node σ} {c : σ}, P h n → R n.channel c →
    P h { n with channel := c }
  tick : ∀ {h : List (Turn σ)} {n : Node σ} (now : Instant), P h n → P h { n with now := now }

/-- A property of a node and of the turns taken so far that no step of a run breaks, of commands
only what they can make of the model. -/
structure Lasting (R : σ → σ → Prop) (P : List (Turn σ) → Node σ → Prop) : Prop
    extends Kept P where
  post : ∀ {h : List (Turn σ)} {n : Node σ} {q : EventQueue} (edge : ButtonEdge), P h n →
    q.events = n.queue.events ++ [edge.event] → P h { n with queue := q }
  command : ∀ {h : List (Turn σ)} {n : Node σ} {m : Model} (id : UInt16), P h n →
    n.model.Commanded m → P h { n with model := m, replyId := id }
  outside : ∀ {h : List (Turn σ)} {n : Node σ} {c : σ}, P h n → R n.channel c →
    P h { n with channel := c }
  tick : ∀ {h : List (Turn σ)} {n : Node σ} (now : Instant), P h n → P h { n with now := now }

/-- A property `Q` that holds between calls, because a poll that starts with it keeps a property `P`
up and comes back to it at rest. -/
structure Cycle (R : σ → σ → Prop) (P Q : List (Turn σ) → Node σ → Prop) : Prop
    extends Kept P where
  post : ∀ {h : List (Turn σ)} {n : Node σ} {q : EventQueue} (edge : ButtonEdge), Q h n →
    q.events = n.queue.events ++ [edge.event] → Q h { n with queue := q }
  command : ∀ {h : List (Turn σ)} {n : Node σ} (m : Model) (id : UInt16), Q h n →
    Q h { n with model := m, replyId := id }
  outside : ∀ {h : List (Turn σ)} {n : Node σ} {c : σ}, Q h n → R n.channel c →
    Q h { n with channel := c }
  enter : ∀ {h : List (Turn σ)} {n : Node σ} (now : Instant), Q h n → P h { n with now := now }
  leave : ∀ {h : List (Turn σ)} {n : Node σ}, P h n → n.queue.events = [] →
    n.timers.firstDue n.now = none → Q h n

variable {R : σ → σ → Prop} {P Q : List (Turn σ) → Node σ → Prop}

omit [Json.Writer] in
/-- No poll breaks a property that no turn breaks. -/
theorem Kept.takeTurns (hK : Kept P) (nets : Nat → Connectivity) (k : Nat) {h : List (Turn σ)}
    {n : Node σ} (hP : P h n) : P (h ++ turns nets k n) (takeTurns nets k n).value := by
  induction k generalizing h n with
  | zero => simpa [turns, Node.takeTurns] using hP
  | succ k ih =>
    have ht := hK.take hP (intake_take n)
    rw [turns, value_takeTurns_succ]
    rcases hn : n.turn? (nets k) with _ | t
    · simpa using ht
    · obtain ⟨q, hq, hv⟩ := queue_of_turn? hn
      rw [hv] at ht
      have := ih (hK.turn ht hq)
      rwa [List.append_assoc, List.singleton_append] at this

omit [Json.Writer] in
/-- A poll adds nothing to what the other side can still report. -/
theorem backlog_takeTurns_le (nets : Nat → Connectivity) (k : Nat) (n : Node σ) :
    Channel.backlog (Node.takeTurns nets k n).value.channel ≤ Channel.backlog n.channel := by
  have hK : Kept fun _ (m : Node σ) => Channel.backlog m.channel ≤ Channel.backlog n.channel :=
    { take := fun hm hi => Nat.le_trans hi.backlog_le hm
      turn := fun {_ t _} hm _ => Nat.le_trans t.reaction.backlog_le hm }
  exact hK.takeTurns (h := []) nets k (Nat.le_refl _)

/-- The calls other than polls change the node in one of three ways. -/
theorem call_of_steps {h : List (Turn σ)} {n : Node σ} (hQ : Q h n) {c : Call σ}
    (hc : c.Keeps R)
    (post : ∀ (edge : ButtonEdge) (q : EventQueue), q.events = n.queue.events ++ [edge.event] →
      Q h { n with queue := q })
    (command : ∀ (m : Model) (id : UInt16), n.model.Commanded m →
      Q h { n with model := m, replyId := id })
    (outside : ∀ c, R n.channel c → Q h { n with channel := c })
    (poll : ∀ now nets, c = .poll now nets →
      Q (h ++ n.turnsOf (.poll now nets)) (n.call (.poll now nets))) :
    Q (h ++ n.turnsOf c) (n.call c) := by
  cases c with
  | post edge =>
    simp only [turnsOf, List.append_nil, Node.call, Node.post]
    rcases hp : n.queue.push? edge.event with _ | q
    · exact hQ
    · exact post edge q (EventQueue.events_of_push? hp)
  | poll now nets => exact poll now nets rfl
  | put payload =>
    show Q (h ++ []) _
    rw [List.append_nil]
    exact command _ n.replyId (n.model.commanded_put payload)
  | answer request =>
    show Q (h ++ []) _
    rw [List.append_nil]
    exact command _ (n.replyId + 1) (n.model.commanded_answer request n.replyId)
  | outside change =>
    show Q (h ++ []) _
    rw [List.append_nil]
    exact outside _ (hc n.channel)

namespace Lasting

/-- A property that no step breaks survives a call. -/
theorem call (hL : Lasting R P) {h : List (Turn σ)} {n : Node σ} (hP : P h n) {c : Call σ}
    (hc : c.Keeps R) : P (h ++ n.turnsOf c) (n.call c) := by
  refine call_of_steps hP hc (fun edge q hq => hL.post edge hP hq)
    (fun m id hm => hL.command id hP hm) (fun c hr => hL.outside hP hr) fun now nets _ => ?_
  rw [turnsOf_poll, call_poll]
  exact hL.takeTurns nets _ (hL.tick now hP)

/-- **A property that no step breaks holds after every run.** -/
theorem run (hL : Lasting R P) {h : List (Turn σ)} {n : Node σ} (hP : P h n)
    {calls : List (Call σ)} (hc : ∀ c ∈ calls, c.Keeps R) :
    P (h ++ n.history calls) (n.run calls) := by
  induction calls generalizing h n with
  | nil => simpa [history, Node.run] using hP
  | cons c calls ih =>
    have := ih (hL.call hP (hc c List.mem_cons_self))
      fun c' hc' => hc c' (List.mem_cons_of_mem c hc')
    rwa [List.append_assoc] at this

end Lasting

namespace Invariant

/-- What no change of the model breaks no command breaks. -/
theorem lasting (hI : Invariant R P) : Lasting R P where
  take := hI.take
  turn := hI.turn
  post := hI.post
  command id hP _ := hI.command _ id hP
  outside := hI.outside
  tick := hI.tick

/-- An invariant survives a call. -/
theorem call (hI : Invariant R P) {h : List (Turn σ)} {n : Node σ} (hP : P h n) {c : Call σ}
    (hc : c.Keeps R) : P (h ++ n.turnsOf c) (n.call c) := hI.lasting.call hP hc

/-- **An invariant holds after every run.** -/
theorem run (hI : Invariant R P) {h : List (Turn σ)} {n : Node σ} (hP : P h n)
    {calls : List (Call σ)} (hc : ∀ c ∈ calls, c.Keeps R) :
    P (h ++ n.history calls) (n.run calls) := hI.lasting.run hP hc

end Invariant

namespace Cycle

/-- What holds between calls holds after a call that is over at some time. -/
theorem call (hC : Cycle R P Q) {h : List (Turn σ)} {n : Node σ} (hQ : Q h n) {c : Call σ}
    (hc : c.Keeps R) (hr : n.Returns c) : Q (h ++ n.turnsOf c) (n.call c) := by
  refine call_of_steps hQ hc (fun edge q hq => hC.post edge hQ hq)
    (fun m id _ => hC.command m id hQ) (fun c hr => hC.outside hQ hr) ?_
  rintro now nets rfl
  have hP := hC.takeTurns nets { n with now := now }.enoughTurns (hC.enter now hQ)
  have hrest := rest_of_rests (returns_poll.1 hr)
  rw [turnsOf_poll, call_poll]
  exact hC.leave hP hrest.1 hrest.2

/-- **A property that every poll comes back to holds after every run** in which the polls come to
rest. -/
theorem run (hC : Cycle R P Q) {h : List (Turn σ)} {n : Node σ} (hQ : Q h n)
    {calls : List (Call σ)} (hc : ∀ c ∈ calls, c.Keeps R) (hr : n.Completes calls) :
    Q (h ++ n.history calls) (n.run calls) := by
  induction calls generalizing h n with
  | nil => simpa [history, Node.run] using hQ
  | cons c calls ih =>
    have := ih (hC.call hQ (hc c List.mem_cons_self) hr.1)
      (fun c' hc' => hc c' (List.mem_cons_of_mem c hc')) hr.2
    rwa [List.append_assoc] at this

end Cycle

/-! ## Between calls -/

/-- Nothing waits but what the user did. -/
def OnlyButtons (n : Node σ) : Prop := ∀ e ∈ n.queue.events, e.isButton = true

omit [Json.Writer] [Channel σ] in
/-- What the user does leaves nothing waiting but what the user did. -/
theorem OnlyButtons.post {n : Node σ} (hn : n.OnlyButtons) {edge : ButtonEdge} {q : EventQueue}
    (hq : q.events = n.queue.events ++ [edge.event]) : OnlyButtons { n with queue := q } := by
  intro e he
  rw [hq, List.mem_append, List.mem_singleton] at he
  rcases he with he | rfl
  · exact hn e he
  · exact edge.isButton_event

omit [Json.Writer] [Channel σ] in
/-- Where nothing waits, nothing waits but what the user did. -/
theorem onlyButtons_of_nil {n : Node σ} (hq : n.queue.events = []) : n.OnlyButtons := by
  intro e he
  rw [hq] at he
  exact absurd he List.not_mem_nil

omit [Json.Writer] [Channel σ] in
/-- Where nothing waits but what the user did, no timer has fired. -/
theorem OnlyButtons.timer_notMem {n : Node σ} (hn : n.OnlyButtons) (id : TimerId) :
    .timer id ∉ n.queue.events := by
  intro hm
  simpa [NodeEvent.isButton] using hn _ hm

/-- **Between calls nothing waits but what the user did**, if every poll comes to rest. -/
theorem onlyButtons_run {n : Node σ} (hn : n.OnlyButtons) {calls : List (Call σ)}
    (hc : n.Completes calls) : (n.run calls).OnlyButtons := by
  have hC : Cycle (fun _ _ : σ => True) (fun _ _ => True) fun _ (m : Node σ) => m.OnlyButtons :=
    { take := fun _ _ => trivial
      turn := fun _ _ => trivial
      post := fun _ hm hq => hm.post hq
      command := fun _ _ hm => hm
      outside := fun hm _ => hm
      enter := fun _ _ => trivial
      leave := fun _ hq _ => onlyButtons_of_nil hq }
  exact hC.run (h := []) hn (fun c _ => c.keeps_true) hc

end Node

end EdgeDevice
