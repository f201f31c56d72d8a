import EdgeDevice.Node.Handlers

set_option autoImplicit false
set_option relaxedAutoImplicit false

/-!
# What a node is asked to do

The platform starts a node, posts what the user does to the button, and calls `Node.poll` at the
latest when the next timer is due. A poll takes turns until nothing is left to do. In a turn the
node first takes one change of the session or, if there is none, one timer that is due, and puts it
at the end of the queue; then it deals with the event at the front. While the queue is full nothing
is taken, so that nothing is lost.

## Main definitions

* `EdgeDevice.Node.start`, `EdgeDevice.Node.post`, `EdgeDevice.Node.poll` — the steps of a node.
* `EdgeDevice.Node.takeTurn` — one turn of a poll.
* `EdgeDevice.Node.put`, `EdgeDevice.Node.answer` — commands from outside.
-/

namespace EdgeDevice.Node

variable [RandomSource] {σ : Type}

/-- Starts to connect. -/
def start (n : Node σ) (now : Instant) : Logged (Node σ) := do
  let n := { n with now := now }
  Logged.remark (Remark.starting n.identity)
  n.beginConnecting n.settings.probePeriod

/-- Leaves an event for the next poll. It is lost when the queue is full. -/
def post (n : Node σ) (e : NodeEvent) : Logged (Node σ) :=
  match n.queue.push? e with
  | some queue => return { n with queue := queue }
  | none => do
    Logged.remark (Remark.queueFull e)
    return n

section Poll

variable [Channel σ]

/-- Takes a change of the session, or else a timer that is due, into the queue if there is room. -/
def take (n : Node σ) : Logged (Node σ) :=
  if n.queue.isFull then return n
  else do
    let (change, n) ← n.act Channel.nextChange
    match change with
    | some change => n.post (.session change)
    | none =>
      match n.timers.takeExpired n.now with
      | (some id, timers) => ({ n with timers := timers }).post (.timer id)
      | (none, _) => return n

/-- One turn of a poll: the event that was dealt with, if there was one. -/
def takeTurn (n : Node σ) (net : Connectivity) : Logged (Option NodeEvent × Node σ) := do
  let n ← n.take
  match n.queue.pop? with
  | none => return (none, n)
  | some (e, queue) => return (some e, ← { n with queue := queue }.handle net e)

/-- Takes turns until there is nothing to do, `turns` at most. The network may change on the way:
`nets k` is what it looks like in the turn after which `k` are left. -/
def takeTurns (nets : Nat → Connectivity) : Nat → Node σ → Logged (Node σ)
  | 0, n => return n
  | turns + 1, n => do
    match ← n.takeTurn (nets turns) with
    | (none, n) => return n
    | (some _, n) => takeTurns nets turns n

/-- The turns of a poll beyond those that events and changes account for. At the last instant of the
clock a timer that is set again is due again at once, so that a poll goes on for as long as the
other side plays along. No counterpart gets near this count; a poll that would go on for ever is
broken off there. -/
def turnLimit : Nat := 18446744073709551616

/-- More turns than a poll takes to come to rest. Before the last instant of the clock, each event
and each change leads to at most one more event, and each timer fires at most once. -/
def enoughTurns (n : Node σ) : Nat :=
  turnLimit + 8 * (n.queue.size + Channel.backlog n.channel)

/-- Does everything there is to do at an instant, while the network changes from turn to turn. -/
def pollThrough (n : Node σ) (now : Instant) (nets : Nat → Connectivity) : Logged (Node σ) :=
  let n := { n with now := now }
  takeTurns nets n.enoughTurns n

/-- Does everything there is to do at an instant, while the network stays as it is. -/
def poll (n : Node σ) (now : Instant) (net : Connectivity) : Logged (Node σ) :=
  n.pollThrough now fun _ => net

end Poll

section Commands

variable [Json.Writer]

/-- Carries out a command. -/
def put (n : Node σ) (payload : Bytes) : Logged (Reply × Node σ) := do
  let (reply, model) ← n.model.put payload
  return (reply, { n with model := model })

/-- Answers a request. Every request uses up an id, also one that is answered by an
acknowledgement. -/
def answer (n : Node σ) (request : Coap.Message) : Logged (Coap.Message × Node σ) := do
  let (response, model) ← n.model.answer request n.replyId
  return (response, { n with model := model, replyId := n.replyId + 1 })

end Commands

end EdgeDevice.Node
