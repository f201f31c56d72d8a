import EdgeDevice.Proofs.Node.Runs

set_option autoImplicit false
set_option relaxedAutoImplicit false

/-!
# Whatever comes to a node

A run begins with the start of the node, and only the user posts events in it. Nothing keeps the
program around a node to that: it can start the node again or not at all, post events of any kind,
those of timers and of the session included, and change the model, by a new reading for example.
Such a row of inputs can lead a node into states that no run leads to, in which a timer is set that
does not belong to the state. What holds of those states all the same is `Robust`.

## Main definitions

* `EdgeDevice.Node.Input`, `EdgeDevice.Node.inputs` — what can come to a node, and the node after
  it.
* `EdgeDevice.Node.turnsAt`, `EdgeDevice.Node.chronicle` — the turns that are taken meanwhile.
* `EdgeDevice.Node.Robust` — a property that no input breaks.

## Main results

* `EdgeDevice.Node.inputs_calls`, `EdgeDevice.Node.chronicle_calls` — every run is such a row.
* `EdgeDevice.Node.Robust.inputs` — such a property holds after every row of inputs.
-/

namespace EdgeDevice.Node

variable [RandomSource] {σ : Type}

/-- What can come to a node. -/
inductive Input (σ : Type) where
  /-- The node is started, for the first time or again. -/
  | start (now : Instant)
  /-- An event is posted, of whatever kind. -/
  | post (e : NodeEvent)
  /-- The model is changed from outside. -/
  | amend (change : Model → Model)
  | call (c : Call σ)

/-- The other side of the channel does only what `R` allows, and the model is changed from outside
only as `S` allows. -/
def Input.Keeps (R : σ → σ → Prop) (S : Model → Model → Prop) : Input σ → Prop
  | amend change => ∀ m, S m (change m)
  | call c => c.Keeps R
  | _ => True

/-- Every input keeps the relations that allow everything. -/
theorem Input.keeps_true (i : Input σ) : i.Keeps (fun _ _ => True) fun _ _ => True := by
  cases i with
  | call c => exact c.keeps_true
  | _ => simp [Input.Keeps]

/-- An input as it comes to a node whose channel has another inside. -/
def Input.lift {τ : Type} (carry : (τ → τ) → σ → σ) : Input τ → Input σ
  | start now => start now
  | post e => post e
  | amend change => amend change
  | call c => call (c.lift carry)

/-- An input keeps a relation between models when it is carried over to an outer channel. -/
theorem Input.Keeps.lift {τ : Type} {R : τ → τ → Prop} {S : Model → Model → Prop} {i : Input τ}
    (h : i.Keeps R S) (carry : (τ → τ) → σ → σ) : (i.lift carry).Keeps (fun _ _ => True) S := by
  cases i with
  | amend change => exact h
  | call c => exact (c.lift carry).keeps_true
  | _ => trivial

/-- Calls are carried over to an outer channel one by one, as inputs or as calls. -/
theorem Input.map_lift_calls {τ : Type} (carry : (τ → τ) → σ → σ) (calls : List (Call τ)) :
    (calls.map .call).map (Input.lift carry) = (calls.map (Call.lift carry)).map .call := by
  rw [List.map_map, List.map_map]
  rfl

variable [Json.Writer] [Channel σ]

/-- The node after an input. -/
def input (n : Node σ) : Input σ → Node σ
  | .start now => (n.start now).value
  | .post e => (n.post e).value
  | .amend change => { n with model := change n.model }
  | .call c => n.call c

/-- The node after some inputs. -/
def inputs (n : Node σ) (is : List (Input σ)) : Node σ := is.foldl input n

/-- The turns that are taken when an input comes. -/
def turnsAt (n : Node σ) : Input σ → List (Turn σ)
  | .call c => n.turnsOf c
  | _ => []

/-- The turns that are taken while some inputs come, in this order. -/
def chronicle (n : Node σ) : List (Input σ) → List (Turn σ)
  | [] => []
  | i :: is => n.turnsAt i ++ (n.input i).chronicle is

/-- The calls of a run are inputs. -/
theorem inputs_calls (n : Node σ) (calls : List (Call σ)) :
    n.inputs (calls.map .call) = n.run calls := by
  rw [inputs, List.foldl_map]
  rfl

/-- Its history is what the chronicle tells of them. -/
theorem chronicle_calls (n : Node σ) (calls : List (Call σ)) :
    n.chronicle (calls.map .call) = n.history calls := by
  induction calls generalizing n with
  | nil => rfl
  | cons c calls ih => exact congrArg (n.turnsOf c ++ ·) (ih (n.call c))

/-- A property of a node and of the turns taken so far that no input breaks. The other side of the
channel moves within `R`, and the model is changed from outside within `S`. -/
structure Robust (R : σ → σ → Prop) (S : Model → Model → Prop)
    (P : List (Turn σ) → Node σ → Prop) : Prop extends Lasting R P where
  start : ∀ {h : List (Turn σ)} {n : Node σ} (now : Instant), P h n → P h (n.start now).value
  enqueue : ∀ {h : List (Turn σ)} {n : Node σ} {q : EventQueue} (e : NodeEvent), P h n →
    q.events = n.queue.events ++ [e] → P h { n with queue := q }
  amend : ∀ {h : List (Turn σ)} {n : Node σ} {m : Model}, P h n → S n.model m →
    P h { n with model := m }

variable {R : σ → σ → Prop} {S : Model → Model → Prop} {P : List (Turn σ) → Node σ → Prop}

/-- What no change of the model breaks is robust if neither a start nor an event breaks it. -/
theorem Invariant.robust (hI : Invariant R P)
    (start : ∀ {h : List (Turn σ)} {n : Node σ} (now : Instant), P h n → P h (n.start now).value)
    (enqueue : ∀ {h : List (Turn σ)} {n : Node σ} {q : EventQueue} (e : NodeEvent), P h n →
      q.events = n.queue.events ++ [e] → P h { n with queue := q }) : Robust R S P where
  toLasting := hI.lasting
  start := start
  enqueue := enqueue
  amend {_ n m} hP _ := hI.command m n.replyId hP

namespace Robust

/-- A robust property survives an input. -/
theorem input (hR : Robust R S P) {h : List (Turn σ)} {n : Node σ} (hP : P h n) {i : Input σ}
    (hi : i.Keeps R S) : P (h ++ n.turnsAt i) (n.input i) := by
  cases i with
  | call c => exact hR.toLasting.call hP hi
  | start now =>
    show P (h ++ []) _
    rw [List.append_nil]
    exact hR.start now hP
  | post e =>
    show P (h ++ []) (n.post e).value
    rw [List.append_nil, Node.post]
    rcases hp : n.queue.push? e with _ | q
    · exact hP
    · exact hR.enqueue e hP (EventQueue.events_of_push? hp)
  | amend change =>
    show P (h ++ []) _
    rw [List.append_nil]
    exact hR.amend hP (hi n.model)

/-- **A property that no input breaks holds whatever comes.** -/
theorem inputs (hR : Robust R S P) {h : List (Turn σ)} {n : Node σ} (hP : P h n)
    {is : List (Input σ)} (hi : ∀ i ∈ is, i.Keeps R S) :
    P (h ++ n.chronicle is) (n.inputs is) := by
  induction is generalizing h n with
  | nil => simpa [chronicle, Node.inputs] using hP
  | cons i is ih =>
    have := ih (hR.input hP (hi i List.mem_cons_self))
      fun i' hi' => hi i' (List.mem_cons_of_mem i hi')
    rwa [List.append_assoc] at this

end Robust

end EdgeDevice.Node
