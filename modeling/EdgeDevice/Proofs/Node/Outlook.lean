import EdgeDevice.Proofs.Node.Rest

set_option autoImplicit false
set_option relaxedAutoImplicit false

/-!
# What is to come in a run

An invariant says what the turns taken so far have led to. Some properties look the other way: once
this has happened, the turns to come will be such and such, until something else happens. What is
known of the turns to come changes with each turn, so a property of that sort is one of a family;
`Outlook` lists the steps for the whole family, and `Outlook.history` goes from the steps to the
runs.

## Main definitions

* `EdgeDevice.Node.Outlook` — a family of properties of the turns to come.

## Main results

* `EdgeDevice.Node.Outlook.history` — such a property is true of the turns that a run takes.
-/

namespace EdgeDevice.Node

variable [RandomSource] {σ : Type} [Channel σ] {ι : Type}

/-- **A family of properties of the turns to come.** A node that satisfies `P i` in the middle of a
poll, or `Q i` between calls, has turns before it that satisfy `G i`. A turn can lead from one
member of the family to another. -/
structure Outlook (P Q : ι → Node σ → Prop) (G : ι → List (Turn σ) → Prop) : Prop where
  take : ∀ {i : ι} {n n' : Node σ}, P i n → Intake n n' → P i n'
  turn : ∀ {i : ι} {t : Turn σ} {q : EventQueue}, P i { t.node with queue := q } →
    q.events = t.event :: t.node.queue.events →
      ∃ j, P j t.after ∧ ∀ rest, G j rest → G i (t :: rest)
  post : ∀ {i : ι} {n : Node σ} {q : EventQueue} (edge : ButtonEdge), Q i n →
    q.events = n.queue.events ++ [edge.event] → Q i { n with queue := q }
  command : ∀ {i : ι} {n : Node σ} (m : Model) (id : UInt16), Q i n →
    Q i { n with model := m, replyId := id }
  outside : ∀ {i : ι} {n : Node σ} (c : σ), Q i n → Q i { n with channel := c }
  enter : ∀ {i : ι} {n : Node σ} {now : Instant}, Q i n → now < .last → P i { n with now := now }
  leave : ∀ {i : ι} {n : Node σ}, P i n → n.queue.events = [] → Q i n
  nil : ∀ {i : ι} {n : Node σ}, Q i n → G i []

namespace Outlook

variable {P Q : ι → Node σ → Prop} {G : ι → List (Turn σ) → Prop}

/-- Through a poll that comes to rest. What comes after it is known of the node it leaves. -/
theorem turns (hO : Outlook P Q G) {nets : Nat → Connectivity} {k : Nat} {i : ι} {n : Node σ}
    (hP : P i n) (hr : Rests nets k n) {rest : List (Turn σ)}
    (hrest : ∀ j, Q j (takeTurns nets k n).value → G j rest) :
    G i (Node.turns nets k n ++ rest) := by
  induction k generalizing i n with
  | zero => exact hr.elim
  | succ k ih =>
    have ht := hO.take hP (intake_take n)
    rw [value_takeTurns_succ] at hrest
    rw [Rests] at hr
    rw [Node.turns]
    rcases hn : n.turn? (nets k) with _ | t
    · rw [hn] at hrest
      exact hrest i (hO.leave ht (queue_of_turn?_eq_none hn))
    · rw [hn] at hr hrest
      obtain ⟨q, hq, hv⟩ := queue_of_turn? hn
      rw [hv] at ht
      obtain ⟨j, hj, hG⟩ := hO.turn ht hq
      exact hG _ (ih hj hr hrest)

/-- Through a call. -/
theorem call [Json.Writer] (hO : Outlook P Q G) {i : ι} {n : Node σ} (hQ : Q i n) {c : Call σ}
    (hc : c.BeforeLast) (hr : n.Returns c) {rest : List (Turn σ)}
    (hrest : ∀ j, Q j (n.call c) → G j rest) : G i (n.turnsOf c ++ rest) := by
  have h : (∀ j, Q j (n.call c) → G j rest) → G i ([] ++ n.turnsOf c ++ rest) := by
    refine call_of_steps (h := []) (R := fun _ _ => True)
      (Q := fun h m => (∀ j, Q j m → G j rest) → G i (h ++ rest)) (fun hm => hm i hQ)
      c.keeps_true (fun edge q hq hm => hm i (hO.post edge hQ hq))
      (fun m id _ hm => hm i (hO.command m id hQ)) (fun c _ hm => hm i (hO.outside c hQ)) ?_
    rintro now nets rfl hm
    rw [turnsOf_poll, List.nil_append]
    rw [call_poll] at hm
    exact hO.turns (hO.enter hQ hc) (returns_poll.1 hr) hm
  exact h hrest

/-- **The turns that a run takes are as the outlook was**, if its polls are before the last instant
and come to rest. -/
theorem history [Json.Writer] (hO : Outlook P Q G) {i : ι} {n : Node σ} (hQ : Q i n)
    {calls : List (Call σ)} (hc : ∀ c ∈ calls, c.BeforeLast) (hr : n.Completes calls) :
    G i (n.history calls) := by
  induction calls generalizing i n with
  | nil => exact hO.nil hQ
  | cons c calls ih =>
    exact hO.call hQ (hc c List.mem_cons_self) hr.1 fun j hj =>
      ih hj (fun c' hc' => hc c' (List.mem_cons_of_mem c hc')) hr.2

end Outlook

end EdgeDevice.Node
