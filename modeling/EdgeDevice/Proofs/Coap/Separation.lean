import Mathlib
import EdgeDevice.Proofs.Coap.Exchange
import EdgeDevice.Simulation.Wire

set_option autoImplicit false
set_option relaxedAutoImplicit false

/-!
# Exchanges in a row

Every call of a client takes the next message id, also a call that fails before anything is sent.
So 65536 calls in a row have ids of their own, wherever the count of the ids starts over, and what
comes late for one of them is nothing to the others.

## Main definitions

* `EdgeDevice.Coap.Posting` — what is asked of a client, and what becomes of its link before.
* `EdgeDevice.Coap.Client.exchanges` — the exchanges of a client that is asked one thing after
  another.

## Main results

* `EdgeDevice.Coap.Client.id_of_exchanges` — the message ids of exchanges in a row.
* `EdgeDevice.Coap.Client.index_eq_of_id_eq` — no two of 65536 exchanges have the same id.
* `EdgeDevice.Coap.Client.separate_exchanges` — exchanges do not get mixed up.
-/

namespace EdgeDevice.Coap

/-- A call of a client, and what becomes of the link between the call before and this one. -/
structure Posting (τ : Type) where
  meanwhile : τ → τ := id
  path : String
  body : Bytes
  patience : Duration

variable {τ : Type} [TimedLink τ]

/-- Every exchange uses up one message id. -/
theorem Exchange.nextId_after (x : Exchange τ) : x.after.nextId = x.id + 1 := by
  show (x.client.post x.path x.body x.patience).2.nextId = x.client.nextId + 1
  unfold Client.post
  dsimp only
  split
  · rfl
  · split <;> rfl

namespace Client

omit [TimedLink τ] in
/-- The exchange of a client that is asked something. -/
def exchange (c : Client τ) (p : Posting τ) : Exchange τ :=
  ⟨{ c with link := p.meanwhile c.link }, p.path, p.body, p.patience⟩

/-- The exchanges of a client that is asked one thing after another. -/
def exchanges (c : Client τ) : List (Posting τ) → List (Exchange τ)
  | [] => []
  | p :: ps => c.exchange p :: exchanges (c.exchange p).after ps

/-- The message ids count up, and start over after the last one. -/
theorem id_of_exchanges {c : Client τ} {ps : List (Posting τ)} {i : Nat} {x : Exchange τ}
    (h : (c.exchanges ps)[i]? = some x) : x.id = c.nextId + UInt16.ofNat i := by
  induction ps generalizing c i with
  | nil => simp [exchanges] at h
  | cons p ps ih =>
    cases i with
    | zero =>
      obtain rfl : c.exchange p = x := Option.some.inj h
      exact (UInt16.add_zero _).symm
    | succ i =>
      rw [ih h, Exchange.nextId_after]
      show c.nextId + 1 + UInt16.ofNat i = c.nextId + UInt16.ofNat (i + 1)
      rw [UInt16.ofNat_add, UInt16.add_assoc, UInt16.add_comm 1]
      rfl

/-- There is one exchange for each posting. -/
theorem length_exchanges (c : Client τ) (ps : List (Posting τ)) :
    (c.exchanges ps).length = ps.length := by
  induction ps generalizing c with
  | nil => rfl
  | cons p ps ih => exact congrArg (· + 1) (ih _)

/-- No two of 65536 exchanges in a row have the same message id. -/
theorem index_eq_of_id_eq {c : Client τ} {ps : List (Posting τ)} {i j : Nat} {x y : Exchange τ}
    (h : ps.length ≤ 65536) (hx : (c.exchanges ps)[i]? = some x)
    (hy : (c.exchanges ps)[j]? = some y) (hid : x.id = y.id) : i = j := by
  have hlt : ∀ {k : Nat} {z : Exchange τ}, (c.exchanges ps)[k]? = some z → k < 65536 := by
    intro k z hz
    obtain ⟨hk, -⟩ := List.getElem?_eq_some_iff.1 hz
    rw [length_exchanges] at hk
    exact Nat.lt_of_lt_of_le hk h
  rw [id_of_exchanges hx, id_of_exchanges hy, UInt16.add_right_inj] at hid
  have hnat := congrArg UInt16.toNat hid
  rw [UInt16.toNat_ofNat_of_lt' (hlt hx), UInt16.toNat_ofNat_of_lt' (hlt hy)] at hnat
  exact hnat

/-- **Exchanges do not get mixed up.** A call ends with a code only because of the datagram that was
read last in the call, which answers its request, and it ends with a refusal only because such a
datagram refuses its request or because the link refuses to bound a read. What is about another of
65536 calls in a row is passed over. -/
theorem separate_exchanges (c : Client τ) (ps : List (Posting τ)) (h : ps.length ≤ 65536) {i : Nat}
    {x : Exchange τ} (hx : (c.exchanges ps)[i]? = some x) :
    (∀ code, x.result = .ok code →
      ∃ m, x.Hears m (Exchange.thanks m) ∧ m.Answers x.id ∧ m.code = code) ∧
    (x.result = .error .connectionRefused →
      (∃ m, x.Hears m [] ∧ m.Resets x.id) ∨
        ∃ front d, x.acts = front ++ [.limited d (some .connectionRefused)]) ∧
    ∀ j y, (c.exchanges ps)[j]? = some y → j ≠ i → ∀ m sequel, x.Hears m sequel →
      m.Concerns y.id → x.PassesOver sequel := by
  refine ⟨fun code => Exchange.hears_of_ok, Exchange.hears_of_refused, ?_⟩
  intro j y hy hij m sequel hm hc
  -- a message about this call would be about both calls, which have different ids
  have hother : ¬m.Concerns x.id := fun hc' =>
    hij (index_eq_of_id_eq h hy hx (hc.eq hc'))
  cases Exchange.fate_of_hears hm with
  | answer ha hs hr => exact absurd (.inl ha) hother
  | unthanked ha ht hr => exact absurd (.inl ha) hother
  | refusal hn hs hr => exact absurd (.inr (.inl hn)) hother
  | passed ha hn hp => exact hp

/-- A client is asked two things. Nothing comes in time for the first; its answer comes late, in
front of the answer to the second. -/
def twoPostings : List (Posting Wire) :=
  [{ path := "/keepalive", body := [], patience := 10000 },
    { meanwhile := fun w => { w with inbound := [.chunk [0x60, 0x44, 0, 1],
        .chunk [0x60, 0x45, 0, 2]] }, path := "/keepalive", body := [], patience := 10000 }]

/-- The first of the two exchanges. -/
def earlyCall : Exchange Wire := ⟨⟨{}, 1⟩, "/keepalive", [], 10000⟩

/-- The second of the two exchanges. -/
def lateCall : Exchange Wire :=
  ⟨{ earlyCall.after with link := { earlyCall.after.link with
      inbound := [.chunk [0x60, 0x44, 0, 1], .chunk [0x60, 0x45, 0, 2]] } },
    "/keepalive", [], 10000⟩

/-- The answer that comes late is passed over. -/
theorem late_answer_passed_over :
    exchanges ⟨{}, 1⟩ twoPostings = [earlyCall, lateCall] ∧
      earlyCall.result = .error .timeout ∧ lateCall.result = .ok .content ∧
      ∃ m sequel,
        lateCall.Hears m sequel ∧ m.Answers earlyCall.id ∧ lateCall.PassesOver sequel := by
  have hrow : exchanges ⟨{}, 1⟩ twoPostings = [earlyCall, lateCall] := rfl
  have hlate : (exchanges ⟨{}, 1⟩ twoPostings)[1]? = some lateCall := by rw [hrow]; rfl
  have hearly : (exchanges ⟨{}, 1⟩ twoPostings)[0]? = some earlyCall := by rw [hrow]; rfl
  let m : Message := { type := .acknowledgement, code := .changed, id := 1 }
  have hm : lateCall.Hears m [.limited 10000 none, .heard [0x60, 0x45, 0, 2]] :=
    ⟨lateCall.acts.take 3, [0x60, 0x44, 0, 1], by cbv, by cbv⟩
  have ha : m.Answers earlyCall.id := ⟨rfl, by decide⟩
  obtain ⟨-, -, hother⟩ := separate_exchanges ⟨{}, 1⟩ twoPostings (by decide) hlate
  exact ⟨hrow, by cbv, by cbv, m, _, hm, ha,
    hother 0 earlyCall hearly (by decide) m _ hm (.inl ha)⟩

/-- A call over a link that refuses to bound a read. -/
def unboundedCall : Exchange Wire :=
  ⟨⟨{ limitFailure := some .connectionRefused }, 1⟩, "/keepalive", [], 10000⟩

/-- A link that refuses to bound a read puts an end to a call and gives the reason, so that a call
can end with a refusal although nothing was read. -/
theorem refused_without_reset :
    unboundedCall.result = .error .connectionRefused ∧
      ∀ m sequel, ¬unboundedCall.Hears m sequel := by
  refine ⟨by cbv, ?_⟩
  rintro m sequel ⟨front, data, hacts, -⟩
  have hnone : (unboundedCall.acts.any LinkAct.isRead) = false := by cbv
  rw [hacts, List.any_eq_false] at hnone
  exact hnone (.heard data) (by simp) rfl

end Client

end EdgeDevice.Coap
