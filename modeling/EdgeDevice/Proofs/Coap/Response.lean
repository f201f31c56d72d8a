import Mathlib
import EdgeDevice.Proofs.Coap.Exchange
import EdgeDevice.Simulation.Wire

set_option autoImplicit false
set_option relaxedAutoImplicit false

/-!
# What is reported as an answer

A client takes a message that carries its token as the answer, whatever the code of the message is.
So a request that the server sends with that token is acknowledged and reported as the answer; apart
from such messages only response codes are reported.

## Main definitions

* `EdgeDevice.Coap.Code.IsResponse` — a code that is neither empty nor a method.

## Main results

* `EdgeDevice.Coap.Code.isResponse_iff_cls_ne_zero` — the class tells the responses.
* `EdgeDevice.Coap.Exchange.ok_isResponse_iff` — when nothing but responses are reported.
* `EdgeDevice.Coap.Exchange.request_taken_as_answer` — a method is reported as the answer.
-/

namespace EdgeDevice.Coap

/-- A code that is neither empty nor a method. -/
def Code.IsResponse (c : Code) : Prop := c ≠ .empty ∧ c.isRequest = false

instance (c : Code) : Decidable c.IsResponse :=
  inferInstanceAs (Decidable (c ≠ .empty ∧ c.isRequest = false))

/-- The responses have a class of their own, other than 0. -/
theorem Code.isResponse_iff_cls_ne_zero (c : Code) : c.IsResponse ↔ c.cls ≠ 0 := by
  have hempty : c = .empty ↔ c.raw = 0 := by
    cases c
    simp [Code.empty, Code.of]
  unfold Code.IsResponse Code.isRequest
  constructor
  · rintro ⟨hne, hr⟩ hcls
    rw [hcls] at hr
    exact hne (hempty.2 (by simpa using hr))
  · intro hcls
    refine ⟨fun he => hcls ?_, by simp [hcls]⟩
    rw [Code.cls, hempty.1 he]
    rfl

namespace Exchange

variable {τ : Type} [TimedLink τ]

/-- **When nothing but responses are reported.** It is so as long as each message that answers the
request has the code of a response; of one that has not, the client stays silent only where it
cannot acknowledge the message. -/
theorem ok_isResponse_iff (x : Exchange τ) :
    (∀ code, x.result = .ok code → code.IsResponse) ↔
      ∀ m sequel, x.Hears m sequel → m.Answers x.id → ¬m.code.IsResponse →
        m.type = .confirmable ∧ x.result = .error .writeError := by
  constructor
  · intro h m sequel hm ha hn
    cases fate_of_hears hm with
    | answer _ hs hr => exact absurd (h _ hr) hn
    | unthanked _ ht hr => exact ⟨ht, hr⟩
    | refusal hreset hs hr => exact absurd ha hreset.not_answers
    | passed hna hnr hp => exact absurd ha hna
  · intro h code hok
    obtain ⟨m, hm, ha, rfl⟩ := hears_of_ok hok
    by_contra hn
    cases (h m _ hm ha hn).2.symm.trans hok

/-- A call to which the server sends a request of its own, with the token of the call. -/
def commandedCall : Exchange Wire :=
  ⟨⟨{ inbound := [.chunk [0x42, 3, 0, 7, 0, 1]] }, 1⟩, "/keepalive", [], 10000⟩

/-- A request of the server is acknowledged and reported as the answer. -/
theorem request_taken_as_answer :
    commandedCall.result = .ok .put ∧ Code.put.isRequest = true ∧
      LinkAct.wrote [0x60, 0, 0, 7] true ∈ commandedCall.acts := by
  refine ⟨by cbv, by decide, ?_⟩
  have hlast : commandedCall.acts.drop 4 = [.wrote [0x60, 0, 0, 7] true, .flushed true] := by cbv
  exact List.mem_of_mem_drop (hlast ▸ List.mem_cons_self)

end Exchange

end EdgeDevice.Coap
