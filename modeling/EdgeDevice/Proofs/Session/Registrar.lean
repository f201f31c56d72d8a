import EdgeDevice.Proofs.Json.Size
import EdgeDevice.Session.Registrar

set_option autoImplicit false
set_option relaxedAutoImplicit false

/-!
# Requests to a registrar

A registrar settles everything at once: a request is answered, or not, before the call is over, and
the answer alone decides what comes of it. There is room for the body of every request, so that none
is given up before it is sent.

A requester can be put into a wrapper that writes down its answers.

## Main definitions

* `EdgeDevice.Settles` — a channel settles an opening at once.
* `EdgeDevice.Registrar.outcomeOf` — what comes of a request, by its answer.
* `EdgeDevice.Noted` — a requester with a record of its answers.
* `EdgeDevice.Confirmed` — the last answer was a success.

## Main results

* `EdgeDevice.Registrar.settles` — a registrar settles an opening at once.
* `EdgeDevice.Registrar.isSome_registration?`, `EdgeDevice.Registrar.isSome_keepalive?` — there is
  room for every body.
* `EdgeDevice.Registrar.exists_answer_of_exchange` — what comes of a request is decided by an answer
  that is written down.
-/

namespace EdgeDevice

/-- A channel settles an opening at once, whatever it is opened with. -/
def Settles {σ : Type} [Channel σ] (c : σ) : Prop :=
  ∀ ctx, (Channel.openSession c ctx).value.1 ≠ .pending

/-! ## The parts of a body -/

namespace Identity

/-- An id is plain. -/
theorem plain_hexId (d : Identity) : Json.Plain d.hexId := Json.plain_hexadecimal d.nodeId.toNat

/-- An id has sixteen digits at most. -/
theorem size_hexId_le (d : Identity) : d.hexId.utf8ByteSize ≤ 16 :=
  size_hexadecimal_le (by decide) d.nodeId.toNat_lt

/-- The tag of a kind is plain. -/
theorem plain_tag (d : Identity) : Json.Plain d.tag := by
  unfold tag
  cases d.kind <;> decide

/-- The tag of a kind has three letters at most. -/
theorem size_tag_le (d : Identity) : d.tag.utf8ByteSize ≤ 3 := by
  unfold tag
  cases d.kind <;> decide

/-- The node id takes at most twenty-two bytes. -/
theorem size_member_id (d : Identity) :
    (Json.member ("i", .text d.hexId)).utf8ByteSize ≤ 22 := by
  have hid := d.size_hexId_le
  have hkey : "i".utf8ByteSize = 1 := rfl
  rw [Json.size_member_text]
  omega

/-- The tag of the kind takes at most nine bytes. -/
theorem size_member_tag (d : Identity) : (Json.member ("t", .text d.tag)).utf8ByteSize ≤ 9 := by
  have htag := d.size_tag_le
  have hkey : "t".utf8ByteSize = 1 := rfl
  rw [Json.size_member_text]
  omega

end Identity

/-- A period takes five digits at most. -/
theorem size_member_period (key : String) {p : Nat} (hp : p < 100000) :
    (Json.member (key, .number p)).utf8ByteSize ≤ key.utf8ByteSize + 8 := by
  have hperiod : (toString (p : Int)).utf8ByteSize ≤ 5 := size_decimal_le (n := p) (by decide) hp
  rw [Json.size_member_number]
  omega

namespace Registrar

/-! ## There is room for every body -/

variable {ctx : SessionContext}

/-- In what a registrar is told nothing has to be escaped, provided that the address is plain. -/
theorem plain_registration (ha : Json.Plain ctx.address.string) :
    ∀ m ∈ registration ctx, Json.PlainMember m := by
  have hkeys : Json.Plain "i" ∧ Json.Plain "ip" ∧ Json.Plain "t" ∧ Json.Plain "k" := by decide
  obtain ⟨hi, hip, ht, hk⟩ := hkeys
  simp only [registration, List.forall_mem_cons, Json.PlainMember, Json.Scalar.IsPlain]
  exact ⟨⟨hi, ctx.identity.plain_hexId⟩, ⟨hip, ha⟩, ⟨ht, ctx.identity.plain_tag⟩, ⟨hk, trivial⟩,
    List.forall_mem_nil _⟩

/-- The registration fits a body if the period has at most five digits. -/
theorem size_registration_le (hp : ctx.period < 100000) :
    (Json.compact (registration ctx)).utf8ByteSize ≤ maxBody := by
  have hid := ctx.identity.size_member_id
  have htag := ctx.identity.size_member_tag
  have hperiod : (Json.member ("k", .number ctx.period)).utf8ByteSize ≤ 9 :=
    size_member_period "k" hp
  have haddress : (Json.member ("ip", .text ctx.address.string)).utf8ByteSize ≤ 47 := by
    have hsize : ctx.address.string.utf8ByteSize ≤ 40 := ctx.address.size_le
    have hkey : "ip".utf8ByteSize = 2 := rfl
    rw [Json.size_member_text]
    omega
  rw [registration, Json.size_compact_cons, Json.size_compact_cons, Json.size_compact_cons,
    Json.size_compact_singleton, maxBody]
  omega

/-- In a sign of life nothing has to be escaped. -/
theorem plain_keepalive (ctx : SessionContext) : ∀ m ∈ keepalive ctx, Json.PlainMember m := by
  have hi : Json.Plain "i" := by decide
  exact List.forall_mem_singleton.2 ⟨hi, ctx.identity.plain_hexId⟩

/-- A sign of life always fits a body. -/
theorem size_keepalive_le (ctx : SessionContext) :
    (Json.compact (keepalive ctx)).utf8ByteSize ≤ maxBody := by
  have hid := ctx.identity.size_member_id
  rw [keepalive, Json.size_compact_singleton, maxBody]
  omega

section

variable [Json.Writer] [Json.Writer.Lawful]

/-- There is room for what a session is opened with. -/
theorem isSome_registration? (ha : Json.Plain ctx.address.string) (hp : ctx.period < 100000) :
    (registration? ctx).isSome = true := by
  obtain ⟨text, htext, -⟩ := Json.exists_write (plain_registration ha) (size_registration_le hp)
  exact Option.isSome_of_eq_some htext

/-- There is room for what a session is kept alive with. -/
theorem isSome_keepalive? (ctx : SessionContext) : (keepalive? ctx).isSome = true := by
  obtain ⟨text, htext, -⟩ := Json.exists_write (plain_keepalive ctx) (size_keepalive_le ctx)
  exact Option.isSome_of_eq_some htext

end

/-! ## What comes of a request -/

/-- What comes of a request, by its answer. -/
def outcomeOf : Except NetError Coap.Code → Outcome
  | .ok code => if code.isSuccess then .accepted else .rejected
  | .error .timeout => .timedOut
  | .error _ => .rejected

/-- Exactly an answer with a code of success is an acceptance. -/
theorem outcomeOf_eq_accepted_iff {answer : Except NetError Coap.Code} :
    outcomeOf answer = .accepted ↔ ∃ code, answer = .ok code ∧ code.isSuccess = true := by
  rcases answer with e | code
  · cases e <;> simp [outcomeOf]
  · simp [outcomeOf]

/-- What a request comes to depends on its answer alone; the purpose is only written to the log. -/
theorem value_judge (p : Purpose) (answer : Except NetError Coap.Code) :
    (judge p answer).value = outcomeOf answer := by
  rcases answer with e | code
  · cases e <;> rfl
  · cases hs : code.isSuccess <;> simp [judge, outcomeOf, hs]

section

variable {ρ : Type} [Requester ρ]

/-- A request that has a body is posted, and comes to what its answer says. -/
theorem value_exchange (r : Registrar ρ) (p : Purpose) (path : Text maxResourcePath)
    (body : Text maxBody) :
    (r.exchange p path (some body)).value =
      (outcomeOf (Requester.post r.requester path.string body.bytes r.settings.patience).1,
        { r with
          requester :=
            (Requester.post r.requester path.string body.bytes r.settings.patience).2 }) := by
  simp only [exchange, Logged.value_bind, Logged.value_pure, value_judge]

/-- To open a session is to register, and that is settled at once. -/
theorem value_openSession [Json.Writer] (r : Registrar ρ) (ctx : SessionContext) :
    (Channel.openSession r ctx).value =
      (.resolved (r.exchange .registration r.settings.registrationPath (registration? ctx)).value.1,
        (r.exchange .registration r.settings.registrationPath (registration? ctx)).value.2) := by
  simp only [Channel.openSession, Logged.value_bind, Logged.value_pure]

/-- A registrar settles an opening at once. -/
theorem settles [Json.Writer] (r : Registrar ρ) : Settles r := by
  intro ctx
  simp [value_openSession]

end

end Registrar

/-! ## Answers, written down -/

/-- A requester with a record of its answers, the first one in front. -/
structure Noted (ρ : Type) where
  requester : ρ
  answers : List (Except NetError Coap.Code) := []

instance {ρ : Type} [Requester ρ] : Requester (Noted ρ) where
  post q path body patience :=
    let (answer, requester) := Requester.post q.requester path body patience
    (answer, ⟨requester, q.answers ++ [answer]⟩)

/-- The last answer was a success. -/
def Confirmed (answers : List (Except NetError Coap.Code)) : Prop :=
  ∃ code : Coap.Code, answers.getLast? = some (.ok code) ∧ code.isSuccess = true

/-- The last answer is a success exactly if it is an acceptance. -/
theorem confirmed_concat_iff {answers : List (Except NetError Coap.Code)}
    {answer : Except NetError Coap.Code} :
    Confirmed (answers ++ [answer]) ↔ Registrar.outcomeOf answer = .accepted := by
  simp [Confirmed, Registrar.outcomeOf_eq_accepted_iff]

namespace Registrar

variable {ρ : Type}

/-- The answers that a registrar has had. -/
def answers (r : Registrar (Noted ρ)) : List (Except NetError Coap.Code) := r.requester.answers

/-- What happens to the requester happens inside the wrapper. -/
def onRequester (change : ρ → ρ) (r : Registrar (Noted ρ)) : Registrar (Noted ρ) :=
  { r with requester := { r.requester with requester := change r.requester.requester } }

variable [Requester ρ]

/-- **What comes of a request is decided by an answer**, which is written down. -/
theorem exists_answer_of_exchange {r r' : Registrar (Noted ρ)} {p : Purpose}
    {path : Text maxResourcePath} {body : Option (Text maxBody)} {o : Outcome}
    (hb : body.isSome = true) (h : (r.exchange p path body).value = (o, r')) :
    ∃ answer, r'.answers = r.answers ++ [answer] ∧ o = outcomeOf answer := by
  obtain ⟨body, rfl⟩ := Option.isSome_iff_exists.1 hb
  rw [value_exchange, Prod.mk.injEq] at h
  obtain ⟨rfl, rfl⟩ := h
  exact ⟨_, rfl, rfl⟩

end Registrar

end EdgeDevice
