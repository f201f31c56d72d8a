import EdgeDevice.Command.Resource

set_option autoImplicit false
set_option relaxedAutoImplicit false

/-!
# What becomes of a command

A command is refused and changes nothing, or it is carried out as a whole; the code of the reply
tells which. An actuator that carries out a command is set to the value that was asked for.

## Main definitions

* `EdgeDevice.Model.Treatment` — a command is refused, or it is carried out.
* `EdgeDevice.Reply.payload` — the body of a reply as a payload.
* `EdgeDevice.Actuator.requested?` — the setpoint that a payload asks for.
* `EdgeDevice.Actuator.Heeds` — an actuator does what it was asked for exactly if it says so.
* `EdgeDevice.Model.Commanded` — what commands can make of a model.

## Main results

* `EdgeDevice.Model.treatment_put` — every payload is treated in one of the two ways.
* `EdgeDevice.Model.put_preserves`, `EdgeDevice.Model.obey_preserves` — what no assignment, and no
  new target of a sensor, breaks.
* `EdgeDevice.Model.response_eq` — an answer to a request, part by part.
* `EdgeDevice.Actuator.heeds_put`, `EdgeDevice.Actuator.heeds_answer` — an actuator heeds commands
  and requests.
-/

namespace EdgeDevice

/-! ## What a payload assigns -/

namespace Command

namespace Assignment

/-- Giving a key a value brings in no other key. -/
theorem key_of_mem_set {a : Assignment} {key : String} {n : Int} {e : String × Int}
    (h : e ∈ (a.set key n).value.entries) : e.1 = key ∨ e ∈ a.entries := by
  unfold set at h
  split at h
  · obtain ⟨e', he', rfl⟩ := List.mem_map.1 h
    split
    · exact .inl rfl
    · exact .inr he'
  · split at h
    · rcases List.mem_append.1 h with h | h
      · exact .inr h
      · exact .inl (congrArg Prod.fst (List.mem_singleton.1 h))
    · exact .inr h

end Assignment

/-- What is found has at least one entry, and none but under a known key. -/
theorem entries_of_gather {keys : List String} {items : List Item} {a b : Assignment}
    (h : (gather keys items a).value = .found b) (ha : ∀ e ∈ a.entries, e.1 ∈ keys) :
    b.entries ≠ [] ∧ ∀ e ∈ b.entries, e.1 ∈ keys := by
  induction items generalizing a with
  | nil =>
    by_cases he : a.entries = []
    · simp [gather, Assignment.isEmpty, he] at h
    · simp only [gather, Assignment.isEmpty, List.isEmpty_iff, he, if_false, Logged.value_pure,
        Verdict.found.injEq] at h
      exact h ▸ ⟨he, ha⟩
  | cons item items ih =>
    cases item with
    | malformed => simp [gather] at h
    | pair key value =>
      by_cases hk : key ∈ keys
      · cases hv : value.integer? with
        | none => simp [gather, hk, hv] at h
        | some n =>
          simp only [gather, List.contains_eq_mem, hk, decide_true, if_true, hv,
            Logged.value_bind] at h
          refine ih h fun e he => ?_
          rcases Assignment.key_of_mem_set he with rfl | he
          · exact hk
          · exact ha e he
      · simp only [gather, List.contains_eq_mem, hk, decide_false, Bool.false_eq_true,
          if_false] at h
        exact ih h ha

/-- Where a single key is known, what is found is a value for it. -/
theorem exists_get?_of_read {payload : Bytes} {key : String} {a : Assignment}
    (h : (read payload [key]).value = .found a) : ∃ n, a.get? key = some n := by
  obtain ⟨hne, hkeys⟩ := entries_of_gather h fun e he => absurd he List.not_mem_nil
  obtain ⟨⟨k, n⟩, es, he⟩ := List.exists_cons_of_ne_nil hne
  have hm : (k, n) ∈ a.entries := he ▸ List.mem_cons_self
  obtain rfl : k = key := List.mem_singleton.1 (hkeys _ hm)
  exact ⟨n, Assignment.get?_eq_some_iff.2 hm⟩

end Command

/-! ## The two ways -/

/-- No refusal has the code of success. -/
theorem Reply.Refusal.code_ne_content (r : Reply.Refusal) : r.code ≠ .content := by
  cases r <;> simp only [code] <;> decide

variable [RandomSource] [Json.Writer]

namespace Model

/-- **What becomes of a command**: it is refused and changes nothing, or it is carried out. -/
inductive Treatment (m : Model) (payload : Bytes) : Reply → Model → Prop
  | refused (r : Reply.Refusal) : Treatment m payload (.ofRefusal r) m
  | obeyed {a : Command.Assignment} {m' : Model}
      (hr : (Command.read payload m.keys).value = .found a)
      (ho : (m.obey a).value = (.ok (), m')) : Treatment m payload .success m'

omit [Json.Writer] in
/-- A command that cannot be carried out changes nothing. -/
theorem eq_of_obey_error {m m' : Model} {a : Command.Assignment} {v : InvalidValue}
    (h : (m.obey a).value = (.error v, m')) : m' = m := by
  cases m with
  | actuator act =>
    cases hg : a.get? act.key with
    | none => simp [obey, hg] at h
    | some n =>
      by_cases hn : act.Accepts n
      · simp [obey, hg, Actuator.value_request, hn] at h
      · simp only [obey, hg, Logged.value_bind, Actuator.value_request, hn, if_false,
          Bool.false_eq_true, Logged.value_pure, Prod.mk.injEq] at h
        exact h.2.symm
  | sensor s =>
    cases hf : firstRefused s a with
    | none => simp [obey, hf] at h
    | some e =>
      simp only [obey, hf, Logged.value_pure, Prod.mk.injEq] at h
      exact h.2.symm

/-- **Every payload is treated in one of the two ways.** -/
theorem treatment_put (m : Model) (payload : Bytes) :
    Treatment m payload (m.put payload).value.1 (m.put payload).value.2 := by
  unfold put
  split
  · exact .refused .empty
  · rw [Logged.value_bind]
    cases hr : (Command.read payload m.keys).value with
    | notFound => exact .refused (.missing m.subject)
    | malformed => exact .refused .malformed
    | found a =>
      rcases ho : (m.obey a).value with ⟨e | _, m'⟩
      · obtain rfl := eq_of_obey_error ho
        simp only [Logged.value_bind, ho]
        exact .refused (.invalid m'.subject e)
      · simp only [Logged.value_bind, ho]
        exact .obeyed hr ho

/-- What no assignment breaks no command breaks. -/
theorem put_preserves {P : Model → Prop}
    (hP : ∀ (m : Model) (a : Command.Assignment), P m → P (m.obey a).value.2) {m : Model} (h : P m)
    (payload : Bytes) : P (m.put payload).value.2 := by
  have ht := m.treatment_put payload
  generalize (m.put payload).value.1 = reply, (m.put payload).value.2 = m' at ht
  cases ht with
  | refused => exact h
  | obeyed _ ho =>
    have := hP m ‹Command.Assignment› h
    rwa [ho] at this

omit [Json.Writer] in
/-- What no new target breaks no assignment of targets breaks. -/
theorem obey_preserves {P : Sensor → Prop}
    (hP : ∀ (s : Sensor) (tag : String) (n : Int), P s → P (s.setTarget tag n).2) {s : Sensor}
    (h : P s) (a : Command.Assignment) :
    ∃ s', ((sensor s).obey a).value.2 = sensor s' ∧ P s' := by
  have htargets : ∀ (entries : List (String × Int)) (s : Sensor), P s →
      P (setTargets s entries) := by
    intro entries
    induction entries with
    | nil => exact fun _ h => h
    | cons e entries ih => exact fun s h => ih _ (hP s e.1 e.2 h)
  cases hf : firstRefused s a with
  | none =>
    simp only [obey, hf, Logged.value_bind, Logged.value_pure]
    exact ⟨_, rfl, htargets a.entries s h⟩
  | some e =>
    simp only [obey, hf, Logged.value_pure]
    exact ⟨s, rfl, h⟩

/-- A command that is not answered by 2.05 changes nothing. -/
theorem eq_of_code_ne_content {m : Model} {payload : Bytes}
    (h : (m.put payload).value.1.code ≠ .content) : (m.put payload).value.2 = m := by
  have ht := m.treatment_put payload
  generalize (m.put payload).value.1 = reply, (m.put payload).value.2 = m' at ht h
  cases ht with
  | refused => rfl
  | obeyed => exact absurd rfl h

/-- A command is never answered by 5.00. -/
theorem code_put_ne_internalServerError (m : Model) (payload : Bytes) :
    (m.put payload).value.1.code ≠ .internalServerError := by
  have ht := m.treatment_put payload
  generalize (m.put payload).value.1 = reply, (m.put payload).value.2 = m' at ht
  cases ht with
  | refused r =>
    show r.code ≠ _
    cases r <;> simp only [Reply.Refusal.code] <;> decide
  | obeyed => decide

/-! ## Requests -/

section

variable {m : Model} {request : Coap.Message}

/-- A request to another path finds nothing. -/
theorem reply_elsewhere (h : request.path.string ≠ m.kind.resource) :
    m.reply request = pure (.bare .notFound, m) := if_pos h

/-- A request to the path of the device by another method is not allowed. -/
theorem reply_otherwise (h : request.path.string = m.kind.resource) (hc : request.code ≠ .put) :
    m.reply request = pure (.bare .methodNotAllowed, m) := by
  rw [reply, if_neg (not_not_intro h), if_pos hc]

/-- A request that puts something to the path of the device is a command. -/
theorem reply_put (h : request.path.string = m.kind.resource) (hc : request.code = .put) :
    m.reply request = m.put request.payload.bytes := by
  rw [reply, if_neg (not_not_intro h), if_neg (not_not_intro hc)]

/-- What is not put on the resource of the device changes nothing and is answered by 4.04 or
4.05. -/
theorem reply_of_not_put (h : ¬(request.path.string = m.kind.resource ∧ request.code = .put)) :
    (m.reply request).value.2 = m ∧ ((m.reply request).value.1.code = .notFound ∨
      (m.reply request).value.1.code = .methodNotAllowed) := by
  by_cases hpath : request.path.string = m.kind.resource
  · rw [reply_otherwise hpath fun hcode => h ⟨hpath, hcode⟩]
    exact ⟨rfl, .inr rfl⟩
  · rw [reply_elsewhere hpath]
    exact ⟨rfl, .inl rfl⟩

/-- No request is answered by an error of the server. -/
theorem code_reply_ne_internalServerError (m : Model) (request : Coap.Message) :
    (m.reply request).value.1.code ≠ .internalServerError := by
  by_cases h : request.path.string = m.kind.resource ∧ request.code = .put
  · rw [reply_put h.1 h.2]
    exact m.code_put_ne_internalServerError _
  · rcases (reply_of_not_put h).2 with hcode | hcode <;> rw [hcode] <;> decide

/-- Only a command that is carried out changes anything. -/
theorem put_of_reply_ne (h : (m.reply request).value.2 ≠ m) :
    request.path.string = m.kind.resource ∧ request.code = .put ∧
      (m.reply request).value.1.code = .content := by
  by_cases hput : request.path.string = m.kind.resource ∧ request.code = .put
  · refine ⟨hput.1, hput.2, ?_⟩
    rw [reply_put hput.1 hput.2] at h ⊢
    exact Decidable.byContradiction fun hcode => h (eq_of_code_ne_content hcode)
  · exact absurd (reply_of_not_put hput).1 h

end

end Model

/-- The body of a reply as a payload. -/
def Reply.payload (r : Reply) : Buffer Coap.maxPayload :=
  match r.body with
  | none => .empty
  | some body => ⟨body.bytes, Nat.le_trans body.size_le (by decide)⟩

namespace Model

omit [RandomSource] [Json.Writer] in
/-- **An answer, part by part.** There is room for every body. -/
theorem response_eq (request : Coap.Message) (id : UInt16) (reply : Reply) :
    response request id reply =
      { type := if request.type = .confirmable then .acknowledgement else .nonConfirmable
        code := reply.code
        id := if request.type = .confirmable then request.id else id
        token := request.token
        format := reply.body.map fun _ => Coap.jsonFormat
        payload := reply.payload } := by
  unfold response Reply.payload
  cases hb : reply.body with
  | none => split <;> rfl
  | some body =>
    have hlen : body.bytes.length ≤ Coap.maxPayload := Nat.le_trans body.size_le (by decide)
    simp only [Coap.Message.setPayload, Buffer.ofBytes?_of_le hlen]
    split <;> rfl

/-- The answer carries the reply, and the model is as the reply leaves it. -/
theorem value_answer (m : Model) (request : Coap.Message) (id : UInt16) :
    (m.answer request id).value =
      (response request id (m.reply request).value.1, (m.reply request).value.2) := rfl

/-- A request that is not answered by 2.05 changes nothing; one that is puts a payload that is
obeyed. -/
theorem answer_cases (m : Model) (request : Coap.Message) (id : UInt16) :
    (m.answer request id).value.1.code ≠ .content ∧ (m.answer request id).value.2 = m ∨
      (m.answer request id).value.1.code = (m.put request.payload.bytes).value.1.code ∧
        (m.answer request id).value.2 = (m.put request.payload.bytes).value.2 := by
  rw [value_answer, response_eq]
  by_cases hput : request.path.string = m.kind.resource ∧ request.code = .put
  · rw [reply_put hput.1 hput.2]
    exact .inr ⟨rfl, rfl⟩
  · obtain ⟨hm, hcode⟩ := reply_of_not_put hput
    have hne : (m.reply request).value.1.code ≠ .content := by
      rcases hcode with hcode | hcode <;> rw [hcode] <;> decide
    exact .inl ⟨hne, hm⟩

/-- What commands can make of a model. -/
def Commanded (m m' : Model) : Prop := m' = m ∨ ∃ payload, m' = (m.put payload).value.2

/-- A payload makes of a model what commands can make of it. -/
theorem commanded_put (m : Model) (payload : Bytes) : m.Commanded (m.put payload).value.2 :=
  .inr ⟨payload, rfl⟩

/-- A request makes of a model what commands can make of it. -/
theorem commanded_answer (m : Model) (request : Coap.Message) (id : UInt16) :
    m.Commanded (m.answer request id).value.2 :=
  (m.answer_cases request id).imp And.right fun h => ⟨request.payload.bytes, h.2⟩

end Model

/-! ## Actuators -/

namespace Actuator

/-- The setpoint that a payload asks for, if it asks for one. -/
def requested? (a : Actuator) (payload : Bytes) : Option Int :=
  match (Command.read payload [a.key]).value with
  | .found assignment => assignment.get? a.key
  | _ => none

/-- **An actuator heeds a command**: what it replies by 2.05 it has been set to, a setpoint that it
can take; what it replies otherwise has changed nothing. -/
structure Heeds (a : Actuator) (payload : Bytes) (code : Coap.Code) (a' : Actuator) : Prop where
  obeys : code = .content →
    ∃ n, a.requested? payload = some n ∧ a.Accepts n ∧ a' = { a with setpoint := n }
  refuses : code ≠ .content → a' = a

/-- An actuator heeds the command that a payload spells. -/
theorem heeds_put (a : Actuator) (payload : Bytes) :
    ∃ a', ((Model.actuator a).put payload).value.2 = .actuator a' ∧
      a.Heeds payload ((Model.actuator a).put payload).value.1.code a' := by
  have h := Model.treatment_put (.actuator a) payload
  generalize ((Model.actuator a).put payload).value.1 = reply at h
  generalize ((Model.actuator a).put payload).value.2 = m' at h
  cases h with
  | refused r => exact ⟨a, rfl, fun hc => absurd hc r.code_ne_content, fun _ => rfl⟩
  | @obeyed assignment m' hr ho =>
    obtain ⟨n, hn⟩ := Command.exists_get?_of_read hr
    by_cases ha : a.Accepts n
    · simp only [Model.obey, hn, Logged.value_bind, value_request, ha, if_true,
        Logged.value_pure, Prod.mk.injEq, true_and] at ho
      subst ho
      refine ⟨_, rfl, fun _ => ⟨n, ?_, ha, rfl⟩, fun hc => absurd rfl hc⟩
      rw [requested?, show (Command.read payload [a.key]).value = _ from hr]
      exact hn
    · simp [Model.obey, hn, value_request, ha] at ho

/-- An actuator heeds the command that a request brings. -/
theorem heeds_answer (a : Actuator) (request : Coap.Message) (id : UInt16) :
    ∃ a', ((Model.actuator a).answer request id).value.2 = .actuator a' ∧
      a.Heeds request.payload.bytes ((Model.actuator a).answer request id).value.1.code a' := by
  rcases (Model.actuator a).answer_cases request id with ⟨hc, hm⟩ | ⟨hc, hm⟩
  · exact ⟨a, hm, fun h => absurd h hc, fun _ => rfl⟩
  · rw [hc, hm]
    exact a.heeds_put request.payload.bytes

omit [RandomSource] [Json.Writer] in
/-- What a heeded command leaves behind is acceptable, if what was there before was. -/
theorem Heeds.accepts {a a' : Actuator} {payload : Bytes} {code : Coap.Code}
    (h : a.Heeds payload code a') (ha : a.Accepts a.setpoint) :
    a'.kind = a.kind ∧ a'.Accepts a'.setpoint := by
  by_cases hc : code = .content
  · obtain ⟨n, -, hn, rfl⟩ := h.obeys hc
    exact ⟨rfl, hn⟩
  · rw [h.refuses hc]
    exact ⟨rfl, ha⟩

/-- An actuator stays one under commands, with a setpoint that it can take. -/
theorem accepts_of_commanded {a : Actuator} {m : Model} (h : (Model.actuator a).Commanded m)
    (ha : a.Accepts a.setpoint) : ∃ a', m = .actuator a' ∧ a'.kind = a.kind ∧
      a'.Accepts a'.setpoint := by
  rcases h with rfl | ⟨payload, rfl⟩
  · exact ⟨a, rfl, rfl, ha⟩
  · obtain ⟨a', hm, hh⟩ := a.heeds_put payload
    exact ⟨a', hm, hh.accepts ha⟩

end Actuator

/-- No command makes a sensor of an actuator. -/
theorem Model.isSensor_of_commanded {m m' : Model} (h : m.Commanded m')
    (hm : m.isSensor = false) : m'.isSensor = false := by
  cases m with
  | sensor s => simp [isSensor] at hm
  | actuator a =>
    rcases h with rfl | ⟨payload, rfl⟩
    · exact hm
    · obtain ⟨a', ha', -⟩ := a.heeds_put payload
      rw [ha']
      rfl

end EdgeDevice
