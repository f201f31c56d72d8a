import EdgeDevice.Proofs.Coap.RoundTrip
import EdgeDevice.Proofs.Node.Inputs
import EdgeDevice.Simulation.Counterpart

set_option autoImplicit false
set_option relaxedAutoImplicit false

/-!
# Requests are answered

A node answers every request, with the token of the request, so that the one who asked can tell what
the answer belongs to. What asks for an acknowledgement is answered in it; anything else is answered
by a message of its own, and such a message takes its id from a count of the requests. The count
starts over after 65536 requests, so that none of the last 65536 requests has had the same id.

## Main definitions

* `EdgeDevice.Node.Serves` — how a request is answered.
* `EdgeDevice.Node.Served`, `EdgeDevice.Node.served` — the requests that are answered.

## Main results

* `EdgeDevice.Node.serves_answer` — every request is answered as it should be.
* `EdgeDevice.Node.replyId_of_served` — the ids of messages count up.
* `EdgeDevice.Node.serves_run` — requests are answered, and the answers do not get mixed up.
-/

namespace EdgeDevice.Node

section

variable [RandomSource] [Json.Writer] {σ : Type}

/-! ## One request -/

/-- **How a request is answered.** -/
structure Serves (n : Node σ) (request response : Coap.Message) (n' : Node σ) : Prop where
  token : response.token = request.token
  acknowledged : request.type = .confirmable →
    response.type = .acknowledgement ∧ response.id = request.id
  unacknowledged : request.type ≠ .confirmable →
    response.type = .nonConfirmable ∧ response.id = n.replyId
  notFound : request.path.string ≠ n.model.kind.resource →
    response.code = .notFound ∧ response.payload = .empty
  methodNotAllowed : request.path.string = n.model.kind.resource → request.code ≠ .put →
    response.code = .methodNotAllowed ∧ response.payload = .empty
  put : request.path.string = n.model.kind.resource → request.code = .put →
    response.code = (n.model.put request.payload.bytes).value.1.code ∧
      response.payload = (n.model.put request.payload.bytes).value.1.payload ∧
      n'.model = (n.model.put request.payload.bytes).value.2
  ne_internalServerError : response.code ≠ .internalServerError
  changed : n'.model ≠ n.model → request.path.string = n.model.kind.resource ∧
    request.code = .put ∧ response.code = .content
  decoded : ∃ data, response.encode = .ok data ∧ Coap.Message.decode data = .ok response

/-- **Every request is answered as it should be.** -/
theorem serves_answer (n : Node σ) (request : Coap.Message) :
    n.Serves request (n.answer request).value.1 (n.answer request).value.2 := by
  have hvalue : (n.answer request).value =
      (Model.response request n.replyId (n.model.reply request).value.1,
        { n with model := (n.model.reply request).value.2, replyId := n.replyId + 1 }) := rfl
  rw [hvalue, Model.response_eq]
  refine ⟨rfl, fun h => ⟨if_pos h, if_pos h⟩, fun h => ⟨if_neg h, if_neg h⟩, ?_, ?_, ?_,
    n.model.code_reply_ne_internalServerError request, Model.put_of_reply_ne,
    Coap.Message.exists_decode_of_join rfl⟩
  · intro hpath
    rw [Model.reply_elsewhere hpath]
    exact ⟨rfl, rfl⟩
  · intro hpath hcode
    rw [Model.reply_otherwise hpath hcode]
    exact ⟨rfl, rfl⟩
  · intro hpath hcode
    rw [Model.reply_put hpath hcode]
    exact ⟨rfl, rfl, rfl⟩

/-! ## The requests that come -/

/-- A request that comes to a node. -/
structure Served (σ : Type) where
  node : Node σ
  request : Coap.Message

/-- The answer to the request. -/
def Served.response (s : Served σ) : Coap.Message := (s.node.answer s.request).value.1

/-- The request that an input brings, if it brings one. -/
def requestOf (n : Node σ) : Input σ → List (Served σ)
  | .call (.answer request) => [⟨n, request⟩]
  | _ => []

variable [Channel σ]

/-- The requests that come, the first one in front. -/
def served (n : Node σ) : List (Input σ) → List (Served σ)
  | [] => []
  | i :: is => n.requestOf i ++ (n.input i).served is

omit [Json.Writer] [Channel σ] in
/-- To start a node uses no number for a reply. -/
theorem replyId_start (n : Node σ) (now : Instant) : (n.start now).value.replyId = n.replyId := by
  rw [value_start]

omit [Json.Writer] [Channel σ] in
/-- What the user does uses no number for a reply. -/
theorem replyId_post (n : Node σ) (e : NodeEvent) : (n.post e).value.replyId = n.replyId := by
  unfold post
  split <;> rfl

/-- No poll uses up an id. -/
theorem replyId_poll (n : Node σ) (now : Instant) (nets : Nat → Connectivity) :
    (n.call (.poll now nets)).replyId = n.replyId := by
  have hK : Kept fun _ (m : Node σ) => m.replyId = n.replyId :=
    { take := fun hm hi => by cases hi <;> exact hm
      turn := fun {_ t _} hm _ => t.reaction.replyId.trans hm }
  rw [call_poll]
  exact hK.takeTurns (h := []) nets _ rfl

/-- Every request uses up one id, and nothing else does. -/
theorem replyId_input (n : Node σ) (i : Input σ) :
    (n.input i).replyId = n.replyId + UInt16.ofNat (n.requestOf i).length := by
  have hzero : n.replyId = n.replyId + UInt16.ofNat 0 := (UInt16.add_zero _).symm
  cases i with
  | start now => exact (n.replyId_start now).trans hzero
  | post e => exact (n.replyId_post e).trans hzero
  | amend change => exact hzero
  | call c =>
    cases c with
    | post edge => exact (n.replyId_post edge.event).trans hzero
    | poll now nets => exact (n.replyId_poll now nets).trans hzero
    | put payload => exact hzero
    | answer request => rfl
    | outside change => exact hzero

omit [Json.Writer] [Channel σ] in
/-- An input brings one request or none. -/
theorem eq_of_getElem?_requestOf {n : Node σ} {i : Input σ} {k : Nat} {s : Served σ}
    (h : (n.requestOf i)[k]? = some s) : k = 0 ∧ s.node = n := by
  unfold requestOf at h
  split at h
  · obtain ⟨hk, rfl⟩ := List.getElem?_eq_some_iff.1 h
    obtain rfl : k = 0 := Nat.lt_one_iff.1 hk
    exact ⟨rfl, rfl⟩
  · exact absurd h (by simp)

/-- **The ids of messages count up**, and start over after the last one. -/
theorem replyId_of_served {n : Node σ} {is : List (Input σ)} {k : Nat} {s : Served σ}
    (h : (n.served is)[k]? = some s) : s.node.replyId = n.replyId + UInt16.ofNat k := by
  induction is generalizing n k with
  | nil => simp [served] at h
  | cons i is ih =>
    rw [served] at h
    rcases Nat.lt_or_ge k (n.requestOf i).length with hk | hk
    · rw [List.getElem?_append_left hk] at h
      obtain ⟨rfl, hs⟩ := eq_of_getElem?_requestOf h
      rw [hs]
      exact (UInt16.add_zero _).symm
    · rw [List.getElem?_append_right hk] at h
      rw [ih h, replyId_input, UInt16.add_assoc, ← UInt16.ofNat_add, Nat.add_sub_cancel' hk]

/-- None of the last 65536 requests has had the same id. -/
theorem replyId_ne_of_served {n : Node σ} {is : List (Input σ)} {j k : Nat} {s t : Served σ}
    (hjk : j < k) (hk : k < j + 65536) (hs : (n.served is)[j]? = some s)
    (ht : (n.served is)[k]? = some t) : s.node.replyId ≠ t.node.replyId := by
  rw [replyId_of_served hs, replyId_of_served ht]
  intro h
  have hnat := congrArg UInt16.toNat ((UInt16.add_right_inj _).1 h)
  simp only [UInt16.toNat_ofNat'] at hnat
  omega

/-- **Requests are answered, and the answers do not get mixed up.** Whatever a node is like, it
answers every request as it should be answered. Whatever comes to it, the ids of messages count up
from the node id, so that two messages of fewer than 65536 requests in a row never have the same
id. -/
theorem serves_run {identity : Identity} {channel : σ} {settings : NodeSettings} {n : Node σ}
    (hn : create identity channel settings = .ok n) (is : List (Input σ)) :
    let served := n.served is
    (∀ (m : Node σ) (request : Coap.Message),
      m.Serves request (m.answer request).value.1 (m.answer request).value.2) ∧
    (∀ (k : Nat) (s : Served σ), served[k]? = some s →
      s.node.replyId.toNat = (identity.nodeId.toNat + k) % 65536) ∧
    ∀ (j k : Nat) (s t : Served σ), j < k → k < j + 65536 → served[j]? = some s →
      served[k]? = some t → s.response.type = .nonConfirmable →
      t.response.type = .nonConfirmable → s.response.id ≠ t.response.id := by
  intro served
  have hfirst : n.replyId = identity.nodeId.toUInt16 := by
    obtain ⟨-, rfl⟩ := create_eq_ok_iff.1 hn
    rfl
  have hid : ∀ s : Served σ,
      s.response.type = .nonConfirmable → s.response.id = s.node.replyId := by
    intro s hs
    have hserves := s.node.serves_answer s.request
    refine (hserves.unacknowledged fun hc => ?_).2
    have hack := (hserves.acknowledged hc).1
    rw [show (s.node.answer s.request).value.1.type = _ from hs] at hack
    exact absurd hack (by decide)
  refine ⟨serves_answer, fun k s hs => ?_, fun j k s t hjk hk hs ht hst htt => ?_⟩
  · rw [replyId_of_served hs, hfirst, UInt16.toNat_add, UInt64.toNat_toUInt16,
      UInt16.toNat_ofNat']
    omega
  · rw [hid s hst, hid t htt]
    exact replyId_ne_of_served hjk hk hs ht

end

/-- A request that needs no acknowledgement, for what the thermostat is set to. -/
def inquiry : Coap.Message :=
  { type := .nonConfirmable, code := .get, id := 9, path := ⟨"temperature", by decide⟩ }

/-- A request that needs an acknowledgement, to heat to 20 degrees. -/
def order : Coap.Message :=
  { type := .confirmable, code := .put, id := 10, path := ⟨"temperature", by decide⟩
    payload := ⟨Bytes.ofText "\x7b\"t\":20\x7d", by decide⟩ }

/-- A thermostat is asked twice what it is set to, and in between it is told to heat. -/
def inquired : List (Input ScriptedChannel) :=
  [.start .start, .call (.answer inquiry), .call (.answer order), .call (.answer inquiry)]

/-- Neither question is allowed, and the two answers have ids of their own. -/
theorem serves_run_inquired : ∃ n : Node ScriptedChannel, create thermostat {} {} = .ok n ∧
    ∃ s t, (n.served inquired)[0]? = some s ∧ (n.served inquired)[2]? = some t ∧
      s.response.code = .methodNotAllowed ∧ s.response.id ≠ t.response.id ∧
      t.node.replyId.toNat = 0x9a03 := by
  obtain ⟨n, hn⟩ : ∃ n : Node ScriptedChannel, create thermostat {} {} = .ok n := ⟨_, rfl⟩
  obtain ⟨hserves, hids, hne⟩ := serves_run hn inquired
  have htype : ∀ m : Node ScriptedChannel,
      (⟨m, inquiry⟩ : Served _).response.type = .nonConfirmable :=
    fun m => ((hserves m inquiry).unacknowledged (by decide)).1
  refine ⟨n, hn, _, _, rfl, rfl, ?_,
    hne 0 2 _ _ (by decide) (by decide) rfl rfl (htype _) (htype _),
    (hids 2 _ rfl).trans (by decide)⟩
  obtain rfl := Except.ok.inj hn
  exact ((hserves _ inquiry).methodNotAllowed rfl (by decide)).1

end EdgeDevice.Node
