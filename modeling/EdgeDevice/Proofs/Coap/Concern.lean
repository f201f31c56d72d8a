import EdgeDevice.Proofs.Coap.RoundTrip
import EdgeDevice.Coap.Client

set_option autoImplicit false
set_option relaxedAutoImplicit false

/-!
# What a message is about

A message is about the request with some id if it acknowledges the request, or refuses it, or is a
message of the server's own that carries the token of the request; the token is the id once more. So
a message is about one id at most, and a client that waits for an answer settles for a datagram only
if it is about the request.

## Main definitions

* `EdgeDevice.Coap.Message.Answers`, `EdgeDevice.Coap.Message.Resets`,
  `EdgeDevice.Coap.Message.Acknowledges` — how a message is about the request with an id.
* `EdgeDevice.Coap.Message.Concerns` — it is about the request in one of these ways.
* `EdgeDevice.Coap.Message.Asks` — a message is the request with an id.
* `EdgeDevice.Coap.Verdict.Means` — what a verdict on a message means.

## Main results

* `EdgeDevice.Coap.Message.Concerns.eq` — a message is about one id at most.
* `EdgeDevice.Coap.Client.request_cases` — a request carries its id, in the token as well.
* `EdgeDevice.Coap.Verdict.means_ofDatagram` — the verdict on a datagram means what it should.
-/

namespace EdgeDevice.Coap

/-! ## What a message is about -/

namespace Message

/-- A message answers the request with an id: it acknowledges the request and says more than that,
or it comes on its own and carries the token of the request. -/
def Answers (m : Message) (id : UInt16) : Prop :=
  match m.type with
  | .acknowledgement => m.id = id ∧ m.code ≠ .empty
  | .reset => False
  | .confirmable => m.token.bytes = Bytes.ofWord id.toNat
  | .nonConfirmable => m.token.bytes = Bytes.ofWord id.toNat

/-- A message refuses the request with an id. -/
def Resets (m : Message) (id : UInt16) : Prop := m.type = .reset ∧ m.id = id

/-- A message acknowledges the request with an id, with an answer or without. -/
def Acknowledges (m : Message) (id : UInt16) : Prop := m.type = .acknowledgement ∧ m.id = id

/-- A message is about the request with an id. -/
def Concerns (m : Message) (id : UInt16) : Prop :=
  m.Answers id ∨ m.Resets id ∨ m.Acknowledges id

/-- A refusal is not an answer. -/
theorem Resets.not_answers {m : Message} {id id' : UInt16} (h : m.Resets id) : ¬m.Answers id' := by
  unfold Answers
  rw [h.1]
  exact not_false

/-- The token of a request tells its id. -/
theorem eq_of_ofWord_eq {id id' : UInt16}
    (h : Bytes.ofWord id.toNat = Bytes.ofWord id'.toNat) : id = id' := by
  have hword : ∀ n : UInt16, Bytes.word (UInt8.ofNat (n.toNat / 256)) (UInt8.ofNat n.toNat) =
      n.toNat := fun n => Bytes.word_ofNat n.toNat_lt
  obtain ⟨hhigh, hlow⟩ := List.cons.inj h
  apply UInt16.toNat_inj.1
  rw [← hword id, ← hword id', hhigh, (List.cons.inj hlow).1]

/-- **A message is about one id at most.** -/
theorem Concerns.eq {m : Message} {id id' : UInt16} (h : m.Concerns id) (h' : m.Concerns id') :
    id = id' := by
  have hid : ∀ {n}, m.type = .acknowledgement ∨ m.type = .reset → m.Concerns n → m.id = n := by
    intro n ht hn
    rcases hn with hn | hn | hn
    · unfold Answers at hn
      rcases ht with ht | ht <;> rw [ht] at hn
      · exact hn.1
      · exact hn.elim
    · exact hn.2
    · exact hn.2
  have htoken : ∀ {n}, m.type = .confirmable ∨ m.type = .nonConfirmable → m.Concerns n →
      m.token.bytes = Bytes.ofWord n.toNat := by
    intro n ht hn
    rcases hn with hn | hn | hn
    · unfold Answers at hn
      rcases ht with ht | ht <;> rwa [ht] at hn
    · rcases ht with ht | ht <;> exact absurd (ht.symm.trans hn.1) (by decide)
    · rcases ht with ht | ht <;> exact absurd (ht.symm.trans hn.1) (by decide)
  cases ht : m.type with
  | confirmable => exact eq_of_ofWord_eq ((htoken (.inl ht) h).symm.trans (htoken (.inl ht) h'))
  | nonConfirmable =>
    exact eq_of_ofWord_eq ((htoken (.inr ht) h).symm.trans (htoken (.inr ht) h'))
  | acknowledgement => exact (hid (.inl ht) h).symm.trans (hid (.inl ht) h')
  | reset => exact (hid (.inr ht) h).symm.trans (hid (.inr ht) h')

end Message

/-! ## The request -/

namespace Message

/-- A message is the request with an id, as far as an answer refers to it. -/
structure Asks (m : Message) (id : UInt16) : Prop where
  id_eq : m.id = id
  token_eq : m.token.bytes = Bytes.ofWord id.toNat

/-- A message has the token of a request exactly if its token spells the id of the request. -/
theorem Asks.token_eq_iff {request : Message} {id : UInt16} (h : request.Asks id) (m : Message) :
    m.token = request.token ↔ m.token.bytes = Bytes.ofWord id.toNat := by
  rw [← h.token_eq]
  exact ⟨congrArg Buffer.bytes, Buffer.ext⟩

/-- Setting the path either succeeds or fails for want of room; it leaves id and token alone. -/
theorem frame_of_setPath {m m' : Message} {path : String} {r : Except NetError Unit}
    (h : m.setPath path = (r, m')) :
    (r = .ok () ∨ r = .error .bufferOverflow) ∧ m'.id = m.id ∧ m'.token = m.token := by
  unfold setPath at h
  obtain ⟨rfl, rfl⟩ := Prod.mk.inj h
  dsimp only
  split
  · exact ⟨.inl rfl, rfl, rfl⟩
  · exact ⟨.inr rfl, rfl, rfl⟩

/-- Setting the payload either succeeds or fails for want of room; it leaves id and token alone. -/
theorem frame_of_setPayload {m m' : Message} {payload : Bytes} {r : Except NetError Unit}
    (h : m.setPayload payload = (r, m')) :
    (r = .ok () ∨ r = .error .bufferOverflow) ∧ m'.id = m.id ∧ m'.token = m.token := by
  unfold setPayload at h
  split at h <;> obtain ⟨rfl, rfl⟩ := Prod.mk.inj h
  · exact ⟨.inl rfl, rfl, rfl⟩
  · exact ⟨.inr rfl, rfl, rfl⟩

end Message

/-- A request carries its id, in the token as well, or it does not fit. -/
theorem Client.request_cases (id : UInt16) (path : String) (body : Bytes) :
    (∃ m, Client.request id path body = .ok m ∧ m.Asks id) ∨
      Client.request id path body = .error .bufferOverflow := by
  have hl : (Bytes.ofWord id.toNat).length ≤ maxToken := by
    rw [Bytes.length_ofWord]
    decide
  unfold Client.request
  simp only [Message.setToken, Buffer.ofBytes?_of_le hl]
  split <;> rename_i hp <;> obtain ⟨hr, hid, htoken⟩ := Message.frame_of_setPath hp
  · rcases hr with h | h <;> cases h
    exact .inr rfl
  · split <;> rename_i hb <;> obtain ⟨hr, hid', htoken'⟩ := Message.frame_of_setPayload hb
    · rcases hr with h | h <;> cases h
      exact .inr rfl
    · refine .inl ⟨_, rfl, hid'.trans hid, ?_⟩
      rw [htoken', htoken]

/-! ## Verdicts -/

namespace Verdict

/-- What a verdict on a message means. -/
inductive Means (id : UInt16) (m : Message) : Verdict → Prop
  | answer (h : m.Answers id) (ht : m.type ≠ .confirmable) : Means id m (.answer m.code)
  | acknowledge (h : m.Answers id) (ht : m.type = .confirmable) :
      Means id m (.acknowledge m.id m.code)
  | refused (h : m.Resets id) : Means id m .refused
  | stray (ha : ¬m.Answers id) (hr : ¬m.Resets id) : Means id m .stray

/-- The verdict on a message says what the message is to the request. -/
theorem means_ofMessage {request : Message} {id : UInt16} (hq : request.Asks id)
    (m : Message) : Means id m (ofMessage request m) := by
  unfold ofMessage
  rw [hq.id_eq]
  cases ht : m.type with
  | acknowledgement =>
    have ha : m.Answers id ↔ m.id = id ∧ m.code ≠ .empty := by simp [Message.Answers, ht]
    dsimp only
    split
    · rename_i h
      exact .answer (ha.2 h) (by simp [ht])
    · rename_i h
      exact .stray (fun h' => h (ha.1 h')) (by simp [Message.Resets, ht])
  | reset =>
    dsimp only
    split
    · rename_i h
      exact .refused ⟨ht, h⟩
    · rename_i h
      exact .stray (by simp [Message.Answers, ht]) fun h' => h h'.2
  | confirmable =>
    have ha : m.Answers id ↔ m.token = request.token := by
      simp [Message.Answers, ht, hq.token_eq_iff]
    dsimp only
    split
    · rename_i h
      exact .acknowledge (ha.2 h) ht
    · rename_i h
      exact .stray (fun h' => h (ha.1 h')) (by simp [Message.Resets, ht])
  | nonConfirmable =>
    have ha : m.Answers id ↔ m.token = request.token := by
      simp [Message.Answers, ht, hq.token_eq_iff]
    dsimp only
    split
    · rename_i h
      exact .answer (ha.2 h) (by simp [ht])
    · rename_i h
      exact .stray (fun h' => h (ha.1 h')) (by simp [Message.Resets, ht])

/-- The verdict on a datagram says what the message in it is to the request. -/
theorem means_ofDatagram {request m : Message} {id : UInt16} {data : Bytes}
    (hq : request.Asks id) (hd : Message.decode data = .ok m) :
    Means id m (ofDatagram request data) := by
  unfold ofDatagram
  rw [hd]
  exact means_ofMessage hq m

/-- A datagram that is not passed over holds a message. -/
theorem exists_of_ofDatagram {request : Message} {data : Bytes}
    (h : ofDatagram request data ≠ .stray) : ∃ m, Message.decode data = .ok m := by
  unfold ofDatagram at h
  rcases hd : Message.decode data with e | m
  · rw [hd] at h
    exact absurd rfl h
  · exact ⟨m, rfl⟩

end Verdict

end EdgeDevice.Coap
