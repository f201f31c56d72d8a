import EdgeDevice.Proofs.Mqtt.Conduct
import EdgeDevice.Proofs.Mqtt.Frame

set_option autoImplicit false
set_option relaxedAutoImplicit false

/-!
# From one client to another

A message that a client publishes is a packet, and a client that reads the packet finds the message.
The writer bounds the body of a packet as a whole; the reader bounds topic and payload besides. What
is within the bounds of the reader is within that of the writer, so that everything a client could
read can be published. What is too long for a packet is refused before anything is written.

The length of a body is written with as few groups of seven bits as it needs, one or two.

## Main definitions

* `EdgeDevice.LinkAct.fails`, `EdgeDevice.LinkAct.written` — what becomes of bytes that are passed
  on.
* `EdgeDevice.Mqtt.Packet.bodySize` — how long the body of a message is.
* `EdgeDevice.Mqtt.Frame.carrying` — the packet that carries a message.
* `EdgeDevice.Mqtt.Client.Relays` — what becomes of a message that a client publishes.

## Main results

* `EdgeDevice.Mqtt.LengthField.lengthBytes` — a length is read as it was written.
* `EdgeDevice.Mqtt.Inbound.read_publishBody` — a message is read as it was written.
* `EdgeDevice.Mqtt.Client.relays_publish` — publishing is undone by polling.
-/

namespace EdgeDevice

/-! ## What is written -/

namespace LinkAct

/-- Whether bytes that are passed on are not taken, or not sent on their way. -/
def fails : LinkAct → Bool
  | wrote _ taken => !taken
  | flushed done => !done
  | _ => false

/-- The bytes that are passed on and taken. -/
def bytes : LinkAct → Bytes
  | wrote bs true => bs
  | _ => []

/-- All the bytes that are passed on and taken. -/
def written (acts : List LinkAct) : Bytes := acts.flatMap bytes

end LinkAct

namespace Link.Sending

variable {pieces : List Bytes} {done : Bool} {acts : List LinkAct}

/-- Where nothing fails all of it works. -/
theorem done_of_forall (h : Sending pieces done acts) (hacts : ∀ a ∈ acts, a.fails = false) :
    done = true := by
  induction h with
  | flushed done => simpa [LinkAct.fails] using hacts
  | refused => simp [LinkAct.fails] at hacts
  | taken h ih => exact ih fun a ha => hacts a (List.mem_cons_of_mem _ ha)

/-- Where all is taken, what was written are the pieces one behind the other. -/
theorem written_eq (h : Sending pieces true acts) : LinkAct.written acts = pieces.flatten := by
  rw [h.eq_of_done, LinkAct.written, List.flatMap_append, List.flatMap_map]
  simp [LinkAct.bytes, List.flatMap_def]

end Link.Sending

namespace Mqtt

/-! ## The length of a body -/

/-- **A length is read as it was written.** -/
theorem LengthField.lengthBytes (n : Nat) : LengthField (Packet.lengthBytes n) n := by
  induction n using Nat.strongRecOn with
  | ind n ih =>
    rw [Packet.lengthBytes]
    split
    · rename_i hlt
      have hb : (UInt8.ofNat n).toNat = n := by
        rw [UInt8.toNat_ofNat']
        omega
      have h := LengthField.last (hb.symm ▸ hlt)
      rwa [hb] at h
    · rename_i hge
      have hb : (UInt8.ofNat (n % 128 + 128)).toNat = n % 128 + 128 := by
        rw [UInt8.toNat_ofNat']
        omega
      have h := LengthField.more (b := UInt8.ofNat (n % 128 + 128)) (by omega)
        (ih (n / 128) (by omega))
      rw [hb] at h
      rwa [show (n % 128 + 128) % 128 + 128 * (n / 128) = n by omega] at h

/-- Two groups of seven bits are enough for the length of a body. -/
theorem Packet.length_lengthBytes_le {n : Nat} (h : n ≤ maxBody) :
    (lengthBytes n).length ≤ 2 := by
  have hn : n / 128 < 128 := by
    unfold maxBody at h
    omega
  rw [lengthBytes]
  split
  · exact Nat.le_succ 1
  · rw [lengthBytes, if_pos hn]
    exact Nat.le_refl 2

/-! ## The body of a message -/

namespace Packet

/-- How long the body of a message is: the topic with its length in front, a number if the message
is to arrive for certain, and the payload. -/
def bodySize (topic : String) (payload : Bytes) (qos : Qos) : Nat :=
  2 + topic.utf8ByteSize + (if qos = .atMostOnce then 0 else 2) + payload.length

/-- The body of a message is as long as its parts are together. -/
theorem length_publishBody (topic : String) (payload : Bytes) (qos : Qos) :
    (publishBody topic payload qos).length = bodySize topic payload qos := by
  simp only [publishBody, prefixed, bodySize, List.length_append, Bytes.length_ofWord,
    Bytes.length_ofText]
  split <;> rfl

/-- What a client could read is not too long to be published. -/
theorem bodySize_le {topic : String} {payload : Bytes} (ht : topic.utf8ByteSize ≤ maxTopic)
    (hp : payload.length ≤ maxPayload) (qos : Qos) : bodySize topic payload qos ≤ maxBody := by
  unfold maxTopic at ht
  unfold maxPayload at hp
  unfold bodySize maxBody
  split <;> omega

end Packet

namespace Inbound

/-- A message is found behind its topic, and behind its number if it has one. -/
theorem readPublish_eq (p : Publication) (numbered : Bool) {number : Bytes}
    (hn : number.length = if numbered then 2 else 0) :
    readPublish numbered (Packet.prefixed p.topic.bytes ++ number ++ p.payload.bytes) =
      .ok (.published p) := by
  have hsize : p.topic.bytes.length ≤ maxTopic := p.topic.size_le
  have hword := Bytes.word_ofNat (n := p.topic.bytes.length) (Nat.lt_of_le_of_lt hsize (by decide))
  have hrest : (p.topic.bytes ++ number ++ p.payload.bytes).length =
      p.topic.bytes.length + (if numbered then 2 else 0) + p.payload.bytes.length := by
    rw [List.length_append, List.length_append, hn]
  have htake : (p.topic.bytes ++ number ++ p.payload.bytes).take p.topic.bytes.length =
      p.topic.bytes := by
    rw [List.append_assoc, List.take_left]
  have hdrop : (p.topic.bytes ++ number ++ p.payload.bytes).drop
      (p.topic.bytes.length + if numbered then 2 else 0) = p.payload.bytes := by
    rw [← hn, ← List.length_append, List.drop_left]
  have htext : Bytes.text? p.topic.bytes = some p.topic.string := Bytes.text?_ofText _
  show readPublish numbered (UInt8.ofNat (p.topic.bytes.length / 256) ::
    UInt8.ofNat p.topic.bytes.length :: (p.topic.bytes ++ number ++ p.payload.bytes)) = _
  rw [readPublish, hword, if_neg (by omega), htake, htext]
  dsimp only
  rw [if_neg (by omega), hdrop, Text.ofString?_of_le p.topic.size_le,
    Buffer.ofBytes?_of_le p.payload.length_le]

/-- **A message is read as it was written.** -/
theorem read_publishBody (p : Publication) (qos : Qos) :
    read (UInt8.ofNat (0x30 + 2 * qos.level))
      (Packet.publishBody p.topic.string p.payload.bytes qos) = .ok (.published p) := by
  cases qos with
  | atMostOnce =>
    have hnone : ([] : Bytes).length = 0 := rfl
    exact readPublish_eq p false hnone
  | atLeastOnce => exact readPublish_eq p true (Bytes.length_ofWord 1)
  | exactlyOnce => exact readPublish_eq p true (Bytes.length_ofWord 1)

end Inbound

/-! ## The packet of a message -/

namespace Frame

/-- The packet that carries a message. -/
def carrying (p : Publication) (qos : Qos) : Frame where
  first := UInt8.ofNat (0x30 + 2 * qos.level)
  field := Packet.lengthBytes (Packet.publishBody p.topic.string p.payload.bytes qos).length
  body := Packet.publishBody p.topic.string p.payload.bytes qos
  spells := .lengthBytes _
  length_le := by
    rw [Packet.length_publishBody]
    exact Nat.le_trans
      (Packet.length_lengthBytes_le (Packet.bodySize_le p.topic.size_le p.payload.length_le qos))
      (by decide)

variable (p : Publication) (qos : Qos)

/-- The body of a packet that carries a message is no longer than a client can read. -/
theorem length_body_carrying_le : (carrying p qos).body.length ≤ maxBody := by
  rw [carrying, Packet.length_publishBody]
  exact Packet.bodySize_le p.topic.size_le p.payload.length_le qos

/-- A packet that carries a message is read as the message. -/
theorem read_carrying : Inbound.read (carrying p qos).first (carrying p qos).body =
    .ok (.published p) := Inbound.read_publishBody p qos

/-- What is written of a message that a client could read is the packet that carries it. -/
theorem publish?_eq_carrying : ∃ pieces,
    Packet.publish? p.topic.string p.payload.bytes qos = some pieces ∧
      pieces.flatten = (carrying p qos).bytes := by
  refine ⟨_, if_pos (length_body_carrying_le p qos), ?_⟩
  simp only [List.flatten_cons, List.flatten_nil, List.append_nil, List.cons_append]
  rfl

end Frame

/-! ## Publishing and polling -/

namespace Client

variable {σ τ : Type} [DialLink σ] [DialLink τ] {c : Client σ} {topic : String} {payload : Bytes}
  {qos : Qos}

/-- What is too long is refused. -/
theorem publish_of_lt (hc : c.isConnected = true)
    (h : maxBody < Packet.bodySize topic payload qos) :
    c.publish topic payload qos = (.error .bufferOverflow, c) := by
  rw [← Packet.length_publishBody] at h
  rw [publish, if_pos hc, Packet.publish?, if_neg (Nat.not_le.2 h)]

/-- What is too long is not written. -/
theorem acts_publish_of_lt (hc : c.isConnected = true)
    (h : maxBody < Packet.bodySize topic payload qos) :
    c.acts (.publish topic payload qos) = [] := by
  have htapped : (c.tapped []).isConnected = true := hc
  rw [acts, perform, publish_of_lt htapped h]
  rfl

/-- What can be published is sent. -/
theorem publish_of_publish? {pieces : List Bytes} (hc : c.isConnected = true)
    (hp : Packet.publish? topic payload qos = some pieces) :
    c.publish topic payload qos = c.send pieces := by
  rw [publish, if_pos hc, hp]

/-- Sending never fails for want of room. -/
theorem send_ne_overflow (c : Client σ) (pieces : List Bytes) :
    (c.send pieces).1 ≠ .error .bufferOverflow := by
  intro he
  unfold send at he
  split at he
  · split at he <;> cases he
  · cases he

/-- A message is refused as too long only if it is. -/
theorem publish_overflow_iff (hc : c.isConnected = true) :
    (c.publish topic payload qos).1 = .error .bufferOverflow ↔
      maxBody < Packet.bodySize topic payload qos := by
  refine ⟨fun he => ?_, fun h => by rw [publish_of_lt hc h]⟩
  rcases Nat.lt_or_ge maxBody (Packet.bodySize topic payload qos) with h | h
  · exact h
  · rw [← Packet.length_publishBody] at h
    rw [publish_of_publish? hc (if_pos h)] at he
    exact absurd he (send_ne_overflow c _)

/-- What can be published is written, and publishing succeeds if all of it is taken. -/
theorem sending_publish {pieces : List Bytes} (hc : c.isConnected = true) (ho : c.isOpen = true)
    (hp : Packet.publish? topic payload qos = some pieces) :
    ∃ done, (c.publish topic payload qos).1 = (if done then .ok () else .error .writeError) ∧
      Link.Sending pieces done (c.acts (.publish topic payload qos)) := by
  obtain ⟨more, hs, hm⟩ := Tapped.agrees_writeAll c.link pieces []
  have hconnected : (c.tapped []).isConnected = true := hc
  have hopen : (c.tapped []).isOpen = true := ho
  have hlink : (c.tapped []).link = ⟨c.link, []⟩ := rfl
  have hacts : c.acts (.publish topic payload qos) = more := by
    rw [acts, perform, publish_of_publish? hconnected hp, send, if_pos hopen, hlink, hm]
    cases (Link.writeAll c.link pieces).1 <;> rfl
  refine ⟨_, ?_, hacts ▸ hs⟩
  rw [publish_of_publish? hc hp, send, if_pos ho]
  rcases Link.writeAll c.link pieces with ⟨_ | _, t⟩ <;> rfl

/-- A client with an open connection finds the message whose packet comes in. -/
theorem poll_of_holds {ending : Ending} {c : Client τ} {rest : Bytes} (ho : c.isOpen = true)
    (p : Publication) (qos : Qos)
    (h : Link.Holds ending c.link ((Frame.carrying p qos).bytes ++ rest)) :
    ∃ t, c.poll = (.ok (some (.published p)), { c with link := t }) ∧ Link.Holds ending t rest := by
  obtain ⟨t, hread, hrest⟩ := (Frame.carrying p qos).read_of_holds h
  rw [Frame.receipt, if_pos (Frame.length_body_carrying_le p qos)] at hread
  refine ⟨t, ?_, hrest (Frame.length_body_carrying_le p qos)⟩
  rw [poll_of_isOpen ho hread, receive, handle, Frame.read_carrying]

/-- **What becomes of a message that a client publishes.** It is refused as too long exactly if the
body of its packet is, and then nothing is written. If a client could read it and all that is
written is taken, publishing succeeds, and any client with an open connection that is handed what
was written finds the message with one poll; nothing else about that client changes, and what comes
behind stays as it is. -/
structure Relays (c : Client σ) (topic : String) (payload : Bytes) (qos : Qos) : Prop where
  overflow_iff : (c.publish topic payload qos).1 = .error .bufferOverflow ↔
    maxBody < Packet.bodySize topic payload qos
  silent : maxBody < Packet.bodySize topic payload qos →
    c.acts (.publish topic payload qos) = []
  relayed : c.isOpen = true → topic.utf8ByteSize ≤ maxTopic → payload.length ≤ maxPayload →
    (∀ a ∈ c.acts (.publish topic payload qos), a.fails = false) →
    (c.publish topic payload qos).1 = .ok () ∧
      ∃ p : Publication, p.topic.string = topic ∧ p.payload.bytes = payload ∧
        ∀ {τ : Type} [DialLink τ] (d : Client τ) (ending : Ending) (rest : Bytes),
          d.isOpen = true →
          Link.Holds ending d.link
            (LinkAct.written (c.acts (.publish topic payload qos)) ++ rest) →
          ∃ t, d.poll = (.ok (some (.published p)), { d with link := t }) ∧
            Link.Holds ending t rest

/-- **Publishing is undone by polling.** -/
theorem relays_publish (hc : c.isConnected = true) (topic : String) (payload : Bytes) (qos : Qos) :
    c.Relays topic payload qos where
  overflow_iff := publish_overflow_iff hc
  silent := acts_publish_of_lt hc
  relayed := by
    intro ho htopic hpayload hacts
    let p : Publication := ⟨⟨topic, htopic⟩, ⟨payload, hpayload⟩⟩
    obtain ⟨pieces, hp, hbytes⟩ := Frame.publish?_eq_carrying p qos
    obtain ⟨done, hr, hs⟩ := sending_publish hc ho hp
    obtain rfl := hs.done_of_forall hacts
    refine ⟨hr, p, rfl, rfl, fun d ending rest hd hholds => ?_⟩
    rw [hs.written_eq, hbytes] at hholds
    exact poll_of_holds hd p qos hholds

/-- A message whose body is just too long for one byte of length goes from one client to another, in
two pieces, with the answer to a sign of life behind it. -/
theorem relays_publish_reading :
    let options : Options := ⟨⟨"scale", by decide⟩, 60, true⟩
    let c : Client Wire := ⟨{}, ⟨"fd00::1", by decide⟩, options, true, .connected⟩
    let reading : Bytes := List.replicate 113 0x30
    let bytes := LinkAct.written (c.acts (.publish "scale/grams" reading .atLeastOnce))
    let d : Client Wire :=
      { c with link := { inbound := [.chunk (bytes.take 2), .chunk (bytes.drop 2 ++ [0xd0, 0])] } }
    c.isConnected = true ∧ c.Relays "scale/grams" reading .atLeastOnce ∧
      bytes.take 5 = [0x32, 0x80, 1, 0, 11] ∧
      (c.publish "scale/grams" reading .atLeastOnce).1 = .ok () ∧
      ∃ p : Publication, p.topic.string = "scale/grams" ∧ p.payload.bytes = reading ∧
        ∃ t, d.poll = (.ok (some (.published p)), { d with link := t }) ∧
          Link.Holds .quiet t [0xd0, 0] := by
  intro options c reading bytes d
  have hc : c.isConnected = true := rfl
  have h : c.Relays "scale/grams" reading .atLeastOnce := relays_publish hc _ _ _
  have hbytes : bytes.take 5 = [0x32, 0x80, 1, 0, 11] := by decide +kernel
  have hnone :
      (c.acts (.publish "scale/grams" reading .atLeastOnce)).any LinkAct.fails = false := by
    decide +kernel
  have hall : ∀ a ∈ c.acts (.publish "scale/grams" reading .atLeastOnce), a.fails = false := by
    intro a ha
    rw [List.any_eq_false] at hnone
    exact Bool.eq_false_iff.2 (hnone a ha)
  obtain ⟨hok, p, htopic, hpayload, hpoll⟩ :=
    h.relayed rfl (by decide) (by rw [List.length_replicate]; decide) hall
  have hholds : Link.Holds .quiet d.link (bytes ++ [0xd0, 0]) := by
    have hchunks : ∀ bs ∈ [bytes.take 2, bytes.drop 2 ++ [0xd0, 0]], bs ≠ [] := by
      have hfirst : bytes.take 2 = [0x32, 0x80] := by
        rw [show bytes.take 2 = (bytes.take 5).take 2 by rw [List.take_take]; rfl, hbytes]
        rfl
      simp [hfirst]
    have := Wire.holds_flatten (w := d.link) hchunks rfl
    simpa [← List.append_assoc] using this
  exact ⟨hc, h, hbytes, hok, p, htopic, hpayload, hpoll d .quiet [0xd0, 0] rfl hholds⟩

end Client

end Mqtt

end EdgeDevice
