import EdgeDevice.Proofs.Coap.Exchange
import EdgeDevice.Proofs.Net.Timekeeping

set_option autoImplicit false
set_option relaxedAutoImplicit false

/-!
# Waiting round by round

Waiting for an answer goes in rounds: the next read is bounded by the time that is left, and a
datagram is read. A round that finds nothing of use leads to the next one, and every other round is
the last. What is proved of the rounds one by one is proved of waiting, and of a whole exchange.

## Main definitions

* `EdgeDevice.Coap.Client.Decisive` — what is read puts an end to waiting.
* `EdgeDevice.Coap.Client.Awaits` — the rounds of waiting, and what they come to.
* `EdgeDevice.Coap.Exchange.sending` — the request of an exchange and the link right after sending.

## Main results

* `EdgeDevice.Coap.Client.awaits` — waiting goes in rounds.
* `EdgeDevice.Coap.Client.await_map`, `EdgeDevice.Coap.Exchange.of_map` — waiting and a whole
  exchange are the same over a faithful view of the link.
* `EdgeDevice.Coap.Exchange.of_unsent`, `EdgeDevice.Coap.Exchange.of_sent` — an exchange is sending
  and then waiting.
-/

namespace EdgeDevice.Coap

namespace Client

variable {τ σ : Type} [TimedLink τ] [TimedLink σ]
variable {deadline : Duration} {request : Message}

/-! ## Rounds -/

/-- What is read puts an end to waiting: it is not a datagram, or it is one that settles the
exchange. -/
def Decisive (request : Message) : Except NetError Bytes → Prop
  | .error _ => True
  | .ok data => data = [] ∨ Verdict.ofDatagram request data ≠ .stray

/-- **The rounds of waiting** for the answer to a request, and what they come to. -/
inductive Awaits (deadline : Duration) (request : Message) :
    τ → Except NetError Code × τ → Prop
  | late {t : τ} (h : deadline ≤ TimedLink.now t) :
      Awaits deadline request t (.error .timeout, t)
  | unlimited {t t' : τ} {e : NetError} (h : TimedLink.now t < deadline)
      (hl : TimedLink.limit t (deadline - TimedLink.now t) = (some e, t')) :
      Awaits deadline request t (.error e, t')
  | ended {t t₁ t₂ : τ} {found : Except NetError Bytes} (h : TimedLink.now t < deadline)
      (hl : TimedLink.limit t (deadline - TimedLink.now t) = (none, t₁))
      (hr : Link.read t₁ maxDatagram = (found, t₂)) (hd : Decisive request found) :
      Awaits deadline request t (goOn deadline request t₂ found)
  | passed {t t₁ t₂ : τ} {data : Bytes} {r : Except NetError Code × τ}
      (h : TimedLink.now t < deadline)
      (hl : TimedLink.limit t (deadline - TimedLink.now t) = (none, t₁))
      (hr : Link.read t₁ maxDatagram = (.ok data, t₂)) (hne : data ≠ [])
      (hv : Verdict.ofDatagram request data = .stray) (ha : Awaits deadline request t₂ r) :
      Awaits deadline request t r

/-- After a datagram that settles nothing waiting goes on. -/
theorem goOn_of_stray {data : Bytes} (hne : data ≠ [])
    (hv : Verdict.ofDatagram request data = .stray) (t : τ) :
    goOn deadline request t (.ok data) = await deadline request t := by
  cases data with
  | nil => exact absurd rfl hne
  | cons b bs =>
    show heed deadline request t (Verdict.ofDatagram request (b :: bs)) = _
    rw [hv, heed]

/-- Once the deadline has come, waiting ends without another look at the link. -/
theorem await_of_le {t : τ} (h : deadline ≤ TimedLink.now t) :
    await deadline request t = (.error .timeout, t) := by
  rw [await_eq, if_pos (Nat.sub_eq_zero_of_le h)]

/-- Where no limit can be set, waiting ends with that error. -/
theorem await_of_unlimited {t t' : τ} {e : NetError} (h : TimedLink.now t < deadline)
    (hl : TimedLink.limit t (deadline - TimedLink.now t) = (some e, t')) :
    await deadline request t = (.error e, t') := by
  rw [await_eq, if_neg (Nat.sub_ne_zero_of_lt h), hl]

/-- Before the deadline a limit is set, and what is read then decides how waiting goes on. -/
theorem await_of_read {t t₁ t₂ : τ} {found : Except NetError Bytes} (h : TimedLink.now t < deadline)
    (hl : TimedLink.limit t (deadline - TimedLink.now t) = (none, t₁))
    (hr : Link.read t₁ maxDatagram = (found, t₂)) :
    await deadline request t = goOn deadline request t₂ found := by
  rw [await_eq, if_neg (Nat.sub_ne_zero_of_lt h), hl]
  dsimp only
  rw [hr]

/-- **Waiting goes in rounds.** -/
theorem awaits (deadline : Duration) (request : Message) (t : τ) :
    Awaits deadline request t (await deadline request t) := by
  induction hn : Link.backlog t using Nat.strongRecOn generalizing t with
  | ind n ih =>
    rcases Nat.lt_or_ge (TimedLink.now t) deadline with h | h
    · rcases hl : TimedLink.limit t (deadline - TimedLink.now t) with ⟨_ | e, t₁⟩
      · rcases hr : Link.read t₁ maxDatagram with ⟨found, t₂⟩
        rw [await_of_read h hl hr]
        by_cases hd : Decisive request found
        · exact .ended h hl hr hd
        · rcases found with e | data
          · exact absurd trivial hd
          · obtain ⟨hne, hv⟩ := not_or.1 hd
            have hv := Decidable.not_not.1 hv
            have hlt : Link.backlog t₂ < Link.backlog t :=
              Nat.lt_of_lt_of_le (Link.backlog_read_lt hr hne) (TimedLink.backlog_le_of_limit hl)
            rw [goOn_of_stray hne hv]
            exact .passed h hl hr hne hv (ih _ (hn ▸ hlt) t₂ rfl)
      · rw [await_of_unlimited h hl]
        exact .unlimited h hl
    · rw [await_of_le h]
      exact .late h

/-! ## Views of the link -/

variable {f : τ → σ}

/-- Sending over a view of a link is sending over the link, viewed. -/
theorem send_map (hf : Link.WriteFaithful f) (t : τ) (m : Message) :
    send (f t) m = (send t m).map id f := by
  rw [send_eq, send_eq, hf.writeAll]
  rfl

/-- What is done after a read that is decisive does not depend on the view of the link. -/
theorem goOn_map (hf : TimedLink.Faithful f) (t : τ) {found : Except NetError Bytes}
    (hd : Decisive request found) :
    goOn deadline request (f t) found = (goOn deadline request t found).map id f := by
  rcases found with e | _ | ⟨b, bs⟩
  · rfl
  · rfl
  · have hne : Verdict.ofDatagram request (b :: bs) ≠ .stray :=
      hd.resolve_left (List.cons_ne_nil b bs)
    show heed deadline request (f t) (Verdict.ofDatagram request (b :: bs)) =
      (heed deadline request t (Verdict.ofDatagram request (b :: bs))).map id f
    cases hv : Verdict.ofDatagram request (b :: bs) with
    | answer code => rfl
    | acknowledge id code =>
      rw [heed, heed, send_map hf.toWriteFaithful]
      rcases send t (acknowledgement id) with ⟨_ | e, t'⟩ <;> rfl
    | refused => rfl
    | stray => exact absurd hv hne

/-- Waiting respects a faithful view of the link. -/
theorem await_map (hf : TimedLink.Faithful f) (deadline : Duration) (request : Message) (t : τ) :
    await deadline request (f t) = (await deadline request t).map id f := by
  have h := awaits deadline request t
  generalize await deadline request t = r at h
  induction h with
  | @late t h => exact await_of_le (hf.now t ▸ h)
  | @unlimited t t' e h hl =>
    have h' : TimedLink.now (f t) < deadline := hf.now t ▸ h
    rw [await_of_unlimited h' (by rw [hf.limit, hf.now, hl]; rfl)]
    rfl
  | @ended t t₁ t₂ found h hl hr hd =>
    have h' : TimedLink.now (f t) < deadline := hf.now t ▸ h
    rw [await_of_read h' (by rw [hf.limit, hf.now, hl]; rfl) (by rw [hf.read, hr])]
    exact goOn_map hf t₂ hd
  | @passed t t₁ t₂ data r h hl hr hne hv ha ih =>
    have h' : TimedLink.now (f t) < deadline := hf.now t ▸ h
    rw [await_of_read h' (by rw [hf.limit, hf.now, hl]; rfl) (by rw [hf.read, hr])]
    exact (goOn_of_stray hne hv _).trans ih

end Client

/-! ## Sending and waiting -/

namespace Exchange

variable {τ σ : Type} [TimedLink τ] [TimedLink σ] {x : Exchange τ} {t : τ}

/-- What becomes of the request of an exchange, and the link right after sending: the request is
sent, or it does not fit, or it cannot be written. -/
def sending (x : Exchange τ) : Except NetError Message × τ :=
  match Client.request x.client.nextId x.path x.body with
  | .error e => (.error e, x.client.link)
  | .ok m =>
    match Client.send x.client.link m with
    | (some e, t) => (.error e, t)
    | (none, t) => (.ok m, t)

/-- An exchange whose request is not sent. -/
theorem of_unsent {e : NetError} (h : x.sending = (.error e, t)) :
    x.result = .error e ∧ x.after = ⟨t, x.id + 1⟩ := by
  unfold sending at h
  unfold result after Client.post
  rcases hm : Client.request x.client.nextId x.path x.body with e' | m
  · rw [hm] at h
    obtain ⟨⟨⟩, rfl⟩ := Prod.mk.inj h
    exact ⟨rfl, rfl⟩
  · rw [hm] at h
    dsimp only at h ⊢
    rcases hs : Client.send x.client.link m with ⟨_ | e', t'⟩ <;> rw [hs] at h
    · cases h
    · obtain ⟨⟨⟩, rfl⟩ := Prod.mk.inj h
      exact ⟨rfl, rfl⟩

/-- An exchange whose request is sent: after sending, the answer is awaited. -/
theorem of_sent {m : Message} (h : x.sending = (.ok m, t)) :
    m.Asks x.id ∧ x.result = (Client.await ((TimedLink.now t).plus x.patience) m t).1 ∧
      x.after = ⟨(Client.await ((TimedLink.now t).plus x.patience) m t).2, x.id + 1⟩ := by
  unfold sending at h
  unfold result after Client.post
  rcases Client.request_cases x.client.nextId x.path x.body with ⟨m', hm, hasks⟩ | hm
  · rw [hm] at h ⊢
    dsimp only at h ⊢
    rcases hs : Client.send x.client.link m' with ⟨_ | e, t'⟩ <;> rw [hs] at h
    · obtain ⟨⟨⟩, rfl⟩ := Prod.mk.inj h
      exact ⟨hasks, rfl, rfl⟩
    · cases h
  · rw [hm] at h
    cases h

/-- Nothing is done over the link before the answer is awaited but writing. -/
theorem sending_link (x : Exchange τ) :
    x.sending.2 = x.client.link ∨
      ∃ m : Message, x.sending.2 = (Link.writeAll x.client.link [m.bytes]).2 := by
  unfold sending
  rcases Client.request x.client.nextId x.path x.body with e | m
  · exact .inl rfl
  · refine .inr ⟨m, ?_⟩
    dsimp only
    rw [Client.send_eq]
    rcases Link.writeAll x.client.link [m.bytes] with ⟨_ | _, t⟩ <;> rfl

variable {f : τ → σ}

omit [TimedLink τ] [TimedLink σ] in
/-- An exchange over a view of the link. -/
def map (f : τ → σ) (x : Exchange τ) : Exchange σ :=
  ⟨⟨f x.client.link, x.client.nextId⟩, x.path, x.body, x.patience⟩

/-- What becomes of the request is the same over a view on which writing is. -/
theorem sending_map (hf : Link.WriteFaithful f) (x : Exchange τ) :
    (x.map f).sending = (x.sending.1, f x.sending.2) := by
  have hid : (x.map f).client.nextId = x.client.nextId := rfl
  have hlink : (x.map f).client.link = f x.client.link := rfl
  have hpath : (x.map f).path = x.path := rfl
  have hbody : (x.map f).body = x.body := rfl
  unfold sending
  rw [hid, hlink, hpath, hbody]
  rcases Client.request x.client.nextId x.path x.body with e | m
  · rfl
  · dsimp only
    rw [Client.send_map hf]
    rcases Client.send x.client.link m with ⟨_ | e, t⟩ <;> rfl

/-- An exchange is the same over a faithful view of the link. -/
theorem of_map (hf : TimedLink.Faithful f) (x : Exchange τ) :
    (x.map f).result = x.result ∧ (x.map f).after = ⟨f x.after.link, x.after.nextId⟩ := by
  have hmap := sending_map hf.toWriteFaithful x
  rcases hs : x.sending with ⟨e | m, t⟩ <;> rw [hs] at hmap
  · obtain ⟨hresult, hafter⟩ := of_unsent hs
    obtain ⟨hresult', hafter'⟩ := of_unsent hmap
    rw [hresult, hafter, hresult', hafter']
    exact ⟨rfl, rfl⟩
  · obtain ⟨-, hresult, hafter⟩ := of_sent hs
    obtain ⟨-, hresult', hafter'⟩ := of_sent hmap
    rw [hresult, hafter, hresult', hafter', hf.now, Client.await_map hf]
    exact ⟨rfl, rfl⟩

end Exchange

end EdgeDevice.Coap
