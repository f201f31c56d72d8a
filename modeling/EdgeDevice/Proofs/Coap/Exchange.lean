import EdgeDevice.Proofs.Coap.Concern
import EdgeDevice.Proofs.Net.Tap

set_option autoImplicit false
set_option relaxedAutoImplicit false

/-!
# What happens in an exchange

What a client does over its link in an exchange is read off the record of the tapped link. It writes
the request, and then bounds the next read and reads, over and over, until a datagram settles the
exchange, nothing comes in time, or the link fails. Only after a datagram that it takes as the
answer does it write once more, to acknowledge it.

## Main definitions

* `EdgeDevice.Coap.Exchange` — a call of a client, with its result and what it does over the link.
* `EdgeDevice.Coap.Exchange.Settling`, `EdgeDevice.Coap.Exchange.Waiting`,
  `EdgeDevice.Coap.Exchange.Account` — what is done over the link in an exchange.
* `EdgeDevice.Coap.Exchange.Hears` — a message is read in an exchange, and what is done then.
* `EdgeDevice.Coap.Exchange.Fate` — what can come of a message that is read.

## Main results

* `EdgeDevice.Coap.Exchange.tapped_post` — an exchange is the same over a tapped link.
* `EdgeDevice.Coap.Exchange.fate_of_hears` — what comes of a message that is read.
* `EdgeDevice.Coap.Exchange.hears_of_ok`, `EdgeDevice.Coap.Exchange.hears_of_refused` — only the
  message read last is the answer, or refuses the request.
-/

namespace EdgeDevice.Coap

/-! ## What is done over the link -/

/-- A call of a client that posts something. -/
structure Exchange (τ : Type) where
  /-- The client in front of the call. -/
  client : Client τ
  path : String
  body : Bytes
  patience : Duration

namespace Exchange

/-- What is done about a datagram that settles an exchange, and the result. -/
inductive Settling (request : Message) (data : Bytes) :
    List LinkAct → Except NetError Code → Prop
  | gone (h : data = []) : Settling request data [] (.error .connectionClosed)
  | answered {code : Code} (h : Verdict.ofDatagram request data = .answer code) :
      Settling request data [] (.ok code)
  | acknowledged {id : UInt16} {code : Code} {done : Bool} {acts : List LinkAct}
      (h : Verdict.ofDatagram request data = .acknowledge id code)
      (hs : Link.Sending [(Client.acknowledgement id).bytes] done acts) :
      Settling request data acts (if done then .ok code else .error .writeError)
  | refused (h : Verdict.ofDatagram request data = .refused) :
      Settling request data [] (.error .connectionRefused)

/-- What is done while the answer to a request is awaited, and the result. The next read is bounded
and a datagram is read, until one settles the exchange, the time is up, or the link fails. -/
inductive Waiting (request : Message) : List LinkAct → Except NetError Code → Prop
  | late : Waiting request [] (.error .timeout)
  | unlimited (d : Duration) (e : NetError) :
      Waiting request [.limited d (some e)] (.error e)
  | unheard (d : Duration) (e : NetError) :
      Waiting request [.limited d none, .unheard e]
        (.error (if e = .timeout then .timeout else .readError))
  | settled {d : Duration} {data : Bytes} {acts : List LinkAct} {r : Except NetError Code}
      (h : Settling request data acts r) :
      Waiting request (.limited d none :: .heard data :: acts) r
  | passed {d : Duration} {data : Bytes} {acts : List LinkAct} {r : Except NetError Code}
      (h : Verdict.ofDatagram request data = .stray) (hw : Waiting request acts r) :
      Waiting request (.limited d none :: .heard data :: acts) r

/-- What is done in an exchange, and the result. Where the request does not fit nothing is done, and
where it cannot be written nothing is awaited. -/
inductive Account (id : UInt16) : List LinkAct → Except NetError Code → Prop
  | unfit : Account id [] (.error .bufferOverflow)
  | unsent {m : Message} {acts : List LinkAct} (hs : Link.Sending [m.bytes] false acts) :
      Account id acts (.error .writeError)
  | sent {m : Message} {sending acts : List LinkAct} {r : Except NetError Code} (hm : m.Asks id)
      (hs : Link.Sending [m.bytes] true sending) (hw : Waiting m acts r) :
      Account id (sending ++ acts) r

end Exchange

namespace Client

variable {τ : Type} [TimedLink τ]

/-- What waiting for an answer does after a datagram, by what that means. -/
def heed (deadline : Duration) (request : Message) (t : τ) : Verdict → Except NetError Code × τ
  | .answer code => (.ok code, t)
  | .acknowledge id code =>
    match send t (acknowledgement id) with
    | (some e, t) => (.error e, t)
    | (none, t) => (.ok code, t)
  | .refused => (.error .connectionRefused, t)
  | .stray => await deadline request t

/-- What waiting for an answer does after a read, by what was found. -/
def goOn (deadline : Duration) (request : Message) (t : τ) :
    Except NetError Bytes → Except NetError Code × τ
  | .error e => (.error (if e = .timeout then .timeout else .readError), t)
  | .ok [] => (.error .connectionClosed, t)
  | .ok (b :: bs) => heed deadline request t (Verdict.ofDatagram request (b :: bs))

/-- What waiting for an answer does. -/
theorem await_eq (deadline : Duration) (request : Message) (t : τ) :
    await deadline request t =
      if deadline - TimedLink.now t = 0 then (.error .timeout, t)
      else
        match TimedLink.limit t (deadline - TimedLink.now t) with
        | (some e, t) => (.error e, t)
        | (none, t) => goOn deadline request (Link.read t maxDatagram).2
            (Link.read t maxDatagram).1 := by
  rw [await]
  dsimp only
  split
  · rfl
  · split
    · rename_i h
      rw [h]
    · rename_i h
      rw [h]
      dsimp only
      split <;> rename_i h <;> rw [h]
      · rfl
      · rename_i hne
        simp only [goOn, if_neg hne]
      · rfl
      · rfl

/-- A message is sent by writing its bytes, and the only failure is that they cannot be written. -/
theorem send_eq (t : τ) (m : Message) :
    send t m = (if (Link.writeAll t [m.bytes]).1 then none else some .writeError,
      (Link.writeAll t [m.bytes]).2) := by
  rw [send, Message.encode_eq]
  dsimp only
  rcases Link.writeAll t [m.bytes] with ⟨_ | _, t⟩ <;> rfl

/-- Sending is the same over a tapped link. -/
theorem agrees_send (t : τ) (m : Message) (acts : List LinkAct) :
    ∃ done, (send t m).1 = (if done then none else some .writeError) ∧
      Tapped.Agrees (Link.Sending [m.bytes] done) acts (send t m)
        (send (⟨t, acts⟩ : Tapped τ) m) := by
  obtain ⟨more, hs, hm⟩ := Tapped.agrees_writeAll t [m.bytes] acts
  refine ⟨(Link.writeAll t [m.bytes]).1, by rw [send_eq], more, hs, ?_⟩
  rw [send_eq, send_eq, hm]

/-- What follows a read is the same over a tapped link, if waiting further is. -/
theorem agrees_goOn (deadline : Duration) (request : Message) (t : τ)
    (found : Except NetError Bytes) (acts : List LinkAct)
    (ih : ∀ data, found = .ok data → data ≠ [] → ∀ acts : List LinkAct,
      Tapped.Agrees (Exchange.Waiting request · (await deadline request t).1) acts
        (await deadline request t) (await deadline request (⟨t, acts⟩ : Tapped τ))) :
    Tapped.Agrees (fun more => ∀ d, Exchange.Waiting request
        (.limited d none :: .ofRead found :: more) (goOn deadline request t found).1) acts
      (goOn deadline request t found) (goOn deadline request (⟨t, acts⟩ : Tapped τ) found) := by
  rcases found with e | _ | ⟨b, bs⟩
  · exact .nothing fun d => .unheard d e
  · exact .nothing fun d => .settled (.gone rfl)
  · show Tapped.Agrees (fun more => ∀ d, Exchange.Waiting request
        (.limited d none :: .heard (b :: bs) :: more)
        (heed deadline request t (Verdict.ofDatagram request (b :: bs))).1) acts
      (heed deadline request t (Verdict.ofDatagram request (b :: bs)))
      (heed deadline request ⟨t, acts⟩ (Verdict.ofDatagram request (b :: bs)))
    cases hv : Verdict.ofDatagram request (b :: bs) with
    | answer code => exact .nothing fun d => .settled (.answered hv)
    | acknowledge id code =>
      obtain ⟨done, hdone, more, hs, hm⟩ := agrees_send t (acknowledgement id) acts
      have hw := Exchange.Settling.acknowledged hv hs
      refine ⟨more, fun d => .settled ?_, ?_⟩
      · rw [heed]
        rcases hsend : send t (acknowledgement id) with ⟨failure, t'⟩
        cases done <;> obtain rfl : failure = _ := hsend ▸ hdone <;> exact hw
      · rw [heed, heed, hm]
        rcases send t (acknowledgement id) with ⟨_ | e, t'⟩ <;> rfl
    | refused => exact .nothing fun d => .settled (.refused hv)
    | stray =>
      obtain ⟨more, hw, hm⟩ := ih _ rfl (List.cons_ne_nil _ _) acts
      exact ⟨more, fun d => .passed hv hw, hm⟩

/-- Waiting for an answer is the same over a tapped link. -/
theorem agrees_await (deadline : Duration) (request : Message) (t : τ) (acts : List LinkAct) :
    Tapped.Agrees (Exchange.Waiting request · (await deadline request t).1) acts
      (await deadline request t) (await deadline request (⟨t, acts⟩ : Tapped τ)) := by
  have hnow : TimedLink.now (⟨t, acts⟩ : Tapped τ) = TimedLink.now t := rfl
  induction hn : Link.backlog t using Nat.strongRecOn generalizing t acts with
  | ind n ih =>
    rw [await_eq deadline request t, await_eq deadline request (⟨t, acts⟩ : Tapped τ), hnow]
    by_cases hd : deadline - TimedLink.now t = 0
    · rw [if_pos hd, if_pos hd]
      exact .nothing .late
    · rw [if_neg hd, if_neg hd]
      rcases hl : TimedLink.limit t (deadline - TimedLink.now t) with ⟨_ | e, t₁⟩
      · rw [Tapped.limit_of_limit acts hl]
        rcases hr : Link.read t₁ maxDatagram with ⟨found, t₂⟩
        dsimp only
        rw [Tapped.read_of_read _ hr, hr]
        -- only a datagram that uses up some of what can come in is passed over
        obtain ⟨more, hw, hm⟩ := agrees_goOn deadline request t₂ found
          (acts ++ [.limited (deadline - TimedLink.now t) none] ++ [.ofRead found])
          fun data hdata hne acts => by
            have hlt : Link.backlog t₂ < Link.backlog t :=
              Nat.lt_of_lt_of_le (Link.backlog_read_lt (hdata ▸ hr) hne)
                (TimedLink.backlog_le_of_limit hl)
            exact ih _ (hn ▸ hlt) t₂ acts rfl rfl
        refine ⟨_, hw (deadline - TimedLink.now t), ?_⟩
        rw [hm]
        simp
      · rw [Tapped.limit_of_limit acts hl]
        exact ⟨_, .unlimited (deadline - TimedLink.now t) e, rfl⟩

omit [TimedLink τ] in
/-- A client whose link is tapped. -/
def tapped (c : Client τ) : Client (Tapped τ) := ⟨⟨c.link, []⟩, c.nextId⟩

/-- Posting is the same over a tapped link. -/
theorem agrees_post (c : Client τ) (path : String) (body : Bytes) (patience : Duration) :
    ∃ acts, Exchange.Account c.nextId acts (c.post path body patience).1 ∧
      c.tapped.post path body patience = ((c.post path body patience).1,
        ⟨⟨(c.post path body patience).2.link, acts⟩, (c.post path body patience).2.nextId⟩) := by
  have hid : c.tapped.nextId = c.nextId := rfl
  have hlink : c.tapped.link = ⟨c.link, []⟩ := rfl
  unfold post
  rw [hid]
  rcases request_cases c.nextId path body with ⟨m, hm, ha⟩ | he
  · rw [hm]
    dsimp only
    obtain ⟨done, hdone, sending, hs, hsend⟩ := agrees_send c.link m []
    rw [hlink, hsend]
    rcases hp : send c.link m with ⟨failure, t⟩
    rw [hp] at hdone
    cases done with
    | false =>
      obtain rfl : failure = some .writeError := hdone
      exact ⟨_, .unsent hs, rfl⟩
    | true =>
      obtain rfl : failure = none := hdone
      obtain ⟨more, hw, hmore⟩ := agrees_await ((TimedLink.now t).plus patience) m t sending
      refine ⟨_, .sent ha hs hw, ?_⟩
      have hnow : TimedLink.now (⟨t, sending⟩ : Tapped τ) = TimedLink.now t := rfl
      dsimp only
      rw [List.nil_append, hnow, hmore]
  · rw [he]
    exact ⟨_, .unfit, rfl⟩

end Client

/-! ## What comes of a message -/

namespace Exchange

/-- An entry of a list is its head, or it is further down. -/
theorem head_or_tail {α : Type} {a b : α} {l front back : List α}
    (h : a :: l = front ++ b :: back) :
    a = b ∧ l = back ∨ ∃ front', l = front' ++ b :: back := by
  rcases List.cons_eq_append_iff.1 h with ⟨-, h⟩ | ⟨front, -, h⟩
  · obtain ⟨rfl, rfl⟩ := List.cons.inj h
    exact .inl ⟨rfl, rfl⟩
  · exact .inr ⟨front, h⟩

/-- About a datagram that settles an exchange nothing is done but writing. -/
theorem Settling.onlyWrites {request : Message} {data : Bytes} {acts : List LinkAct}
    {r : Except NetError Code} (h : Settling request data acts r) :
    LinkAct.OnlyWrites acts := by
  cases h with
  | acknowledged h hs => exact hs.onlyWrites
  | _ => exact .nil

/-- A datagram that is read settles the exchange, or waiting goes on after it. -/
theorem Waiting.of_heard {request : Message} {acts front sequel : List LinkAct}
    {r : Except NetError Code} {data : Bytes} (hw : Waiting request acts r)
    (h : acts = front ++ .heard data :: sequel) :
    Settling request data sequel r ∨
      Verdict.ofDatagram request data = .stray ∧ Waiting request sequel r := by
  induction hw generalizing front with
  | late => simp at h
  | unlimited d e =>
    rcases head_or_tail h with ⟨⟨⟩, -⟩ | ⟨front, h⟩
    simp at h
  | unheard d e =>
    rcases head_or_tail h with ⟨⟨⟩, -⟩ | ⟨front, h⟩
    rcases head_or_tail h with ⟨⟨⟩, -⟩ | ⟨front, h⟩
    simp at h
  | settled hs =>
    rcases head_or_tail h with ⟨⟨⟩, -⟩ | ⟨front, h⟩
    rcases head_or_tail h with ⟨he, rfl⟩ | ⟨front, h⟩
    · obtain rfl := LinkAct.heard.inj he
      exact .inl hs
    · have := hs.onlyWrites (.heard data) (by simp [h])
      cases this
  | passed hv hw ih =>
    rcases head_or_tail h with ⟨⟨⟩, -⟩ | ⟨front, h⟩
    rcases head_or_tail h with ⟨he, rfl⟩ | ⟨front, h⟩
    · obtain rfl := LinkAct.heard.inj he
      exact .inr ⟨hv, hw⟩
    · exact ih h

/-- What puts an end to waiting: the time, the link, or a datagram. -/
theorem Waiting.ends {request : Message} {acts : List LinkAct} {r : Except NetError Code}
    (hw : Waiting request acts r) :
    (r = .error .timeout ∨ r = .error .readError) ∨
      (∃ front d e, acts = front ++ [.limited d (some e)] ∧ r = .error e) ∨
        ∃ front data sequel, acts = front ++ .heard data :: sequel ∧
          Settling request data sequel r := by
  induction hw with
  | late => exact .inl (.inl rfl)
  | unlimited d e => exact .inr (.inl ⟨[], d, e, rfl, rfl⟩)
  | unheard d e =>
    left
    split
    · exact .inl rfl
    · exact .inr rfl
  | settled hs => exact .inr (.inr ⟨[_], _, _, rfl, hs⟩)
  | @passed d data acts r hv hw ih =>
    rcases ih with h | ⟨front, d', e, rfl, h⟩ | ⟨front, data', sequel, rfl, h⟩
    · exact .inl h
    · exact .inr (.inl ⟨.limited d none :: .heard data :: front, d', e, rfl, h⟩)
    · exact .inr (.inr ⟨.limited d none :: .heard data :: front, data', sequel, rfl, h⟩)

variable {τ : Type}

/-- The message id of an exchange. -/
def id (x : Exchange τ) : UInt16 := x.client.nextId

variable [TimedLink τ]

/-- What the call comes to. -/
def result (x : Exchange τ) : Except NetError Code :=
  (x.client.post x.path x.body x.patience).1

/-- The client after the call. -/
def after (x : Exchange τ) : Client τ := (x.client.post x.path x.body x.patience).2

/-- What is done over the link, the first act in front. -/
def acts (x : Exchange τ) : List LinkAct :=
  (x.client.tapped.post x.path x.body x.patience).2.link.acts

/-- A message is read in an exchange, and what is done afterwards. -/
def Hears (x : Exchange τ) (m : Message) (sequel : List LinkAct) : Prop :=
  ∃ front data, x.acts = front ++ .heard data :: sequel ∧ Message.decode data = .ok m

/-- What is done about an answer: it is acknowledged if it asks for that. -/
def thanks (m : Message) : List LinkAct :=
  if m.type = .confirmable then
    [.wrote (Client.acknowledgement m.id).bytes true, .flushed true]
  else []

/-- Nothing is done about a message: the client bounds the next read, or its time is up. -/
def PassesOver (x : Exchange τ) (sequel : List LinkAct) : Prop :=
  sequel = [] ∧ x.result = .error .timeout ∨ ∃ d failure rest, sequel = .limited d failure :: rest

/-- What comes of a message that is read in an exchange. -/
inductive Fate (x : Exchange τ) (m : Message) (sequel : List LinkAct) : Prop
  | answer (ha : m.Answers x.id) (hs : sequel = thanks m) (hr : x.result = .ok m.code)
  | unthanked (ha : m.Answers x.id) (ht : m.type = .confirmable)
      (hr : x.result = .error .writeError)
  | refusal (h : m.Resets x.id) (hs : sequel = []) (hr : x.result = .error .connectionRefused)
  | passed (ha : ¬m.Answers x.id) (hr : ¬m.Resets x.id) (h : x.PassesOver sequel)

/-- An exchange is the same over a tapped link. -/
theorem tapped_post (x : Exchange τ) :
    x.client.tapped.post x.path x.body x.patience =
      (x.result, ⟨⟨x.after.link, x.acts⟩, x.after.nextId⟩) ∧ Account x.id x.acts x.result := by
  obtain ⟨acts, ha, hp⟩ := x.client.agrees_post x.path x.body x.patience
  have hacts : x.acts = acts := by rw [Exchange.acts, hp]
  rw [hacts]
  exact ⟨hp, ha⟩

/-- Waiting that goes on passes over what was read before it. -/
theorem Waiting.passesOver {x : Exchange τ} {request : Message} {acts : List LinkAct}
    (h : Waiting request acts x.result) : x.PassesOver acts := by
  generalize hr : x.result = r at h
  cases h with
  | late => exact .inl ⟨rfl, hr⟩
  | _ => exact .inr ⟨_, _, _, rfl⟩

/-- A message that settles an exchange has met one of the fates of messages. -/
theorem Settling.fate {x : Exchange τ} {request m : Message} {data : Bytes}
    {sequel : List LinkAct} (hq : request.Asks x.id) (hd : Message.decode data = .ok m)
    (h : Settling request data sequel x.result) : Fate x m sequel := by
  have hv := Verdict.means_ofDatagram hq hd
  generalize hr : x.result = r at h
  cases h with
  | gone he =>
    rw [he] at hd
    cases hd
  | answered h =>
    rw [h] at hv
    cases hv with
    | answer ha ht => exact .answer ha (if_neg ht).symm hr
  | @acknowledged _ _ done _ h hs =>
    rw [h] at hv
    cases hv with
    | acknowledge ha ht =>
      cases done with
      | true => exact .answer ha (hs.eq_of_done.trans (if_pos ht).symm) hr
      | false => exact .unthanked ha ht hr
  | refused h =>
    rw [h] at hv
    cases hv with
    | refused h => exact .refusal h rfl hr

/-- What is read after something was written is read while the answer is awaited. -/
theorem exists_front_of_append {sending waiting front sequel : List LinkAct} {data : Bytes}
    (hs : LinkAct.OnlyWrites sending)
    (h : sending ++ waiting = front ++ .heard data :: sequel) :
    ∃ front', waiting = front' ++ .heard data :: sequel := by
  rcases List.append_eq_append_iff.1 h with ⟨front', -, h'⟩ | ⟨front', rfl, h'⟩
  · exact ⟨front', h'⟩
  · cases front' with
    | nil => exact ⟨[], h'.symm⟩
    | cons a rest =>
      obtain ⟨rfl, -⟩ := List.cons.inj h'
      cases hs (.heard data) (by simp)

/-- **What comes of a message that is read.** It is the answer, or refuses the request, or nothing
is done about it. -/
theorem fate_of_hears {x : Exchange τ} {m : Message} {sequel : List LinkAct}
    (h : x.Hears m sequel) : Fate x m sequel := by
  obtain ⟨front, data, hacts, hd⟩ := h
  have haccount := x.tapped_post.2
  generalize hx : x.acts = acts at hacts haccount
  generalize hr : x.result = r at haccount
  cases haccount with
  | unfit => simp at hacts
  | unsent hs => cases hs.onlyWrites (.heard data) (by simp [hacts])
  | sent hq hs hw =>
    obtain ⟨front, h⟩ := exists_front_of_append hs.onlyWrites hacts
    rcases hw.of_heard h with hset | ⟨hv, hw⟩
    · exact (hr ▸ hset).fate hq hd
    · have hmeans := Verdict.means_ofDatagram hq hd
      rw [hv] at hmeans
      cases hmeans with
      | stray ha hn => exact .passed ha hn (Waiting.passesOver (hr ▸ hw))

/-- How an exchange ends: it fails by itself, the link refuses to bound a read, or a message settles
it. -/
theorem ends (x : Exchange τ) :
    (∃ e, x.result = .error e ∧ e ≠ .connectionRefused) ∨
      (∃ front d e, x.acts = front ++ [.limited d (some e)] ∧ x.result = .error e) ∨
        ∃ m sequel, x.Hears m sequel ∧ (m.Answers x.id ∨ m.Resets x.id) := by
  have haccount := x.tapped_post.2
  generalize hx : x.acts = acts at haccount
  generalize hr : x.result = r at haccount
  cases haccount with
  | unfit => exact .inl ⟨_, rfl, by decide⟩
  | unsent hs => exact .inl ⟨_, rfl, by decide⟩
  | @sent request sending waiting _ hq hs hw =>
    rcases hw.ends with h | ⟨front, d, e, rfl, rfl⟩ | ⟨front, data, sequel, rfl, h⟩
    · rcases h with rfl | rfl
      · exact .inl ⟨_, rfl, by decide⟩
      · exact .inl ⟨_, rfl, by decide⟩
    · exact .inr (.inl ⟨sending ++ front, d, e, by rw [List.append_assoc], rfl⟩)
    · by_cases hv : Verdict.ofDatagram request data = .stray
      · cases h with
        | gone => exact .inl ⟨_, rfl, by decide⟩
        | answered h => cases h.symm.trans hv
        | acknowledged h hs => cases h.symm.trans hv
        | refused h => cases h.symm.trans hv
      · obtain ⟨m, hd⟩ := Verdict.exists_of_ofDatagram hv
        refine .inr (.inr ⟨m, sequel, ⟨sending ++ front, data, ?_, hd⟩, ?_⟩)
        · rw [hx, List.append_assoc]
        · have hmeans := Verdict.means_ofDatagram hq hd
          generalize Verdict.ofDatagram request data = v at hv hmeans
          cases hmeans with
          | answer ha ht => exact .inl ha
          | acknowledge ha ht => exact .inl ha
          | refused h => exact .inr h
          | stray ha hn => exact absurd rfl hv

/-- **Only the message read last is the answer.** -/
theorem hears_of_ok {x : Exchange τ} {code : Code} (h : x.result = .ok code) :
    ∃ m, x.Hears m (thanks m) ∧ m.Answers x.id ∧ m.code = code := by
  rcases x.ends with ⟨e, he, -⟩ | ⟨_, _, e, -, he⟩ | ⟨m, sequel, hm, hsettles⟩
  · cases h.symm.trans he
  · cases h.symm.trans he
  · cases fate_of_hears hm with
    | answer ha hs hr => exact ⟨m, hs ▸ hm, ha, Except.ok.inj (hr.symm.trans h)⟩
    | unthanked ha ht hr => cases h.symm.trans hr
    | refusal hn hs hr => cases h.symm.trans hr
    | passed ha hn hp => exact (hsettles.elim ha hn).elim

/-- A refusal is the message read last, or the link refuses to bound a read. -/
theorem hears_of_refused {x : Exchange τ} (h : x.result = .error .connectionRefused) :
    (∃ m, x.Hears m [] ∧ m.Resets x.id) ∨
      ∃ front d, x.acts = front ++ [.limited d (some .connectionRefused)] := by
  rcases x.ends with ⟨e, he, hne⟩ | ⟨front, d, e, hacts, he⟩ | ⟨m, sequel, hm, hsettles⟩
  · exact absurd (Except.error.inj (he.symm.trans h)) hne
  · obtain rfl := Except.error.inj (he.symm.trans h)
    exact .inr ⟨front, d, hacts⟩
  · cases fate_of_hears hm with
    | answer ha hs hr => cases h.symm.trans hr
    | unthanked ha ht hr => cases h.symm.trans hr
    | refusal hn hs hr => exact .inl ⟨m, hs ▸ hm, hn⟩
    | passed ha hn hp => exact (hsettles.elim ha hn).elim

end Exchange

end EdgeDevice.Coap
