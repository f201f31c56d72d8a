import Mathlib
import EdgeDevice.Proofs.Coap.Awaiting
import EdgeDevice.Proofs.Net.Script

set_option autoImplicit false
set_option relaxedAutoImplicit false

/-!
# Datagrams that have nothing to do with a call

A datagram that cannot be read, or is about another request, or says no more than that the answer
follows, is passed over. If such datagrams come in first and take no time, a call comes to the same
as without them, and what is left to come in is the same, for they are used up.

They are used up if the call listens at all. A call whose request does not fit or cannot be written,
or whose reads cannot be bounded, is over before anything is read, and leaves them where they are.

## Main definitions

* `EdgeDevice.Coap.Stray` — a datagram has nothing to do with the call with a message id.
* `EdgeDevice.Coap.Exchange.behind` — a call when some datagrams come in first.
* `EdgeDevice.Coap.Exchange.Listens` — a call over a wire gets so far that it reads.
* `EdgeDevice.Coap.Exchange.Same` — two calls come to the same.

## Main results

* `EdgeDevice.Coap.verdict_eq_stray_iff` — just these datagrams are passed over.
* `EdgeDevice.Coap.Client.await_behind` — waiting comes to the same behind such datagrams.
* `EdgeDevice.Coap.Exchange.behind_strays` — so does a call; they are used up if it listens.
* `EdgeDevice.Coap.Exchange.not_same_behind_unread` — a call that does not listen leaves them.
-/

namespace EdgeDevice.Coap

/-! ## Datagrams -/

/-- **A datagram has nothing to do with the call with a message id**: it cannot be read, it is about
another request, or it says no more than that the answer follows. -/
inductive Stray (id : UInt16) (data : Bytes) : Prop
  | unreadable {e : NetError} (h : Message.decode data = .error e)
  | otherId {m : Message} (h : Message.decode data = .ok m)
      (ht : m.type = .acknowledgement ∨ m.type = .reset) (hid : m.id ≠ id)
  | emptyAcknowledgement {m : Message} (h : Message.decode data = .ok m)
      (ht : m.type = .acknowledgement) (hid : m.id = id) (hc : m.code = .empty)
  | otherToken {m : Message} (h : Message.decode data = .ok m)
      (ht : m.type = .confirmable ∨ m.type = .nonConfirmable)
      (htoken : m.token.bytes ≠ Bytes.ofWord id.toNat)

/-- A message that neither answers nor refuses the request is passed over. -/
theorem Verdict.eq_stray {request m : Message} {id : UInt16} {data : Bytes} (hq : request.Asks id)
    (hd : Message.decode data = .ok m) (ha : ¬m.Answers id) (hr : ¬m.Resets id) :
    Verdict.ofDatagram request data = .stray := by
  have hmeans := Verdict.means_ofDatagram hq hd
  generalize Verdict.ofDatagram request data = v at hmeans
  cases hmeans with
  | answer h ht => exact absurd h ha
  | acknowledge h ht => exact absurd h ha
  | refused h => exact absurd h hr
  | stray => rfl

/-- A datagram that has nothing to do with a call is passed over. -/
theorem Stray.verdict {request : Message} {id : UInt16} {data : Bytes} (hq : request.Asks id)
    (h : Stray id data) : Verdict.ofDatagram request data = .stray := by
  cases h with
  | unreadable h =>
    unfold Verdict.ofDatagram
    rw [h]
  | otherId h ht hid =>
    refine Verdict.eq_stray hq h ?_ fun hr => hid hr.2
    rcases ht with ht | ht <;> simp [Message.Answers, ht, hid]
  | emptyAcknowledgement h ht hid hc =>
    exact Verdict.eq_stray hq h (by simp [Message.Answers, ht, hc]) (by simp [Message.Resets, ht])
  | otherToken h ht htoken =>
    rcases ht with ht | ht
    · exact Verdict.eq_stray hq h (by simpa [Message.Answers, ht] using htoken)
        (by simp [Message.Resets, ht])
    · exact Verdict.eq_stray hq h (by simpa [Message.Answers, ht] using htoken)
        (by simp [Message.Resets, ht])

/-- What is passed over neither answers the call nor refuses it. -/
theorem Verdict.not_of_eq_stray {request m : Message} {id : UInt16} {data : Bytes}
    (hq : request.Asks id) (hd : Message.decode data = .ok m)
    (hv : Verdict.ofDatagram request data = .stray) : ¬m.Answers id ∧ ¬m.Resets id := by
  have hmeans := Verdict.means_ofDatagram hq hd
  rw [hv] at hmeans
  cases hmeans with
  | stray ha hr => exact ⟨ha, hr⟩

/-- **A datagram is passed over exactly if it has nothing to do with the call.** -/
theorem verdict_eq_stray_iff {request : Message} {id : UInt16} {data : Bytes}
    (hq : request.Asks id) : Verdict.ofDatagram request data = .stray ↔ Stray id data := by
  refine ⟨fun hv => ?_, Stray.verdict hq⟩
  rcases hd : Message.decode data with e | m
  · exact .unreadable hd
  · obtain ⟨ha, hr⟩ := Verdict.not_of_eq_stray hq hd hv
    cases ht : m.type with
    | acknowledgement =>
      by_cases hid : m.id = id
      · have hc : m.code = .empty := by simpa [Message.Answers, ht, hid] using ha
        exact .emptyAcknowledgement hd ht hid hc
      · exact .otherId hd (.inl ht) hid
    | reset => exact .otherId hd (.inr ht) fun hid => hr ⟨ht, hid⟩
    | confirmable => exact .otherToken hd (.inl ht) (by simpa [Message.Answers, ht] using ha)
    | nonConfirmable => exact .otherToken hd (.inr ht) (by simpa [Message.Answers, ht] using ha)

/-- Datagrams that are passed over: each holds something, fits the reader, and has nothing to do
with the call with a message id. -/
def Strays (id : UInt16) (strays : List Bytes) : Prop :=
  ∀ data ∈ strays, data ≠ [] ∧ data.length ≤ maxDatagram ∧ Stray id data

/-! ## Waiting -/

namespace Client

variable {deadline : Duration} {request : Message} {w : Wire}

/-- Two outcomes of waiting are the same, but for the record of the bounds on reads. -/
def Alike (r r' : Except NetError Code × Wire) : Prop :=
  r.1 = r'.1 ∧ r.2.unrecorded = r'.2.unrecorded

/-- Outcomes that are alike through a third one are alike. -/
theorem Alike.trans {r r' r'' : Except NetError Code × Wire} (h : Alike r r')
    (h' : Alike r' r'') : Alike r r'' :=
  ⟨h.1.trans h'.1, h.2.trans h'.2⟩

/-- Whether outcomes are alike does not depend on their order. -/
theorem Alike.symm {r r' : Except NetError Code × Wire} (h : Alike r r') : Alike r' r :=
  ⟨h.1.symm, h.2.symm⟩

/-- Waiting comes to the same if the record of the bounds is left out. -/
theorem alike_unrecorded (deadline : Duration) (request : Message) (w : Wire) :
    Alike (await deadline request w) (await deadline request w.unrecorded) := by
  have h := await_map (Wire.faithful_since w.limits) deadline request w.unrecorded
  rw [Wire.since_unrecorded] at h
  rw [h]
  exact ⟨rfl, rfl⟩

/-- A bound that was set before does not matter to waiting, which sets its own. -/
theorem alike_bounded (d : Duration) (h : w.now < deadline) (hw : w.limitFailure = none) :
    Alike (await deadline request (w.bounded d)) (await deadline request w) := by
  have hlimit : TimedLink.limit (w.bounded d).unrecorded (deadline - w.now) =
      TimedLink.limit w.unrecorded (deadline - w.now) := by
    rw [Wire.limit_of_none (w.bounded d).unrecorded hw, Wire.limit_of_none w.unrecorded hw]
    rfl
  have hsame : await deadline request (w.bounded d).unrecorded =
      await deadline request w.unrecorded := by
    rw [await_eq, await_eq deadline request w.unrecorded]
    have hnow : TimedLink.now (w.bounded d).unrecorded = w.now := rfl
    have hnow' : TimedLink.now w.unrecorded = w.now := rfl
    rw [hnow, hnow', hlimit, if_neg (Nat.sub_ne_zero_of_lt h), if_neg (Nat.sub_ne_zero_of_lt h)]
  exact (alike_unrecorded deadline request (w.bounded d)).trans
    (hsame ▸ (alike_unrecorded deadline request w).symm)

/-- A datagram that takes no time and is passed over leads to the next read. -/
theorem await_behind_one {data : Bytes} (hw : w.limitFailure = none) (hdelay : w.delay = 0)
    (h : w.now < deadline) (hlast : deadline ≤ Duration.longest) (hne : data ≠ [])
    (hlen : data.length ≤ maxDatagram) (hv : Verdict.ofDatagram request data = .stray) :
    await deadline request (w.behind [data]) =
      await deadline request (w.bounded (deadline - w.now)) := by
  have hl : TimedLink.limit (w.behind [data]) (deadline - w.now) =
      (none, (w.bounded (deadline - w.now)).behind [data]) :=
    Wire.limit_of_none (w.behind [data]) hw _
  have hr : Link.read ((w.bounded (deadline - w.now)).behind [data]) maxDatagram =
      (.ok data, w.bounded (deadline - w.now)) :=
    Wire.read_behind hdelay (Nat.le_trans (Nat.le_of_lt h) hlast) hlen
  rw [await_of_read h hl hr, goOn_of_stray hne hv]

/-- **Waiting comes to the same behind datagrams that are passed over.** -/
theorem await_behind {id : UInt16} {strays : List Bytes} (hq : request.Asks id)
    (hs : Strays id strays) (hw : w.limitFailure = none) (hdelay : w.delay = 0)
    (h : w.now < deadline) (hlast : deadline ≤ Duration.longest) :
    Alike (await deadline request (w.behind strays)) (await deadline request w) := by
  induction strays with
  | nil => exact ⟨rfl, rfl⟩
  | cons data strays ih =>
    obtain ⟨⟨hne, hlen, hstray⟩, hs⟩ := List.forall_mem_cons.1 hs
    have hbehind : w.behind (data :: strays) = (w.behind strays).behind [data] := rfl
    rw [hbehind, await_behind_one (w := w.behind strays) hw hdelay h hlast hne hlen
      ((verdict_eq_stray_iff hq).2 hstray)]
    exact (alike_bounded (w := w.behind strays) _ h hw).trans (ih hs)

/-- Where nothing is read, what comes in is left where it is. -/
theorem await_behind_of_deaf (request : Message) (h : ¬(w.limitFailure = none ∧ w.now < deadline))
    (strays : List Bytes) :
    await deadline request (w.behind strays) =
      (await deadline request w).map id (Wire.behind strays) := by
  rcases Nat.lt_or_ge w.now deadline with hlt | hge
  · obtain ⟨e, hw⟩ := Option.ne_none_iff_exists'.1 fun hw => h ⟨hw, hlt⟩
    rw [await_of_unlimited (t := w) hlt (Wire.limit_of_some w hw _),
      await_of_unlimited (t := w.behind strays) hlt (Wire.limit_of_some (w.behind strays) hw _)]
    rfl
  · rw [await_of_le (t := w) hge, await_of_le (t := w.behind strays) hge]
    rfl

end Client

/-! ## Calls -/

namespace Exchange

/-- The call over a wire gets so far that it reads: the request is sent, a bound on reads can be
set, and there is time. -/
def Listens (x : Exchange Wire) : Prop :=
  match x.sending with
  | (.error _, _) => False
  | (.ok _, w) => w.limitFailure = none ∧ w.now < w.now.plus x.patience

/-- The call when some datagrams come in first. -/
def behind (strays : List Bytes) (x : Exchange Wire) : Exchange Wire := x.map (Wire.behind strays)

/-- Two calls come to the same: they have the same result, write the same, leave the same to come
in, and the next call has the same message id. -/
structure Same (x y : Exchange Wire) : Prop where
  result_eq : x.result = y.result
  writes_eq : x.after.link.writes = y.after.link.writes
  inbound_eq : x.after.link.inbound = y.after.link.inbound
  nextId_eq : x.after.nextId = y.after.nextId

/-- A request that cannot be sent has the same error when other datagrams come in first. -/
theorem behind_of_unsent {x : Exchange Wire} {e : NetError} {w : Wire} (strays : List Bytes)
    (h : x.sending = (.error e, w)) :
    (x.behind strays).result = .error e ∧
      (x.behind strays).after = ⟨w.behind strays, x.id + 1⟩ := by
  have hmap := sending_map (Wire.writeFaithful_behind strays) x
  rw [h] at hmap
  exact of_unsent hmap

/-- Where the request was sent, the answer is waited for behind the datagrams that come in first. -/
theorem behind_of_sent {x : Exchange Wire} {m : Message} {w : Wire} (strays : List Bytes)
    (h : x.sending = (.ok m, w)) :
    (x.behind strays).result =
        (Client.await (w.now.plus x.patience) m (w.behind strays)).1 ∧
      (x.behind strays).after =
        ⟨(Client.await (w.now.plus x.patience) m (w.behind strays)).2, x.id + 1⟩ := by
  have hmap := sending_map (Wire.writeFaithful_behind strays) x
  rw [h] at hmap
  exact (of_sent hmap).2

/-- Sending does not change how long datagrams take. -/
theorem delay_sending (x : Exchange Wire) : x.sending.2.delay = x.client.link.delay := by
  rcases x.sending_link with h | ⟨m, h⟩ <;> rw [h]
  exact Wire.writeAll_frame (fun _ _ => rfl) _ _

/-- A call that listens comes to the same behind datagrams that are passed over. -/
theorem same_of_listens {x : Exchange Wire} (h : x.Listens) (hdelay : x.client.link.delay = 0)
    {strays : List Bytes} (hs : Strays x.id strays) : (x.behind strays).Same x := by
  have hdelay' := x.delay_sending.trans hdelay
  unfold Listens at h
  rcases hsend : x.sending with ⟨e | m, w⟩ <;> rw [hsend] at h hdelay'
  · exact h.elim
  · obtain ⟨hasks, hresult, hafter⟩ := of_sent hsend
    obtain ⟨hresult', hafter'⟩ := behind_of_sent strays hsend
    obtain ⟨hr, hw⟩ := Client.await_behind hasks hs h.1 hdelay' h.2 (Duration.plus_le_longest _ _)
    have hwrites := congrArg Wire.writes hw
    have hinbound := congrArg Wire.inbound hw
    constructor
    · exact hresult'.trans (hr.trans hresult.symm)
    · rw [hafter, hafter']
      exact hwrites
    · rw [hafter, hafter']
      exact hinbound
    · rw [hafter, hafter']

/-- A call that does not listen leaves what comes in where it is. -/
theorem left_of_not_listens {x : Exchange Wire} (h : ¬x.Listens) (strays : List Bytes) :
    (x.behind strays).result = x.result ∧
      (x.behind strays).after = ⟨x.after.link.behind strays, x.after.nextId⟩ := by
  unfold Listens at h
  rcases hsend : x.sending with ⟨e | m, w⟩ <;> rw [hsend] at h
  · obtain ⟨hresult, hafter⟩ := of_unsent hsend
    rw [hresult, hafter]
    exact behind_of_unsent strays hsend
  · obtain ⟨-, hresult, hafter⟩ := of_sent hsend
    obtain ⟨hresult', hafter'⟩ := behind_of_sent strays hsend
    rw [hresult, hafter, hresult', hafter', Client.await_behind_of_deaf m h strays]
    exact ⟨rfl, rfl⟩

/-- **Datagrams that have nothing to do with a call do not matter to it.** If they come in first and
take no time, the call has the same result, writes the same, and leaves the next one the same
message id. They are used up, and the rest of what comes in is left as without them, if the call
listens; otherwise they stay in front of it. -/
theorem behind_strays (x : Exchange Wire) (hdelay : x.client.link.delay = 0) {strays : List Bytes}
    (hs : Strays x.id strays) :
    (x.Listens → (x.behind strays).Same x) ∧
    (¬x.Listens → (x.behind strays).result = x.result ∧
      (x.behind strays).after = ⟨x.after.link.behind strays, x.after.nextId⟩) := by
  constructor
  · intro h
    exact same_of_listens h hdelay hs
  · intro h
    exact left_of_not_listens h strays

/-- One datagram of each kind: it cannot be read, it is about another request, it says that the
answer follows, it has another token. -/
def oneOfEach : List Bytes :=
  [[0xff, 0], [0x70, 0, 0, 99], [0x60, 0, 0, 1], [0x52, 0x45, 0, 7, 0xab, 0xcd]]

/-- The four datagrams are passed over by the call with the first id. -/
theorem strays_oneOfEach : Strays 1 oneOfEach := by
  have hunreadable : Message.decode [0xff, 0] = .error .protocolError := by cbv
  have hreset : Message.decode [0x70, 0, 0, 99] =
      .ok { type := .reset, code := .empty, id := 99 } := by cbv
  have hempty : Message.decode [0x60, 0, 0, 1] =
      .ok { type := .acknowledgement, code := .empty, id := 1 } := by cbv
  have htoken : Message.decode [0x52, 0x45, 0, 7, 0xab, 0xcd] =
      .ok { type := .nonConfirmable, code := .content, id := 7,
            token := ⟨[0xab, 0xcd], by decide⟩ } := by cbv
  intro data hdata
  simp only [oneOfEach, List.mem_cons, List.not_mem_nil, or_false] at hdata
  rcases hdata with rfl | rfl | rfl | rfl
  · exact ⟨by decide, by decide, .unreadable hunreadable⟩
  · exact ⟨by decide, by decide, .otherId hreset (.inr rfl) (by decide)⟩
  · exact ⟨by decide, by decide, .emptyAcknowledgement hempty rfl rfl rfl⟩
  · exact ⟨by decide, by decide, .otherToken htoken (.inr rfl) (by decide)⟩

/-- A call with an answer to come. -/
def answeredCall : Exchange Wire :=
  ⟨⟨{ inbound := [.chunk [0x60, 0x44, 0, 1], .failure .readError] }, 1⟩, "/keepalive",
    [0x7b, 0x7d], .ofSeconds 10⟩

/-- The answer is found behind them, and what comes after it is left. -/
theorem same_behind_oneOfEach :
    answeredCall.Listens ∧ (answeredCall.behind oneOfEach).Same answeredCall ∧
      answeredCall.result = .ok .changed := by
  have hlistens : answeredCall.Listens := by cbv
  exact ⟨hlistens, (behind_strays answeredCall rfl strays_oneOfEach).1 hlistens, by cbv⟩

/-- A call whose body is longer than a message may carry. -/
def overlongCall : Exchange Wire :=
  ⟨⟨{}, 1⟩, "/keepalive", List.replicate 129 0x78, .ofSeconds 10⟩

set_option maxRecDepth 4000 in
/-- A call that is over before it reads leaves in front what has nothing to do with it. -/
theorem not_same_behind_unread :
    ¬∀ (x : Exchange Wire) (strays : List Bytes), x.client.link.delay = 0 → 0 < x.patience →
      Strays x.id strays → (x.behind strays).Same x := by
  intro h
  have hstrays : Strays overlongCall.id [[0xff]] := by
    have hunreadable : Message.decode [0xff] = .error .protocolError := by cbv
    exact List.forall_mem_singleton.2 ⟨by decide, by decide, .unreadable hunreadable⟩
  have hsame := (h overlongCall [[0xff]] rfl (by decide) hstrays).inbound_eq
  have hleft : (overlongCall.behind [[0xff]]).after.link.inbound = [.chunk [0xff]] := by cbv
  have hnone : overlongCall.after.link.inbound = [] := by cbv
  rw [hleft, hnone] at hsame
  cases hsame

end Exchange

end EdgeDevice.Coap
