import Mathlib
import EdgeDevice.Proofs.Coap.Awaiting

set_option autoImplicit false
set_option relaxedAutoImplicit false

/-!
# One deadline for an exchange

The time that a call may take starts when the request is sent. However many datagrams come in that
have nothing to do with the call, each only uses up some of what is left: every read is bounded by
the time until the one deadline, so the bounds never grow, and over a punctual link the call is over
when the deadline is.

That the clock runs does not by itself make an end of it, for datagrams may take no time. It is what
can still come in that gets less with each of them.

## Main definitions

* `EdgeDevice.Coap.Exchange.stamps` — what is done over the link in an exchange, and when.
* `EdgeDevice.Coap.Decides`, `EdgeDevice.Coap.TimesOut` — what is done decides a call, or says that
  its time is up.
* `EdgeDevice.Coap.Vigil` — what is done while an answer is awaited, and when.
* `EdgeDevice.Coap.Exchange.Timely` — an exchange keeps to its deadline.

## Main results

* `EdgeDevice.Coap.Client.Awaits.vigil` — waiting over a punctual link is such a vigil.
* `EdgeDevice.Coap.Vigil.bounds`, `EdgeDevice.Coap.Vigil.falling`, `EdgeDevice.Coap.Vigil.reads_le`
  and the other properties of a vigil.
* `EdgeDevice.Coap.Exchange.timely` — every exchange over a punctual link keeps to its deadline.
-/

namespace EdgeDevice.Coap

/-- Something decides the call with a message id: the other side is gone, a datagram answers or
refuses the request, or the link fails. That nothing came in time does not count as a failure. -/
def Decides (id : UInt16) : LinkAct → Prop
  | .heard data => data = [] ∨ ∃ m, Message.decode data = .ok m ∧ (m.Answers id ∨ m.Resets id)
  | .unheard e => e ≠ .timeout
  | .limited _ failure => failure ≠ none
  | _ => False

/-- The link itself says that the time is up. -/
inductive TimesOut : LinkAct → Prop
  | unheard : TimesOut (.unheard .timeout)
  | limited (d : Duration) : TimesOut (.limited d (some .timeout))

/-- **What is done while an answer is awaited**, and when. What can still come in is bounded by `n`;
it is `clock` at the beginning and `finish` at the end. -/
inductive Vigil (id : UInt16) (deadline : Duration) :
    (n : Nat) → (clock : Duration) → List Stamp → Except NetError Code → (finish : Duration) → Prop
  | late {n : Nat} {clock : Duration} (h : deadline ≤ clock) :
      Vigil id deadline n clock [] (.error .timeout) clock
  | unlimited {n : Nat} {clock : Duration} (e : NetError) (h : clock < deadline) :
      Vigil id deadline n clock [⟨clock, .limited (deadline - clock) (some e)⟩] (.error e) clock
  | ended {n : Nat} {clock finish : Duration} {found : Except NetError Bytes} {log : List Stamp}
      {r : Except NetError Code} (h : clock < deadline) (hle : finish ≤ deadline)
      (hd : found ≠ .error .timeout → Decides id (.ofRead found))
      (hr : r = .error .timeout ↔ found = .error .timeout)
      (hw : ∀ s ∈ log, s.act.isWrite = true) :
      Vigil id deadline n clock (Stamp.round clock (deadline - clock) found ++ log) r finish
  | passed {n n' : Nat} {clock later finish : Duration} {data : Bytes} {log : List Stamp}
      {r : Except NetError Code} (h : clock < deadline) (hn : n' < n) (hc : clock ≤ later)
      (hle : later ≤ deadline) (hv : Vigil id deadline n' later log r finish) :
      Vigil id deadline n clock (Stamp.round clock (deadline - clock) (.ok data) ++ log) r finish

namespace Client

variable {τ : Type} [TimedLink τ] {deadline : Duration} {request : Message} {id : UInt16}

/-- What puts an end to waiting decides the call, unless it is that nothing came in time. -/
theorem decides_of_decisive {found : Except NetError Bytes} (hq : request.Asks id)
    (hd : Decisive request found) (hne : found ≠ .error .timeout) :
    Decides id (.ofRead found) := by
  rcases found with e | data
  · exact fun he => hne (congrArg Except.error he)
  · rcases hd with hd | hd
    · exact .inl hd
    · obtain ⟨m, hm⟩ := Verdict.exists_of_ofDatagram hd
      have hmeans := Verdict.means_ofDatagram hq hm
      refine .inr ⟨m, hm, ?_⟩
      generalize Verdict.ofDatagram request data = v at hd hmeans
      cases hmeans with
      | answer ha ht => exact .inl ha
      | acknowledge ha ht => exact .inl ha
      | refused h => exact .inr h
      | stray ha hr => exact absurd rfl hd

/-- After a read that puts an end to waiting there is at most something to be written, and the
result is a timeout only if the read is one. -/
theorem goOn_of_decisive {found : Except NetError Bytes} (hd : Decisive request found) (t : τ) :
    ((goOn deadline request t found).1 = .error .timeout ↔ found = .error .timeout) ∧
      ((goOn deadline request t found).2 = t ∨
        ∃ m : Message, (goOn deadline request t found).2 = (Link.writeAll t [m.bytes]).2) := by
  rcases found with e | _ | ⟨b, bs⟩
  · refine ⟨?_, .inl rfl⟩
    show Except.error (if e = .timeout then NetError.timeout else .readError) = _ ↔ _
    by_cases he : e = .timeout <;> simp [he]
  · exact ⟨by simp [goOn], .inl rfl⟩
  · have hne : Verdict.ofDatagram request (b :: bs) ≠ .stray :=
      hd.resolve_left (List.cons_ne_nil b bs)
    rw [goOn]
    cases hv : Verdict.ofDatagram request (b :: bs) with
    | answer code => exact ⟨by simp [heed], .inl rfl⟩
    | acknowledge id code =>
      rw [heed, send_eq]
      rcases hw : Link.writeAll t [(acknowledgement id).bytes] with ⟨_ | _, t'⟩
      · exact ⟨by simp, .inr ⟨acknowledgement id, by rw [hw]; rfl⟩⟩
      · exact ⟨by simp, .inr ⟨acknowledgement id, by rw [hw]; rfl⟩⟩
    | refused => exact ⟨by simp [heed], .inl rfl⟩
    | stray => exact absurd hv hne

/-- What is written down after a read that puts an end to waiting. -/
theorem stamps_goOn (hτ : TimedLink.Punctual τ) (deadline : Duration)
    {found : Except NetError Bytes} (hd : Decisive request found) (t : Stamped τ) :
    ∃ log, (goOn deadline request t found).2.stamps = t.stamps ++ log ∧
      (∀ s ∈ log, s.act.isWrite = true) ∧
        TimedLink.now (goOn deadline request t found).2 = TimedLink.now t := by
  rcases (goOn_of_decisive hd t).2 with hg | ⟨m, hg⟩ <;> rw [hg]
  · exact ⟨[], (List.append_nil _).symm, by simp, rfl⟩
  · obtain ⟨log, hlog, hw⟩ := t.stamps_writeAll [m.bytes]
    exact ⟨log, hlog, hw, (Stamped.punctual hτ).now_writeAll t [m.bytes]⟩

/-- **Waiting over a punctual link is a vigil.** -/
theorem Awaits.vigil (hτ : TimedLink.Punctual τ) (hlast : deadline ≤ Duration.longest)
    (hq : request.Asks id) {t : Stamped τ} {r : Except NetError Code × Stamped τ}
    (h : Awaits deadline request t r) :
    ∃ log, r.2.stamps = t.stamps ++ log ∧
      Vigil id deadline (Link.backlog t) (TimedLink.now t) log r.1 (TimedLink.now r.2) := by
  have hσ := Stamped.punctual hτ
  induction h with
  | late h => exact ⟨[], (List.append_nil _).symm, .late h⟩
  | @unlimited t t' e h hl =>
    have hnow : TimedLink.now t' = TimedLink.now t := by
      rw [← hσ.now_limit t (deadline - TimedLink.now t), hl]
    refine ⟨_, Stamped.stamps_of_limit hl, ?_⟩
    rw [hnow]
    exact .unlimited e h
  | @ended t t₁ t₂ found h hl hr hd =>
    obtain ⟨-, hle, -⟩ := hσ.now_le_of_read hl hr
    rw [Nat.add_sub_of_le (Nat.le_of_lt h)] at hle
    obtain ⟨log, hlog, hw, hnow⟩ := stamps_goOn hτ deadline hd t₂
    refine ⟨Stamp.round (TimedLink.now t) (deadline - TimedLink.now t) found ++ log, ?_, ?_⟩
    · rw [hlog, Stamped.stamps_of_read hτ hl hr, List.append_assoc]
    · rw [hnow]
      exact .ended h hle (decides_of_decisive hq hd) (goOn_of_decisive hd t₂).1 hw
  | @passed t t₁ t₂ data r h hl hr hne hv ha ih =>
    obtain ⟨-, hle, hge⟩ := hσ.now_le_of_read hl hr
    rw [Nat.add_sub_of_le (Nat.le_of_lt h)] at hle
    have hlt : Link.backlog t₂ < Link.backlog t :=
      Nat.lt_of_lt_of_le (Link.backlog_read_lt hr hne) (TimedLink.backlog_le_of_limit hl)
    obtain ⟨log, hlog, hvigil⟩ := ih
    refine ⟨Stamp.round (TimedLink.now t) (deadline - TimedLink.now t) (.ok data) ++ log, ?_,
      .passed h hlt (hge (Nat.le_trans (Nat.le_of_lt h) hlast)) hle hvigil⟩
    rw [hlog, Stamped.stamps_of_read hτ hl hr, List.append_assoc]

end Client

/-! ## What is true of a vigil -/

namespace Vigil

variable {id : UInt16} {deadline clock finish : Duration} {n : Nat} {log : List Stamp}
variable {r : Except NetError Code}

/-- There are no more reads than something can come in, and one. -/
theorem reads_le (h : Vigil id deadline n clock log r finish) :
    log.countP (·.act.isRead) ≤ n + 1 := by
  induction h with
  | late h => exact Nat.zero_le _
  | unlimited e h => exact Nat.zero_le _
  | ended h hle hd hr hw =>
    rw [List.countP_append, Stamp.countP_round, Stamp.countP_of_isWrite hw]
    exact Nat.le_add_left _ _
  | passed h hn hc hle hv ih =>
    rw [List.countP_append, Stamp.countP_round, Nat.add_comm]
    exact Nat.succ_le_succ (Nat.le_trans ih hn)

/-- Waiting is over by the deadline, or at once if that has passed. -/
theorem finish_le (h : Vigil id deadline n clock log r finish) : finish ≤ max clock deadline := by
  induction h with
  | late h => exact Nat.le_max_left _ _
  | unlimited e h => exact Nat.le_max_left _ _
  | ended h hle hd hr hw => exact Nat.le_trans hle (Nat.le_max_right _ _)
  | passed h hn hc hle hv ih =>
    exact Nat.le_trans ih (Nat.max_le.2 ⟨Nat.le_trans hle (Nat.le_max_right _ _),
      Nat.le_max_right _ _⟩)

/-- Each bound is what is left until the deadline, and something is left. -/
theorem bounds (h : Vigil id deadline n clock log r finish) :
    ∀ s ∈ log, ∀ d, s.bound? = some d →
      clock ≤ s.clock ∧ s.clock < deadline ∧ d = deadline - s.clock := by
  induction h with
  | late h => simp
  | unlimited e h => simpa [Stamp.bound?] using h
  | ended h hle hd hr hw =>
    intro s hs d hb
    rcases List.mem_append.1 hs with hs | hs
    · obtain ⟨rfl, rfl⟩ := Stamp.eq_of_mem_round hs hb
      exact ⟨Nat.le_refl _, h, rfl⟩
    · cases (Stamp.bound?_of_isWrite (hw s hs)).symm.trans hb
  | passed h hn hc hle hv ih =>
    intro s hs d hb
    rcases List.mem_append.1 hs with hs | hs
    · obtain ⟨rfl, rfl⟩ := Stamp.eq_of_mem_round hs hb
      exact ⟨Nat.le_refl _, h, rfl⟩
    · obtain ⟨hlater, hlt, hd⟩ := ih s hs d hb
      exact ⟨Nat.le_trans hc hlater, hlt, hd⟩

/-- The bounds never grow. -/
theorem falling (h : Vigil id deadline n clock log r finish) :
    (log.filterMap Stamp.bound?).Pairwise (· ≥ ·) := by
  induction h with
  | late h => exact .nil
  | unlimited e h => exact List.pairwise_singleton _ _
  | ended h hle hd hr hw =>
    rw [List.filterMap_append, Stamp.filterMap_round, Stamp.filterMap_of_isWrite hw]
    exact List.pairwise_singleton _ _
  | passed h hn hc hle hv ih =>
    rw [List.filterMap_append, Stamp.filterMap_round]
    refine List.pairwise_cons.2 ⟨fun d hd => ?_, ih⟩
    obtain ⟨s, hs, hb⟩ := List.mem_filterMap.1 hd
    obtain ⟨hlater, -, rfl⟩ := hv.bounds s hs d hb
    exact Nat.sub_le_sub_left (Nat.le_trans hc hlater) _

/-- Where nothing decides the call its time runs out. -/
theorem timeout (h : Vigil id deadline n clock log r finish)
    (hn : ∀ s ∈ log, ¬Decides id s.act) : r = .error .timeout := by
  induction h with
  | late h => rfl
  | unlimited e h => exact absurd (Option.some_ne_none e) (hn _ (List.mem_singleton.2 rfl))
  | @ended n clock finish found log r h hle hd hr hw =>
    have hmem : (⟨clock, .ofRead found⟩ : Stamp) ∈ Stamp.round clock (deadline - clock) found :=
      Stamp.mem_round.2 (.inr rfl)
    exact hr.2 (by_contra fun hne => hn _ (List.mem_append_left _ hmem) (hd hne))
  | passed h _ hc hle hv ih => exact ih fun s hs => hn s (List.mem_append_right _ hs)

/-- A call is given up because its time is up, or the link says so. -/
theorem of_timeout (h : Vigil id deadline n clock log r finish) (hr : r = .error .timeout) :
    deadline ≤ finish ∨ ∃ s ∈ log, TimesOut s.act := by
  induction h with
  | late h => exact .inl h
  | unlimited e h =>
    obtain rfl := Except.error.inj hr
    exact .inr ⟨_, List.mem_singleton.2 rfl, .limited _⟩
  | @ended n clock finish found log r h hle hd hiff hw =>
    obtain rfl := hiff.1 hr
    exact .inr ⟨_, List.mem_append_left _ (Stamp.mem_round.2 (.inr rfl)), .unheard⟩
  | passed h hn hc hle hv ih =>
    rcases ih hr with h | ⟨s, hs, hout⟩
    · exact .inl h
    · exact .inr ⟨s, List.mem_append_right _ hs, hout⟩

end Vigil

/-! ## Whole exchanges -/

namespace Exchange

variable {τ : Type} [TimedLink τ]

omit [TimedLink τ] in
/-- An exchange over a stamped link. -/
def stamped (x : Exchange τ) : Exchange (Stamped τ) :=
  ⟨⟨⟨x.client.link, []⟩, x.client.nextId⟩, x.path, x.body, x.patience⟩

/-- What is done over the link in an exchange and when, the first act in front. -/
def stamps (x : Exchange τ) : List Stamp := x.stamped.after.link.stamps

/-- An exchange is the same over a stamped link. -/
theorem of_stamped (x : Exchange τ) :
    x.result = x.stamped.result ∧ x.after.link = x.stamped.after.link.link := by
  obtain ⟨hresult, hafter⟩ := of_map Stamped.faithful_link x.stamped
  exact ⟨hresult, congrArg Client.link hafter⟩

/-- Sending over a stamped link comes to the same as sending over the link. -/
theorem stamped_of_sending {x : Exchange τ} {r : Except NetError Message} {t : τ}
    (h : x.sending = (r, t)) : ∃ t' : Stamped τ, x.stamped.sending = (r, t') ∧ t'.link = t := by
  have hmap : x.sending = (x.stamped.sending.1, x.stamped.sending.2.link) :=
    sending_map Stamped.faithful_link.toWriteFaithful x.stamped
  obtain ⟨hr, ht⟩ := Prod.mk.inj (hmap.symm.trans h)
  exact ⟨x.stamped.sending.2, Prod.ext hr rfl, ht⟩

/-- **An exchange keeps to its deadline**, which is set when the link is as `t`, right after
sending. -/
structure Timely (x : Exchange τ) (t : τ) : Prop where
  /-- Reading comes to an end, whether it takes time or not. -/
  reads_le : x.stamps.countP (·.act.isRead) ≤ Link.backlog t + 1
  /-- The call is over when its time is. -/
  now_le : TimedLink.now x.after.link ≤ TimedLink.now t + x.patience
  /-- Each bound on a read is what is left of the time, and something is left. -/
  bound_eq : ∀ s ∈ x.stamps, ∀ d, s.bound? = some d →
    d = (TimedLink.now t).plus x.patience - s.clock ∧ 0 < d
  /-- So the bounds never grow. -/
  falling : (x.stamps.filterMap Stamp.bound?).Pairwise (· ≥ ·)
  /-- If nothing decides the call its time runs out. -/
  timeout : (∀ s ∈ x.stamps, ¬Decides x.id s.act) → x.result = .error .timeout
  /-- The call is not given up before, unless the link says that the time is up. -/
  patient : x.result = .error .timeout →
    (TimedLink.now t).plus x.patience ≤ TimedLink.now x.after.link ∨
      ∃ s ∈ x.stamps, TimesOut s.act

/-- An exchange in which nothing is read before the request is sent keeps to its deadline if its
vigil does. -/
theorem timely_of_vigil {x : Exchange τ} {t : τ} {sending log : List Stamp} {finish : Duration}
    (hw : ∀ s ∈ sending, s.act.isWrite = true) (hstamps : x.stamps = sending ++ log)
    (hnow : TimedLink.now x.after.link = finish)
    (hv : Vigil x.id ((TimedLink.now t).plus x.patience) (Link.backlog t) (TimedLink.now t) log
      x.result finish) : x.Timely t where
  reads_le := by
    rw [hstamps, List.countP_append, Stamp.countP_of_isWrite hw, Nat.zero_add]
    exact hv.reads_le
  now_le := by
    rw [hnow]
    exact Nat.le_trans hv.finish_le
      (Nat.max_le.2 ⟨Nat.le_add_right _ _, Nat.min_le_left _ _⟩)
  bound_eq s hs d hd := by
    rcases List.mem_append.1 (hstamps ▸ hs) with hs | hs
    · cases (Stamp.bound?_of_isWrite (hw s hs)).symm.trans hd
    · obtain ⟨-, hlt, rfl⟩ := hv.bounds s hs d hd
      exact ⟨rfl, Nat.sub_pos_of_lt hlt⟩
  falling := by
    rw [hstamps, List.filterMap_append, Stamp.filterMap_of_isWrite hw]
    exact hv.falling
  timeout hn := hv.timeout fun s hs => hn s (hstamps ▸ List.mem_append_right _ hs)
  patient hr := by
    rw [hnow]
    rcases hv.of_timeout hr with h | ⟨s, hs, hout⟩
    · exact .inl h
    · exact .inr ⟨s, hstamps ▸ List.mem_append_right _ hs, hout⟩

/-- What is written down until the answer is awaited. -/
theorem stamps_sending (hτ : TimedLink.Punctual τ) (x : Exchange (Stamped τ)) :
    TimedLink.now x.sending.2 = TimedLink.now x.client.link ∧
      ∃ log, x.sending.2.stamps = x.client.link.stamps ++ log ∧
        ∀ s ∈ log, s.act.isWrite = true := by
  rcases x.sending_link with h | ⟨m, h⟩ <;> rw [h]
  · exact ⟨rfl, [], (List.append_nil _).symm, by simp⟩
  · exact ⟨(Stamped.punctual hτ).now_writeAll _ _, x.client.link.stamps_writeAll [m.bytes]⟩

/-- An exchange whose request is not sent takes no time, and nothing is done in it but writing. -/
theorem onlyWrites_of_unsent (hτ : TimedLink.Punctual τ) {x : Exchange τ} {e : NetError} {t : τ}
    (h : x.sending = (.error e, t)) :
    TimedLink.now x.after.link = TimedLink.now x.client.link ∧
      ∀ s ∈ x.stamps, s.act.isWrite = true := by
  obtain ⟨t', ht', -⟩ := stamped_of_sending h
  obtain ⟨hnow, log, hlog, hw⟩ := stamps_sending hτ x.stamped
  have hlink : x.stamped.after.link = x.stamped.sending.2 := by
    rw [(of_unsent ht').2, ht']
  rw [x.of_stamped.2, stamps, hlink]
  exact ⟨hnow, hlog ▸ hw⟩

/-- An exchange whose request is sent keeps to its deadline. -/
theorem timely_of_sent (hτ : TimedLink.Punctual τ) {x : Exchange τ} {m : Message} {t : τ}
    (h : x.sending = (.ok m, t)) : x.Timely t := by
  obtain ⟨t', ht', rfl⟩ := stamped_of_sending h
  obtain ⟨-, sending, hsending, hw⟩ := stamps_sending hτ x.stamped
  rw [ht'] at hsending
  obtain ⟨hasks, hresult, hafter⟩ := of_sent ht'
  obtain ⟨log, hlog, hv⟩ := (Client.awaits ((TimedLink.now t').plus x.patience) m t').vigil hτ
    (Duration.plus_le_longest _ _) hasks
  have hlink := congrArg Client.link hafter
  have hstamps : x.stamps = sending ++ log := by
    rw [stamps, hlink]
    exact hlog.trans (congrArg (· ++ log) hsending)
  have hnow : TimedLink.now x.after.link = TimedLink.now x.stamped.after.link := by
    rw [x.of_stamped.2]
    rfl
  refine timely_of_vigil hw hstamps hnow ?_
  rw [x.of_stamped.1, hresult, hlink]
  exact hv

/-- **Every exchange over a punctual link keeps to its deadline.** An exchange whose request is not
sent takes no time, and nothing is done in it but writing. -/
theorem timely (hτ : TimedLink.Punctual τ) (x : Exchange τ) :
    (∀ e t, x.sending = (.error e, t) →
      TimedLink.now x.after.link = TimedLink.now x.client.link ∧
        ∀ s ∈ x.stamps, s.act.isWrite = true) ∧
    ∀ m t, x.sending = (.ok m, t) → x.Timely t := by
  constructor
  · intro e t h
    exact onlyWrites_of_unsent hτ h
  · intro m t h
    exact timely_of_sent hτ h

/-- A call during which nothing but datagrams of no use come in, four seconds each. -/
def crowdedCall : Exchange Wire :=
  ⟨⟨{ inbound := [.chunk [0xff, 0], .chunk [0x60, 0x45, 0, 99], .chunk [0x60, 0, 0, 1],
        .chunk [0xff, 0], .chunk [0xff, 0]], delay := .ofSeconds 4 }, 1⟩,
    "/keepalive", [0x7b, 0x7d], .ofSeconds 10⟩

/-- They share the ten seconds that the device waits. -/
theorem timely_crowded :
    (∃ m t, crowdedCall.sending = (.ok m, t) ∧ crowdedCall.Timely t) ∧
      crowdedCall.result = .error .timeout ∧
      crowdedCall.stamps.filterMap Stamp.bound? =
        [.ofSeconds 10, .ofSeconds 6, .ofSeconds 2] := by
  have hsent : crowdedCall.sending.1.toBool = true := by cbv
  rcases h : crowdedCall.sending with ⟨e | m, t⟩ <;> rw [h] at hsent
  · cases hsent
  · exact ⟨⟨m, t, rfl, (timely Wire.punctual crowdedCall).2 m t h⟩, by cbv, by cbv⟩

end Exchange

end EdgeDevice.Coap
