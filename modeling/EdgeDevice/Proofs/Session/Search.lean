import EdgeDevice.Proofs.Mqtt.Conduct
import EdgeDevice.Proofs.Mqtt.Frame
import EdgeDevice.Proofs.Node.Order

set_option autoImplicit false
set_option relaxedAutoImplicit false

/-!
# The search for a change of the session

What the broker has sent by now is a row of packets, some of which change the session. A search
comes to the first of these unless something stands in front of it: messages that others published
are passed over, but any other packet that says nothing to the device, and any packet that makes no
sense, ends the search with nothing found. A node then goes on to a timer that is due.

## Main definitions

* `EdgeDevice.Mqtt.Frame.change?` — the change of the session that a packet is.
* `EdgeDevice.BrokerSession.firstChange` — the first change among the packets that are there.
* `EdgeDevice.BrokerSession.Offers` — the packets that are there to be read.
* `EdgeDevice.BrokerSession.Unobstructed` — nothing but messages stands in front of the change.

## Main results

* `EdgeDevice.BrokerSession.nextChange_of_holds` — what a search comes to.
* `EdgeDevice.BrokerSession.nextChange_eq_firstChange_iff` — when a search finds the first change.
* `EdgeDevice.BrokerSession.grant_behind_echo` — a change that is not found.
-/

namespace EdgeDevice

open Mqtt

namespace Mqtt.Inbound

/-- The change of the session that a packet speaks of. -/
def change? : Inbound → Option SessionChange
  | accepted => some .connected
  | refused _ => some .disconnected
  | published _ => none
  | other => none

/-- A message that somebody published is no change. -/
theorem change?_readPublish (numbered : Bool) (body : Bytes) :
    (readPublish numbered body).toOption.bind change? = none := by
  unfold readPublish
  dsimp only
  repeat' split
  all_goals rfl

end Mqtt.Inbound

namespace Mqtt.Frame

/-- The change of the session that a packet is: the session is granted or refused, or the packet is
too long for the client, which loses the connection by that. -/
def change? (f : Frame) : Option SessionChange :=
  if maxBody < f.body.length then some .disconnected
  else if f.first.toNat / 16 = 2 then
    match f.body with
    | [_, reason] => some (if reason = 0 then .connected else .disconnected)
    | _ => none
  else none

/-- Whether a packet is a message that somebody published and that the client can take. -/
def isPublication (f : Frame) : Bool :=
  decide (f.body.length ≤ maxBody) &&
    match Inbound.read f.first f.body with
    | .ok (.published _) => true
    | _ => false

/-- A packet is a publication exactly if it is not too long and reads as a message. -/
theorem isPublication_iff {f : Frame} :
    f.isPublication = true ↔
      f.body.length ≤ maxBody ∧ ∃ p, Inbound.read f.first f.body = .ok (.published p) := by
  unfold isPublication
  rw [Bool.and_eq_true, decide_eq_true_iff]
  refine and_congr_right fun _ => ?_
  split
  · rename_i p hp
    exact ⟨fun _ => ⟨p, hp⟩, fun _ => rfl⟩
  · rename_i hne
    exact ⟨fun h => (by cases h), fun ⟨p, hp⟩ => absurd hp (hne p)⟩

/-- The change of the session that a packet of a length the client can take is, as the client reads
it. -/
theorem change?_of_le {f : Frame} (h : f.body.length ≤ maxBody) :
    f.change? = (Inbound.read f.first f.body).toOption.bind Inbound.change? := by
  unfold change?
  rw [if_neg (Nat.not_lt.2 h)]
  unfold Inbound.read
  split
  · rename_i htype
    rw [htype]
    unfold Inbound.readConnack
    rcases f.body with _ | ⟨_, _ | ⟨reason, _ | _⟩⟩
    · rfl
    · rfl
    · dsimp only
      by_cases hr : reason = 0
      · rw [if_pos hr, if_pos hr]
        rfl
      · rw [if_neg hr, if_neg hr]
        rfl
    · rfl
  · rename_i htype
    split
    · rename_i h2
      exact absurd h2 htype
    · exact (Inbound.change?_readPublish ..).symm
    · rfl

/-- A message is no change of the session. -/
theorem change?_of_isPublication {f : Frame} (h : f.isPublication = true) : f.change? = none := by
  obtain ⟨hlen, p, hp⟩ := isPublication_iff.1 h
  rw [change?_of_le hlen, hp]
  rfl

end Mqtt.Frame

namespace Node

/-- What a node takes in while there is room: the change that is found, or else a timer. -/
theorem taken?_eq [RandomSource] {σ : Type} [Channel σ] {n : Node σ} (h : n.queue.isFull = false) :
    n.taken? = ((Channel.nextChange n.channel).value.1.map .session).or
      ((n.timers.firstDue n.now).map .timer) := by
  unfold taken?
  rw [h]
  rcases (Channel.nextChange n.channel).value.1 with _ | change <;> rfl

/-- What is taken in tells the change that was found. -/
theorem session_or_timer_inj {found found' : Option SessionChange} {due : Option TimerId} :
    (found.map NodeEvent.session).or (due.map .timer) =
      (found'.map NodeEvent.session).or (due.map .timer) ↔ found = found' := by
  cases found <;> cases found' <;> cases due <;> simp

end Node

/-- The change of the session that comes behind the packets: the connection is lost if the link
fails. -/
def Ending.change? : Ending → Option SessionChange
  | quiet => none
  | broken => some .disconnected

namespace BrokerSession

variable {τ : Type} [DialLink τ] {ending : Ending}

/-- The first change of the session among some packets and what comes behind them. -/
def firstChange (frames : List Frame) (ending : Ending) : Option SessionChange :=
  (frames.findSome? Frame.change?).or ending.change?

/-- Nothing but messages stands in front of the first change. -/
def Unobstructed (frames : List Frame) : Prop :=
  ∀ f ∈ frames.takeWhile (·.change?.isNone), f.isPublication = true

instance (frames : List Frame) : Decidable (Unobstructed frames) :=
  inferInstanceAs (Decidable (∀ f ∈ _, _))

/-- **The packets that are there to be read.** The link holds just these; where no connection is
open there are none. -/
def Offers (b : BrokerSession τ) (frames : List Frame) (ending : Ending) : Prop :=
  if b.client.isOpen then Link.Holds ending b.client.link (frames.flatMap Frame.bytes)
  else frames = [] ∧ ending = .quiet

/-! ## A search -/

/-- A message is passed over. -/
theorem nextChange_of_published {b : BrokerSession τ} {p : Publication} {c : Client τ}
    (h : b.client.poll = (.ok (some (.published p)), c)) :
    b.nextChange.value = ({ b with client := c } : BrokerSession τ).nextChange.value := by
  rw [nextChange]
  split <;> rename_i h' <;> cases h.symm.trans h'
  rfl

/-- Anything else ends the search. -/
theorem nextChange_of_not_published {b : BrokerSession τ}
    (h : ∀ p, b.client.poll.1 ≠ .ok (some (.published p))) :
    b.nextChange.value.1 = changeOf b.client.poll.1 := by
  rw [nextChange]
  split <;> rename_i hp
  case h_4 => exact absurd (congrArg Prod.fst hp) (h _)
  all_goals
    rw [hp]
    rfl

/-- What a client makes of the body of a packet. -/
theorem handle_cases (c : Client τ) (first : UInt8) (body : Bytes) :
    (∃ p, Inbound.read first body = .ok (.published p) ∧
        c.handle first body = (.ok (some (.published p)), c)) ∨
      (∀ p, Inbound.read first body ≠ .ok (.published p)) ∧
        (∀ p, (c.handle first body).1 ≠ .ok (some (.published p))) ∧
          changeOf (c.handle first body).1 =
            (Inbound.read first body).toOption.bind Inbound.change? := by
  unfold Client.handle
  cases Inbound.read first body with
  | error e => exact .inr ⟨by rintro p ⟨⟩, by rintro p ⟨⟩, rfl⟩
  | ok inbound =>
    cases inbound with
    | published p => exact .inl ⟨p, rfl, rfl⟩
    | accepted => exact .inr ⟨by rintro p ⟨⟩, by rintro p ⟨⟩, rfl⟩
    | refused reason => exact .inr ⟨by rintro p ⟨⟩, by rintro p ⟨⟩, rfl⟩
    | other => exact .inr ⟨by rintro p ⟨⟩, by rintro p ⟨⟩, rfl⟩

/-- What a client makes of a packet: it is a message, or the client reports the change that it
is. -/
theorem receive_receipt (c : Client τ) (f : Frame) :
    (f.isPublication = true ∧ f.body.length ≤ Mqtt.maxBody ∧
        ∃ p, c.receive f.receipt = (.ok (some (.published p)), c)) ∨
      f.isPublication = false ∧ (∀ p, (c.receive f.receipt).1 ≠ .ok (some (.published p))) ∧
        changeOf (c.receive f.receipt).1 = f.change? := by
  by_cases hlen : f.body.length ≤ Mqtt.maxBody
  · have hreceipt : f.receipt = .packet f.first f.body := if_pos hlen
    rw [hreceipt, Frame.change?_of_le hlen]
    rcases handle_cases c f.first f.body with ⟨p, hp, hh⟩ | ⟨hp, hh⟩
    · exact .inl ⟨Frame.isPublication_iff.2 ⟨hlen, p, hp⟩, hlen, p, hh⟩
    · refine .inr ⟨?_, hh⟩
      rw [← Bool.not_eq_true, Frame.isPublication_iff]
      rintro ⟨-, p, hp'⟩
      exact hp p hp'
  · have hreceipt : f.receipt = .broken := if_neg hlen
    have hchange : f.change? = some .disconnected := if_pos (Nat.lt_of_not_le hlen)
    rw [hreceipt, hchange]
    refine .inr ⟨?_, by rintro p ⟨⟩, rfl⟩
    rw [← Bool.not_eq_true, Frame.isPublication_iff]
    exact fun h => hlen h.1

/-- What a search comes to among some packets. -/
def search (ending : Ending) : List Frame → Option SessionChange
  | [] => ending.change?
  | f :: fs => if f.isPublication then search ending fs else f.change?

/-- **What a search comes to.** -/
theorem nextChange_of_holds {b : BrokerSession τ} {frames : List Frame}
    (ho : b.client.isOpen = true)
    (h : Link.Holds ending b.client.link (frames.flatMap Frame.bytes)) :
    b.nextChange.value.1 = search ending frames := by
  induction frames generalizing b with
  | nil =>
    have hread := Receipt.read_of_holds_nil h
    rcases hr : Receipt.read b.client.link with ⟨receipt, t⟩
    rw [hr] at hread
    have hpoll := Client.poll_of_isOpen ho hr
    rw [nextChange_of_not_published, hpoll]
    · cases ending <;> obtain rfl := hread <;> rfl
    · rw [hpoll]
      cases ending <;> obtain rfl := hread <;> rintro p ⟨⟩
  | cons f fs ih =>
    obtain ⟨t, hr, hrest⟩ := f.read_of_holds h
    have hpoll := Client.poll_of_isOpen ho hr
    rcases receive_receipt { b.client with link := t } f with ⟨hp, hlen, p, hrec⟩ | ⟨hp, hrec, hc⟩
    · rw [nextChange_of_published (hpoll.trans hrec), search, if_pos hp]
      exact ih ho (hrest hlen)
    · rw [nextChange_of_not_published (hpoll ▸ hrec), hpoll, hc, search, hp]
      rfl

/-- The first change is that of the packet in front, or else the first one behind it. -/
theorem firstChange_cons (f : Frame) (fs : List Frame) (ending : Ending) :
    firstChange (f :: fs) ending = f.change?.or (firstChange fs ending) := by
  unfold firstChange
  rw [List.findSome?_cons]
  cases f.change? <;> rfl

/-- Nothing but messages stands in front of the first change, if the packet in front is that change,
or a message with nothing but messages behind it. -/
theorem unobstructed_cons {f : Frame} {fs : List Frame} :
    Unobstructed (f :: fs) ↔
      (f.change? = none → f.isPublication = true ∧ Unobstructed fs) := by
  unfold Unobstructed
  cases hc : f.change? with
  | none =>
    rw [List.takeWhile_cons_of_pos (by simp [hc]), List.forall_mem_cons]
    simp
  | some change =>
    rw [List.takeWhile_cons_of_neg (by simp [hc])]
    simp

/-- A search finds the first change or nothing. -/
theorem search_eq_firstChange_or (ending : Ending) (frames : List Frame) :
    search ending frames = firstChange frames ending ∨ search ending frames = none := by
  induction frames with
  | nil => exact .inl rfl
  | cons f fs ih =>
    rw [search, firstChange_cons]
    cases hp : f.isPublication with
    | true =>
      rw [Frame.change?_of_isPublication hp]
      exact ih
    | false =>
      cases f.change? with
      | none => exact .inr rfl
      | some change => exact .inl rfl

/-- A search finds the first change exactly if nothing but messages stands in front of it. -/
theorem search_eq_firstChange_iff (ending : Ending) (frames : List Frame) :
    search ending frames = firstChange frames ending ↔
      firstChange frames ending = none ∨ Unobstructed frames := by
  induction frames with
  | nil =>
    refine iff_of_true rfl (.inr ?_)
    simp [Unobstructed]
  | cons f fs ih =>
    rw [search, firstChange_cons, unobstructed_cons]
    cases hp : f.isPublication with
    | true =>
      rw [Frame.change?_of_isPublication hp]
      simpa using ih
    | false =>
      cases f.change? with
      | none => simp [eq_comm]
      | some change => simp

variable {b : BrokerSession τ} {frames : List Frame}

/-- What a session reports next is what a search among the packets comes to. -/
theorem nextChange_of_offers (h : b.Offers frames ending) :
    b.nextChange.value.1 = search ending frames := by
  unfold Offers at h
  split at h
  · rename_i ho
    exact nextChange_of_holds ho h
  · rename_i ho
    obtain ⟨rfl, rfl⟩ := h
    have hpoll := Client.poll_of_not_isOpen (eq_false_of_ne_true ho)
    rw [nextChange_of_not_published, hpoll]
    · rfl
    · rw [hpoll]
      rintro p ⟨⟩

/-- **When a search finds the first change.** It finds that change or nothing, and it finds it
exactly if nothing but messages stands in front of it. Exactly then a node with room in its queue
takes the change in before a timer that is due. -/
theorem nextChange_eq_firstChange_iff [RandomSource] [Json.Writer] (h : b.Offers frames ending) :
    (b.nextChange.value.1 = firstChange frames ending ∨ b.nextChange.value.1 = none) ∧
      (b.nextChange.value.1 = firstChange frames ending ↔
        firstChange frames ending = none ∨ Unobstructed frames) ∧
      ∀ n : Node (BrokerSession τ), n.channel = b → n.queue.isFull = false →
        (n.taken? = ((firstChange frames ending).map .session).or
            ((n.timers.firstDue n.now).map .timer) ↔
          firstChange frames ending = none ∨ Unobstructed frames) := by
  have hsearch := nextChange_of_offers h
  have hiff := search_eq_firstChange_iff ending frames
  refine ⟨hsearch ▸ search_eq_firstChange_or ending frames, hsearch ▸ hiff, ?_⟩
  rintro n rfl hroom
  rw [Node.taken?_eq hroom, Node.session_or_timer_inj, ← hiff, ← hsearch]
  rfl

/-- The broker grants a session. -/
def grant : Frame := ⟨0x20, [2], [0, 0], .last (by decide), by decide⟩

/-- The broker answers a sign of life. -/
def echo : Frame := ⟨0xD0, [0], [], .last (by decide), by decide⟩

/-- Somebody says hi. -/
def greeting : Frame := ⟨0x30, [5], [0, 1, 0x61, 0x68, 0x69], .last (by decide), by decide⟩

/-- A session that was asked for, when the broker has sent some packets. -/
def pending (sent : List Delivery) : BrokerSession Wire :=
  let broker : Text Mqtt.maxBroker := ⟨"[fd00::b]:1883", by decide⟩
  { client := { link := { inbound := sent }, broker := broker,
                options := ⟨⟨"greenhouse", by decide⟩, 90, true⟩, isOpen := true,
                session := .awaiting }
    settings := { broker := broker, configurationTopic := ⟨"period", by decide⟩ } }

/-- A node that has waited for its session long enough. -/
def overdue (b : BrokerSession Wire) : Node (BrokerSession Wire) :=
  { identity := thermostat, settings := {}, channel := b, dial := .ofKind thermostat.kind,
    timers := { sessionDeadline := some .start }, button := { threshold := 3 },
    model := .ofKind thermostat.kind thermostat.nodeId, awaiting := true, replyId := 0 }

/-- A grant behind a greeting is found, in whatever pieces they come, and in time. -/
theorem grant_behind_greeting :
    let sent : List Bytes := [[0x30, 5, 0, 1, 0x61], [0x68, 0x69, 0x20, 2], [0, 0]]
    let b := pending (sent.map .chunk)
    b.Offers [greeting, grant] .quiet ∧ b.nextChange.value.1 = some .connected ∧
      (overdue b).taken? = some (.session .connected) := by
  intro sent b
  have hne : ∀ bs ∈ sent, bs ≠ [] := by decide
  have hheld : Link.Holds .quiet b.client.link sent.flatten := Wire.holds_flatten hne rfl
  have hoffers : b.Offers [greeting, grant] .quiet := hheld
  have hfirst : firstChange [greeting, grant] .quiet = some .connected := by decide
  have hclear : Unobstructed [greeting, grant] := by decide +kernel
  obtain ⟨-, hfound, htaken⟩ := nextChange_eq_firstChange_iff hoffers
  have htaken := (htaken (overdue b) rfl rfl).2 (.inr hclear)
  rw [hfirst] at hfound htaken
  exact ⟨hoffers, hfound.2 (.inr hclear), htaken⟩

/-- A grant behind the answer to a sign of life is not found, and the time that the node waits for
it is up first. -/
theorem grant_behind_echo :
    let b := pending [.chunk [0xD0, 0], .chunk [0x20, 2, 0, 0]]
    b.Offers [echo, grant] .quiet ∧ firstChange [echo, grant] .quiet = some .connected ∧
      b.nextChange.value.1 = none ∧ (overdue b).taken? = some (.timer .sessionDeadline) := by
  intro b
  have hne : ∀ bs ∈ ([[0xD0, 0], [0x20, 2, 0, 0]] : List Bytes), bs ≠ [] := by decide
  have hoffers : b.Offers [echo, grant] .quiet := Wire.holds_flatten hne rfl
  have hsearch : b.nextChange.value.1 = none := nextChange_of_offers hoffers
  refine ⟨hoffers, by decide, hsearch, ?_⟩
  rw [Node.taken?_eq rfl, show (Channel.nextChange (overdue b).channel).value.1 = none from hsearch]
  decide

end BrokerSession

end EdgeDevice
