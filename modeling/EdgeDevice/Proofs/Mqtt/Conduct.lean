import EdgeDevice.Proofs.Mqtt.Session
import EdgeDevice.Proofs.Net.Tap

set_option autoImplicit false
set_option relaxedAutoImplicit false

/-!
# What a client of a broker does over its link

Five things can be asked of a client. What each does over the link is read off the record of the
tapped link: publishing and giving a sign of life only write, polling only reads, and whatever gives
up a connection closes it.

## Main definitions

* `EdgeDevice.Mqtt.Call`, `EdgeDevice.Mqtt.Deed` — what is asked of a client, and what came of it.
* `EdgeDevice.Mqtt.Client.perform` — a client does what is asked of it.
* `EdgeDevice.Mqtt.Client.acts` — what it does over its link.
* `EdgeDevice.Mqtt.Client.Conducts` — what it may do over its link.

## Main results

* `EdgeDevice.Mqtt.Client.tapped_perform` — a call is the same over a tapped link.
-/

namespace EdgeDevice.Mqtt

/-- What is asked of a client. -/
inductive Call where
  | connect
  | publish (topic : String) (payload : Bytes) (qos : Qos)
  | ping
  | disconnect
  | poll
  deriving DecidableEq

/-- What was asked of a client, and what came of it. -/
inductive Deed where
  | connect (r : Except NetError Unit)
  | publish (r : Except NetError Unit)
  | ping (r : Except NetError Unit)
  | disconnect
  | poll (r : Except NetError (Option Notification))

/-! ## Reading a packet -/

namespace Receipt

variable {τ : Type} [Link τ]

open LinkAct (OnlyReads)

/-- Reading a length comes to the same over the tapped link, and only reads. -/
theorem agrees_readLength (groups unit sum : Nat) (t : τ) (acts : List LinkAct) :
    Tapped.Agrees OnlyReads acts (readLength groups unit sum t)
      (readLength groups unit sum (⟨t, acts⟩ : Tapped τ)) := by
  induction groups generalizing unit sum t acts with
  | zero => exact .nothing .nil
  | succ groups ih =>
    obtain ⟨more, hmore, hm⟩ := Tapped.agrees_readExact t 1 acts
    unfold readLength
    rw [hm]
    rcases Link.readExact t 1 with ⟨e | bs, t₁⟩
    · exact ⟨more, hmore, rfl⟩
    · dsimp only
      by_cases hlast : (bs.headD 0).toNat < 128
      · rw [if_pos hlast, if_pos hlast]
        exact ⟨more, hmore, rfl⟩
      · rw [if_neg hlast, if_neg hlast]
        obtain ⟨rest, hrest, hr⟩ :=
          ih (unit * 128) (sum + (bs.headD 0).toNat % 128 * unit) t₁ (acts ++ more)
        exact ⟨more ++ rest, hmore.append hrest, by rw [hr, List.append_assoc]⟩

/-- Reading a body comes to the same over the tapped link, and only reads. -/
theorem agrees_readBody (t : τ) (acts : List LinkAct) :
    Tapped.Agrees OnlyReads acts (readBody t) (readBody (⟨t, acts⟩ : Tapped τ)) := by
  obtain ⟨more, hmore, hm⟩ := agrees_readLength 4 1 0 t acts
  unfold readBody
  rw [hm]
  rcases readLength 4 1 0 t with ⟨e | n, t₁⟩
  · exact ⟨more, hmore, rfl⟩
  · dsimp only
    by_cases hn : n ≤ maxBody
    · rw [if_pos hn, if_pos hn]
      obtain ⟨rest, hrest, hr⟩ := Tapped.agrees_readExact t₁ n (acts ++ more)
      exact ⟨more ++ rest, hmore.append hrest, by rw [hr, List.append_assoc]⟩
    · rw [if_neg hn, if_neg hn]
      exact ⟨more, hmore, rfl⟩

/-- Reading a packet is the same over a tapped link. -/
theorem agrees_read (t : τ) (acts : List LinkAct) :
    Tapped.Agrees OnlyReads acts (read t) (read (⟨t, acts⟩ : Tapped τ)) := by
  rcases hr : Link.read t 1 with ⟨found, t₁⟩
  have hone : OnlyReads [.ofRead found] := by simp [OnlyReads]
  unfold read
  rw [Tapped.read_of_read acts hr, hr]
  rcases found with e | _ | ⟨first, rest⟩
  · cases e <;> exact ⟨_, hone, rfl⟩
  · exact ⟨_, hone, rfl⟩
  · obtain ⟨more, hmore, hm⟩ := agrees_readBody t₁ (acts ++ [.ofRead (.ok (first :: rest))])
    dsimp only
    rw [hm]
    refine ⟨_ :: more, hone.append hmore, ?_⟩
    rw [List.append_assoc]
    rcases readBody t₁ with ⟨e | body, t₂⟩ <;> rfl

end Receipt

/-! ## What is asked of a client -/

namespace Client

variable {τ α : Type}

open LinkAct (OnlyReads OnlyWrites)

/-- A client whose link is tapped. -/
def tapped (c : Client τ) (acts : List LinkAct) : Client (Tapped τ) :=
  ⟨⟨c.link, acts⟩, c.broker, c.options, c.isOpen, c.session⟩

/-- **Something comes to the same for a client and for the client with a tapped link** with the
record `acts`, and what it adds to the record has a property. -/
def Agrees (P : List LinkAct → Prop) (acts : List LinkAct) (plain : α × Client τ)
    (tapped : α × Client (Tapped τ)) : Prop :=
  ∃ more, P more ∧ tapped = (plain.1, plain.2.tapped (acts ++ more))

/-- Where nothing is done the record stays. -/
theorem Agrees.nothing {P : List LinkAct → Prop} {r : α} {c : Client τ} {acts : List LinkAct}
    (h : P []) : Agrees P acts (r, c) (r, c.tapped acts) :=
  ⟨[], h, by rw [List.append_nil]⟩

/-- What is done about a connection that a client has and then has no more. -/
def parting (c c' : Client τ) : List LinkAct := if c.isOpen && !c'.isOpen then [.closed] else []

/-- Where the connection stays as it is nothing is done about it. -/
theorem parting_of_isOpen_eq {c c' : Client τ} (h : c'.isOpen = c.isOpen) :
    c.parting c' = [] := by
  unfold parting
  rw [h]
  cases c.isOpen <;> rfl

variable [DialLink τ]

/-- A client does what is asked of it. -/
def perform (c : Client τ) : Call → Deed × Client τ
  | .connect => (.connect c.connect.1, c.connect.2)
  | .publish topic payload qos =>
    (.publish (c.publish topic payload qos).1, (c.publish topic payload qos).2)
  | .ping => (.ping c.ping.1, c.ping.2)
  | .disconnect => (.disconnect, c.disconnect)
  | .poll => (.poll c.poll.1, c.poll.2)

/-- What a client does over its link, the first act in front. -/
def acts (c : Client τ) (call : Call) : List LinkAct := ((c.tapped []).perform call).2.link.acts

/-- What a client that is `c'` after a call may have done over its link in the call. -/
def Conducts (c c' : Client τ) : Call → List LinkAct → Prop
  | .connect, acts => ∃ reached writes, OnlyWrites writes ∧
      acts = c.parting c.drop ++ .dialled c.broker.string reached :: writes
  | .publish .., acts => OnlyWrites acts
  | .ping, acts => OnlyWrites acts
  | .disconnect, acts => ∃ writes, OnlyWrites writes ∧ acts = writes ++ c.parting c.drop
  | .poll, acts => ∃ reads, OnlyReads reads ∧ acts = reads ++ c.parting c'

/-- Giving up a connection comes to the same over the tapped link, with the record of it. -/
theorem drop_tapped (c : Client τ) (acts : List LinkAct) :
    (c.tapped acts).drop = c.drop.tapped (acts ++ c.parting c.drop) := by
  unfold drop parting tapped
  cases c.isOpen
  · simp
  · rfl

/-- Sending comes to the same over the tapped link, and only writes. -/
theorem agrees_send (c : Client τ) (packet : List Bytes) (acts : List LinkAct) :
    Agrees OnlyWrites acts (c.send packet) ((c.tapped acts).send packet) := by
  have htapped : (c.tapped acts).isOpen = c.isOpen := rfl
  unfold send
  rw [htapped]
  cases c.isOpen with
  | false => exact .nothing .nil
  | true =>
    obtain ⟨more, hs, hm⟩ := Tapped.agrees_writeAll c.link packet acts
    have hw := hs.onlyWrites
    have hlink : (c.tapped acts).link = ⟨c.link, acts⟩ := rfl
    rw [if_pos rfl, if_pos rfl, hlink, hm]
    rcases Link.writeAll c.link packet with ⟨_ | _, t⟩ <;> exact ⟨more, hw, rfl⟩

/-- Publishing comes to the same over the tapped link, and only writes. -/
theorem agrees_publish (c : Client τ) (topic : String) (payload : Bytes) (qos : Qos)
    (acts : List LinkAct) :
    Agrees OnlyWrites acts (c.publish topic payload qos)
      ((c.tapped acts).publish topic payload qos) := by
  have htapped : (c.tapped acts).isConnected = c.isConnected := rfl
  unfold publish
  rw [htapped]
  cases c.isConnected with
  | false => exact .nothing .nil
  | true =>
    rw [if_pos rfl, if_pos rfl]
    cases Packet.publish? topic payload qos with
    | none => exact .nothing .nil
    | some packet => exact agrees_send c packet acts

/-- A sign of life comes to the same over the tapped link, and only writes. -/
theorem agrees_ping (c : Client τ) (acts : List LinkAct) :
    Agrees OnlyWrites acts c.ping (c.tapped acts).ping := by
  have htapped : (c.tapped acts).isConnected = c.isConnected := rfl
  unfold ping
  rw [htapped]
  cases c.isConnected with
  | false => exact .nothing .nil
  | true => exact agrees_send c Packet.ping acts

/-- Giving up a session comes to the same over the tapped link: it writes, and then it closes the
connection if there is one. -/
theorem agrees_disconnect (c : Client τ) (acts : List LinkAct) :
    ∃ writes, OnlyWrites writes ∧
      (c.tapped acts).disconnect = c.disconnect.tapped (acts ++ (writes ++ c.parting c.drop)) := by
  have htapped : (c.tapped acts).isConnected = c.isConnected := rfl
  unfold disconnect
  rw [htapped]
  cases c.isConnected with
  | false => exact ⟨[], .nil, drop_tapped c acts⟩
  | true =>
    obtain ⟨writes, hw, hm⟩ := agrees_send c Packet.disconnect acts
    have hopen : (c.send Packet.disconnect).2.parting (c.send Packet.disconnect).2.drop =
        c.parting c.drop := by
      unfold parting
      rw [(send_frame c Packet.disconnect).2]
      rfl
    refine ⟨writes, hw, ?_⟩
    rw [if_pos rfl, if_pos rfl, hm, drop_tapped, hopen, List.append_assoc]

/-- Whether the broker is reached once an earlier connection is given up. -/
def reaches (c : Client τ) : Bool := (DialLink.dial c.drop.link c.broker.string).1

/-- Asking for a session comes to the same over the tapped link: it gives up the connection, opens
another one and writes. -/
theorem agrees_connect (c : Client τ) (acts : List LinkAct) :
    Agrees (fun more => ∃ writes, OnlyWrites writes ∧
        more = c.parting c.drop ++ .dialled c.broker.string c.reaches :: writes) acts
      c.connect (c.tapped acts).connect := by
  have hbroker : c.drop.broker = c.broker := rfl
  have hdial : DialLink.dial (c.drop.tapped (acts ++ c.parting c.drop)).link c.broker.string =
      ((DialLink.dial c.drop.link c.broker.string).1,
        ⟨(DialLink.dial c.drop.link c.broker.string).2, acts ++ c.parting c.drop ++
          [.dialled c.broker.string (DialLink.dial c.drop.link c.broker.string).1]⟩) := rfl
  unfold connect reaches
  rw [drop_tapped]
  dsimp only
  rw [show (c.drop.tapped (acts ++ c.parting c.drop)).broker = c.broker from rfl, hbroker, hdial]
  rcases DialLink.dial c.drop.link c.broker.string with ⟨reached, t⟩
  cases reached with
  | false =>
    refine ⟨_, ⟨[], .nil, rfl⟩, ?_⟩
    rw [← List.append_assoc]
    rfl
  | true =>
    obtain ⟨writes, hs, hm⟩ := Tapped.agrees_writeAll t (Packet.connect c.options)
      (acts ++ c.parting c.drop ++ [.dialled c.broker.string true])
    have hw := hs.onlyWrites
    refine ⟨_, ⟨writes, hw, rfl⟩, ?_⟩
    dsimp only
    rw [show (c.drop.tapped (acts ++ c.parting c.drop)).options = c.options from rfl, hm,
      show c.drop.options = c.options from rfl]
    simp only [List.append_assoc, List.singleton_append]
    rcases Link.writeAll t (Packet.connect c.options) with ⟨_ | _, t'⟩ <;> rfl

/-- What a poll makes of what it received. -/
def receive (c : Client τ) : Receipt → Except NetError (Option Notification) × Client τ
  | .quiet => (.ok none, c)
  | .broken => (.ok (some .disconnected), c.drop)
  | .packet first body => c.handle first body

/-- A poll over an open connection reads a packet and acts on it. -/
theorem poll_of_isOpen {c : Client τ} {receipt : Receipt} {t : τ} (ho : c.isOpen = true)
    (hr : Receipt.read c.link = (receipt, t)) : c.poll = { c with link := t }.receive receipt := by
  unfold poll
  rw [if_pos ho, hr]
  cases receipt <;> rfl

/-- A poll without a connection does nothing. -/
theorem poll_of_not_isOpen {c : Client τ} (ho : c.isOpen = false) : c.poll = (.ok none, c) := by
  unfold poll
  rw [ho]
  rfl

omit [DialLink τ] in
/-- What leaves the connection as it is comes to the same over the tapped link. -/
theorem agrees_of_isOpen_eq (c c' : Client τ) (h : c'.isOpen = c.isOpen) (r : α)
    (acts : List LinkAct) : Agrees (· = c.parting c') acts (r, c') (r, c'.tapped acts) :=
  .nothing (parting_of_isOpen_eq h).symm

/-- Acting on a packet comes to the same over the tapped link, and does nothing but close the
connection. -/
theorem agrees_handle (c : Client τ) (first : UInt8) (body : Bytes) (acts : List LinkAct) :
    Agrees (· = c.parting (c.handle first body).2) acts (c.handle first body)
      ((c.tapped acts).handle first body) := by
  unfold handle
  cases Inbound.read first body with
  | error e => exact agrees_of_isOpen_eq c c rfl _ _
  | ok inbound =>
    cases inbound with
    | accepted => exact agrees_of_isOpen_eq c { c with session := .connected } rfl _ _
    | refused reason => exact ⟨_, rfl, by dsimp only; rw [drop_tapped]⟩
    | published p => exact agrees_of_isOpen_eq c c rfl _ _
    | other => exact agrees_of_isOpen_eq c c rfl _ _

/-- What is made of a packet comes to the same over the tapped link, and does nothing but close the
connection. -/
theorem agrees_receive (c : Client τ) (receipt : Receipt) (acts : List LinkAct) :
    Agrees (· = c.parting (c.receive receipt).2) acts (c.receive receipt)
      ((c.tapped acts).receive receipt) := by
  cases receipt with
  | quiet => exact agrees_of_isOpen_eq c c rfl _ _
  | broken => exact ⟨_, rfl, by rw [receive, receive, drop_tapped]⟩
  | packet first body => exact agrees_handle c first body acts

/-- A poll comes to the same over the tapped link: it reads, and then it closes the connection if
that is over. -/
theorem agrees_poll (c : Client τ) (acts : List LinkAct) :
    Agrees (fun more => ∃ reads, OnlyReads reads ∧ more = reads ++ c.parting c.poll.2) acts
      c.poll (c.tapped acts).poll := by
  cases ho : c.isOpen with
  | false =>
    rw [poll_of_not_isOpen ho, poll_of_not_isOpen (c := c.tapped acts) ho]
    exact .nothing ⟨[], .nil, (parting_of_isOpen_eq rfl).symm⟩
  | true =>
    obtain ⟨reads, hreads, hm⟩ := Receipt.agrees_read c.link acts
    rcases hr : Receipt.read c.link with ⟨receipt, t⟩
    rw [hr] at hm
    obtain ⟨more, rfl, hmore⟩ := agrees_receive { c with link := t } receipt (acts ++ reads)
    rw [poll_of_isOpen ho hr, poll_of_isOpen (c := c.tapped acts) ho hm]
    refine ⟨_, ⟨reads, hreads, rfl⟩, ?_⟩
    rw [← List.append_assoc]
    exact hmore

/-- A call is the same over a tapped link. -/
theorem agrees_perform (c : Client τ) (call : Call) (acts : List LinkAct) :
    Agrees (Conducts c (c.perform call).2 call) acts (c.perform call)
      ((c.tapped acts).perform call) := by
  cases call with
  | connect =>
    obtain ⟨more, ⟨writes, hw, hmore⟩, hm⟩ := c.agrees_connect acts
    exact ⟨more, ⟨c.reaches, writes, hw, hmore⟩, by rw [perform, hm]; rfl⟩
  | publish topic payload qos =>
    obtain ⟨more, hc, hm⟩ := c.agrees_publish topic payload qos acts
    exact ⟨more, hc, by rw [perform, hm]; rfl⟩
  | ping =>
    obtain ⟨more, hc, hm⟩ := c.agrees_ping acts
    exact ⟨more, hc, by rw [perform, hm]; rfl⟩
  | disconnect =>
    obtain ⟨writes, hw, hm⟩ := c.agrees_disconnect acts
    exact ⟨_, ⟨writes, hw, rfl⟩, by rw [perform, hm]; rfl⟩
  | poll =>
    obtain ⟨more, hc, hm⟩ := c.agrees_poll acts
    exact ⟨more, hc, by rw [perform, hm]; rfl⟩

/-- **A call is the same over a tapped link**, and what a client does over its link is what it may
do. -/
theorem tapped_perform (c : Client τ) (call : Call) :
    (c.tapped []).perform call = ((c.perform call).1, (c.perform call).2.tapped (c.acts call)) ∧
      Conducts c (c.perform call).2 call (c.acts call) := by
  obtain ⟨more, hc, hm⟩ := c.agrees_perform call []
  have hacts : c.acts call = more := by
    rw [acts, hm]
    rfl
  rw [hacts]
  exact ⟨hm, hc⟩

end Client

end EdgeDevice.Mqtt
