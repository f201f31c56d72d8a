import EdgeDevice.Mqtt.Packet
import EdgeDevice.Net.Link
import EdgeDevice.Text.Printable

set_option autoImplicit false
set_option relaxedAutoImplicit false

/-!
# A client of an MQTT broker

The client asks for a session without waiting for the answer; the answer, like everything else the
broker sends, is found by `Client.poll`, which reads one packet at a time.

## Main definitions

* `EdgeDevice.Mqtt.Client` — a link, the state of the session and whether a connection is open.
* `EdgeDevice.Mqtt.Client.connect`, `EdgeDevice.Mqtt.Client.publish`, `EdgeDevice.Mqtt.Client.ping`,
  `EdgeDevice.Mqtt.Client.disconnect` — what the device does.
* `EdgeDevice.Mqtt.Client.poll` — what the broker does.

## Main results

* `EdgeDevice.Mqtt.Client.backlog_poll_lt` — a poll that reports something has used up some of what
  can come in.
-/

namespace EdgeDevice.Mqtt

/-- How far a session has come. -/
inductive Session where
  /-- There is none. -/
  | idle
  /-- The broker has not answered yet. -/
  | awaiting
  /-- The broker granted it. -/
  | connected
  deriving DecidableEq, Repr

/-- A state of a session by its name. -/
def Session.name : Session → String
  | idle => "Idle"
  | awaiting => "AwaitingConnAck"
  | connected => "Connected"

/-- What a poll reports. -/
inductive Notification where
  /-- The broker granted the session. -/
  | connected
  /-- The broker refused the session, with a reason. -/
  | refused (reason : UInt8)
  /-- The connection is lost. -/
  | disconnected
  /-- Somebody published a message. -/
  | published (p : Publication)
  deriving DecidableEq

/-- A client of a broker. -/
structure Client (τ : Type) where
  link : τ
  broker : Text maxBroker
  options : Options
  /-- Whether a connection is open. -/
  isOpen : Bool := false
  session : Session := .idle

/-- What reading a packet comes to. -/
inductive Receipt where
  /-- There is nothing to read. -/
  | quiet
  /-- The connection is of no further use. -/
  | broken
  /-- A packet came in. -/
  | packet (first : UInt8) (body : Bytes)
  deriving DecidableEq

namespace Receipt

variable {τ : Type} [Link τ]

/-- Reads a length of up to `groups` further groups of seven bits; the next one counts `unit` and
`sum` is what the earlier ones came to. -/
def readLength : Nat → Nat → Nat → τ → Except NetError Nat × τ
  | 0, _, _, t => (.error .protocolError, t)
  | groups + 1, unit, sum, t =>
    match Link.readExact t 1 with
    | (.error e, t) => (.error e, t)
    | (.ok bs, t) =>
      let b := (bs.headD 0).toNat
      let sum := sum + b % 128 * unit
      if b < 128 then (.ok sum, t) else readLength groups (unit * 128) sum t

/-- Reads the length and the body of a packet. -/
def readBody (t : τ) : Except NetError Bytes × τ :=
  match readLength 4 1 0 t with
  | (.error e, t) => (.error e, t)
  | (.ok n, t) => if n ≤ maxBody then Link.readExact t n else (.error .protocolError, t)

/-- Reads one packet. -/
def read (t : τ) : Receipt × τ :=
  match Link.read t 1 with
  | (.error .timeout, t) => (quiet, t)
  | (.error _, t) => (broken, t)
  | (.ok [], t) => (quiet, t)
  | (.ok (first :: _), t) =>
    match readBody t with
    | (.error _, t) => (broken, t)
    | (.ok body, t) => (packet first body, t)

/-- Reading a length adds nothing to what the link holds. -/
theorem backlog_readLength_le (groups unit sum : Nat) (t : τ) :
    Link.backlog (readLength groups unit sum t).2 ≤ Link.backlog t := by
  induction groups generalizing unit sum t with
  | zero => exact Nat.le_refl _
  | succ groups ih =>
    have h := Link.backlog_readExact_le t 1
    unfold readLength
    split <;> rename_i he <;> rw [he] at h
    · exact h
    · dsimp only
      split
      · exact h
      · exact Nat.le_trans (ih ..) h

/-- Reading a body adds nothing to what the link holds. -/
theorem backlog_readBody_le (t : τ) : Link.backlog (readBody t).2 ≤ Link.backlog t := by
  have h := backlog_readLength_le 4 1 0 t
  unfold readBody
  split <;> rename_i he <;> rw [he] at h
  · exact h
  · split
    · exact Nat.le_trans (Link.backlog_readExact_le ..) h
    · exact h

/-- Reading a packet adds nothing to what the link holds. -/
theorem backlog_read_le (t : τ) : Link.backlog (read t).2 ≤ Link.backlog t := by
  have h := Link.backlog_read_le t 1
  unfold read
  split <;> rename_i he <;> rw [he] at h
  · exact h
  · exact h
  · exact h
  · rename_i t₁
    have hb := backlog_readBody_le t₁
    split <;> rename_i hr <;> rw [hr] at hb <;> exact Nat.le_trans hb h

/-- Reading a packet, or finding the connection broken, uses up some of what can come in. -/
theorem backlog_read_lt {t t' : τ} {r : Receipt} (h : read t = (r, t')) (hr : r ≠ quiet) :
    Link.backlog t' < Link.backlog t := by
  unfold read at h
  split at h
  · simp_all
  · rename_i e t₁ hne he
    obtain ⟨-, rfl⟩ := Prod.mk.injEq .. ▸ h
    exact Link.backlog_fail_lt he hne
  · simp_all
  · rename_i first rest t₁ he
    have hlt := Link.backlog_read_lt he (List.cons_ne_nil _ _)
    have hb := backlog_readBody_le t₁
    split at h <;> rename_i hbody <;> rw [hbody] at hb <;>
      obtain ⟨-, rfl⟩ := Prod.mk.injEq .. ▸ h <;> exact Nat.lt_of_le_of_lt hb hlt

end Receipt

namespace Client

variable {τ : Type}

/-- A client for a broker, without a connection. -/
def of (link : τ) (broker : String) (options : Options) : Except NetError (Client τ) :=
  match Text.ofString? broker with
  | some broker => .ok { link := link, broker := broker, options := options }
  | none => .error .invalidAddress

/-- Whether the broker granted the session. -/
def isConnected (c : Client τ) : Bool := c.session == .connected

/-- The client in words. -/
def describe (c : Client τ) : String :=
  "Client \x7b broker: " ++ Printable.quoted c.broker.string ++ ", client_id: " ++
    Printable.quoted c.options.clientId.string ++ ", session: " ++ c.session.name ++ ", open: " ++
    toString c.isOpen ++ " \x7d"

variable [DialLink τ]

/-- Gives up the connection, if there is one, and the session with it. -/
def drop (c : Client τ) : Client τ :=
  { c with link := if c.isOpen then DialLink.close c.link else c.link, isOpen := false,
           session := .idle }

/-- Opens a connection and asks for a session. An earlier connection is given up first. Where the
request cannot be written the new connection is forgotten as it is. -/
def connect (c : Client τ) : Except NetError Unit × Client τ :=
  let c := c.drop
  match DialLink.dial c.link c.broker.string with
  | (false, t) => (.error .connectionRefused, { c with link := t })
  | (true, t) =>
    match Link.writeAll t (Packet.connect c.options) with
    | (false, t) => (.error .writeError, { c with link := t })
    | (true, t) => (.ok (), { c with link := t, isOpen := true, session := .awaiting })

/-- Sends a packet over the connection. -/
def send (c : Client τ) (packet : List Bytes) : Except NetError Unit × Client τ :=
  if c.isOpen then
    match Link.writeAll c.link packet with
    | (true, t) => (.ok (), { c with link := t })
    | (false, t) => (.error .writeError, { c with link := t })
  else (.error .notOpen, c)

/-- Publishes a message on a topic. -/
def publish (c : Client τ) (topic : String) (payload : Bytes) (qos : Qos) :
    Except NetError Unit × Client τ :=
  if c.isConnected then
    match Packet.publish? topic payload qos with
    | some packet => c.send packet
    | none => (.error .bufferOverflow, c)
  else (.error .notOpen, c)

/-- Gives a sign of life. -/
def ping (c : Client τ) : Except NetError Unit × Client τ :=
  if c.isConnected then c.send Packet.ping else (.error .notOpen, c)

/-- Ends the session, with a farewell if the broker had granted it, and gives up the connection. -/
def disconnect (c : Client τ) : Client τ :=
  (if c.isConnected then (c.send Packet.disconnect).2 else c).drop

/-- Acts on a packet. -/
def handle (c : Client τ) (first : UInt8) (body : Bytes) :
    Except NetError (Option Notification) × Client τ :=
  match Inbound.read first body with
  | .error e => (.error e, c)
  | .ok .accepted => (.ok (some .connected), { c with session := .connected })
  | .ok (.refused reason) => (.ok (some (.refused reason)), c.drop)
  | .ok (.published p) => (.ok (some (.published p)), c)
  | .ok .other => (.ok none, c)

/-- Reads at most one packet and acts on it. A connection that fails is given up. -/
def poll (c : Client τ) : Except NetError (Option Notification) × Client τ :=
  if c.isOpen then
    match Receipt.read c.link with
    | (.quiet, t) => (.ok none, { c with link := t })
    | (.broken, t) => (.ok (some .disconnected), { c with link := t }.drop)
    | (.packet first body, t) => { c with link := t }.handle first body
  else (.ok none, c)

/-- Dropping the connection adds nothing to what the link holds. -/
theorem backlog_drop_le (c : Client τ) : Link.backlog c.drop.link ≤ Link.backlog c.link := by
  unfold drop
  dsimp only
  split
  · exact DialLink.backlog_close_le _
  · exact Nat.le_refl _

/-- Asking for a session adds nothing to what the link holds. -/
theorem backlog_connect_le (c : Client τ) :
    Link.backlog c.connect.2.link ≤ Link.backlog c.link := by
  have hd := DialLink.backlog_dial_le c.drop.link c.drop.broker.string
  have h := Nat.le_trans hd (backlog_drop_le c)
  unfold connect
  dsimp only
  split <;> rename_i t he <;> rw [he] at h
  · exact h
  · have hw := Link.backlog_writeAll_le t (Packet.connect c.drop.options)
    split <;> rename_i hp <;> rw [hp] at hw <;> exact Nat.le_trans hw h

/-- Sending a packet adds nothing to what the link holds. -/
theorem backlog_send_le (c : Client τ) (packet : List Bytes) :
    Link.backlog (c.send packet).2.link ≤ Link.backlog c.link := by
  have h := Link.backlog_writeAll_le c.link packet
  unfold send
  split
  · split <;> rename_i he <;> rw [he] at h <;> exact h
  · exact Nat.le_refl _

/-- Publishing adds nothing to what the link holds. -/
theorem backlog_publish_le (c : Client τ) (topic : String) (payload : Bytes) (qos : Qos) :
    Link.backlog (c.publish topic payload qos).2.link ≤ Link.backlog c.link := by
  unfold publish
  split
  · split
    · exact backlog_send_le c _
    · exact Nat.le_refl _
  · exact Nat.le_refl _

/-- A sign of life adds nothing to what the link holds. -/
theorem backlog_ping_le (c : Client τ) : Link.backlog c.ping.2.link ≤ Link.backlog c.link := by
  unfold ping
  split
  · exact backlog_send_le c _
  · exact Nat.le_refl _

/-- Giving up the session adds nothing to what the link holds. -/
theorem backlog_disconnect_le (c : Client τ) :
    Link.backlog c.disconnect.link ≤ Link.backlog c.link := by
  unfold disconnect
  split
  · exact Nat.le_trans (backlog_drop_le _) (backlog_send_le c _)
  · exact backlog_drop_le c

/-- Making sense of a packet adds nothing to what the link holds. -/
theorem backlog_handle_le (c : Client τ) (first : UInt8) (body : Bytes) :
    Link.backlog (c.handle first body).2.link ≤ Link.backlog c.link := by
  unfold handle
  split
  · exact Nat.le_refl _
  · exact Nat.le_refl _
  · exact backlog_drop_le c
  · exact Nat.le_refl _
  · exact Nat.le_refl _

/-- A poll adds nothing to what the link holds. -/
theorem backlog_poll_le (c : Client τ) : Link.backlog c.poll.2.link ≤ Link.backlog c.link := by
  have h := Receipt.backlog_read_le c.link
  unfold poll
  split
  · split <;> rename_i he <;> rw [he] at h
    · exact h
    · exact Nat.le_trans (backlog_drop_le _) h
    · exact Nat.le_trans (backlog_handle_le ..) h
  · exact Nat.le_refl _

/-- A poll that reports something has used up some of what can come in. -/
theorem backlog_poll_lt {c c' : Client τ} {n : Notification} (h : c.poll = (.ok (some n), c')) :
    Link.backlog c'.link < Link.backlog c.link := by
  unfold poll at h
  split at h
  · split at h
    · simp at h
    · rename_i t hr
      obtain ⟨-, rfl⟩ := Prod.mk.injEq .. ▸ h
      exact Nat.lt_of_le_of_lt (backlog_drop_le _)
        (Receipt.backlog_read_lt hr (fun e => by cases e))
    · rename_i first body t hr
      have hl := backlog_handle_le { c with link := t } first body
      rw [h] at hl
      exact Nat.lt_of_le_of_lt hl (Receipt.backlog_read_lt hr (fun e => by cases e))
  · simp at h

end Client

end EdgeDevice.Mqtt
