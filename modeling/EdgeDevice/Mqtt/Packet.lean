import EdgeDevice.Bytes
import EdgeDevice.Net.Error

set_option autoImplicit false
set_option relaxedAutoImplicit false

/-!
# Packets of MQTT 3.1.1

A packet is a first byte with its type and flags, the length of what follows in groups of seven bits
with the low group first, and a body. A device sends four types of packet and acts on two.

## Main definitions

* `EdgeDevice.Mqtt.Options` — what a session is asked for with.
* `EdgeDevice.Mqtt.Packet.connect`, `EdgeDevice.Mqtt.Packet.publish?`,
  `EdgeDevice.Mqtt.Packet.ping`, `EdgeDevice.Mqtt.Packet.disconnect` — the packets that are sent.
* `EdgeDevice.Mqtt.Inbound.read` — what a packet that came in says.
-/

namespace EdgeDevice.Mqtt

/-- The longest name of a client that every broker accepts. -/
def maxClientId : Nat := 23

/-- The longest address of a broker. -/
def maxBroker : Nat := 64

/-- The longest body of a packet. -/
def maxBody : Nat := 512

/-- The longest topic of a message that comes in. -/
def maxTopic : Nat := 64

/-- The longest payload of a message that comes in. -/
def maxPayload : Nat := 256

/-- How often a message is delivered. -/
inductive Qos where
  | atMostOnce
  | atLeastOnce
  | exactlyOnce
  deriving DecidableEq, Repr

/-- The number of a quality of service. -/
def Qos.level : Qos → Nat
  | atMostOnce => 0
  | atLeastOnce => 1
  | exactlyOnce => 2

/-- What a session is asked for with. -/
structure Options where
  clientId : Text maxClientId
  /-- Seconds after which the broker gives up on a silent client. -/
  keepAlive : UInt16
  /-- Whether the broker forgets what it knew of the client. -/
  cleanSession : Bool := true
  deriving DecidableEq

/-- The options for a client of the given name, if the name is short enough. -/
def Options.of (clientId : String) (keepAlive : UInt16) : Except NetError Options :=
  match Text.ofString? clientId with
  | some clientId => .ok { clientId := clientId, keepAlive := keepAlive }
  | none => .error .bufferOverflow

/-- A message on a topic. -/
structure Publication where
  topic : Text maxTopic
  payload : Buffer maxPayload
  deriving DecidableEq

/-! ## Packets that are sent -/

namespace Packet

/-- A length in groups of seven bits, the low one first; all but the last have the top bit set. -/
def lengthBytes (n : Nat) : Bytes :=
  if n < 128 then [UInt8.ofNat n] else UInt8.ofNat (n % 128 + 128) :: lengthBytes (n / 128)

/-- A text with its length in two bytes in front. -/
def prefixed (bs : Bytes) : Bytes := Bytes.ofWord bs.length ++ bs

/-- The part of a request for a session that every client sends alike, apart from the flags and the
keep-alive time. -/
def connectHeader (o : Options) : Bytes :=
  prefixed (Bytes.ofText "MQTT") ++ [4, if o.cleanSession then 2 else 0] ++
    Bytes.ofWord o.keepAlive.toNat

/-- The part of a request for a session that names the client. -/
def connectPayload (o : Options) : Bytes := prefixed o.clientId.bytes

/-- A request for a session, in the three pieces in which it is written. -/
def connect (o : Options) : List Bytes :=
  [0x10 :: lengthBytes ((connectHeader o).length + (connectPayload o).length), connectHeader o,
    connectPayload o]

/-- The body of a message on a topic. A message that is to arrive for certain has a number, always
the same one, as nothing is sent twice. -/
def publishBody (topic : String) (payload : Bytes) (qos : Qos) : Bytes :=
  prefixed (Bytes.ofText topic) ++ (if qos = .atMostOnce then [] else Bytes.ofWord 1) ++ payload

/-- A message on a topic in the two pieces in which it is written, if it is not too long. -/
def publish? (topic : String) (payload : Bytes) (qos : Qos) : Option (List Bytes) :=
  let body := publishBody topic payload qos
  if body.length ≤ maxBody then
    some [UInt8.ofNat (0x30 + 2 * qos.level) :: lengthBytes body.length, body]
  else none

/-- A sign of life. -/
def ping : List Bytes := [[0xC0, 0]]

/-- A farewell. -/
def disconnect : List Bytes := [[0xE0, 0]]

end Packet

/-! ## Packets that come in -/

/-- What a packet that came in says. -/
inductive Inbound where
  /-- The broker grants the session. -/
  | accepted
  /-- The broker refuses the session, with a reason. -/
  | refused (reason : UInt8)
  /-- Somebody published a message. -/
  | published (p : Publication)
  /-- Nothing the client acts on. -/
  | other
  deriving DecidableEq

namespace Inbound

/-- The answer to a request for a session. -/
def readConnack (body : Bytes) : Except NetError Inbound :=
  match body with
  | [_, reason] => .ok (if reason = 0 then .accepted else .refused reason)
  | _ => .error .protocolError

/-- A message on a topic. The number that follows the topic of a message sent for certain is left
out. -/
def readPublish (numbered : Bool) (body : Bytes) : Except NetError Inbound :=
  match body with
  | high :: low :: rest =>
    let length := Bytes.word high low
    let skipped := if numbered then 2 else 0
    if rest.length < length then .error .protocolError
    else
      match Bytes.text? (rest.take length) with
      | none => .error .protocolError
      | some topic =>
        if rest.length < length + skipped then .error .protocolError
        else
          match Text.ofString? topic, Buffer.ofBytes? (rest.drop (length + skipped)) with
          | some topic, some payload => .ok (.published ⟨topic, payload⟩)
          | _, _ => .error .bufferOverflow
  | _ => .error .protocolError

/-- What a packet says, by its first byte and its body. -/
def read (first : UInt8) (body : Bytes) : Except NetError Inbound :=
  match first.toNat / 16 with
  | 2 => readConnack body
  | 3 => readPublish (first &&& 0x06 != 0) body
  | _ => .ok .other

end Inbound

end EdgeDevice.Mqtt
