import EdgeDevice.Coap.Code
import EdgeDevice.Coap.Option
import EdgeDevice.Coap.Path
import EdgeDevice.Net.Error

set_option autoImplicit false
set_option relaxedAutoImplicit false

/-!
# Messages of CoAP

A message has a header of four bytes, a token, options and a payload. Of the options a device needs
only the path of a request and the format of the payload; others are skipped when a datagram is
read and never written.

## Main definitions

* `EdgeDevice.Coap.Message` — a message within the limits of a small device.
* `EdgeDevice.Coap.Message.encode` — the datagram of a message.
* `EdgeDevice.Coap.Message.decode` — the message of a datagram.

## Main results

* `EdgeDevice.Coap.Message.length_header` — a header has four bytes.
-/

namespace EdgeDevice.Coap

/-- The longest token. -/
def maxToken : Nat := 8

/-- The longest path. -/
def maxPath : Nat := 64

/-- The longest payload. -/
def maxPayload : Nat := 128

/-- The longest datagram. -/
def maxDatagram : Nat := 256

/-- A message. -/
structure Message where
  type : MessageType
  code : Code
  /-- Ties an acknowledgement to the message it acknowledges. -/
  id : UInt16
  /-- Ties a response to its request. -/
  token : Buffer maxToken := .empty
  /-- The segments of the path with a slash between neighbours. -/
  path : Text maxPath := .empty
  /-- The format of the payload. -/
  format : Option UInt16 := none
  payload : Buffer maxPayload := .empty
  deriving DecidableEq

namespace Message

/-! ## Building -/

/-- Sets the path to the segments of the one given. A path that does not fit is cut off where the
room ends. -/
def setPath (m : Message) (path : String) : Except NetError Unit × Message :=
  let (path, fits) := Path.extendAll .empty (Path.segments path)
  (if fits then .ok () else .error .bufferOverflow, { m with path := path })

/-- Sets the token, if it fits. -/
def setToken (m : Message) (token : Bytes) : Except NetError Unit × Message :=
  match Buffer.ofBytes? token with
  | some token => (.ok (), { m with token := token })
  | none => (.error .bufferOverflow, m)

/-- Sets the payload, if it fits. -/
def setPayload (m : Message) (payload : Bytes) : Except NetError Unit × Message :=
  match Buffer.ofBytes? payload with
  | some payload => (.ok (), { m with payload := payload })
  | none => (.error .bufferOverflow, m)

/-! ## Encoding -/

/-- The value of a format in as few bytes as it needs. -/
def formatBytes (format : UInt16) : Bytes :=
  if format = 0 then []
  else if format.toNat < 256 then [UInt8.ofNat format.toNat]
  else Bytes.ofWord format.toNat

/-- The options of a message in the order of their numbers. -/
def options (m : Message) : List OptionField :=
  (Path.segments m.path.string).map (fun s => ⟨OptionField.uriPath, Bytes.ofText s⟩) ++
    m.format.toList.map fun f => ⟨OptionField.contentFormat, formatBytes f⟩

/-- The version of the protocol. -/
def version : Nat := 1

/-- The first four bytes of a datagram. -/
def header (type : MessageType) (tokenLength : Nat) (code : Code) (id : UInt16) : Bytes :=
  UInt8.ofNat (version * 64 + type.bits * 16 + tokenLength) :: code.raw :: Bytes.ofWord id.toNat

/-- The bytes of a datagram with any options at all. -/
def serialize (type : MessageType) (code : Code) (id : UInt16) (token : Bytes)
    (options : List OptionField) (payload : Bytes) : Bytes :=
  header type token.length code id ++ token ++ OptionField.writeAll 0 options ++
    Tail.writePayload payload

/-- The bytes of a message. -/
def bytes (m : Message) : Bytes :=
  serialize m.type m.code m.id m.token.bytes m.options m.payload.bytes

/-- The datagram of a message. -/
def encode (m : Message) : Except NetError Bytes :=
  if m.bytes.length ≤ maxDatagram then .ok m.bytes else .error .bufferOverflow

/-- A header takes four bytes. -/
theorem length_header (type : MessageType) (n : Nat) (code : Code) (id : UInt16) :
    (header type n code id).length = 4 := rfl

/-! ## Decoding -/

/-- The number that the bytes of a format spell. It is kept in 32 bits, and what rises above them is
lost. -/
def formatNumber (value : Bytes) : UInt32 :=
  value.foldl (fun acc b => (acc <<< 8) ||| b.toUInt32) 0

/-- Takes one option into account. -/
def applyOption (m : Message) (o : OptionField) : Except NetError Message :=
  if o.number = OptionField.uriPath then
    match Bytes.text? o.value with
    | none => .error .protocolError
    | some segment =>
      match Path.extend? m.path segment with
      | none => .error .bufferOverflow
      | some path => .ok { m with path := path }
  else if o.number = OptionField.contentFormat then
    let n := (formatNumber o.value).toNat
    if n < 65536 then .ok { m with format := some (UInt16.ofNat n) } else .error .protocolError
  else .ok m

/-- Takes what stands behind the token into account. -/
def applyTail (m : Message) (tail : Tail) : Except NetError Message := do
  let m ← tail.options.foldlM applyOption m
  match tail.payload? with
  | none => .error .protocolError
  | some payload =>
    match Buffer.ofBytes? payload with
    | none => .error .bufferOverflow
    | some payload => .ok { m with payload := payload }

/-- The message of a datagram. Of several violations the first one counts. -/
def decode (data : Bytes) : Except NetError Message :=
  match data with
  | first :: code :: high :: low :: rest =>
    let length := first.toNat % 16
    if first.toNat / 64 = version ∧ length ≤ rest.length then
      match Buffer.ofBytes? (rest.take length) with
      | none => .error .protocolError
      | some token =>
        applyTail
          { type := .ofBits (first.toNat / 16), code := ⟨code⟩,
            id := UInt16.ofNat (Bytes.word high low), token := token }
          (Tail.read 0 (rest.drop length))
    else .error .protocolError
  | _ => .error .protocolError

end Message

end EdgeDevice.Coap
