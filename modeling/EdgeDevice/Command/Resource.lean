import EdgeDevice.Coap.Message
import EdgeDevice.Device.Model

set_option autoImplicit false
set_option relaxedAutoImplicit false

/-!
# The resource on the device that takes commands

A device hosts one resource, named by its kind. A payload put there is read as a command and carried
out; the reply is a code, and a JSON object with an explanation unless the command succeeded.

## Main definitions

* `EdgeDevice.Reply` — code and explanation.
* `EdgeDevice.Model.put` — carries out a payload.
* `EdgeDevice.Model.answer` — answers a request.
-/

namespace EdgeDevice

/-- The longest explanation. -/
def maxReply : Nat := 64

/-- What a put payload is answered with. -/
structure Reply where
  code : Coap.Code
  body : Option (Text maxReply)
  deriving DecidableEq

namespace Reply

/-- Why a command was not carried out. -/
inductive Refusal where
  /-- There is nothing in the payload. -/
  | empty
  /-- The payload says nothing about the subject of the device. -/
  | missing (subject : String)
  /-- The payload cannot be read. -/
  | malformed
  /-- The payload asks for a value that the device cannot take. -/
  | invalid (subject : String) (value : InvalidValue)

/-- The code of a refusal. -/
def Refusal.code : Refusal → Coap.Code
  | .invalid _ _ => .notAcceptable
  | _ => .badRequest

/-- The explanation of a refusal. -/
def Refusal.explanation : Refusal → String
  | .empty => "Empty PUT payload"
  | .missing subject => s!"Missing {subject}"
  | .malformed => "Malformed PUT payload"
  | .invalid subject _ => s!"Requested invalid {subject}"

instance : Loggable Refusal where
  entry
    | .empty => ⟨.warn, "Empty PUT payload"⟩
    | .missing subject => ⟨.warn, s!"PUT payload names no {subject}"⟩
    | .malformed => ⟨.warn, "Malformed PUT payload"⟩
    | .invalid _ v => ⟨.warn, "Invalid value " ++ toString v.value ++ " for " ++ v.key⟩

/-- The reply to a command that was carried out. -/
def success : Reply := ⟨.content, none⟩

/-- The reply without explanation. -/
def bare (code : Coap.Code) : Reply := ⟨code, none⟩

/-- The reply to a command that was refused. -/
def ofRefusal [Json.Writer] (r : Refusal) : Reply :=
  ⟨r.code, Json.Writer.write maxReply [("msg", .text r.explanation)]⟩

end Reply

namespace Model

open Reply (Refusal)

variable [RandomSource] [Json.Writer]

/-- Refuses a command. -/
def refuse (m : Model) (r : Refusal) : Logged (Reply × Model) := do
  Logged.remark r
  return (.ofRefusal r, m)

/-- Carries out the command that a payload spells. -/
def put (m : Model) (payload : Bytes) : Logged (Reply × Model) :=
  if payload.all Blank.isCommand then m.refuse .empty
  else do
    match ← Command.read payload m.keys with
    | .notFound => m.refuse (.missing m.subject)
    | .malformed => m.refuse .malformed
    | .found a => do
      match ← m.obey a with
      | (.ok (), m') => return (.success, m')
      | (.error v, m') => m'.refuse (.invalid m'.subject v)

/-- The reply to a request, by its path and its method. -/
def reply (m : Model) (request : Coap.Message) : Logged (Reply × Model) :=
  if request.path.string ≠ m.kind.resource then return (.bare .notFound, m)
  else if request.code ≠ .put then return (.bare .methodNotAllowed, m)
  else m.put request.payload.bytes

/-- The message that carries a reply: an acknowledgement of a request that asks for one, and a
message of its own with the given id otherwise. -/
def response (request : Coap.Message) (id : UInt16) (reply : Reply) : Coap.Message :=
  let m : Coap.Message :=
    if request.type = .confirmable then
      { type := .acknowledgement, code := reply.code, id := request.id, token := request.token }
    else { type := .nonConfirmable, code := reply.code, id := id, token := request.token }
  match reply.body with
  | none => m
  | some body =>
    match m.setPayload body.bytes with
    | (.ok (), m) => { m with format := some Coap.jsonFormat }
    | (.error _, m) => { m with code := .internalServerError }

/-- Answers a request; the id is for an answer that is no acknowledgement. -/
def answer (m : Model) (request : Coap.Message) (id : UInt16) : Logged (Coap.Message × Model) := do
  let (reply, m) ← m.reply request
  return (response request id reply, m)

end Model

end EdgeDevice
