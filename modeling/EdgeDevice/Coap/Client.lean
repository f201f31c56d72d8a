import EdgeDevice.Coap.Message
import EdgeDevice.Net.Link

set_option autoImplicit false
set_option relaxedAutoImplicit false

/-!
# Asking a server

A client sends one confirmable request at a time and waits for the answer. The answer comes in the
acknowledgement, or later in a message with the token of the request, which is acknowledged in turn
if it asks for that. One deadline bounds the whole exchange: datagrams that are not the answer only
use up the time that is left.

## Main definitions

* `EdgeDevice.Coap.Client` — a link and the next message id.
* `EdgeDevice.Coap.Client.request` — the message that is sent.
* `EdgeDevice.Coap.Verdict` — what a datagram means for an exchange.
* `EdgeDevice.Coap.Client.post` — a whole exchange.
-/

namespace EdgeDevice.Coap

/-- What a datagram means for an exchange. -/
inductive Verdict where
  /-- It is the answer. -/
  | answer (code : Code)
  /-- It is the answer and has to be acknowledged first. -/
  | acknowledge (id : UInt16) (code : Code)
  /-- The server refused the request. -/
  | refused
  /-- It has nothing to do with the exchange, or only says that the answer follows. -/
  | stray
  deriving DecidableEq

namespace Verdict

/-- What a message means for the exchange of a request. -/
def ofMessage (request m : Message) : Verdict :=
  match m.type with
  | .acknowledgement =>
    if m.id = request.id ∧ m.code ≠ .empty then answer m.code else stray
  | .reset => if m.id = request.id then refused else stray
  | .confirmable => if m.token = request.token then acknowledge m.id m.code else stray
  | .nonConfirmable => if m.token = request.token then answer m.code else stray

/-- What a datagram means for the exchange of a request. -/
def ofDatagram (request : Message) (data : Bytes) : Verdict :=
  match Message.decode data with
  | .ok m => ofMessage request m
  | .error _ => stray

end Verdict

/-- One side of a row of exchanges. -/
structure Client (τ : Type) where
  link : τ
  nextId : UInt16 := 1

namespace Client

variable {τ : Type} [TimedLink τ]

/-- The request with a given id. The token is the id, so that two exchanges have the same token only
if they have the same id. -/
def request (id : UInt16) (path : String) (body : Bytes) : Except NetError Message :=
  let m : Message :=
    { type := .confirmable, code := .post, id := id, format := some jsonFormat }
  match m.setToken (Bytes.ofWord id.toNat) with
  | (.error e, _) => .error e
  | (.ok (), m) =>
    match m.setPath path with
    | (.error e, _) => .error e
    | (.ok (), m) =>
      match m.setPayload body with
      | (.error e, _) => .error e
      | (.ok (), m) => .ok m

/-- Sends a message; the answer is the failure, if it fails. -/
def send (t : τ) (m : Message) : Option NetError × τ :=
  match m.encode with
  | .error e => (some e, t)
  | .ok data =>
    match Link.writeAll t [data] with
    | (true, t) => (none, t)
    | (false, t) => (some .writeError, t)

/-- The acknowledgement of a message. -/
def acknowledgement (id : UInt16) : Message :=
  { type := .acknowledgement, code := .empty, id := id }

/-- Waits for the answer to a request until the deadline. -/
def await (deadline : Duration) (request : Message) (t : τ) : Except NetError Code × τ :=
  let remaining := deadline - TimedLink.now t
  if remaining = 0 then (.error .timeout, t)
  else
    match hl : TimedLink.limit t remaining with
    | (some e, t) => (.error e, t)
    | (none, t₁) =>
      match hr : Link.read t₁ maxDatagram with
      | (.error .timeout, t) => (.error .timeout, t)
      | (.error _, t) => (.error .readError, t)
      | (.ok [], t) => (.error .connectionClosed, t)
      | (.ok (b :: bs), t₂) =>
        match Verdict.ofDatagram request (b :: bs) with
        | .answer code => (.ok code, t₂)
        | .acknowledge id code =>
          match send t₂ (acknowledgement id) with
          | (some e, t) => (.error e, t)
          | (none, t) => (.ok code, t)
        | .refused => (.error .connectionRefused, t₂)
        | .stray =>
          have : Link.backlog t₂ < Link.backlog t :=
            Nat.lt_of_lt_of_le (Link.backlog_read_lt hr (List.cons_ne_nil _ _))
              (TimedLink.backlog_le_of_limit hl)
          await deadline request t₂
termination_by Link.backlog t

/-- Posts a body to a path of the server and waits for the code of the answer, for `patience` at
most. Every call uses up a message id, also one that fails before anything is sent. -/
def post (c : Client τ) (path : String) (body : Bytes) (patience : Duration) :
    Except NetError Code × Client τ :=
  let next := c.nextId + 1
  match request c.nextId path body with
  | .error e => (.error e, { c with nextId := next })
  | .ok m =>
    match send c.link m with
    | (some e, t) => (.error e, ⟨t, next⟩)
    | (none, t) =>
      let (result, t) := await ((TimedLink.now t).plus patience) m t
      (result, ⟨t, next⟩)

end Client

end EdgeDevice.Coap
