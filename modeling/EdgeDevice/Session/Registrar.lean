import EdgeDevice.Coap.Client
import EdgeDevice.Json.Object
import EdgeDevice.Json.Settings
import EdgeDevice.Session.Channel

set_option autoImplicit false
set_option relaxedAutoImplicit false

/-!
# Sessions with a registrar

The device registers with a server by a request and keeps the registration alive by further
requests. Every request is answered, or not, before the call is over, so nothing is ever pending and
nothing is ever reported later.

## Main definitions

* `EdgeDevice.Requester` — something that posts a request and waits for the answer.
* `EdgeDevice.RegistrarSettings` — the resources of the server and the time an answer may take.
* `EdgeDevice.Registrar` — the protocol, with its instance of `Channel`.
* `EdgeDevice.Registrar.registration?`, `EdgeDevice.Registrar.keepalive?` — what is posted.
-/

namespace EdgeDevice

/-- Something that posts a body to a path and waits for the code of the answer. -/
class Requester (ρ : Type) where
  post : ρ → String → Bytes → Duration → Except NetError Coap.Code × ρ

instance {τ : Type} [TimedLink τ] : Requester (Coap.Client τ) := ⟨Coap.Client.post⟩

/-- The longest path of a resource. -/
def maxResourcePath : Nat := 32

/-- The resources of the server and the time an answer may take. -/
structure RegistrarSettings where
  /-- Where a session is opened. -/
  registrationPath : Text maxResourcePath := ⟨"/registration", by decide⟩
  /-- Where a session is kept alive. -/
  keepalivePath : Text maxResourcePath := ⟨"/keepalive", by decide⟩
  /-- Where the chosen period is told. -/
  configurationPath : Text maxResourcePath := ⟨"/registration", by decide⟩
  /-- How many seconds an answer may take. -/
  patienceSeconds : Nat := 10
  deriving DecidableEq

namespace RegistrarSettings

/-- The fields of a settings document. -/
def schema : Settings.Schema :=
  [("registration_path", .text maxResourcePath), ("keepalive_path", .text maxResourcePath),
    ("configuration_path", .text maxResourcePath), ("request_timeout_secs", .natural 4294967295)]

/-- Reads settings; what is not there keeps its default. -/
def read [Settings.Reader] (json : Bytes) : Except SettingsError RegistrarSettings :=
  match Settings.Reader.read schema json with
  | none => .error .unreadable
  | some found =>
    let default : RegistrarSettings := {}
    let s : RegistrarSettings :=
      { registrationPath := Settings.textOr found "registration_path" default.registrationPath
        keepalivePath := Settings.textOr found "keepalive_path" default.keepalivePath
        configurationPath := Settings.textOr found "configuration_path" default.configurationPath
        patienceSeconds := Settings.naturalOr found "request_timeout_secs" default.patienceSeconds }
    if s.patienceSeconds = 0 then .error (.invalid "request_timeout_secs") else .ok s

/-- How long an answer may take. -/
def patience (s : RegistrarSettings) : Duration := .ofSeconds s.patienceSeconds

end RegistrarSettings

/-- Sessions with a registrar. -/
structure Registrar (ρ : Type) where
  requester : ρ
  settings : RegistrarSettings

namespace Registrar

/-- The longest body of a request. -/
def maxBody : Nat := 128

/-- What a registrar is told when a session is opened, and when another period is chosen. -/
def registration (ctx : SessionContext) : List (String × Json.Scalar) :=
  [("i", .text ctx.identity.hexId), ("ip", .text ctx.address.string),
    ("t", .text ctx.identity.tag), ("k", .number ctx.period)]

/-- What a registrar is told to keep a session alive. -/
def keepalive (ctx : SessionContext) : List (String × Json.Scalar) :=
  [("i", .text ctx.identity.hexId)]

/-- What a session is opened with, and what tells the chosen period. -/
def registration? [Json.Writer] (ctx : SessionContext) : Option (Text maxBody) :=
  Json.Writer.write maxBody (registration ctx)

/-- What a session is kept alive with. -/
def keepalive? [Json.Writer] (ctx : SessionContext) : Option (Text maxBody) :=
  Json.Writer.write maxBody (keepalive ctx)

/-- What a request is for. -/
inductive Purpose where
  | registration
  | keepalive
  | configuration
  deriving DecidableEq

/-- A purpose by its name. -/
def Purpose.name : Purpose → String
  | registration => "Registration"
  | keepalive => "Keepalive"
  | configuration => "Configuration"

/-- How a request went. -/
inductive Remark where
  /-- There is no room for the body. -/
  | noBody (p : Purpose)
  /-- The server agreed. -/
  | accepted (p : Purpose) (code : Coap.Code)
  /-- The server declined. -/
  | rejected (p : Purpose) (code : Coap.Code)
  /-- No answer came in time. -/
  | timedOut (p : Purpose)
  /-- The request failed. -/
  | failed (p : Purpose) (e : NetError)

instance : Loggable Remark where
  entry
    | .noBody p =>
      ⟨.error, "Cannot build " ++ p.name ++ " body: " ++ NetError.bufferOverflow.message⟩
    | .accepted p code => ⟨.info, p.name ++ " accepted (" ++ code.text ++ ")"⟩
    | .rejected p code => ⟨.warn, p.name ++ " rejected (" ++ code.text ++ ")"⟩
    | .timedOut p => ⟨.warn, p.name ++ " timed out"⟩
    | .failed p e => ⟨.error, p.name ++ " failed: " ++ e.message⟩

variable {ρ : Type}

/-- What the answer to a request comes to. -/
def judge (p : Purpose) : Except NetError Coap.Code → Logged Outcome
  | .ok code =>
    if code.isSuccess then do
      Logged.remark (Remark.accepted p code)
      return .accepted
    else do
      Logged.remark (Remark.rejected p code)
      return .rejected
  | .error .timeout => do
    Logged.remark (Remark.timedOut p)
    return .timedOut
  | .error e => do
    Logged.remark (Remark.failed p e)
    return .rejected

/-- Posts a body and judges the answer. -/
def exchange [Requester ρ] (r : Registrar ρ) (p : Purpose) (path : Text maxResourcePath)
    (body : Option (Text maxBody)) : Logged (Outcome × Registrar ρ) :=
  match body with
  | none => do
    Logged.remark (Remark.noBody p)
    return (.rejected, r)
  | some body => do
    let (answer, q) := Requester.post r.requester path.string body.bytes r.settings.patience
    let outcome ← judge p answer
    return (outcome, { r with requester := q })

instance [Requester ρ] [Json.Writer] : Channel (Registrar ρ) where
  openSession r ctx := do
    let (outcome, r) ← r.exchange .registration r.settings.registrationPath (registration? ctx)
    return (.resolved outcome, r)
  keepAlive r ctx := r.exchange .keepalive r.settings.keepalivePath (keepalive? ctx)
  configure r ctx := r.exchange .configuration r.settings.configurationPath (registration? ctx)
  publish r _ _ := return (.rejected, r)
  nextChange r := return (none, r)
  abandon r := return r
  announces _ := false
  backlog _ := 0
  backlog_openSession_le _ _ := Nat.le_refl _
  backlog_keepAlive_le _ _ := Nat.le_refl _
  backlog_configure_le _ _ := Nat.le_refl _
  backlog_publish_le _ _ _ := Nat.le_refl _
  backlog_abandon_le _ := Nat.le_refl _
  backlog_nextChange_le _ := Nat.le_refl _
  backlog_nextChange_lt h := by simp at h

end Registrar

end EdgeDevice
