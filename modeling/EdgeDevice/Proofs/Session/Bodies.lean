import EdgeDevice.Library.Escaping
import EdgeDevice.Proofs.Json.Document
import EdgeDevice.Proofs.Session.Registrar
import EdgeDevice.Proofs.Text.Hexadecimal
import EdgeDevice.Session.Broker

set_option autoImplicit false
set_option relaxedAutoImplicit false

/-!
# What a counterpart can read from a body

The bodies that a device sends are in the form in which it takes commands: the scan that reads
commands also reads them, member by member, and what it yields tells who the device is. There is
room for every body whose address is plain. All of that rests on the law of the writer, and on
nothing else about it.

## Main definitions

* `EdgeDevice.Carries` — a body is there, and a scan yields its members and nothing else.
* `EdgeDevice.SessionContext.Recovered` — the bodies made from a context tell all of it.

## Main results

* `EdgeDevice.SessionContext.recovered` — all bodies are read for what was meant.
-/

namespace EdgeDevice

/-- A body is there, and a scan yields its members and nothing else. -/
def Carries {limit : Nat} (body : Option (Text limit)) (ms : List (String × Command.Value)) :
    Prop :=
  ∃ text, body = some text ∧ Command.pairs text.bytes = ms.map fun m => .pair m.1 m.2

/-- A text in compact form carries what was written. -/
theorem carries_of_compact {limit : Nat} {text : Text limit} {ms : List (String × Json.Scalar)}
    (htext : text.string = Json.compact ms) (hread : ∀ m ∈ ms, Json.Readable m) :
    Carries (some text) (ms.map Json.view) := by
  refine ⟨text, rfl, ?_⟩
  rw [Text.bytes, htext, List.map_map]
  exact Json.pairs_compact hread

/-- **What a lawful writer writes carries what was written**, where nothing has to be escaped and
there is room. -/
theorem carries_write [Json.Writer] [Json.Writer.Lawful] {limit : Nat}
    {ms : List (String × Json.Scalar)} (hread : ∀ m ∈ ms, Json.Readable m)
    (hroom : (Json.compact ms).utf8ByteSize ≤ limit) :
    Carries (Json.Writer.write limit ms) (ms.map Json.view) := by
  obtain ⟨text, hwrite, htext⟩ := Json.exists_write (fun m hm => (hread m hm).1) hroom
  rw [hwrite]
  exact carries_of_compact htext hread

/-! ## A body for a broker -/

namespace BrokerSession

variable {ctx : SessionContext}

/-- In what a broker is told nothing has to be escaped. -/
theorem plain_configuration (ctx : SessionContext) :
    ∀ m ∈ configuration ctx, Json.PlainMember m := by
  have hkeys : Json.Plain "i" ∧ Json.Plain "t" ∧ Json.Plain "s" := by decide
  obtain ⟨hi, ht, hs⟩ := hkeys
  simp only [configuration, List.forall_mem_cons, Json.PlainMember, Json.Scalar.IsPlain]
  exact ⟨⟨hi, ctx.identity.plain_hexId⟩, ⟨ht, ctx.identity.plain_tag⟩, ⟨hs, trivial⟩,
    List.forall_mem_nil _⟩

/-- The configuration fits a body if the period has at most five digits. -/
theorem size_configuration_le (hp : ctx.period < 100000) :
    (Json.compact (configuration ctx)).utf8ByteSize ≤ maxBody := by
  have hid := ctx.identity.size_member_id
  have htag := ctx.identity.size_member_tag
  have hperiod : (Json.member ("s", .number ctx.period)).utf8ByteSize ≤ 9 :=
    size_member_period "s" hp
  rw [configuration, Json.size_compact_cons, Json.size_compact_cons, Json.size_compact_singleton,
    maxBody]
  omega

end BrokerSession

/-! ## All bodies -/

namespace SessionContext

section

variable [Json.Writer]

/-- The bodies made from a context tell all of it: the node id in hexadecimal, the address, the tag
of the kind and the period. -/
structure Recovered (ctx : SessionContext) : Prop where
  registration : Carries (Registrar.registration? ctx)
    [("i", .text ctx.identity.hexId), ("ip", .text ctx.address.string),
      ("t", .text ctx.identity.tag), ("k", .integer ctx.period)]
  configuration : Carries (BrokerSession.configuration? ctx)
    [("i", .text ctx.identity.hexId), ("t", .text ctx.identity.tag), ("s", .integer ctx.period)]
  keepalive : Carries (Registrar.keepalive? ctx) [("i", .text ctx.identity.hexId)]
  /-- The id, read in base sixteen, is the node id. -/
  nodeId : Hexadecimal.natural? ctx.identity.hexId.toList = some ctx.identity.nodeId.toNat
  /-- The tag is that of the kind and of no other. -/
  kind : Kind.ofTag? ctx.identity.tag = some ctx.identity.kind

omit [Json.Writer] in
/-- A period of 16 bits is not too large for a scan. -/
theorem fits_period {ctx : SessionContext} (hp : ctx.period < 65536) :
    Decimal.Fits ctx.period := by
  simp only [Decimal.Fits, Decimal.least, Decimal.greatest]
  omega

/-- **All bodies are read for what was meant**, whatever writes them as long as it is lawful. -/
theorem recovered [Json.Writer.Lawful] (ctx : SessionContext) (ha : Json.Plain ctx.address.string)
    (hp : ctx.period < 65536) : ctx.Recovered where
  registration := by
    have hroom := Registrar.size_registration_le (hp.trans (by decide))
    refine carries_write (fun m hm => ⟨Registrar.plain_registration ha m hm, ?_⟩) hroom
    revert m
    simp [Registrar.registration, Json.Scalar.Fits, fits_period hp]
  configuration := by
    have hroom := BrokerSession.size_configuration_le (hp.trans (by decide))
    refine carries_write (fun m hm => ⟨BrokerSession.plain_configuration ctx m hm, ?_⟩) hroom
    revert m
    simp [BrokerSession.configuration, Json.Scalar.Fits, fits_period hp]
  keepalive := by
    refine carries_write (fun m hm => ⟨Registrar.plain_keepalive ctx m hm, ?_⟩)
      (Registrar.size_keepalive_le ctx)
    revert m
    simp [Registrar.keepalive, Json.Scalar.Fits]
  nodeId := Hexadecimal.natural?_hexadecimal _
  kind := Kind.ofTag?_tag _

end

/-- A thermostat whose id starts with zeros, with the longest period. -/
def remote : SessionContext where
  identity := ⟨#v[0, 0, 0, 0x0c, 0x29, 0xff, 0xfe, 0xa0], .temperatureActuator⟩
  address := ⟨"fd00::212:4b00:a0", by decide⟩
  period := 65535

/-- The bodies of that thermostat, from a writer that escapes where it must. -/
theorem recovered_remote :
    Json.Writer.Lawful ∧ Json.Plain remote.address.string ∧ remote.period < 65536 ∧
      (Registrar.registration? remote).map Text.string =
        some "\x7b\"i\":\"c29fffea0\",\"ip\":\"fd00::212:4b00:a0\",\"t\":\"ta\",\"k\":65535\x7d" ∧
      remote.Recovered := by
  have hplain : Json.Plain remote.address.string := by decide
  have hperiod : remote.period < 65536 := by decide
  exact ⟨inferInstance, hplain, hperiod, by decide +kernel, recovered remote hplain hperiod⟩

end SessionContext

end EdgeDevice
