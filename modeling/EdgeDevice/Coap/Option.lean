import EdgeDevice.Bytes

set_option autoImplicit false
set_option relaxedAutoImplicit false

/-!
# Options of a CoAP message

The options stand behind the token in the order of their numbers. Each is written as the difference
of its number to the one before, the length of its value, and the value. Difference and length have
four bits each in a common first byte; larger ones take one or two more bytes:

* up to 12 the number itself;
* up to 268 the marker 13, then one byte with 13 taken off;
* up to 65804 the marker 14, then two bytes with 269 taken off.

The byte `0xFF` ends the options and stands in front of the payload, which is then not empty.

## Main definitions

* `EdgeDevice.Coap.OptionField` — number and value.
* `EdgeDevice.Coap.OptionField.writeAll` — the bytes of a row of options.
* `EdgeDevice.Coap.Tail`, `EdgeDevice.Coap.Tail.read` — what stands behind the token.

## Main results

* `EdgeDevice.Coap.OptionField.length_lt_of_read?` — every option read uses up some bytes.
-/

namespace EdgeDevice.Coap

/-- One option. -/
structure OptionField where
  number : Nat
  value : Bytes
  deriving DecidableEq

namespace OptionField

/-- The option that holds one segment of the path. -/
def uriPath : Nat := 11

/-- The option that holds the format of the payload. -/
def contentFormat : Nat := 12

/-- The four bits and the further bytes in which a difference or a length is written. -/
def extended (n : Nat) : Nat × Bytes :=
  if n < 13 then (n, [])
  else if n < 269 then (13, [UInt8.ofNat (n - 13)])
  else (14, Bytes.ofWord (n - 269))

/-- Reads the further bytes that belong to four bits. -/
def readExtended? (bits : Nat) (bs : Bytes) : Option (Nat × Bytes) :=
  if bits < 13 then some (bits, bs)
  else
    match bits, bs with
    | 13, b :: rest => some (b.toNat + 13, rest)
    | 14, high :: low :: rest => some (Bytes.word high low + 269, rest)
    | _, _ => none

/-- The bytes of one option behind the option `last`. -/
def write (last : Nat) (o : OptionField) : Bytes :=
  let delta := extended (o.number - last)
  let length := extended o.value.length
  UInt8.ofNat (delta.1 * 16 + length.1) :: (delta.2 ++ length.2 ++ o.value)

/-- The bytes of a row of options behind the option `last`. -/
def writeAll : Nat → List OptionField → Bytes
  | _, [] => []
  | last, o :: os => o.write last ++ writeAll o.number os

/-- The largest number of an option. -/
def largest : Nat := 65535

/-- Reads one option behind the option `last`, from its first byte on. -/
def read? (last : Nat) (first : UInt8) (bs : Bytes) : Option (OptionField × Bytes) := do
  let (delta, bs) ← readExtended? (first.toNat / 16) bs
  let (length, bs) ← readExtended? (first.toNat % 16) bs
  if length ≤ bs.length ∧ last + delta ≤ largest then
    some (⟨last + delta, bs.take length⟩, bs.drop length)
  else none

/-- Reading a length or a difference uses up bytes and makes none. -/
theorem length_le_of_readExtended? {bits n : Nat} {bs rest : Bytes}
    (h : readExtended? bits bs = some (n, rest)) : rest.length ≤ bs.length := by
  unfold readExtended? at h
  split at h
  · simp only [Option.some.injEq, Prod.mk.injEq] at h
    exact h.2 ▸ Nat.le_refl _
  · split at h
    · simp only [Option.some.injEq, Prod.mk.injEq] at h
      exact h.2 ▸ Nat.le_succ _
    · simp only [Option.some.injEq, Prod.mk.injEq] at h
      exact h.2 ▸ Nat.le_succ_of_le (Nat.le_succ _)
    · cases h

/-- Reading an option uses up bytes and makes none. -/
theorem length_le_of_read? {last : Nat} {first : UInt8} {bs rest : Bytes} {o : OptionField}
    (h : read? last first bs = some (o, rest)) : rest.length ≤ bs.length := by
  simp only [read?, Option.bind_eq_bind, Option.bind_eq_some_iff] at h
  obtain ⟨⟨delta, bs₁⟩, h₁, ⟨length, bs₂⟩, h₂, h⟩ := h
  have l₁ := length_le_of_readExtended? h₁
  have l₂ := length_le_of_readExtended? h₂
  dsimp only at l₁ l₂ h
  split at h
  · obtain ⟨-, rfl⟩ := Prod.mk.injEq .. ▸ Option.some.injEq .. ▸ h
    rw [List.length_drop]
    omega
  · simp at h

end OptionField

/-! ## What stands behind the token -/

/-- The byte between the options and the payload. -/
def payloadMarker : UInt8 := 0xFF

/-- What stands behind the token: the options that can be read, and then either the payload or a
violation of the format. -/
structure Tail where
  options : List OptionField
  /-- The payload, or `none` where the format is violated. -/
  payload? : Option Bytes
  deriving DecidableEq

namespace Tail

/-- Reads what stands behind the option `last`. -/
def read (last : Nat) (bs : Bytes) : Tail :=
  match bs with
  | [] => ⟨[], some []⟩
  | first :: bs =>
    if first = payloadMarker then ⟨[], if bs.isEmpty then none else some bs⟩
    else
      match h : OptionField.read? last first bs with
      | none => ⟨[], none⟩
      | some (o, rest) =>
        have := OptionField.length_le_of_read? h
        let tail := read o.number rest
        ⟨o :: tail.options, tail.payload?⟩
termination_by bs.length

/-- The bytes of a payload behind the options: nothing for an empty one. -/
def writePayload (payload : Bytes) : Bytes :=
  if payload.isEmpty then [] else payloadMarker :: payload

end Tail

end EdgeDevice.Coap
