import EdgeDevice.Mqtt.Client
import EdgeDevice.Proofs.Net.Stream

set_option autoImplicit false
set_option relaxedAutoImplicit false

/-!
# Packets as they come in

A packet that comes in is a first byte, the length of the body in up to four groups of seven bits,
and the body. A length may be spelled with more groups than it needs. Reading finds exactly the
packet in front of the bytes that a link holds; only a packet whose body is too long for a client is
not read to its end, and the connection is of no further use then.

## Main definitions

* `EdgeDevice.Mqtt.LengthField` — bytes that spell a length.
* `EdgeDevice.Mqtt.Frame` — a whole packet, and `Frame.receipt`, what reading it comes to.

## Main results

* `EdgeDevice.Mqtt.Frame.read_of_holds` — reading finds the packet in front.
-/

namespace EdgeDevice.Mqtt

/-- Some bytes spell a length, each of them seven bits of it, the low ones first; the top bit of a
byte says that more follow. -/
inductive LengthField : Bytes → Nat → Prop
  | last {b : UInt8} (h : b.toNat < 128) : LengthField [b] b.toNat
  | more {b : UInt8} {field : Bytes} {n : Nat} (h : 128 ≤ b.toNat) (hn : LengthField field n) :
      LengthField (b :: field) (b.toNat % 128 + 128 * n)

/-- A whole packet. -/
structure Frame where
  first : UInt8
  field : Bytes
  body : Bytes
  spells : LengthField field body.length
  length_le : field.length ≤ 4

/-- The bytes of a packet. -/
def Frame.bytes (f : Frame) : Bytes := f.first :: (f.field ++ f.body)

/-- What reading a packet comes to. -/
def Frame.receipt (f : Frame) : Receipt :=
  if f.body.length ≤ maxBody then .packet f.first f.body else .broken

variable {τ : Type} [Link τ] {ending : Ending} {t : τ} {rest : Bytes}

/-- A length is read for what its bytes spell, and what stands behind them is left. -/
theorem Receipt.readLength_of_holds {field : Bytes} {n groups : Nat} (unit sum : Nat)
    (hf : LengthField field n)
    (hg : field.length ≤ groups) (h : Link.Holds ending t (field ++ rest)) :
    ∃ t', readLength groups unit sum t = (.ok (sum + n * unit), t') ∧
      Link.Holds ending t' rest := by
  induction hf generalizing groups unit sum t with
  | @last b hb =>
    obtain ⟨groups, rfl⟩ := Nat.exists_eq_add_one_of_ne_zero (Nat.ne_of_gt hg)
    obtain ⟨t', hr, hrest⟩ := Link.yields_holds.readExact h
    refine ⟨t', ?_, hrest⟩
    rw [readLength, show Link.readExact t 1 = (.ok [b], t') from hr]
    dsimp only
    rw [if_pos (show (([b] : Bytes).headD 0).toNat < 128 from hb)]
    show (Except.ok (sum + b.toNat % 128 * unit), t') = _
    rw [Nat.mod_eq_of_lt hb]
  | @more b field n hb hn ih =>
    obtain ⟨groups, rfl⟩ :=
      Nat.exists_eq_add_one_of_ne_zero (Nat.ne_of_gt (Nat.lt_of_lt_of_le (Nat.succ_pos _) hg))
    have hfirst : Link.Holds ending t ([b] ++ (field ++ rest)) := h
    obtain ⟨t₁, hr, hfield⟩ := Link.yields_holds.readExact hfirst
    obtain ⟨t', hl, hrest⟩ := ih (unit * 128) (sum + b.toNat % 128 * unit)
      (Nat.le_of_succ_le_succ hg) hfield
    refine ⟨t', ?_, hrest⟩
    have hsum : sum + b.toNat % 128 * unit + n * (unit * 128) =
        sum + (b.toNat % 128 + 128 * n) * unit := by
      rw [Nat.add_mul, Nat.add_assoc, Nat.mul_comm unit 128, ← Nat.mul_assoc, Nat.mul_comm n 128]
    rw [readLength, show Link.readExact t 1 = (.ok [b], t₁) from hr]
    dsimp only
    rw [if_neg (show ¬(([b] : Bytes).headD 0).toNat < 128 from Nat.not_lt.2 hb)]
    exact hsum ▸ hl

/-- Behind the last packet reading finds what the ending says. -/
theorem Receipt.read_of_holds_nil (h : Link.Holds ending t []) :
    (read t).1 = match ending with
      | .quiet => .quiet
      | .broken => .broken := by
  have hfound := h.found_of_nil Nat.one_pos
  rcases hr : Link.read t 1 with ⟨found, t'⟩
  rw [hr] at hfound
  rw [read, hr]
  cases ending with
  | quiet => rcases hfound with rfl | rfl <;> rfl
  | broken =>
    obtain ⟨e, rfl, he⟩ := hfound
    cases e with
    | timeout => exact absurd rfl he
    | _ => rfl

/-- **Reading finds the packet in front** of the bytes that a link holds, and the others stay,
unless the packet is too long. -/
theorem Frame.read_of_holds (f : Frame) (h : Link.Holds ending t (f.bytes ++ rest)) :
    ∃ t', Receipt.read t = (f.receipt, t') ∧
      (f.body.length ≤ maxBody → Link.Holds ending t' rest) := by
  have hbytes : Link.Holds ending t (f.first :: (f.field ++ f.body ++ rest)) := h
  obtain ⟨t₁, hfirst, h₁⟩ := Link.yields_holds.read_one hbytes
  rw [List.append_assoc] at h₁
  obtain ⟨t₂, hlength, h₂⟩ :=
    Receipt.readLength_of_holds 1 0 f.spells f.length_le h₁
  rw [Nat.zero_add, Nat.mul_one] at hlength
  rw [Receipt.read, hfirst]
  dsimp only
  rw [Receipt.readBody, hlength]
  dsimp only
  unfold receipt
  by_cases hle : f.body.length ≤ maxBody
  · obtain ⟨t₃, hbody, h₃⟩ := Link.yields_holds.readExact h₂
    rw [if_pos hle, if_pos hle, hbody]
    exact ⟨t₃, rfl, fun _ => h₃⟩
  · rw [if_neg hle, if_neg hle]
    exact ⟨t₂, rfl, fun h => absurd h hle⟩

end EdgeDevice.Mqtt
