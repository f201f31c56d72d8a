import EdgeDevice.Bytes

set_option autoImplicit false
set_option relaxedAutoImplicit false

/-!
# Message types and codes of CoAP

A message has one of four types and a code of one byte: three bits for the class, five for the
detail. Class 0 holds the methods, class 2 the successful responses.

## Main definitions

* `EdgeDevice.Coap.MessageType` — the four types, numbered by `MessageType.bits`.
* `EdgeDevice.Coap.Code` — a code; `Code.text` writes it with a point, as in `2.05`.
-/

namespace EdgeDevice.Coap

/-- How a message is to be treated. -/
inductive MessageType where
  /-- To be acknowledged. -/
  | confirmable
  /-- Not to be acknowledged. -/
  | nonConfirmable
  /-- Acknowledges a message, and may carry the response. -/
  | acknowledgement
  /-- Says that a message could not be dealt with. -/
  | reset
  deriving DecidableEq, Repr

namespace MessageType

/-- The number of the type. -/
def bits : MessageType → Nat
  | confirmable => 0
  | nonConfirmable => 1
  | acknowledgement => 2
  | reset => 3

/-- The type with the given number, of which the two low bits count. -/
def ofBits (n : Nat) : MessageType :=
  match n % 4 with
  | 0 => confirmable
  | 1 => nonConfirmable
  | 2 => acknowledgement
  | _ => reset

/-- The bits of a type give the type back. -/
theorem ofBits_bits (t : MessageType) : ofBits t.bits = t := by cases t <;> rfl

/-- A type has two bits. -/
theorem bits_lt (t : MessageType) : t.bits < 4 := by cases t <;> decide

/-- Of a number only the last two bits matter for the type. -/
theorem ofBits_mod (n : Nat) : ofBits (n % 4) = ofBits n := by
  simp only [ofBits, Nat.mod_mod]

/-- The type that is read from a number has the last two bits of the number. -/
theorem bits_ofBits (n : Nat) : (ofBits n).bits = n % 4 := by
  have hlt : n % 4 < 4 := Nat.mod_lt _ (by decide)
  rw [← ofBits_mod]
  match n % 4, hlt with
  | 0, _ => rfl
  | 1, _ => rfl
  | 2, _ => rfl
  | 3, _ => rfl

end MessageType

/-- A method or a response code. -/
structure Code where
  raw : UInt8
  deriving DecidableEq, Repr

namespace Code

/-- The code of a class and a detail, of which the three and the five low bits count. -/
def of (cls detail : UInt8) : Code := ⟨(cls <<< 5) ||| (detail &&& 0x1F)⟩

/-- The code of an empty message. -/
def empty : Code := of 0 0

/-- The method that asks for a representation. -/
def get : Code := of 0 1

/-- The method that hands something over for processing. -/
def post : Code := of 0 2

/-- The method that puts something in place. -/
def put : Code := of 0 3

/-- 2.01. -/
def created : Code := of 2 1

/-- 2.04. -/
def changed : Code := of 2 4

/-- 2.05. -/
def content : Code := of 2 5

/-- 4.00. -/
def badRequest : Code := of 4 0

/-- 4.04. -/
def notFound : Code := of 4 4

/-- 4.05. -/
def methodNotAllowed : Code := of 4 5

/-- 4.06. -/
def notAcceptable : Code := of 4 6

/-- 5.00. -/
def internalServerError : Code := of 5 0

/-- The class: what stands before the point. -/
def cls (c : Code) : Nat := c.raw.toNat / 32

/-- The detail: what stands behind the point. -/
def detail (c : Code) : Nat := c.raw.toNat % 32

/-- A response that reports success. -/
def isSuccess (c : Code) : Bool := c.cls == 2

/-- A method. -/
def isRequest (c : Code) : Bool := c.cls == 0 && c.raw != 0

/-- The code with a point between class and detail, the latter with two digits. -/
def text (c : Code) : String :=
  toString c.cls ++ "." ++ (if c.detail < 10 then "0" else "") ++ toString c.detail

/-- The class of a code is the one it was built from, if that has three bits. -/
theorem cls_of {cls detail : UInt8} (h : cls < 8) : (of cls detail).cls = cls.toNat := by
  have h' : cls.toNat < 8 := h
  have e : of cls detail = ⟨(cls <<< 5) ||| (detail &&& 0x1F)⟩ := rfl
  have hd : detail.toNat % 2 ^ 5 < 2 ^ 5 := Nat.mod_lt _ (by decide)
  have : (detail &&& 0x1F).toNat = detail.toNat % 2 ^ 5 := by
    rw [UInt8.toNat_and]
    exact Nat.and_two_pow_sub_one_eq_mod detail.toNat 5
  simp only [Code.cls, e, UInt8.toNat_or, this, UInt8.toNat_shiftLeft]
  have hs : cls.toNat <<< ((5 : UInt8).toNat % 8) % 2 ^ 8 = 2 ^ 5 * cls.toNat := by
    show cls.toNat <<< 5 % 2 ^ 8 = 2 ^ 5 * cls.toNat
    rw [Nat.shiftLeft_eq]
    omega
  rw [hs, ← Nat.two_pow_add_eq_or_of_lt hd]
  omega

end Code

/-- The content format of JSON documents. -/
def jsonFormat : UInt16 := 50

end EdgeDevice.Coap
