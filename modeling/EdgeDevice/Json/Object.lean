import EdgeDevice.Bytes

set_option autoImplicit false
set_option relaxedAutoImplicit false

/-!
# JSON objects

Everything a device sends is a flat JSON object, its members in a fixed order, its values strings or
whole numbers. How such an object gets into a buffer is left to a writer. A device relies on one
thing only: where nothing has to be escaped, the writer puts down the compact form, which has no
blanks, every text as it is between quotes and every number in decimal, and it does so whenever
there is room. That is a law of the writer, apart from the writer itself.

## Main definitions

* `EdgeDevice.Json.Scalar` — a value.
* `EdgeDevice.Json.Plain`, `EdgeDevice.Json.PlainMember` — nothing has to be escaped.
* `EdgeDevice.Json.compact` — the compact form of an object.
* `EdgeDevice.Json.Writer`, `EdgeDevice.Json.Writer.Lawful` — what writes objects, and the law of
  it.
-/

namespace EdgeDevice.Json

/-- A value of a member. -/
inductive Scalar where
  | text (s : String)
  | number (n : Int)
  deriving DecidableEq

/-! ## The compact form -/

/-- A text between quotes, as it is. -/
def inQuotes (s : String) : String := "\"" ++ s ++ "\""

/-- A value in compact form. -/
def Scalar.compact : Scalar → String
  | .text s => inQuotes s
  | .number n => toString n

/-- A member in compact form. -/
def member (m : String × Scalar) : String := inQuotes m.1 ++ ":" ++ m.2.compact

/-- An object with the given members in compact form. -/
def compact (members : List (String × Scalar)) : String :=
  "\x7b" ++ ",".intercalate (members.map member) ++ "\x7d"

/-! ## Texts without escapes -/

/-- Nothing in a text has to be escaped: there is no quote in it, no backslash and no character
below U+0020. -/
def Plain (s : String) : Prop := ∀ c ∈ s.toList, c ≠ '"' ∧ c ≠ '\\' ∧ 0x20 ≤ c.toNat

-- By a look at the characters that are there. There are finitely many characters, so that the
-- search for an instance can also end at a look at all of them, which no evaluation comes to the
-- end of.
instance (s : String) : Decidable (Plain s) :=
  List.decidableBAll (fun c => c ≠ '"' ∧ c ≠ '\\' ∧ 0x20 ≤ c.toNat) s.toList

/-- Nothing in a value has to be escaped. -/
def Scalar.IsPlain : Scalar → Prop
  | .text s => Plain s
  | .number _ => True

/-- Nothing in a member has to be escaped. -/
def PlainMember (m : String × Scalar) : Prop := Plain m.1 ∧ m.2.IsPlain

/-! ## Writers -/

/-- What writes an object with the given members into a buffer of some capacity; there may be no
room for it. -/
class Writer where
  write (capacity : Nat) : List (String × Scalar) → Option (Text capacity)

/-- Where nothing has to be escaped, an object is written in compact form if there is room for
that. -/
class Writer.Lawful [Writer] : Prop where
  write_plain {capacity : Nat} {members : List (String × Scalar)} :
    (∀ m ∈ members, PlainMember m) → (compact members).utf8ByteSize ≤ capacity →
      (Writer.write capacity members).map Text.string = some (compact members)

/-- A lawful writer puts down an object in which nothing has to be escaped if there is room for
it. -/
theorem exists_write [Writer] [Writer.Lawful] {capacity : Nat} {members : List (String × Scalar)}
    (hplain : ∀ m ∈ members, PlainMember m) (hroom : (compact members).utf8ByteSize ≤ capacity) :
    ∃ text : Text capacity,
      Writer.write capacity members = some text ∧ text.string = compact members :=
  Option.map_eq_some_iff.1 (Writer.Lawful.write_plain hplain hroom)

end EdgeDevice.Json
