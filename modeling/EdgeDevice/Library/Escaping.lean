import EdgeDevice.Json.Object

set_option autoImplicit false
set_option relaxedAutoImplicit false

/-!
# A writer of JSON objects

An object is written without blanks. In a text the quotation mark, the backslash and the characters
below U+0020 are escaped, five of them by a letter; every other character stands for itself. An
object is written if there is room for all of it.

## Main definitions

* `EdgeDevice.Json.Escaping.escape` — a character as it stands between quotes.
* `EdgeDevice.Json.Escaping.object` — a written object, with the instance of `Writer` that comes of
  it.

## Main results

* `EdgeDevice.Json.Escaping.quoted_of_plain` — a plain text stands between quotes as it is.
* `EdgeDevice.Json.Escaping.object_of_plain` — an object in which all is plain is in compact form,
  so that the writer is lawful.
-/

namespace EdgeDevice.Json.Escaping

/-- One of the digits `0` to `9` and `A` to `F`. -/
def upperHexDigit (n : Nat) : Char := (Nat.digitChar n).toUpper

/-- A character as it stands between quotes. -/
def escape (c : Char) : List Char :=
  if c = '"' then ['\\', '"']
  else if c = '\\' then ['\\', '\\']
  else if c.toNat = 0x08 then ['\\', 'b']
  else if c = '\t' then ['\\', 't']
  else if c = '\n' then ['\\', 'n']
  else if c.toNat = 0x0C then ['\\', 'f']
  else if c = '\r' then ['\\', 'r']
  else if c.toNat < 0x20 then
    ['\\', 'u', '0', '0', upperHexDigit (c.toNat / 16), upperHexDigit (c.toNat % 16)]
  else [c]

/-- A string between quotes. -/
def quoted (s : String) : String := "\"" ++ String.ofList (s.toList.flatMap escape) ++ "\""

/-- A value as it is written. -/
def value : Scalar → String
  | .text s => quoted s
  | .number n => toString n

/-- An object with the given members. -/
def object (members : List (String × Scalar)) : String :=
  "\x7b" ++ ",".intercalate (members.map fun m => quoted m.1 ++ ":" ++ value m.2) ++ "\x7d"

instance : Writer := ⟨fun _ members => Text.ofString? (object members)⟩

/-! ## What is plain -/

/-- A character that needs no escape stands for itself. -/
theorem escape_of_plain {c : Char} (h : c ≠ '"' ∧ c ≠ '\\' ∧ 0x20 ≤ c.toNat) : escape c = [c] := by
  obtain ⟨hq, hb, hn⟩ := h
  have hne : ∀ d : Char, d.toNat < 0x20 → c ≠ d := by
    rintro d hd rfl
    omega
  unfold escape
  rw [if_neg hq, if_neg hb, if_neg (by omega), if_neg (hne '\t' (by decide)),
    if_neg (hne '\n' (by decide)), if_neg (by omega), if_neg (hne '\r' (by decide)),
    if_neg (by omega)]

/-- Escaping leaves a plain text as it is. -/
theorem flatMap_escape_of_plain {s : String} (h : Plain s) :
    s.toList.flatMap escape = s.toList := by
  unfold Plain at h
  generalize s.toList = cs at h
  induction cs with
  | nil => rfl
  | cons c cs ih =>
    obtain ⟨hc, hcs⟩ := List.forall_mem_cons.1 h
    rw [List.flatMap_cons, escape_of_plain hc, ih hcs, List.singleton_append]

/-- A plain text stands between quotes as it is. -/
theorem quoted_of_plain {s : String} (h : Plain s) : quoted s = inQuotes s := by
  rw [quoted, flatMap_escape_of_plain h, String.ofList_toList, inQuotes]

/-- A value in which nothing has to be escaped is in compact form. -/
theorem value_of_plain {v : Scalar} (h : v.IsPlain) : value v = v.compact := by
  cases v with
  | text s => exact quoted_of_plain h
  | number n => rfl

/-- An object in which nothing has to be escaped is in compact form. -/
theorem object_of_plain {members : List (String × Scalar)} (h : ∀ m ∈ members, PlainMember m) :
    object members = compact members := by
  have hmembers : members.map (fun m => quoted m.1 ++ ":" ++ value m.2) = members.map member := by
    refine List.map_congr_left fun m hm => ?_
    obtain ⟨hkey, hvalue⟩ := h m hm
    rw [quoted_of_plain hkey, value_of_plain hvalue, member]
  rw [object, hmembers, compact]

instance : Writer.Lawful where
  write_plain {capacity members} h hroom := by
    show (Text.ofString? (object members)).map Text.string = _
    rw [object_of_plain h, Text.ofString?_of_le hroom, Option.map_some]

end EdgeDevice.Json.Escaping
