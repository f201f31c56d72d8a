import EdgeDevice.Text.Hidden

set_option autoImplicit false
set_option relaxedAutoImplicit false

/-!
# Strings for a reader

Where a name is shown to a reader it stands between quotes, with a backslash in front of what would
be mistaken and with numbers for what could not be seen.

## Main definitions

* `EdgeDevice.Printable.quoted` — a string between quotes.
-/

namespace EdgeDevice.Printable

/-- A character by its number. -/
def numbered (c : Char) : List Char :=
  ['\\', 'u', '\x7b'] ++ Nat.toDigits 16 c.toNat ++ ['\x7d']

/-- A character as it is shown. -/
def escape (c : Char) : List Char :=
  if c = '"' then ['\\', '"']
  else if c = '\\' then ['\\', '\\']
  else if c.toNat = 0 then ['\\', '0']
  else if c = '\t' then ['\\', 't']
  else if c = '\n' then ['\\', 'n']
  else if c = '\r' then ['\\', 'r']
  else if c.toNat < 0x20 ∨ c.toNat = 0x7F ∨ Hidden.isHidden c then numbered c
  else [c]

/-- A string between quotes. -/
def quoted (s : String) : String := "\"" ++ String.ofList (s.toList.flatMap escape) ++ "\""

end EdgeDevice.Printable
