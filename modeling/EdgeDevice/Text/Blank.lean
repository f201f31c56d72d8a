set_option autoImplicit false
set_option relaxedAutoImplicit false

/-!
# Blanks

Three formats skip blanks, each with a set of its own: commands skip the five blanks of `isCommand`,
settings the four of `isSettings`, and the text of a number may be surrounded by any character with
the Unicode property White_Space.

## Main definitions

* `EdgeDevice.Blank.isCommand`, `EdgeDevice.Blank.isSettings` — blanks between the parts of a
  command and of a settings document.
* `EdgeDevice.Blank.isUnicode`, `EdgeDevice.Blank.trim` — blanks around the text of a number.
-/

namespace EdgeDevice.Blank

/-- Blanks of a command: space, tab, line feed, form feed, carriage return. -/
def isCommand (b : UInt8) : Bool :=
  b == 0x20 || b == 0x09 || b == 0x0A || b == 0x0C || b == 0x0D

/-- Blanks of a settings document: space, tab, line feed, carriage return. -/
def isSettings (b : UInt8) : Bool := b == 0x20 || b == 0x09 || b == 0x0A || b == 0x0D

/-- The code points with the Unicode property White_Space, as closed intervals. -/
def unicodeRanges : List (Nat × Nat) :=
  [(0x09, 0x0D), (0x20, 0x20), (0x85, 0x85), (0xA0, 0xA0), (0x1680, 0x1680), (0x2000, 0x200A),
    (0x2028, 0x2029), (0x202F, 0x202F), (0x205F, 0x205F), (0x3000, 0x3000)]

/-- Whether a character has the Unicode property White_Space. -/
def isUnicode (c : Char) : Bool := unicodeRanges.any fun r => r.1 ≤ c.toNat && c.toNat ≤ r.2

/-- The characters without the blanks at both ends. -/
def trim (cs : List Char) : List Char :=
  ((cs.dropWhile isUnicode).reverse.dropWhile isUnicode).reverse

/-- There are 25 such code points. -/
example : (unicodeRanges.map fun r => r.2 + 1 - r.1).sum = 25 := by decide

/-- The blanks of ASCII are blanks. -/
theorem isUnicode_of_isWhitespace {c : Char} (h : c.isWhitespace = true) : isUnicode c = true := by
  simp only [Char.isWhitespace, Bool.or_eq_true, decide_eq_true_eq] at h
  rcases h with ((rfl | rfl) | rfl) | rfl <;> decide

end EdgeDevice.Blank
