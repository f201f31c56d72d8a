set_option autoImplicit false
set_option relaxedAutoImplicit false

/-!
# Bytes with a meaning

The bytes that structure commands, settings documents and paths.

## Main definitions

* `EdgeDevice.Ascii.quote` and the other marks.
* `EdgeDevice.Ascii.isDigit`, `EdgeDevice.Ascii.isLetter` — classes of bytes.
-/

namespace EdgeDevice.Ascii

/-- The quotation mark. -/
def quote : UInt8 := 0x22

/-- The backslash. -/
def backslash : UInt8 := 0x5C

/-- The mark that opens an object. -/
def openBrace : UInt8 := 0x7B

/-- The mark that closes an object. -/
def closeBrace : UInt8 := 0x7D

/-- The mark that opens an array. -/
def openBracket : UInt8 := 0x5B

/-- The mark that closes an array. -/
def closeBracket : UInt8 := 0x5D

/-- The mark between a key and its value. -/
def colon : UInt8 := 0x3A

/-- The mark between two members. -/
def comma : UInt8 := 0x2C

/-- The sign of a negative number. -/
def minus : UInt8 := 0x2D

/-- The sign of a positive number. -/
def plus : UInt8 := 0x2B

/-- The mark in front of a fraction. -/
def point : UInt8 := 0x2E

/-- The digit zero. -/
def zero : UInt8 := 0x30

/-- The digits from zero to nine. -/
def isDigit (b : UInt8) : Bool := 0x30 ≤ b && b ≤ 0x39

/-- The letters without accents, of either case. -/
def isLetter (b : UInt8) : Bool := (0x41 ≤ b && b ≤ 0x5A) || (0x61 ≤ b && b ≤ 0x7A)

/-- The character with the code of the byte. -/
def toChar (b : UInt8) : Char := Char.ofNat b.toNat

end EdgeDevice.Ascii
