set_option autoImplicit false
set_option relaxedAutoImplicit false

/-!
# Whole numbers as text

Numbers are written in decimal without leading zeros and read with an optional sign and any number
of leading zeros. A number that is read must fit 64 bits; a number that is kept is moved into the
range of 32 bits.

## Main definitions

* `EdgeDevice.Decimal.natural?` — the number that a row of digits spells.
* `EdgeDevice.Decimal.integer?` — the same with an optional sign, within 64 bits.
* `EdgeDevice.Decimal.clamp` — the nearest number within 32 bits.
* `EdgeDevice.hexadecimal` — a number in lower-case hexadecimal.
-/

namespace EdgeDevice

namespace Decimal

/-- The number that a row of decimal digits spells; at least one digit is needed and nothing but
digits is allowed. -/
def natural? (cs : List Char) : Option Nat :=
  if cs ≠ [] ∧ cs.all Char.isDigit then some (Nat.ofDigitChars 10 cs 0) else none

/-- The smallest number of 64 bits with a sign. -/
def least : Int := -9223372036854775808

/-- The largest number of 64 bits with a sign. -/
def greatest : Int := 9223372036854775807

/-- The number, if it fits 64 bits with a sign. -/
def within? (n : Int) : Option Int := if least ≤ n ∧ n ≤ greatest then some n else none

/-- The number that digits behind an optional sign spell, if it fits 64 bits. -/
def integer? : List Char → Option Int
  | [] => none
  | c :: cs =>
    if c = '-' then (natural? cs).bind fun n => within? (-n)
    else if c = '+' then (natural? cs).bind fun n => within? n
    else (natural? (c :: cs)).bind fun n => within? n

/-- The smallest value a field can hold, the smallest number of 32 bits with a sign. -/
def lowest : Int := -2147483648

/-- The largest value a field can hold, the largest number of 32 bits with a sign. -/
def highest : Int := 2147483647

/-- The nearest number that fits 32 bits with a sign. -/
def clamp (n : Int) : Int := max lowest (min n highest)

/-- A number that fits 32 bits stays as it is. -/
theorem clamp_of_le {n : Int} (hl : lowest ≤ n) (hh : n ≤ highest) : clamp n = n := by
  simp only [clamp]
  omega

end Decimal

/-- A number in hexadecimal with the digits `0` to `9` and `a` to `f`, without leading zeros. -/
def hexadecimal (n : Nat) : String := String.ofList (Nat.toDigits 16 n)

end EdgeDevice
