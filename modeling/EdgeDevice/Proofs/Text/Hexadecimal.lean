import EdgeDevice.Text.Number

set_option autoImplicit false
set_option relaxedAutoImplicit false

/-!
# Reading hexadecimal

A number that is written in base sixteen is read back as it was. The reader takes digits of either
case and any number of leading zeros; the writer uses lower case and writes no zero in front.

## Main definitions

* `EdgeDevice.Hexadecimal.natural?` — the number that a row of hexadecimal digits spells.

## Main results

* `EdgeDevice.Hexadecimal.natural?_hexadecimal` — what is written is read back.
-/

namespace EdgeDevice.Hexadecimal

/-- The value of a hexadecimal digit of either case. -/
def digit? (c : Char) : Option Nat :=
  if c.isDigit then some (c.toNat - '0'.toNat)
  else if 'a' ≤ c ∧ c ≤ 'f' then some (c.toNat - 'a'.toNat + 10)
  else if 'A' ≤ c ∧ c ≤ 'F' then some (c.toNat - 'A'.toNat + 10)
  else none

/-- Reads one digit behind a number. -/
def shift? (n : Nat) (c : Char) : Option Nat := (digit? c).map (16 * n + ·)

/-- The number that a row of hexadecimal digits spells, the first digit highest; at least one digit
is needed and nothing but digits is allowed. -/
def natural? (cs : List Char) : Option Nat := if cs = [] then none else cs.foldlM shift? 0

/-- The character for a digit is read as that digit. -/
theorem digit?_digitChar {d : Nat} (h : d < 16) : digit? (Nat.digitChar d) = some d := by
  revert d
  decide

/-- The character for a digit behind a number adds the digit to sixteen times the number. -/
theorem shift?_digitChar (n : Nat) {d : Nat} (h : d < 16) :
    shift? n (Nat.digitChar d) = some (16 * n + d) := by
  rw [shift?, digit?_digitChar h, Option.map_some]

/-- Reading the digits of a number one after the other gives the number. -/
theorem foldlM_toDigits (n : Nat) : (Nat.toDigits 16 n).foldlM shift? 0 = some n := by
  induction n using Nat.strongRecOn with
  | ind n ih =>
    rw [Nat.toDigits_eq_if (by decide)]
    split
    · rename_i h
      rw [List.foldlM_cons, shift?_digitChar 0 h, Nat.mul_zero, Nat.zero_add]
      rfl
    · rename_i h
      have hlast : shift? (n / 16) (Nat.digitChar (n % 16)) = some n := by
        rw [shift?_digitChar _ (Nat.mod_lt n (by decide)), Nat.div_add_mod]
      rw [List.foldlM_append, ih (n / 16) (by omega), Option.bind_eq_bind, Option.bind_some,
        List.foldlM_cons, hlast]
      rfl

/-- **What is written is read back.** -/
theorem natural?_hexadecimal (n : Nat) : natural? (hexadecimal n).toList = some n := by
  rw [hexadecimal, String.toList_ofList, natural?, if_neg Nat.toDigits_ne_nil, foldlM_toDigits]

end EdgeDevice.Hexadecimal
