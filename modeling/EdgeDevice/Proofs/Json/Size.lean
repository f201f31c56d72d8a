import EdgeDevice.Json.Object
import EdgeDevice.Text.Number
import Mathlib.Algebra.Group.Nat.Defs

set_option autoImplicit false
set_option relaxedAutoImplicit false

/-!
# How long written values are

In compact form a number takes one byte a digit, and a text takes two bytes more than it has, for
the quotes. An object takes a byte for each bracket, colon and comma besides.

## Main results

* `EdgeDevice.size_hexadecimal_le`, `EdgeDevice.size_decimal_le`, `EdgeDevice.size_integer_le` — the
  size of a number.
* `EdgeDevice.Json.plain_hexadecimal` — a number in hexadecimal is plain.
* `EdgeDevice.Json.size_compact_singleton`, `EdgeDevice.Json.size_compact_cons` — the size of an
  object, member by member, and `EdgeDevice.Json.size_compact_le`, a bound on it.
-/

namespace EdgeDevice

/-! ## Numbers -/

/-- The characters that stand for digits, and the one that stands for what is no digit. -/
def digitChars : List Char :=
  ['0', '1', '2', '3', '4', '5', '6', '7', '8', '9', 'a', 'b', 'c', 'd', 'e', 'f', '*']

/-- The character that stands for a number is one of a few. -/
theorem digitChar_mem (d : Nat) : Nat.digitChar d ∈ digitChars := by
  rcases Nat.lt_or_ge d 16 with h | h
  · revert d
    decide
  · rw [Nat.digitChar_eq_star.2 h]
    decide

/-- A written number is made of the characters that stand for digits. -/
theorem mem_digitChars_of_mem_toDigits {b n : Nat} (hb : 1 < b) {c : Char}
    (h : c ∈ Nat.toDigits b n) : c ∈ digitChars := by
  induction n using Nat.strongRecOn with
  | ind n ih =>
    rw [Nat.toDigits_eq_if hb] at h
    split at h
    · exact List.mem_singleton.1 h ▸ digitChar_mem n
    · rcases List.mem_append.1 h with h | h
      · exact ih (n / b) (Nat.div_lt_self (by omega) hb) h
      · exact List.mem_singleton.1 h ▸ digitChar_mem (n % b)

/-- Characters of one byte each take as many bytes as there are. -/
theorem size_ofList {cs : List Char} (h : ∀ c ∈ cs, c.utf8Size = 1) :
    (String.ofList cs).utf8ByteSize = cs.length := by
  induction cs with
  | nil => rfl
  | cons c cs ih =>
    obtain ⟨hc, hcs⟩ := List.forall_mem_cons.1 h
    rw [String.ofList_cons, String.utf8ByteSize_append, String.utf8ByteSize_singleton, hc, ih hcs,
      List.length_cons, Nat.add_comm]

/-- A number below a power of the base has at most as many digits as the exponent says. -/
theorem size_toDigits_le {b n k : Nat} (hb : 1 < b) (hk : 0 < k) (h : n < b ^ k) :
    (String.ofList (Nat.toDigits b n)).utf8ByteSize ≤ k := by
  have hsize : digitChars.all (fun c => c.utf8Size == 1) = true := by decide
  rw [size_ofList fun c hc =>
    eq_of_beq (List.all_eq_true.1 hsize c (mem_digitChars_of_mem_toDigits hb hc))]
  exact (Nat.length_toDigits_le_iff hb hk).2 h

/-- A number below a power of sixteen takes at most as many bytes as the exponent says. -/
theorem size_hexadecimal_le {n k : Nat} (hk : 0 < k) (h : n < 16 ^ k) :
    (hexadecimal n).utf8ByteSize ≤ k := size_toDigits_le (by decide) hk h

/-- A number below a power of ten takes at most as many bytes as the exponent says. -/
theorem size_decimal_le {n k : Nat} (hk : 0 < k) (h : n < 10 ^ k) :
    (toString n).utf8ByteSize ≤ k := size_toDigits_le (by decide) hk h

/-- A number of 32 bits takes ten digits and a sign. -/
theorem size_integer_le {n : Int} (hl : Decimal.lowest ≤ n) (hh : n ≤ Decimal.highest) :
    (toString n).utf8ByteSize ≤ 11 := by
  unfold Decimal.lowest at hl
  unfold Decimal.highest at hh
  cases n with
  | ofNat n =>
    rw [Int.ofNat_eq_natCast] at hh
    have hn : n < 10 ^ 10 := by omega
    exact Nat.le_trans (size_decimal_le (n := n) (by decide) hn) (by decide)
  | negSucc n =>
    have hn : n + 1 < 10 ^ 10 := by omega
    have hdigits := size_decimal_le (n := n + 1) (by decide) hn
    have hsign : "-".utf8ByteSize = 1 := rfl
    show ("-" ++ toString (n + 1)).utf8ByteSize ≤ 11
    rw [String.utf8ByteSize_append]
    omega

/-! ## Texts -/

namespace Json

/-- A number in hexadecimal is plain. -/
theorem plain_hexadecimal (n : Nat) : Plain (hexadecimal n) := by
  have hplain : Plain (String.ofList digitChars) := by decide
  intro c hc
  rw [hexadecimal, String.toList_ofList] at hc
  refine hplain c ?_
  rw [String.toList_ofList]
  exact mem_digitChars_of_mem_toDigits (by decide) hc

/-- The quotes around a text take two bytes. -/
theorem size_inQuotes (s : String) : (inQuotes s).utf8ByteSize = s.utf8ByteSize + 2 := by
  rw [inQuotes, String.utf8ByteSize_append, String.utf8ByteSize_append]
  show 1 + s.utf8ByteSize + 1 = s.utf8ByteSize + 2
  omega

/-! ## Objects -/

/-- A member with a text takes five bytes besides: two pairs of quotes and a colon. -/
theorem size_member_text (key s : String) :
    (member (key, .text s)).utf8ByteSize = key.utf8ByteSize + s.utf8ByteSize + 5 := by
  have hcolon : ":".utf8ByteSize = 1 := rfl
  simp only [member, Scalar.compact, String.utf8ByteSize_append, size_inQuotes]
  omega

/-- A member with a number takes three bytes besides: a pair of quotes and a colon. -/
theorem size_member_number (key : String) (n : Int) :
    (member (key, .number n)).utf8ByteSize = key.utf8ByteSize + (toString n).utf8ByteSize + 3 := by
  have hcolon : ":".utf8ByteSize = 1 := rfl
  simp only [member, Scalar.compact, String.utf8ByteSize_append, size_inQuotes]
  omega

/-- An object with one member takes two bytes besides, for the brackets. -/
theorem size_compact_singleton (m : String × Scalar) :
    (compact [m]).utf8ByteSize = (member m).utf8ByteSize + 2 := by
  rw [compact, List.map_singleton, String.intercalate_singleton, String.utf8ByteSize_append,
    String.utf8ByteSize_append]
  show 1 + (member m).utf8ByteSize + 1 = (member m).utf8ByteSize + 2
  omega

/-- A further member takes its own size and a byte for the comma. -/
theorem size_compact_cons (m m' : String × Scalar) (ms : List (String × Scalar)) :
    (compact (m :: m' :: ms)).utf8ByteSize =
      (member m).utf8ByteSize + 1 + (compact (m' :: ms)).utf8ByteSize := by
  have hcomma : ",".utf8ByteSize = 1 := rfl
  simp only [compact, List.map_cons, String.intercalate_cons_cons, String.utf8ByteSize_append]
  omega

/-- How long an object is, where its members behind the first one are not longer than `k`. -/
theorem size_compact_le {m : String × Scalar} {ms : List (String × Scalar)} {k : Nat}
    (h : ∀ m' ∈ ms, (member m').utf8ByteSize ≤ k) :
    (compact (m :: ms)).utf8ByteSize ≤ (member m).utf8ByteSize + ms.length * (k + 1) + 2 := by
  induction ms generalizing m with
  | nil =>
    refine Nat.le_of_eq ?_
    rw [size_compact_singleton, List.length_nil, Nat.zero_mul, Nat.add_zero]
  | cons m' ms ih =>
    obtain ⟨hm, hms⟩ := List.forall_mem_cons.1 h
    have hrest := ih (m := m') hms
    rw [size_compact_cons, List.length_cons, Nat.succ_mul]
    omega

end Json

end EdgeDevice
