import EdgeDevice.Proofs.Command.Document
import EdgeDevice.Proofs.Json.Size

set_option autoImplicit false
set_option relaxedAutoImplicit false

/-!
# What is written is a document

An object in compact form is a document of the standard grammar as long as nothing in it has to be
escaped, and so a scan yields its members in order.

## Main definitions

* `EdgeDevice.Json.Scalar.view`, `EdgeDevice.Json.view` — what a scan makes of a written value and
  of a written member.
* `EdgeDevice.Json.Readable` — a member that a scan can read: plain, and no number in it too large.

## Main results

* `EdgeDevice.Json.phrase_compact` — an object in compact form is a document.
* `EdgeDevice.Json.pairs_compact` — a scan yields the members that were written.
-/

namespace EdgeDevice.Json

open Command Command.Grammar
open scoped Computability

/-! ## Texts -/

/-- A plain text may stand between quotes. -/
theorem mem_content_of_plain {s : String} (h : Plain s) : s.toList ∈ content :=
  mem_content_of_forall fun c hc => ⟨(h c hc).2.2, (h c hc).1, (h c hc).2.1⟩

/-- In compact form the quotes enclose the text itself. -/
theorem toList_inQuotes (s : String) : (inQuotes s).toList = Grammar.quoted s.toList := by
  simp only [inQuotes, Grammar.quoted, String.toList_append]
  rfl

/-! ## Numbers -/

/-- The character for a digit is a digit of the grammar. -/
theorem singleton_mem_digit {d : Nat} (h : d < 10) : [Nat.digitChar d] ∈ digit :=
  ⟨_, Nat.isDigit_digitChar.trans (decide_eq_true h), rfl⟩

/-- Only zero starts with a zero. -/
theorem toDigits_mem_of_pos {n : Nat} (h : 0 < n) :
    Nat.toDigits 10 n ∈ single (fun c => c.isDigit = true ∧ c ≠ '0') * digit∗ := by
  induction n using Nat.strongRecOn with
  | ind n ih =>
    rw [Nat.toDigits_eq_if (by decide)]
    split
    · rename_i hlt
      have hfirst : ∀ d < 10, 0 < d → (Nat.digitChar d).isDigit = true ∧ Nat.digitChar d ≠ '0' := by
        decide
      rw [← List.append_nil [Nat.digitChar n]]
      exact Language.append_mem_mul ⟨_, hfirst n hlt h, rfl⟩ (Language.nil_mem_kstar _)
    · rename_i hge
      obtain ⟨first, hfirst, others, hothers, he⟩ :=
        Language.mem_mul.1 (ih (n / 10) (by omega) (by omega))
      have hlast : [Nat.digitChar (n % 10)] ∈ digit :=
        singleton_mem_digit (Nat.mod_lt n (by decide))
      have hrest : others ++ [Nat.digitChar (n % 10)] ∈ digit∗ :=
        (kstar_mul_le_kstar : digit∗ * digit ≤ digit∗) (Language.append_mem_mul hothers hlast)
      rw [← he, List.append_assoc]
      exact Language.append_mem_mul hfirst hrest

/-- The digits of a number are a number of the grammar without sign. -/
theorem toDigits_mem_natural (n : Nat) : Nat.toDigits 10 n ∈ natural := by
  rcases Nat.eq_zero_or_pos n with rfl | h
  · exact Or.inl rfl
  · exact Or.inr (toDigits_mem_of_pos h)

/-- The digits of a number are a row of digits. -/
theorem isRow_toDigits (n : Nat) : Decimal.IsRow (Nat.toDigits 10 n) :=
  ⟨Nat.toDigits_ne_nil, fun _ h => Nat.isDigit_of_mem_toDigits (by decide) (by decide) h⟩

/-- A number from zero on is written by its digits. -/
theorem toList_ofNat (n : Nat) : (toString (n : Int)).toList = Nat.toDigits 10 n :=
  Nat.toList_repr

/-- A number below zero is written by a minus sign and the digits of its size. -/
theorem toList_negSucc (n : Nat) :
    (toString (Int.negSucc n)).toList = '-' :: Nat.toDigits 10 (n + 1) := by
  show ("-" ++ (n + 1).repr).toList = _
  rw [String.toList_append, Nat.toList_repr]
  rfl

/-- A written integer is a number of the grammar without fraction and exponent. -/
theorem toString_mem_whole (n : Int) : (toString n).toList ∈ whole := by
  cases n with
  | ofNat n =>
    rw [Int.ofNat_eq_natCast, toList_ofNat]
    have hsign : [] ∈ (1 + {['-']} : Language Char) := Or.inl Language.nil_mem_one
    exact Language.append_mem_mul hsign (toDigits_mem_natural n)
  | negSucc n =>
    rw [toList_negSucc]
    have hsign : ['-'] ∈ (1 + {['-']} : Language Char) := Or.inr (Set.mem_singleton ['-'])
    exact Language.append_mem_mul hsign (toDigits_mem_natural (n + 1))

/-- A written integer spells the integer. -/
theorem spells_toString (n : Int) : Decimal.Spells (toString n).toList n := by
  cases n with
  | ofNat n =>
    rw [Int.ofNat_eq_natCast, toList_ofNat]
    have h := Decimal.Spells.unsigned (isRow_toDigits n)
    rwa [Nat.ofDigitChars_ten_toDigits] at h
  | negSucc n =>
    rw [toList_negSucc]
    have h := Decimal.Spells.negative (isRow_toDigits (n + 1))
    rwa [Nat.ofDigitChars_ten_toDigits] at h

/-! ## Objects -/

/-- What a scan makes of a written value. -/
def Scalar.view : Scalar → Value
  | .text s => .text s
  | .number n => .integer n

/-- What a scan makes of a written member. -/
def view (m : String × Scalar) : String × Value := (m.1, m.2.view)

/-- A number is not too large for a scan. -/
def Scalar.Fits : Scalar → Prop
  | .text _ => True
  | .number n => Decimal.Fits n

/-- In a member nothing has to be escaped, and its number is not too large for a scan. -/
def Readable (m : String × Scalar) : Prop := PlainMember m ∧ m.2.Fits

/-- A plain text under a plain key is readable. -/
theorem readable_text {key s : String} (hk : Plain key) (hs : Plain s) :
    Readable (key, .text s) := ⟨⟨hk, hs⟩, trivial⟩

/-- A number of 64 bits under a plain key is readable. -/
theorem readable_number {key : String} (hk : Plain key) {n : Int} (hn : Decimal.Fits n) :
    Readable (key, .number n) := ⟨⟨hk, trivial⟩, hn⟩

/-- A value in compact form is a value of the grammar. -/
theorem phrase_compact_scalar {v : Scalar} (hp : v.IsPlain) (h : v.Fits) :
    Phrase .value v.compact.toList v.view := by
  cases v with
  | text s =>
    have hstring := Phrase.string (mem_content_of_plain hp)
    rwa [← toList_inQuotes, String.ofList_toList] at hstring
  | number n => exact .integer (toString_mem_whole n) (spells_toString n) h

/-- A member in compact form is a member of the grammar. -/
theorem phrase_member {m : String × Scalar} (h : Readable m) :
    Phrase .member (Json.member m).toList (view m) := by
  rw [Json.member, String.toList_append, String.toList_append, toList_inQuotes]
  have hmember := Phrase.member (mem_content_of_plain h.1.1) (singleton_mem_mark ':')
    (phrase_compact_scalar h.1.2 h.2)
  rwa [String.ofList_toList] at hmember

/-- Members in compact form, with commas between them, are members of the grammar. -/
theorem phrase_members {m : String × Scalar} {ms : List (String × Scalar)}
    (h : ∀ m' ∈ m :: ms, Readable m') :
    Phrase .members (",".intercalate ((m :: ms).map Json.member)).toList ((m :: ms).map view) := by
  induction ms generalizing m with
  | nil =>
    rw [List.map_singleton, String.intercalate_singleton]
    exact .oneMember (phrase_member (h m List.mem_cons_self))
  | cons m' ms ih =>
    obtain ⟨hm, hms⟩ := List.forall_mem_cons.1 h
    rw [List.map_cons, List.map_cons, String.intercalate_cons_cons, String.toList_append,
      String.toList_append]
    exact .moreMembers (phrase_member hm) (singleton_mem_mark ',') (ih hms)

/-- **An object in compact form is a document**, with the written members in their order. -/
theorem phrase_compact {ms : List (String × Scalar)} (h : ∀ m ∈ ms, Readable m) :
    Phrase .object (compact ms).toList (ms.map view) := by
  rw [compact, String.toList_append, String.toList_append]
  cases ms with
  | nil =>
    exact .emptyObject (Language.append_mem_mul (singleton_mem_mark _) (singleton_mem_mark _))
  | cons m ms => exact .object (singleton_mem_mark _) (phrase_members h) (singleton_mem_mark _)

/-- **A scan yields the members that were written.** -/
theorem pairs_compact {ms : List (String × Scalar)} (h : ∀ m ∈ ms, Readable m) :
    pairs (Bytes.ofText (compact ms)) = ms.map fun m => item (view m) := by
  rw [← List.append_nil (Bytes.ofText (compact ms)), Command.pairs_object (phrase_compact h) [],
    List.map_map]
  rfl

end EdgeDevice.Json
