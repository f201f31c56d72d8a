import EdgeDevice.Text.Number

set_option autoImplicit false
set_option relaxedAutoImplicit false

/-!
# Texts that spell an integer

A row of digits, perhaps with a sign in front of it, spells an integer. Leading zeros do no harm,
and zero may have either sign. Such a text is read exactly if the integer fits 64 bits.

## Main definitions

* `EdgeDevice.Decimal.Spells` — characters spell an integer.
* `EdgeDevice.Decimal.Fits` — an integer fits 64 bits with a sign.

## Main results

* `EdgeDevice.Decimal.integer?_eq_some_iff` — what is read is what is spelled.
-/

namespace EdgeDevice.Decimal

/-- A row of digits, with at least one digit in it. -/
def IsRow (ds : List Char) : Prop := ds ≠ [] ∧ ∀ d ∈ ds, d.isDigit = true

/-- Characters spell an integer: a row of digits with or without a sign. -/
inductive Spells : List Char → Int → Prop
  | unsigned {ds : List Char} (h : IsRow ds) : Spells ds (Nat.ofDigitChars 10 ds 0)
  | positive {ds : List Char} (h : IsRow ds) : Spells ('+' :: ds) (Nat.ofDigitChars 10 ds 0)
  | negative {ds : List Char} (h : IsRow ds) : Spells ('-' :: ds) (-Nat.ofDigitChars 10 ds 0)

/-- The integer fits 64 bits with a sign. -/
def Fits (n : Int) : Prop := least ≤ n ∧ n ≤ greatest

instance (n : Int) : Decidable (Fits n) := inferInstanceAs (Decidable (_ ∧ _))

/-- Characters are read as a number exactly if they are a row of digits, and then for what that
says. -/
theorem natural?_eq_some_iff {ds : List Char} {n : Nat} :
    natural? ds = some n ↔ IsRow ds ∧ n = Nat.ofDigitChars 10 ds 0 := by
  rw [natural?, IsRow, ← List.all_eq_true]
  split
  · rename_i h
    simp only [h, Option.some.injEq]
    exact ⟨fun he => ⟨⟨h.1, trivial⟩, he.symm⟩, fun he => he.2.symm⟩
  · rename_i h
    exact ⟨fun he => (nomatch he), fun he => absurd he.1 h⟩

/-- An integer is taken exactly if it fits 64 bits, and then as it is. -/
theorem within?_eq_some_iff {n k : Int} : within? n = some k ↔ Fits n ∧ k = n := by
  rw [within?]
  split
  · rename_i h
    exact ⟨fun he => ⟨h, (Option.some.inj he).symm⟩, fun he => congrArg some he.2.symm⟩
  · rename_i h
    exact ⟨fun he => (nomatch he), fun he => absurd he.1 h⟩

/-- A row of digits is read with the sign that `sign` puts in front. -/
theorem natural?_bind_eq_some_iff {ds : List Char} {sign : Nat → Int} {k : Int} :
    ((natural? ds).bind fun n => within? (sign n)) = some k ↔
      (IsRow ds ∧ k = sign (Nat.ofDigitChars 10 ds 0)) ∧ Fits k := by
  rw [Option.bind_eq_some_iff]
  constructor
  · rintro ⟨n, hn, hk⟩
    obtain ⟨hrow, rfl⟩ := natural?_eq_some_iff.1 hn
    obtain ⟨hfit, rfl⟩ := within?_eq_some_iff.1 hk
    exact ⟨⟨hrow, rfl⟩, hfit⟩
  · rintro ⟨⟨hrow, rfl⟩, hfit⟩
    exact ⟨_, natural?_eq_some_iff.2 ⟨hrow, rfl⟩, within?_eq_some_iff.2 ⟨hfit, rfl⟩⟩

/-- No digit is a sign. -/
theorem ne_sign_of_isRow {c : Char} {cs : List Char} (h : IsRow (c :: cs)) :
    c ≠ '-' ∧ c ≠ '+' := by
  have hc := h.2 c List.mem_cons_self
  constructor <;> rintro rfl <;> cases hc

/-- **What is read is what is spelled**, if it fits. -/
theorem integer?_eq_some_iff {cs : List Char} {k : Int} :
    integer? cs = some k ↔ Spells cs k ∧ Fits k := by
  constructor
  · intro h
    cases cs with
    | nil => cases h
    | cons c cs =>
      rw [integer?] at h
      split at h
      · rename_i hc
        obtain ⟨⟨hrow, rfl⟩, hfit⟩ := natural?_bind_eq_some_iff.1 h
        exact ⟨hc ▸ .negative hrow, hfit⟩
      · split at h
        · rename_i hc
          obtain ⟨⟨hrow, rfl⟩, hfit⟩ := natural?_bind_eq_some_iff.1 h
          exact ⟨hc ▸ .positive hrow, hfit⟩
        · obtain ⟨⟨hrow, rfl⟩, hfit⟩ := natural?_bind_eq_some_iff.1 h
          exact ⟨.unsigned hrow, hfit⟩
  · rintro ⟨hs, hfit⟩
    cases hs with
    | unsigned hrow =>
      cases cs with
      | nil => exact absurd rfl hrow.1
      | cons c cs =>
        obtain ⟨hminus, hplus⟩ := ne_sign_of_isRow hrow
        rw [integer?, if_neg hminus, if_neg hplus]
        exact natural?_bind_eq_some_iff.2 ⟨⟨hrow, rfl⟩, hfit⟩
    | positive hrow =>
      rw [integer?, if_neg (by decide), if_pos rfl]
      exact natural?_bind_eq_some_iff.2 ⟨⟨hrow, rfl⟩, hfit⟩
    | negative hrow =>
      rw [integer?, if_pos rfl]
      exact natural?_bind_eq_some_iff.2 ⟨⟨hrow, rfl⟩, hfit⟩

/-- Only digits and signs stand in a text that spells an integer. -/
theorem Spells.mem {cs : List Char} {n : Int} (h : Spells cs n) {c : Char} (hc : c ∈ cs) :
    c.isDigit = true ∨ c = '+' ∨ c = '-' := by
  cases h with
  | unsigned hrow => exact .inl (hrow.2 c hc)
  | positive hrow =>
    rcases List.mem_cons.1 hc with rfl | hc
    · exact .inr (.inl rfl)
    · exact .inl (hrow.2 c hc)
  | negative hrow =>
    rcases List.mem_cons.1 hc with rfl | hc
    · exact .inr (.inr rfl)
    · exact .inl (hrow.2 c hc)

end EdgeDevice.Decimal
