import EdgeDevice.Bytes
import EdgeDevice.Text.Ascii

set_option autoImplicit false
set_option relaxedAutoImplicit false

/-!
# Quoted strings with their escapes left in place

A quoted string ends at the first quote that no backslash protects; a backslash protects the one
byte behind it. Nothing is unescaped: the content is what stands between the quotes.

## Main definitions

* `EdgeDevice.Quoted.split?` — the content of a quoted string and what follows it.

## Main results

* `EdgeDevice.Quoted.eq_append_of_split?` — nothing is lost but the closing quote.
* `EdgeDevice.Quoted.split?_append` — content without quotes and backslashes is found as it is.
-/

namespace EdgeDevice.Quoted

open Ascii (quote backslash)

/-- Splits the bytes behind an opening quote at the closing one, which belongs to neither part;
`none` when no quote closes the string. -/
def split? : Bytes → Option (Bytes × Bytes)
  | [] => none
  | b :: bs =>
    if b = quote then some ([], bs)
    else if b = backslash then
      match bs with
      | [] => none
      | c :: cs => (split? cs).map fun p => (b :: c :: p.1, p.2)
    else (split? bs).map fun p => (b :: p.1, p.2)

/-- What is split at the closing quote is what was there. -/
theorem eq_append_of_split? {bs raw rest : Bytes} (h : split? bs = some (raw, rest)) :
    bs = raw ++ quote :: rest := by
  fun_induction split? bs generalizing raw rest with
  | case1 => simp at h
  | case2 => simp_all
  | case3 => simp at h
  | case4 c cs hq ih =>
    obtain ⟨p, hp, he⟩ := Option.map_eq_some_iff.1 h
    obtain ⟨rfl, rfl⟩ := Prod.mk.injEq .. ▸ he
    simp [ih hp]
  | case5 b bs hq hb ih =>
    obtain ⟨p, hp, he⟩ := Option.map_eq_some_iff.1 h
    obtain ⟨rfl, rfl⟩ := Prod.mk.injEq .. ▸ he
    simp [ih hp]

/-- What stands behind the closing quote is an end of what there was. -/
theorem suffix_of_split? {bs raw rest : Bytes} (h : split? bs = some (raw, rest)) :
    rest <:+ bs := by
  rw [eq_append_of_split? h]
  exact ⟨raw ++ [quote], by simp⟩

/-- What stands behind the closing quote is less than there was. -/
theorem length_lt_of_split? {bs raw rest : Bytes} (h : split? bs = some (raw, rest)) :
    rest.length < bs.length := by
  rw [eq_append_of_split? h]
  simp
  omega

/-- Where there is neither a quote nor a backslash, the first quote is the closing one. -/
theorem split?_append {raw : Bytes} (h : ∀ b ∈ raw, b ≠ quote ∧ b ≠ backslash) (rest : Bytes) :
    split? (raw ++ quote :: rest) = some (raw, rest) := by
  induction raw with
  | nil =>
    rw [List.nil_append]
    unfold split?
    rfl
  | cons b raw ih =>
    obtain ⟨⟨hq, hb⟩, hr⟩ := List.forall_mem_cons.1 h
    rw [List.cons_append]
    unfold split?
    rw [if_neg hq, if_neg hb, ih hr]
    rfl

end EdgeDevice.Quoted
