import EdgeDevice.Coap.Option

set_option autoImplicit false
set_option relaxedAutoImplicit false

/-!
# Options are read back from what they are written as

Reading and writing are inverse to each other, layer by layer: for a difference or a length, for one
option, and for all that stands behind the token. Each layer has two statements. What is written is
read back, whatever follows it; and what is read was written, so that nothing but the written form
is accepted.

The three forms of a difference or a length have ranges of their own, with no number in two of them.
That is why the written form of an option is the only one.

## Main definitions

* `EdgeDevice.Coap.OptionField.Fits` — number and value can be written.
* `EdgeDevice.Coap.OptionField.Ascending` — options in the order of their numbers, behind another.

## Main results

* `EdgeDevice.Coap.OptionField.read?_write`, `EdgeDevice.Coap.OptionField.write_of_read?` — one
  option.
* `EdgeDevice.Coap.Tail.read_writeAll`, `EdgeDevice.Coap.Tail.writeAll_of_read` — options and
  payload.
-/

namespace EdgeDevice.Coap

namespace OptionField

/-! ## Differences and lengths -/

/-- The first number that three forms do not reach. -/
def unreachable : Nat := 65805

/-- The four bits of a number are never the ones that are reserved. -/
theorem extended_lt (n : Nat) : (extended n).1 < 15 := by
  unfold extended
  split
  · omega
  · split <;> simp

/-- A number that is written is read back. -/
theorem readExtended?_extended {n : Nat} (h : n < unreachable) (rest : Bytes) :
    readExtended? (extended n).1 ((extended n).2 ++ rest) = some (n, rest) := by
  unfold unreachable at h
  unfold extended
  split
  · rename_i hs
    simp [readExtended?, hs]
  · split
    · simp only [readExtended?, List.cons_append, List.nil_append, UInt8.toNat_ofNat']
      simp
      omega
    · have hw := Bytes.word_ofNat (n := n - 269) (by omega)
      simp only [readExtended?, Bytes.ofWord, List.cons_append, List.nil_append, hw]
      simp
      omega

/-- A number that is read was written. -/
theorem extended_of_readExtended? {bits n : Nat} {bs rest : Bytes}
    (h : readExtended? bits bs = some (n, rest)) :
    n < unreachable ∧ (extended n).1 = bits ∧ bs = (extended n).2 ++ rest := by
  unfold unreachable
  unfold readExtended? at h
  split at h
  · rename_i hs
    obtain ⟨rfl, rfl⟩ := Prod.mk.inj (Option.some.inj h)
    refine ⟨by omega, ?_⟩
    simp [extended, hs]
  · split at h
    · rename_i b rest' _
      obtain ⟨rfl, rfl⟩ := Prod.mk.inj (Option.some.inj h)
      have hb := b.toNat_lt
      refine ⟨by omega, ?_⟩
      rw [extended, if_neg (by omega), if_pos (by omega)]
      simp
    · rename_i high low rest' _
      obtain ⟨rfl, rfl⟩ := Prod.mk.inj (Option.some.inj h)
      have hword := Bytes.word_lt high low
      refine ⟨by omega, ?_⟩
      rw [extended, if_neg (by omega), if_neg (by omega), Nat.add_sub_cancel, Bytes.ofWord_word]
      exact ⟨rfl, rfl⟩
    · cases h

/-! ## One option -/

/-- Number and value of an option can be written. -/
structure Fits (o : OptionField) : Prop where
  number : o.number ≤ largest
  value : o.value.length < unreachable

/-- The first byte of an option holds both markers, and is not the payload marker. -/
theorem toNat_first (delta length : Nat) :
    let first := UInt8.ofNat ((extended delta).1 * 16 + (extended length).1)
    first.toNat / 16 = (extended delta).1 ∧ first.toNat % 16 = (extended length).1 ∧
      first ≠ payloadMarker := by
  intro first
  have hd := extended_lt delta
  have hl := extended_lt length
  have hfirst : first.toNat = (extended delta).1 * 16 + (extended length).1 := by
    rw [UInt8.toNat_ofNat']
    omega
  refine ⟨by omega, by omega, ?_⟩
  intro hm
  rw [hm] at hfirst
  have : payloadMarker.toNat = 255 := rfl
  omega

/-- An option that is written is read back, whatever follows it. -/
theorem read?_write {last : Nat} {o : OptionField} (hl : last ≤ o.number) (ho : o.Fits)
    (rest : Bytes) :
    ∃ first bs, o.write last = first :: bs ∧ first ≠ payloadMarker ∧
      read? last first (bs ++ rest) = some (o, rest) := by
  obtain ⟨hdelta, hlength, hmarker⟩ := toNat_first (o.number - last) o.value.length
  refine ⟨_, _, rfl, hmarker, ?_⟩
  have hnumber : o.number - last < unreachable := by
    have := ho.number
    unfold largest at this
    unfold unreachable
    omega
  have hsum : last + (o.number - last) = o.number := by omega
  simp only [read?, hdelta, hlength, List.append_assoc, readExtended?_extended hnumber,
    readExtended?_extended ho.value, Option.bind_eq_bind, Option.bind_some, hsum]
  rw [if_pos ⟨by simp, ho.number⟩]
  simp

/-- An option that is read was written. -/
theorem write_of_read? {last : Nat} {first : UInt8} {bs rest : Bytes} {o : OptionField}
    (h : read? last first bs = some (o, rest)) :
    last ≤ o.number ∧ o.Fits ∧ first :: bs = o.write last ++ rest := by
  simp only [read?, Option.bind_eq_bind, Option.bind_eq_some_iff] at h
  obtain ⟨⟨delta, bs₁⟩, h₁, ⟨length, bs₂⟩, h₂, h⟩ := h
  obtain ⟨-, hbits₁, hbs₁⟩ := extended_of_readExtended? h₁
  obtain ⟨hlt, hbits₂, hbs₂⟩ := extended_of_readExtended? h₂
  dsimp only at h₂ h hbs₁ hbs₂
  split at h
  · rename_i hfit
    obtain ⟨rfl, rfl⟩ := Prod.mk.inj (Option.some.inj h)
    have hlen : (bs₂.take length).length = length := List.length_take_of_le hfit.1
    refine ⟨Nat.le_add_right .., ⟨hfit.2, by rw [hlen]; exact hlt⟩, ?_⟩
    have hfirst : UInt8.ofNat (first.toNat / 16 * 16 + first.toNat % 16) = first := by
      rw [Nat.div_add_mod', UInt8.ofNat_toNat]
    simp only [write, Nat.add_sub_cancel_left, hlen, hbits₁, hbits₂, hfirst, List.cons_append,
      List.append_assoc, List.take_append_drop, ← hbs₂, ← hbs₁]
  · cases h

end OptionField

/-! ## All that stands behind the token -/

namespace OptionField

/-- Options that can stand behind the option `last`, in the order of their numbers. -/
structure Ascending (last : Nat) (os : List OptionField) : Prop where
  above : ∀ o ∈ os, last ≤ o.number
  sorted : os.Pairwise fun o o' => o.number ≤ o'.number
  fits : ∀ o ∈ os, o.Fits

/-- No options are in order. -/
theorem ascending_nil (last : Nat) : Ascending last [] :=
  ⟨fun _ ho => absurd ho List.not_mem_nil, .nil, fun _ ho => absurd ho List.not_mem_nil⟩

/-- A row of options is in order if its first option may stand there and the rest is in order behind
it. -/
theorem ascending_cons {last : Nat} {o : OptionField} {os : List OptionField} :
    Ascending last (o :: os) ↔ last ≤ o.number ∧ o.Fits ∧ Ascending o.number os := by
  constructor
  · rintro ⟨habove, hsorted, hfits⟩
    obtain ⟨hle, hsorted⟩ := List.pairwise_cons.1 hsorted
    obtain ⟨ho, hfits⟩ := List.forall_mem_cons.1 hfits
    exact ⟨habove o List.mem_cons_self, ho, hle, hsorted, hfits⟩
  · rintro ⟨hlast, ho, hle, hsorted, hfits⟩
    refine ⟨?_, List.pairwise_cons.2 ⟨hle, hsorted⟩, List.forall_mem_cons.2 ⟨ho, hfits⟩⟩
    exact List.forall_mem_cons.2 ⟨hlast, fun o' ho' => Nat.le_trans hlast (hle o' ho')⟩

/-- Options that are left out do not disturb the order of the others. -/
theorem Ascending.filter {last : Nat} {os : List OptionField} (h : Ascending last os)
    (p : OptionField → Bool) : Ascending last (os.filter p) :=
  ⟨fun o ho => h.above o (List.mem_filter.1 ho).1, h.sorted.filter p,
    fun o ho => h.fits o (List.mem_filter.1 ho).1⟩

end OptionField

namespace Tail

open OptionField

/-- What stands behind an option that is written: the option, and then the rest. -/
theorem read_write {last : Nat} {o : OptionField} (hl : last ≤ o.number) (ho : o.Fits)
    (rest : Bytes) :
    read last (o.write last ++ rest) =
      ⟨o :: (read o.number rest).options, (read o.number rest).payload?⟩ := by
  obtain ⟨first, bs, hw, hm, hr⟩ := read?_write hl ho rest
  rw [hw, List.cons_append, read, if_neg hm]
  split
  · rename_i hn
    rw [hr] at hn
    cases hn
  · rename_i hs
    rw [hr] at hs
    obtain ⟨rfl, rfl⟩ := Prod.mk.inj (Option.some.inj hs)
    rfl

/-- A payload without options in front of it is read again as it was written. -/
theorem read_writePayload (last : Nat) (payload : Bytes) :
    read last (writePayload payload) = ⟨[], some payload⟩ := by
  unfold writePayload
  cases payload with
  | nil => rw [List.isEmpty_nil, if_pos rfl, read]
  | cons b payload => simp [read]

/-- **What is written is read back**: all options and the payload. -/
theorem read_writeAll {last : Nat} {os : List OptionField} (hs : Ascending last os)
    (payload : Bytes) :
    read last (writeAll last os ++ writePayload payload) = ⟨os, some payload⟩ := by
  induction os generalizing last with
  | nil => exact read_writePayload last payload
  | cons o os ih =>
    obtain ⟨hl, ho, hs⟩ := ascending_cons.1 hs
    rw [writeAll, List.append_assoc, read_write hl ho, ih hs]

/-- **What is read was written**: nothing but the written form is read. -/
theorem writeAll_of_read {last : Nat} {bs payload : Bytes}
    (h : (read last bs).payload? = some payload) :
    Ascending last (read last bs).options ∧
      bs = writeAll last (read last bs).options ++ writePayload payload := by
  fun_induction read last bs with
  | case1 last =>
    obtain rfl := Option.some.inj h
    exact ⟨ascending_nil last, rfl⟩
  | case2 last bs =>
    cases bs with
    | nil => cases h
    | cons b bs =>
      obtain rfl := Option.some.inj h
      exact ⟨ascending_nil last, rfl⟩
  | case3 => cases h
  | case4 last first bs _ o rest hr _ _ ih =>
    obtain ⟨hs, hrest⟩ := ih h
    obtain ⟨hl, ho, hw⟩ := write_of_read? hr
    refine ⟨ascending_cons.2 ⟨hl, ho, hs⟩, ?_⟩
    rw [hw, hrest, writeAll, List.append_assoc]

end Tail

end EdgeDevice.Coap
