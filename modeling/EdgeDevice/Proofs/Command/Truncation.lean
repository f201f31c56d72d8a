import EdgeDevice.Proofs.Command.Ending
import Mathlib.Data.List.TakeWhile

set_option autoImplicit false
set_option relaxedAutoImplicit false

/-!
# The scan of a payload that was cut off

A payload may arrive without its end. What the scan yields of the part that is there, it yields of
the whole payload too, in the same places: no key is made up, none moves, and nothing is reported
that is not reported of the whole. One value may come out differently. Where the cut goes through a
bare number, the part ends with a number of its own, made of the digits that are there.

Every reader is followed on a part and on the whole. Either it stops in front of the cut, and then
it does the same on both; or the part is over before it is done, and then nothing more is yielded of
the part; or it goes up to the cut and is done there, while on the whole it may go on.

## Main definitions

* `EdgeDevice.Command.CutsNumber` — the cut goes through a bare number.
* `EdgeDevice.Command.Reading.Cut` — a reading of a part beside one of the whole.
* `EdgeDevice.Command.Shortened` — the items of a part beside those of the whole.

## Main results

* `EdgeDevice.Command.cut_pair` — one member of a part and of the whole.
* `EdgeDevice.Command.shortened_pairs` — all items of a part and of the whole.
* `EdgeDevice.Command.pairs_truncated` — what a cut does to a scan.
-/

namespace EdgeDevice.Command

open Ascii

/-! ## Cuts through a number -/

/-- A bare number is cut between `row` and `tail`. -/
structure Severed (row tail : Bytes) : Prop where
  starts : ∃ b ∈ row.head?, startsNumber b = true
  numeric : ∀ b ∈ row, isNumeric b = true
  goesOn : ∃ b ∈ tail.head?, isNumeric b = true

/-- **The cut goes through a bare number**: behind a colon and blanks the part ends with `row`, the
first bytes of a number, and what was cut off goes on with it. -/
structure CutsNumber (part tail row : Bytes) : Prop extends Severed row tail where
  placed : ∃ front blanks, AllBlank blanks ∧ part = front ++ colon :: (blanks ++ row)

/-- A cut through a number of an end of a part goes through a number of the part. -/
theorem CutsNumber.of_suffix {part bs tail row : Bytes} (h : CutsNumber bs tail row)
    (hs : bs <:+ part) : CutsNumber part tail row := by
  obtain ⟨hsevered, front, blanks, hblanks, rfl⟩ := h
  obtain ⟨before, rfl⟩ := hs
  exact ⟨hsevered, before ++ front, blanks, hblanks, (List.append_assoc ..).symm⟩

/-- The value of a member of a part and of the whole payload: the same, or that of a number which
was cut. -/
def SameOrSevered (part tail : Bytes) (v v' : Value) : Prop :=
  v = v' ∨ ∃ row, CutsNumber part tail row ∧ v = .ofNumber row ∧
    v' = .ofNumber (row ++ tail.takeWhile isNumeric)

/-! ## A reading of a part beside one of the whole -/

/-- A reading of a part beside one of the whole, where `tail` was cut off. A reading that is done at
the cut may be done later on the whole, with another value as `R` tells. -/
inductive Reading.Cut {α : Type} (tail : Bytes) (R : α → α → Prop) : Reading α → Reading α → Prop
  /-- Done in front of the cut. -/
  | whole (a : α) (rest : Bytes) : Cut tail R (.done a rest) (.done a (rest ++ tail))
  /-- Done at the cut. -/
  | across {a a' : α} (h : R a a') (rest : Bytes) : Cut tail R (.done a []) (.done a' rest)
  /-- The part is over. -/
  | ended (rest : Bytes) (r : Reading α) : Cut tail R (.ended rest) r
  | malformed (rest rest' : Bytes) : Cut tail R (.malformed rest) (.malformed rest')

namespace Reading.Cut

variable {α β : Type} {tail : Bytes} {R R' : α → α → Prop} {S : β → β → Prop} {r r' : Reading α}

/-- A reading beside another one may be related more loosely. -/
theorem mono (h : r.Cut tail R r') (hR : ∀ a a', R a a' → R' a a') : r.Cut tail R' r' := by
  cases h with
  | whole a rest => exact .whole a rest
  | across h rest => exact .across (hR _ _ h) rest
  | ended rest => exact .ended rest _
  | malformed rest rest' => exact .malformed rest rest'

/-- Two readings in a row are beside each other on part and whole if each of them is. -/
theorem bind {f : α → Bytes → Reading β} (h : r.Cut tail R r')
    (hwhole : ∀ a rest, r = .done a rest → (f a rest).Cut tail S (f a (rest ++ tail)))
    (hacross : ∀ a a' rest, R a a' → (f a []).Cut tail S (f a' rest)) :
    (r.bind f).Cut tail S (r'.bind f) := by
  cases h with
  | whole a rest => exact hwhole a rest rfl
  | across h rest => exact hacross _ _ rest h
  | ended rest => exact .ended rest _
  | malformed rest rest' => exact .malformed rest rest'

/-- Readings stay beside each other when their results are looked at. -/
theorem map {f : α → β} (h : r.Cut tail R r') (hR : ∀ a a', R a a' → S (f a) (f a')) :
    (r.map f).Cut tail S (r'.map f) :=
  h.bind (fun a rest _ => .whole (f a) rest) fun a a' rest h => .across (hR a a' h) rest

end Reading.Cut

/-- A part that ends with its last byte, like a string, is never done later on the whole. -/
abbrev Never {α : Type} (_ _ : α) : Prop := False

/-! ## Blanks, strings and nested values -/

/-- Where something stands behind the blanks, what was cut off changes nothing about it. -/
theorem skipBlanks_append_of_cons {bs rest : Bytes} {b : UInt8} (h : skipBlanks bs = b :: rest)
    (tail : Bytes) : skipBlanks (bs ++ tail) = b :: (rest ++ tail) := by
  unfold skipBlanks at h ⊢
  rw [List.dropWhile_append, h]
  rfl

/-- Where a string is closed, what was cut off changes nothing about it. -/
theorem split?_append_of_some {bs raw rest : Bytes} (h : Quoted.split? bs = some (raw, rest))
    (tail : Bytes) : Quoted.split? (bs ++ tail) = some (raw, rest ++ tail) := by
  fun_induction Quoted.split? bs generalizing raw rest with
  | case1 => cases h
  | case2 bs =>
    obtain ⟨rfl, rfl⟩ := Prod.mk.inj (Option.some.inj h)
    rw [List.cons_append, Quoted.split?.eq_def]
    simp only [if_pos]
  | case3 => cases h
  | case4 c cs hq ih =>
    obtain ⟨p, hp, he⟩ := Option.map_eq_some_iff.1 h
    obtain ⟨rfl, rfl⟩ := Prod.mk.inj he
    rw [List.cons_append, List.cons_append, Quoted.split?.eq_def]
    simp only [if_neg hq, if_pos, ih hp, Option.map_some]
  | case5 b bs hq hb ih =>
    obtain ⟨p, hp, he⟩ := Option.map_eq_some_iff.1 h
    obtain ⟨rfl, rfl⟩ := Prod.mk.inj he
    rw [List.cons_append, Quoted.split?.eq_def]
    simp only [if_neg hq, if_neg hb, ih hp, Option.map_some]

/-- The reading of a string on a part and on the whole. -/
theorem cut_quoted (bs tail : Bytes) : (quoted bs).Cut tail Never (quoted (bs ++ tail)) := by
  unfold quoted
  cases h : Quoted.split? bs with
  | none => exact .ended _ _
  | some found =>
    obtain ⟨raw, rest⟩ := found
    rw [split?_append_of_some h]
    cases ht : Bytes.text? raw with
    | none => simpa only [ht] using .malformed _ _
    | some s => simpa only [ht] using .whole s rest

/-- Inside a nested value a string that is text is skipped as a whole. -/
theorem nested_quote_of_text {bs raw rest : Bytes} (h : Quoted.split? bs = some (raw, rest))
    (ht : (Bytes.text? raw).isSome = true) (outer : Nat) :
    nested outer (quote :: bs) = nested outer rest := by
  obtain ⟨s, hs⟩ := Option.isSome_iff_exists.1 ht
  have hraw : Quoted.split? bs = some (Bytes.ofChars s.toList, rest) := by
    rw [h, Bytes.ofChars_toList, Bytes.ofText_of_text? hs]
  exact nested_quote hraw outer

/-- The reading of a nested value on a part and on the whole. -/
theorem cut_nested (outer : Nat) (bs tail : Bytes) :
    (nested outer bs).Cut tail Never (nested outer (bs ++ tail)) := by
  fun_induction nested outer bs with
  | case1 => exact .ended _ _
  | case2 => exact .ended _ _
  | case3 _ _ _ _ hs _ ht ih =>
    rw [List.cons_append, nested_quote_of_text (split?_append_of_some hs tail) ht]
    exact ih
  | case4 => exact .ended _ _
  | case5 _ _ _ _ ho ih =>
    rw [List.cons_append, nested_opening ho]
    exact ih
  | case6 _ _ _ _ hc =>
    rw [List.cons_append, nested_last hc]
    exact .whole () _
  | case7 _ _ _ _ hc _ ih =>
    rw [List.cons_append, nested_closing hc]
    exact ih
  | case8 _ _ _ hq ho hc ih =>
    rw [List.cons_append, nested_other hq (by simpa using ho) (by simpa using hc)]
    exact ih

/-! ## Rows of bytes of one class -/

/-- A row of bytes of one class ends in front of the cut, or it is all that is left of the part and
goes on behind the cut with as many bytes of the class as there are. -/
theorem cut_row {α : Type} (p : UInt8 → Bool) (f : Bytes → α) (bs tail : Bytes) :
    Reading.Cut tail
      (fun a a' => (∀ b ∈ bs, p b = true) ∧ a = f bs ∧ a' = f (bs ++ tail.takeWhile p))
      (.done (f (bs.takeWhile p)) (bs.dropWhile p))
      (.done (f ((bs ++ tail).takeWhile p)) ((bs ++ tail).dropWhile p)) := by
  cases h : bs.dropWhile p with
  | nil =>
    have hall := List.dropWhile_eq_nil_iff.1 h
    have htake : bs.takeWhile p = bs := List.takeWhile_eq_self_iff.2 hall
    rw [htake, List.takeWhile_append_of_pos hall]
    exact .across ⟨hall, rfl, rfl⟩ _
  | cons b rest =>
    have hdrop : (bs ++ tail).dropWhile p = b :: rest ++ tail := by
      rw [List.dropWhile_append, h]
      rfl
    have htake : (bs ++ tail).takeWhile p = bs.takeWhile p := by
      rw [List.takeWhile_append, if_neg]
      intro hlen
      have hsum := congrArg List.length (List.takeWhile_append_dropWhile (p := p) (l := bs))
      rw [List.length_append, h, List.length_cons] at hsum
      omega
    rw [hdrop, htake]
    exact .whole _ _

/-- A number that is done at the cut is the same on the whole, unless it is cut. -/
theorem cut_number {bs : Bytes} (hstart : ∃ b ∈ bs.head?, startsNumber b = true) (tail : Bytes) :
    (number bs).Cut tail
      (fun v v' => v = v' ∨ Severed bs tail ∧ v = .ofNumber bs ∧
        v' = .ofNumber (bs ++ tail.takeWhile isNumeric)) (number (bs ++ tail)) := by
  refine (cut_row isNumeric Value.ofNumber bs tail).mono ?_
  rintro v v' ⟨hall, rfl, rfl⟩
  by_cases hgo : ∃ b ∈ tail.head?, isNumeric b = true
  · exact .inr ⟨⟨hstart, hall, hgo⟩, rfl, rfl⟩
  · left
    have hnone : tail.takeWhile isNumeric = [] := by
      cases tail with
      | nil => rfl
      | cons b tail => exact List.takeWhile_cons_of_neg fun hb => hgo ⟨b, rfl, hb⟩
    rw [hnone, List.append_nil]

/-- The reading of a value on a part and on the whole: only a bare number can be another one. -/
theorem cut_value (bs tail : Bytes) :
    (value bs).Cut tail
      (fun v v' => v = v' ∨ Severed bs tail ∧ v = .ofNumber bs ∧
        v' = .ofNumber (bs ++ tail.takeWhile isNumeric)) (value (bs ++ tail)) := by
  cases bs with
  | nil => exact .ended _ _
  | cons b rest =>
    show Reading.Cut tail _ (value (b :: rest)) (value (b :: (rest ++ tail)))
    rw [value, value]
    split
    · exact (cut_quoted rest tail).map fun _ _ h => h.elim
    · split
      · rename_i hb
        exact cut_number ⟨b, rfl, hb⟩ tail
      · split
        · exact (cut_nested 0 rest tail).map fun _ _ h => h.elim
        · split
          · refine (cut_row isLetter (fun _ => Value.other) (b :: rest) tail).mono ?_
            rintro _ _ ⟨-, rfl, rfl⟩
            exact .inl rfl
          · exact .malformed _ _

/-! ## Members -/

/-- The reading of a key on a part and on the whole. -/
theorem cut_key (bs tail : Bytes) : (key bs).Cut tail Never (key (bs ++ tail)) := by
  unfold key
  cases h : skipBlanks bs with
  | nil => exact .ended _ _
  | cons b rest =>
    rw [skipBlanks_append_of_cons h]
    simp only
    split
    · exact .ended _ _
    · split
      · exact cut_quoted rest tail
      · exact .malformed _ _

/-- The reading of a separator on a part and on the whole. -/
theorem cut_separator (bs tail : Bytes) :
    (separator bs).Cut tail (fun _ _ => True) (separator (bs ++ tail)) := by
  unfold separator
  cases h : skipBlanks bs with
  | nil => exact .ended _ _
  | cons b rest =>
    rw [skipBlanks_append_of_cons h]
    simp only
    split
    · cases hrest : skipBlanks rest with
      | nil => exact .across trivial _
      | cons b' rest' =>
        rw [skipBlanks_append_of_cons hrest]
        exact .whole () (b' :: rest')
    · exact .malformed _ _

/-- Behind a key a value starts behind a colon and blanks. -/
theorem exists_of_separator {bs rest : Bytes} (h : separator bs = .done () rest) :
    ∃ front blanks, AllBlank blanks ∧ bs = front ++ colon :: (blanks ++ rest) := by
  unfold separator at h
  cases hs : skipBlanks bs with
  | nil =>
    rw [hs] at h
    cases h
  | cons b rest' =>
    rw [hs] at h
    simp only at h
    split at h
    · rename_i hb
      subst hb
      obtain rfl : skipBlanks rest' = rest := (Reading.done.inj h).2
      refine ⟨bs.takeWhile Blank.isCommand, rest'.takeWhile Blank.isCommand,
        fun b hb => List.mem_takeWhile_imp hb, ?_⟩
      have hrest : rest'.takeWhile Blank.isCommand ++ skipBlanks rest' = rest' :=
        List.takeWhile_append_dropWhile
      rw [hrest, ← hs]
      exact List.takeWhile_append_dropWhile.symm
    · cases h

/-- **One member of a part and of the whole**: the same key, and the same value unless the cut goes
through a number. -/
theorem cut_pair (bs tail : Bytes) :
    (pair bs).Cut tail (fun m m' => m.1 = m'.1 ∧ SameOrSevered bs tail m.2 m'.2)
      (pair (bs ++ tail)) := by
  refine (cut_key bs tail).bind (fun k rest hk => ?_) fun _ _ _ h => h.elim
  have hsuffix : rest <:+ bs := by
    have := rest_key_suffix bs
    rwa [hk] at this
  refine (cut_separator rest tail).bind (fun _ rest' hs => ?_) fun _ _ rest' _ => .ended _ _
  obtain ⟨front, blanks, hblanks, rfl⟩ := exists_of_separator hs
  refine (cut_value rest' tail).map ?_
  rintro v v' (rfl | ⟨hsevered, hv, hv'⟩)
  · exact ⟨rfl, .inl rfl⟩
  · have hcuts : CutsNumber _ tail rest' := ⟨hsevered, front, blanks, hblanks, rfl⟩
    exact ⟨rfl, .inr ⟨rest', hcuts.of_suffix hsuffix, hv, hv'⟩⟩

/-! ## One step of the scan -/

/-- One step on a part beside one on the whole. -/
inductive Cursor.Cut (part tail : Bytes) : Option Item × Cursor → Option Item × Cursor → Prop
  /-- The part yields nothing more. -/
  | ended (c : Cursor) (step : Option Item × Cursor) : Cut part tail (none, c) step
  | malformed (rest rest' : Bytes) : Cut part tail (fail rest) (fail rest')
  /-- A member in front of the cut. -/
  | whole (m : String × Value) (rest : Bytes) (hs : rest <:+ part) :
      Cut part tail (some (item m), ⟨rest, .separator⟩) (some (item m), ⟨rest ++ tail, .separator⟩)
  /-- A member up to the cut. -/
  | across {m m' : String × Value} (h : m.1 = m'.1 ∧ SameOrSevered part tail m.2 m'.2)
      (rest : Bytes) :
      Cut part tail (some (item m), ⟨[], .separator⟩) (some (item m'), ⟨rest, .separator⟩)

/-- A number that is cut in an end of a part is cut in the part. -/
theorem SameOrSevered.of_suffix {part bs tail : Bytes} {v v' : Value}
    (h : SameOrSevered bs tail v v') (hs : bs <:+ part) : SameOrSevered part tail v v' :=
  h.imp_right fun ⟨row, hcuts, hv, hv'⟩ => ⟨row, hcuts.of_suffix hs, hv, hv'⟩

/-- The step that yields a member on a part and on the whole. -/
theorem cut_member {part bs : Bytes} (hs : bs <:+ part) (tail : Bytes) :
    Cursor.Cut part tail (Cursor.member bs) (Cursor.member (bs ++ tail)) := by
  have hcut := cut_pair bs tail
  have hsuffix := rest_pair_suffix bs
  unfold Cursor.member
  generalize pair bs = r, pair (bs ++ tail) = r' at hcut hsuffix
  cases hcut with
  | whole m rest => exact .whole m rest (hsuffix.trans hs)
  | across h rest => exact .across ⟨h.1, h.2.of_suffix hs⟩ rest
  | ended rest => exact .ended _ _
  | malformed rest rest' => exact .malformed rest rest'

/-- **One step in front of the cut**, once there was a member. -/
theorem cut_next {part bs : Bytes} (hs : bs <:+ part) (tail : Bytes) :
    Cursor.Cut part tail (Cursor.next ⟨bs, .separator⟩) (Cursor.next ⟨bs ++ tail, .separator⟩) := by
  unfold Cursor.next
  simp only
  cases h : skipBlanks bs with
  | nil => exact .ended _ _
  | cons b rest =>
    rw [skipBlanks_append_of_cons h]
    simp only
    split
    · exact cut_member ((suffix_of_skipBlanks h).trans hs) tail
    · split
      · exact .ended _ _
      · exact .malformed _ _

/-! ## All items -/

/-- The items of a part beside those of the whole payload. -/
inductive Shortened (part tail : Bytes) : List Item → List Item → Prop
  /-- The part yields nothing more. -/
  | ended (is' : List Item) : Shortened part tail [] is'
  | malformed : Shortened part tail [.malformed] [.malformed]
  | member (m : String × Value) {is is' : List Item} (h : Shortened part tail is is') :
      Shortened part tail (item m :: is) (item m :: is')
  /-- The last member of the part. -/
  | last {m m' : String × Value} (h : m.1 = m'.1 ∧ SameOrSevered part tail m.2 m'.2)
      (is' : List Item) : Shortened part tail [item m] (item m' :: is')

/-- A scan that is over yields nothing. -/
theorem run_done (rest : Bytes) : (Cursor.mk rest .done).run.1 = [] := by
  rw [Cursor.run_eq]
  rfl

/-- At the end of the part nothing more is yielded. -/
theorem run_separator_nil : (Cursor.mk [] .separator).run.1 = [] := by
  rw [Cursor.run_eq]
  rfl

/-- The items of a part are those of the whole payload, shortened, if that is so step by step. -/
theorem shortened_run {part tail : Bytes} {c : Cursor} {step : Option Item × Cursor}
    (h : Cursor.Cut part tail c.next step) : Shortened part tail c.run.1 (itemsFrom step) := by
  fun_induction Cursor.run c generalizing step with
  | case1 => exact .ended _
  | case2 c i c' hn _ is final hr ih =>
    rw [hr] at ih
    rw [hn] at h
    generalize hstep : (some i, c') = s at h
    cases h with
    | ended => cases hstep
    | malformed rest rest' =>
      cases hstep
      have his : is = [] := by rw [← run_done rest, hr]
      rw [his, Cursor.fail, itemsFrom, run_done]
      exact .malformed
    | whole m rest hs =>
      cases hstep
      rw [itemsFrom, Cursor.run_eq]
      exact .member m (ih (cut_next hs tail))
    | across h rest =>
      cases hstep
      have his : is = [] := by rw [← run_separator_nil, hr]
      rw [his]
      exact .last h _

/-- **All items of a part and of the whole.** -/
theorem shortened_pairs {part body : Bytes} (ho : Opens part body) (tail : Bytes) :
    Shortened part tail (pairs part) (pairs (part ++ tail)) := by
  have hwhole : Opens (part ++ tail) (body ++ tail) := skipBlanks_append_of_cons ho tail
  have hcut := cut_member (suffix_of_skipBlanks ho) tail
  rw [← next_of_opens ho, ← next_of_opens hwhole] at hcut
  rw [pairs, pairs, (Cursor.ofPayload (part ++ tail)).run_eq]
  exact shortened_run hcut

/-! ## What a cut does to a scan -/

/-- The key of an item; there is none where something is out of place. -/
def Item.key? : Item → Option String
  | .pair key _ => some key
  | .malformed => none

namespace Shortened

variable {part tail : Bytes} {is is' : List Item}

/-- The keys stay where they are. -/
theorem keys (h : Shortened part tail is is') : is.map Item.key? <+: is'.map Item.key? := by
  induction h with
  | ended is' => exact List.nil_prefix
  | malformed => exact List.prefix_refl _
  | member m h ih => exact List.cons_prefix_cons.2 ⟨rfl, ih⟩
  | last h is' => exact List.cons_prefix_cons.2 ⟨congrArg some h.1, List.nil_prefix⟩

/-- What is reported of a part is reported of the whole, at the same place. -/
theorem eq_of_malformed (h : Shortened part tail is is') (hm : .malformed ∈ is) : is' = is := by
  induction h with
  | ended is' => cases hm
  | malformed => rfl
  | member m h ih =>
    rcases List.mem_cons.1 hm with hm | hm
    · cases hm
    · rw [ih hm]
  | last h is' => cases List.mem_singleton.1 hm

/-- All but the last value are the same, and the last one too unless a number is cut. -/
theorem isPrefix_or (h : Shortened part tail is is') :
    is <+: is' ∨ ∃ row, CutsNumber part tail row ∧ ∃ front key,
      is = front ++ [.pair key (.ofNumber row)] ∧
        front ++ [.pair key (.ofNumber (row ++ tail.takeWhile isNumeric))] <+: is' := by
  induction h with
  | ended is' => exact .inl List.nil_prefix
  | malformed => exact .inl (List.prefix_refl _)
  | member m h ih =>
    rcases ih with ih | ⟨row, hcuts, front, key, rfl, ih⟩
    · exact .inl (List.cons_prefix_cons.2 ⟨rfl, ih⟩)
    · exact .inr ⟨row, hcuts, item m :: front, key, rfl, List.cons_prefix_cons.2 ⟨rfl, ih⟩⟩
  | @last m m' h is' =>
    obtain ⟨k, v⟩ := m
    obtain ⟨k', v'⟩ := m'
    obtain ⟨rfl, hv⟩ : k = k' ∧ SameOrSevered part tail v v' := h
    rcases hv with rfl | ⟨row, hcuts, rfl, rfl⟩
    · exact .inl (List.cons_prefix_cons.2 ⟨rfl, List.nil_prefix⟩)
    · exact .inr ⟨row, hcuts, [], k, rfl, List.cons_prefix_cons.2 ⟨rfl, List.nil_prefix⟩⟩

end Shortened

/-- **What a cut does to a scan.** If the part that is left opens an object, its items are the first
ones of the whole payload. Only where the cut goes through a bare number the last value may be
another one, that of the digits which are left. In any case the keys are the first keys of the
whole, and if something is reported of the part, the whole has the same items. -/
theorem pairs_truncated {part body : Bytes} (ho : Opens part body) (tail : Bytes) :
    (pairs part <+: pairs (part ++ tail) ∨ ∃ row, CutsNumber part tail row ∧ ∃ front key,
      pairs part = front ++ [.pair key (.ofNumber row)] ∧
        front ++ [.pair key (.ofNumber (row ++ tail.takeWhile isNumeric))] <+:
          pairs (part ++ tail)) ∧
    (pairs part).map Item.key? <+: (pairs (part ++ tail)).map Item.key? ∧
    (.malformed ∈ pairs part → pairs (part ++ tail) = pairs part) := by
  have h := shortened_pairs ho tail
  exact ⟨h.isPrefix_or, h.keys, h.eq_of_malformed⟩

/-- The first part of a command, up to the first digit of its second number. -/
def halfSent : Bytes := Bytes.ofText " \x7b\"h\":60,\"t\": -1"

/-- What is missing of the command. -/
def unsent : Bytes := Bytes.ofText "5e3,\"x\":1\x7d"

/-- Of the part the second number is an integer, of the whole it is none, and that is because the
cut goes through it. -/
theorem pairs_truncated_halfSent :
    pairs halfSent = [.pair "h" (.integer 60), .pair "t" (.integer (-1))] ∧
      pairs (halfSent ++ unsent) =
        [.pair "h" (.integer 60), .pair "t" .other, .pair "x" (.integer 1)] ∧
      ∃ row, CutsNumber halfSent unsent row := by
  have hpart : pairs halfSent = [.pair "h" (.integer 60), .pair "t" (.integer (-1))] := by
    decide +kernel
  have hwhole : pairs (halfSent ++ unsent) =
      [.pair "h" (.integer 60), .pair "t" .other, .pair "x" (.integer 1)] := by
    decide +kernel
  have hopens : Opens halfSent (Bytes.ofText "\"h\":60,\"t\": -1") := by
    unfold Opens
    decide +kernel
  refine ⟨hpart, hwhole, ?_⟩
  rcases (pairs_truncated hopens unsent).1 with hprefix | ⟨row, hcuts, -⟩
  · rw [hpart, hwhole] at hprefix
    exact absurd hprefix (by decide)
  · exact ⟨row, hcuts⟩

end EdgeDevice.Command
