import EdgeDevice.Proofs.Command.Lexemes

set_option autoImplicit false
set_option relaxedAutoImplicit false

/-!
# The scan of a document

On a JSON document the scan yields what it is meant to: the members of the object in order, each
with the coarse view of its value. What follows the document does not matter.

Two facts about every phrase of the grammar carry the proof, and both are shown by induction on the
phrase. To skip a phrase inside a nested value leaves the count of open values as it was; its
brackets come in pairs, and those in strings are not seen. And the scan reads a phrase for what it
means.

## Main definitions

* `EdgeDevice.Command.Skipped` — bytes that leave the count of open values as it was.
* `EdgeDevice.Command.Enclosed` — bytes of an array or an object with blanks around it.
* `EdgeDevice.Command.Reads` — the scan reads a phrase for what it means.
* `EdgeDevice.Command.itemsBehind` — what the scan yields behind a value.

## Main results

* `EdgeDevice.Command.skipped_phrase` — every phrase is skipped as a whole.
* `EdgeDevice.Command.reads_phrase` — every phrase is read for what it means.
* `EdgeDevice.Command.pairs_object` — the members of a document in order.
-/

namespace EdgeDevice.Command

open Ascii Grammar

/-! ## One byte of a nested value -/

/-- Inside a nested value a string is skipped as a whole. -/
theorem nested_quote {bs rest : Bytes} {raw : List Char}
    (h : Quoted.split? bs = some (Bytes.ofChars raw, rest)) (outer : Nat) :
    nested outer (quote :: bs) = nested outer rest := by
  rw [nested.eq_def]
  simp only [if_pos]
  split
  · rename_i hn
    rw [h] at hn
    cases hn
  · rename_i hs
    rw [h] at hs
    obtain ⟨rfl, rfl⟩ := Prod.mk.inj (Option.some.inj hs)
    rw [if_pos (by rw [Bytes.ofChars, Bytes.text?_ofText]; rfl)]

/-- A bracket that opens is one of two. -/
theorem isOpening_cases {b : UInt8} (h : isOpening b = true) : b = openBrace ∨ b = openBracket := by
  simpa [isOpening] using h

/-- A bracket that closes is one of two. -/
theorem isClosing_cases {b : UInt8} (h : isClosing b = true) :
    b = closeBrace ∨ b = closeBracket := by
  simpa [isClosing] using h

/-- A bracket that opens adds one to the open values. -/
theorem nested_opening {b : UInt8} (h : isOpening b = true) (outer : Nat) (bs : Bytes) :
    nested outer (b :: bs) = nested (outer + 1) bs := by
  rcases isOpening_cases h with rfl | rfl <;> exact nested.eq_def ..

/-- A bracket that closes takes one from the open values. -/
theorem nested_closing {b : UInt8} (h : isClosing b = true) (outer : Nat) (bs : Bytes) :
    nested (outer + 1) (b :: bs) = nested outer bs := by
  rcases isClosing_cases h with rfl | rfl <;> exact nested.eq_def ..

/-- The bracket that closes the outermost value ends it. -/
theorem nested_last {b : UInt8} (h : isClosing b = true) (bs : Bytes) :
    nested 0 (b :: bs) = .done () bs := by
  rcases isClosing_cases h with rfl | rfl <;> exact nested.eq_def ..

/-- Any other byte is passed over. -/
theorem nested_other {b : UInt8} (hq : b ≠ quote) (ho : isOpening b = false)
    (hc : isClosing b = false) (outer : Nat) (bs : Bytes) :
    nested outer (b :: bs) = nested outer bs := by
  rw [nested.eq_def]
  simp only [if_neg hq, ho, hc, Bool.false_eq_true, if_false]

/-! ## Bytes that are skipped -/

/-- Bytes inside a nested value that leave the count of open values as it was. -/
def Skipped (bs : Bytes) : Prop := ∀ outer rest, nested outer (bs ++ rest) = nested outer rest

/-- No bytes leave the count as it was. -/
theorem skipped_nil : Skipped [] := fun _ _ => rfl

/-- Bytes that leave the count as it was do so one behind the other. -/
theorem Skipped.append {bs bs' : Bytes} (h : Skipped bs) (h' : Skipped bs') :
    Skipped (bs ++ bs') := by
  intro outer rest
  rw [List.append_assoc, h, h']

/-- Bytes among which there are no quotes and no brackets leave the count as it was. -/
theorem skipped_of_forall {bs : Bytes}
    (h : ∀ b ∈ bs, b ≠ quote ∧ isOpening b = false ∧ isClosing b = false) : Skipped bs := by
  induction bs with
  | nil => exact skipped_nil
  | cons b bs ih =>
    obtain ⟨⟨hq, ho, hc⟩, hbs⟩ := List.forall_mem_cons.1 h
    intro outer rest
    rw [List.cons_append, nested_other hq ho hc, ih hbs]

/-- The scan takes no notice of a character inside a nested value. -/
def Unwatched (c : Char) : Prop := c ∉ ['"', '{', '}', '[', ']']

instance (c : Char) : Decidable (Unwatched c) := inferInstanceAs (Decidable (¬ _))

/-- Characters of which the scan takes no notice leave the count as it was. -/
theorem skipped_ofChars {cs : List Char} (h : ∀ c ∈ cs, Unwatched c) :
    Skipped (Bytes.ofChars cs) := by
  apply skipped_of_forall
  intro b hb
  have hne : ∀ w ∈ ['"', '{', '}', '[', ']'], b ≠ UInt8.ofNat w.toNat := by
    rintro w hw rfl
    have hascii : ∀ w ∈ ['"', '{', '}', '[', ']'], (UInt8.ofNat w.toNat).toNat = w.toNat ∧
        w.toNat < 0x80 := List.all_iff_forall_prop.1 (by decide)
    obtain ⟨hw', hlt⟩ := hascii w hw
    obtain ⟨c, hc, he⟩ := Bytes.exists_of_mem_ofChars hb (by rw [hw']; exact hlt)
    exact h c hc (Char.toNat_inj.1 (he.trans hw') ▸ hw)
  simp only [List.forall_mem_cons] at hne
  obtain ⟨hquote, hob, hcb, hos, hcs, -⟩ := hne
  exact ⟨hquote, by simpa [isOpening] using ⟨hob, hos⟩, by simpa [isClosing] using ⟨hcb, hcs⟩⟩

/-- Brackets in a string are not seen. -/
theorem skipped_quoted {raw : List Char} (h : raw ∈ content) :
    Skipped (Bytes.ofChars (Grammar.quoted raw)) := by
  intro outer rest
  rw [ofChars_quoted, List.cons_append, List.append_assoc]
  exact nested_quote (split?_content h rest) outer

/-- Blanks leave the count as it was. -/
theorem skipped_of_allBlank {bs : Bytes} (h : AllBlank bs) : Skipped bs := by
  apply skipped_of_forall
  intro b hb
  rcases blank_cases (h b hb) with rfl | rfl | rfl | rfl | rfl <;> decide

/-- The bytes of an array or an object with blanks around it. -/
inductive Enclosed : Bytes → Prop
  | mk {before inner after : Bytes} {opening closing : UInt8} (hbefore : AllBlank before)
      (ho : isOpening opening = true) (hinner : Skipped inner) (hc : isClosing closing = true)
      (hafter : AllBlank after) : Enclosed (before ++ opening :: (inner ++ closing :: after))

/-- Two marks enclose what stands between them. -/
theorem enclosed_of_marks {opens cs closes : List Char} {o c : Char} (ho : opens ∈ mark o)
    (h : Skipped (Bytes.ofChars cs)) (hc : closes ∈ mark c)
    (ho' : o.toNat < 0x80 ∧ isOpening (UInt8.ofNat o.toNat) = true)
    (hc' : c.toNat < 0x80 ∧ isClosing (UInt8.ofNat c.toNat) = true) :
    Enclosed (Bytes.ofChars (opens ++ cs ++ closes)) := by
  obtain ⟨before, inner, hopens⟩ := marks_of_mem ho ho'.1
  obtain ⟨inner', after, hcloses⟩ := marks_of_mem hc hc'.1
  have hinner : Skipped (inner ++ (Bytes.ofChars cs ++ inner')) :=
    (skipped_of_allBlank hopens.back).append (h.append (skipped_of_allBlank hcloses.front))
  have henclosed := Enclosed.mk hopens.front ho'.2 hinner hc'.2 hcloses.back
  rw [Bytes.ofChars_append, Bytes.ofChars_append, hopens.eq, hcloses.eq]
  simpa only [List.append_assoc, List.cons_append] using henclosed

/-- An array or an object with nothing in it is enclosed. -/
theorem enclosed_empty {cs : List Char} {o c : Char} (h : cs ∈ mark o * mark c)
    (ho' : o.toNat < 0x80 ∧ isOpening (UInt8.ofNat o.toNat) = true)
    (hc' : c.toNat < 0x80 ∧ isClosing (UInt8.ofNat c.toNat) = true) :
    Enclosed (Bytes.ofChars cs) := by
  obtain ⟨opens, ho, closes, hc, rfl⟩ := Language.mem_mul.1 h
  rw [← List.append_nil opens]
  exact enclosed_of_marks ho skipped_nil hc ho' hc'

/-- A nested value inside another one is opened and closed again. -/
theorem Enclosed.skipped {bs : Bytes} (h : Enclosed bs) : Skipped bs := by
  obtain ⟨hbefore, ho, hinner, hc, hafter⟩ := h
  intro outer rest
  rw [List.append_assoc, skipped_of_allBlank hbefore, List.cons_append, nested_opening ho,
    List.append_assoc, hinner, List.cons_append, nested_closing hc, skipped_of_allBlank hafter]

/-- **A nested value is read as a whole**, up to its last bracket. -/
theorem Enclosed.value {bs : Bytes} (h : Enclosed bs) (rest : Bytes) :
    ∃ after, AllBlank after ∧
      value (skipBlanks (bs ++ rest)) = .done .other (after ++ rest) := by
  obtain @⟨before, inner, after, opening, closing, hbefore, ho, hinner, hc, hafter⟩ := h
  have hfacts : Blank.isCommand opening = false ∧ opening ≠ quote ∧
      startsNumber opening = false := by
    rcases isOpening_cases ho with rfl | rfl <;> decide
  obtain ⟨hblank, hquote, hnumber⟩ := hfacts
  refine ⟨after, hafter, ?_⟩
  rw [List.append_assoc, skipBlanks_append hbefore, List.cons_append, skipBlanks_cons hblank,
    Command.value, if_neg hquote, if_neg (by simp [hnumber]), if_pos ho, List.append_assoc,
    hinner, List.cons_append, nested_last hc]
  rfl

/-! ## Phrases that are skipped -/

/-- The scan takes no notice of blanks. -/
theorem only_blanks : Only Unwatched blanks :=
  .kstar (.single (List.all_iff_forall_prop.1 (by decide)))

/-- The scan takes no notice of a mark that is no quote and no bracket. -/
theorem only_mark {c : Char} (h : Unwatched c) : Only Unwatched (mark c) :=
  .mul (.mul only_blanks (.word (by simpa using h))) only_blanks

/-- A number leaves the count as it was. -/
theorem skipped_number {cs : List Char} (h : cs ∈ Grammar.number) :
    Skipped (Bytes.ofChars cs) := by
  apply skipped_ofChars
  intro c hc hw
  have hclass : ∀ c ∈ ['"', '{', '}', '[', ']'], ¬ IsNumeric c :=
    List.all_iff_forall_prop.1 (by decide)
  exact hclass c hw (only_number cs h c hc)

/-- The scan takes no notice of the letters of literals. -/
theorem only_literals : Only Unwatched literals :=
  .add (.add (.word (by decide)) (.word (by decide))) (.word (by decide))

/-- Phrases with a mark between them that is no bracket. -/
theorem skipped_list {cs mid ds : List Char} {c : Char} (h : Skipped (Bytes.ofChars cs))
    (hc : mid ∈ mark c) (hw : Unwatched c) (h' : Skipped (Bytes.ofChars ds)) :
    Skipped (Bytes.ofChars (cs ++ mid ++ ds)) := by
  rw [Bytes.ofChars_append, Bytes.ofChars_append]
  exact (h.append (skipped_ofChars (only_mark hw mid hc))).append h'

/-- **Every phrase is skipped as a whole.**

**Proof sketch.** By induction on the phrase. In numbers, literals, commas, colons and blanks there
is nothing that is watched for, and a string is left at its closing quote. An array or an object
raises the count of open values at its first bracket and lowers it again at its last one, and what
stands between leaves the count as it was. -/
theorem skipped_phrase {c : Category} {cs : List Char} {m : c.Meaning} (h : Phrase c cs m) :
    Skipped (Bytes.ofChars cs) := by
  induction h with
  | integer h hn hfit => exact skipped_number (mem_number_of_mem_whole h)
  | number h hn => exact skipped_number h
  | string h => exact skipped_quoted h
  | literal h => exact skipped_ofChars (only_literals _ h)
  | emptyArray h => exact (enclosed_empty h (by decide) (by decide)).skipped
  | array ho h hc ih => exact (enclosed_of_marks ho ih hc (by decide) (by decide)).skipped
  | nestedObject h ih => exact ih
  | oneElement h ih => exact ih
  | moreElements h hc hs ih ihs => exact skipped_list ih hc (by decide) ihs
  | member hk hc h ih => exact skipped_list (skipped_quoted hk) hc (by decide) ih
  | oneMember h ih => exact ih
  | moreMembers h hc hs ih ihs => exact skipped_list ih hc (by decide) ihs
  | emptyObject h => exact (enclosed_empty h (by decide) (by decide)).skipped
  | object ho h hc ih => exact (enclosed_of_marks ho ih hc (by decide) (by decide)).skipped

/-- An object is enclosed by its brackets. -/
theorem enclosed_object {cs : List Char} {ms : List (String × Value)}
    (h : Phrase .object cs ms) : Enclosed (Bytes.ofChars cs) := by
  cases h with
  | emptyObject h => exact enclosed_empty h (by decide) (by decide)
  | object ho h hc => exact enclosed_of_marks ho (skipped_phrase h) hc (by decide) (by decide)

/-! ## The items of a scan -/

/-- The item that a member is. -/
def item (m : String × Value) : Item := .pair m.1 m.2

/-- The items from one step of a scan on. -/
def itemsFrom (step : Option Item × Cursor) : List Item :=
  match step with
  | (none, _) => []
  | (some i, c) => i :: c.run.1

/-- The items of a scan are those from its next step on. -/
theorem Cursor.run_eq (c : Cursor) : c.run.1 = itemsFrom c.next := by
  rw [Cursor.run]
  split
  · rename_i h
    exact (congrArg itemsFrom h).symm
  · rename_i h
    exact (congrArg itemsFrom h).symm

/-! ## How a scan begins -/

/-- A payload of nothing but blanks is out of shape. -/
theorem pairs_of_blank {payload : Bytes} (h : skipBlanks payload = []) :
    pairs payload = [.malformed] := by
  rw [pairs, Cursor.run_eq, Cursor.ofPayload, Cursor.next]
  simp only [h]
  rw [Cursor.fail, itemsFrom, Cursor.run_eq]
  rfl

/-- A payload that starts with no opening brace is out of shape. -/
theorem pairs_of_other {payload bs : Bytes} {b : UInt8} (h : skipBlanks payload = b :: bs)
    (hb : b ≠ openBrace) : pairs payload = [.malformed] := by
  rw [pairs, Cursor.run_eq, Cursor.ofPayload, Cursor.next]
  simp only [h, if_neg hb]
  rw [Cursor.fail, itemsFrom, Cursor.run_eq]
  rfl

/-- Behind the bracket that opens the object the scan looks for the first member. -/
theorem next_of_opens {payload body : Bytes} (h : skipBlanks payload = openBrace :: body) :
    (Cursor.ofPayload payload).next = Cursor.member body := by
  simp only [Cursor.next, Cursor.ofPayload, h, if_pos]

/-! ## Phrases that are read -/

/-- The scan reads a phrase for what it means, where it is asked for one of this kind. What it
leaves of the phrase are the blanks at its end. -/
def Reads : (c : Category) → List Char → c.Meaning → Prop
  | .value, cs, v => ∀ rest, Stops rest → ∃ after, AllBlank after ∧
      value (skipBlanks (Bytes.ofChars cs ++ rest)) = .done v (after ++ rest)
  | .elements, _, _ => True
  | .member, cs, m => ∀ rest, Stops rest → ∃ after, AllBlank after ∧
      pair (Bytes.ofChars cs ++ rest) = .done m (after ++ rest)
  | .members, cs, ms => ∀ closes ∈ mark '}', ∀ rest,
      itemsFrom (Cursor.member (Bytes.ofChars cs ++ (Bytes.ofChars closes ++ rest))) = ms.map item
  | .object, cs, ms => ∀ rest, pairs (Bytes.ofChars cs ++ rest) = ms.map item

/-- Where a value is read there is no blank in front of it. -/
theorem skipBlanks_of_value {bs rest : Bytes} {v : Value} (h : value bs = .done v rest) :
    skipBlanks bs = bs := by
  cases bs with
  | nil => rfl
  | cons b bs =>
    by_cases hb : Blank.isCommand b = true
    · rcases blank_cases hb with rfl | rfl | rfl | rfl | rfl <;> cases h
    · exact skipBlanks_cons (by simpa using hb) bs

/-- The scan reads a value for what it means if it does so in front of everything it stops at. -/
theorem reads_value {cs : List Char} {v : Value}
    (h : ∀ rest, Stops rest → value (Bytes.ofChars cs ++ rest) = .done v rest) :
    Reads .value cs v := by
  intro rest hrest
  refine ⟨[], fun _ hb => absurd hb List.not_mem_nil, ?_⟩
  rw [skipBlanks_of_value (h rest hrest), h rest hrest]
  rfl

/-- A string is read as the text between its quotes. -/
theorem value_quoted {raw : List Char} (h : raw ∈ content) (rest : Bytes) :
    value (Bytes.ofChars (Grammar.quoted raw) ++ rest) =
      .done (.text (String.ofList raw)) rest := by
  rw [ofChars_quoted, List.cons_append, value, if_pos rfl, List.append_assoc,
    List.singleton_append, quoted_content h]
  rfl

/-- A key is read as the text between its quotes. -/
theorem key_quoted {raw : List Char} (h : raw ∈ content) (rest : Bytes) :
    key (Bytes.ofChars (Grammar.quoted raw) ++ rest) = .done (String.ofList raw) rest := by
  rw [ofChars_quoted, List.cons_append, key, skipBlanks_cons (by decide)]
  simp only [if_neg (show quote ≠ closeBrace by decide), if_pos, List.append_assoc,
    List.singleton_append, quoted_content h]

/-- A colon is read with the blanks around it. -/
theorem separator_mark {cs : List Char} (h : cs ∈ mark ':') (bs : Bytes) :
    separator (Bytes.ofChars cs ++ bs) = .done () (skipBlanks bs) := by
  obtain ⟨before, after, hmark⟩ := marks_of_mem h (by decide)
  rw [separator, hmark.skipBlanks (by decide)]
  simp only [skipBlanks_append hmark.back]
  rfl

/-- A member is read if its value is. -/
theorem reads_member {raw colon cs : List Char} {v : Value} (hk : raw ∈ content)
    (hc : colon ∈ mark ':') (h : Reads .value cs v) :
    Reads .member (Grammar.quoted raw ++ colon ++ cs) (String.ofList raw, v) := by
  intro rest hrest
  obtain ⟨after, hafter, hvalue⟩ := h rest hrest
  refine ⟨after, hafter, ?_⟩
  rw [Bytes.ofChars_append, Bytes.ofChars_append, List.append_assoc, List.append_assoc, pair,
    key_quoted hk]
  simp only [Reading.bind, separator_mark hc, hvalue]
  rfl

/-! ## The members of an object -/

/-- What the scan yields behind a value. -/
def itemsBehind (bs : Bytes) : List Item := itemsFrom (Cursor.next ⟨bs, .separator⟩)

/-- A mark is nothing that could belong to a number or a literal. -/
theorem stops_of_mark {c : Char} {cs : List Char} (h : cs ∈ mark c) (hc : c.toNat < 0x80)
    (hstop : isNumeric (UInt8.ofNat c.toNat) = false ∧ isLetter (UInt8.ofNat c.toNat) = false)
    (rest : Bytes) : Stops (Bytes.ofChars cs ++ rest) := by
  obtain ⟨before, after, hmark⟩ := marks_of_mem h hc
  rw [hmark.eq]
  cases before with
  | nil =>
    rintro _ ⟨⟩
    exact hstop
  | cons b before =>
    rintro _ ⟨⟩
    rcases blank_cases (hmark.front b List.mem_cons_self) with rfl | rfl | rfl | rfl | rfl <;>
      decide

/-- Blanks in front of a member make no difference. -/
theorem member_blanks {blanks : Bytes} (h : AllBlank blanks) (bs : Bytes) :
    Cursor.member (blanks ++ bs) = Cursor.member bs := by
  have hkey : key (blanks ++ bs) = key bs := by
    rw [key, key, skipBlanks_append h]
  rw [Cursor.member, Cursor.member, pair, pair, hkey]

/-- Blanks behind a value make no difference. -/
theorem itemsBehind_blanks {blanks : Bytes} (h : AllBlank blanks) (bs : Bytes) :
    itemsBehind (blanks ++ bs) = itemsBehind bs := by
  rw [itemsBehind, itemsBehind, Cursor.next, Cursor.next]
  simp only [skipBlanks_append h]

/-- A member is yielded, and then what stands behind its value. -/
theorem itemsFrom_member {cs : List Char} {m : String × Value} (h : Reads .member cs m)
    {rest : Bytes} (hrest : Stops rest) :
    itemsFrom (Cursor.member (Bytes.ofChars cs ++ rest)) = item m :: itemsBehind rest := by
  obtain ⟨after, hafter, hpair⟩ := h rest hrest
  rw [← itemsBehind_blanks hafter, itemsBehind, ← Cursor.run_eq, Cursor.member, hpair]
  rfl

/-- A comma leads to the next member. -/
theorem itemsBehind_comma {cs : List Char} (h : cs ∈ mark ',') (bs : Bytes) :
    itemsBehind (Bytes.ofChars cs ++ bs) = itemsFrom (Cursor.member bs) := by
  obtain ⟨before, after, hmark⟩ := marks_of_mem h (by decide)
  rw [itemsBehind, Cursor.next]
  simp only [hmark.skipBlanks (by decide)]
  rw [if_pos (by decide), member_blanks hmark.back]

/-- The bracket at the end of the object ends the scan. -/
theorem itemsBehind_close {cs : List Char} (h : cs ∈ mark '}') (bs : Bytes) :
    itemsBehind (Bytes.ofChars cs ++ bs) = [] := by
  obtain ⟨before, after, hmark⟩ := marks_of_mem h (by decide)
  rw [itemsBehind, Cursor.next]
  simp only [hmark.skipBlanks (by decide)]
  rfl

/-- Where the object ends there is no member. -/
theorem itemsFrom_close {cs : List Char} (h : cs ∈ mark '}') (bs : Bytes) :
    itemsFrom (Cursor.member (Bytes.ofChars cs ++ bs)) = [] := by
  obtain ⟨before, after, hmark⟩ := marks_of_mem h (by decide)
  rw [Cursor.member, pair, key, hmark.skipBlanks (by decide)]
  rfl

/-- The bracket at the beginning of the object leads to the first member. -/
theorem pairs_open {cs : List Char} (h : cs ∈ mark '{') (bs : Bytes) :
    pairs (Bytes.ofChars cs ++ bs) = itemsFrom (Cursor.member bs) := by
  obtain ⟨before, after, hmark⟩ := marks_of_mem h (by decide)
  rw [pairs, Cursor.run_eq, next_of_opens (hmark.skipBlanks (by decide) bs),
    member_blanks hmark.back]

/-- Members that are only one are read if that one is. -/
theorem reads_oneMember {cs : List Char} {m : String × Value} (h : Reads .member cs m) :
    Reads .members cs [m] := by
  intro closes hc rest
  rw [itemsFrom_member h (stops_of_mark hc (by decide) (by decide) rest), itemsBehind_close hc]
  rfl

/-- A member with a comma behind it is yielded before the others. -/
theorem itemsFrom_member_comma {cs comma : List Char} {m : String × Value}
    (h : Reads .member cs m) (hc : comma ∈ mark ',') (bs : Bytes) :
    itemsFrom (Cursor.member (Bytes.ofChars (cs ++ comma) ++ bs)) =
      item m :: itemsFrom (Cursor.member bs) := by
  rw [Bytes.ofChars_append, List.append_assoc,
    itemsFrom_member h (stops_of_mark hc (by decide) (by decide) bs), itemsBehind_comma hc]

/-- Members are read if the first one and the others are. -/
theorem reads_moreMembers {cs comma ds : List Char} {m : String × Value}
    {ms : List (String × Value)} (h : Reads .member cs m) (hc : comma ∈ mark ',')
    (hs : Reads .members ds ms) : Reads .members (cs ++ comma ++ ds) (m :: ms) := by
  intro closes hcloses rest
  rw [Bytes.ofChars_append (cs ++ comma), List.append_assoc, itemsFrom_member_comma h hc,
    hs closes hcloses rest]
  rfl

/-- The brackets of an object enclose its members. -/
theorem reads_object {opens cs closes : List Char} {ms : List (String × Value)}
    (ho : opens ∈ mark '{') (h : Reads .members cs ms) (hc : closes ∈ mark '}') :
    Reads .object (opens ++ cs ++ closes) ms := by
  intro rest
  rw [Bytes.ofChars_append, Bytes.ofChars_append, List.append_assoc, List.append_assoc,
    pairs_open ho]
  exact h _ hc rest

/-- **Every phrase is read for what it means.**

**Proof sketch.** By induction on the phrase. A number or a literal ends where what follows cannot
belong to it, which a comma, a closing bracket and a blank cannot. An array or an object ends at its
last bracket, as everything inside is skipped. Members are read one after the other: behind each
there is a comma and the next one, or the bracket that ends the object. -/
theorem reads_phrase {c : Category} {cs : List Char} {m : c.Meaning} (h : Phrase c cs m) :
    Reads c cs m := by
  induction h with
  | integer h hn hfit => exact reads_value fun rest hrest => value_integer h hn hfit hrest
  | number h hn => exact reads_value fun rest hrest => value_number h hn hrest
  | string h => exact reads_value fun rest _ => value_quoted h rest
  | literal h => exact reads_value fun rest hrest => value_literal h hrest
  | emptyArray h =>
    intro rest _
    exact (enclosed_empty h (by decide) (by decide)).value rest
  | array ho h hc ih =>
    intro rest _
    exact (enclosed_of_marks ho (skipped_phrase h) hc (by decide) (by decide)).value rest
  | nestedObject h ih =>
    intro rest _
    exact (enclosed_object h).value rest
  | oneElement h ih => trivial
  | moreElements h hc hs ih ihs => trivial
  | member hk hc h ih => exact reads_member hk hc ih
  | oneMember h ih => exact reads_oneMember ih
  | moreMembers h hc hs ih ihs => exact reads_moreMembers ih hc ihs
  | emptyObject h =>
    intro rest
    obtain ⟨opens, ho, closes, hc, rfl⟩ := Language.mem_mul.1 h
    rw [Bytes.ofChars_append, List.append_assoc, pairs_open ho]
    exact itemsFrom_close hc rest
  | object ho h hc ih => exact reads_object ho ih hc

/-- **The members of a document in order**, whatever follows it. -/
theorem pairs_object {text : String} {ms : List (String × Value)}
    (h : Phrase .object text.toList ms) (rest : Bytes) :
    pairs (Bytes.ofText text ++ rest) = ms.map item := by
  rw [← Bytes.ofChars_toList]
  exact reads_phrase h rest

end EdgeDevice.Command
