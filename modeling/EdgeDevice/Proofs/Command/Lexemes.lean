import EdgeDevice.Proofs.Command.Grammar
import EdgeDevice.Proofs.Text.Characters
import Mathlib.Data.Bool.AllAny

set_option autoImplicit false
set_option relaxedAutoImplicit false

/-!
# Blanks, marks, strings and numbers in bytes

What the scan makes of the phrases without values inside, byte by byte. Blanks are skipped, a mark
is found behind the blanks in front of it, the content of a string ends where it is meant to, and a
number is taken up to its last character if what follows cannot belong to it.

## Main definitions

* `EdgeDevice.Command.Marks` — bytes are a mark with blanks around it.
* `EdgeDevice.Command.Passes` — the end of a string is not inside some bytes.
* `EdgeDevice.Command.Stops` — bytes start with nothing that could belong to a number or a literal.

## Main results

* `EdgeDevice.Command.marks_of_mem` — a mark in bytes.
* `EdgeDevice.Command.quoted_content` — a string is read up to its closing quote.
* `EdgeDevice.Command.value_integer`, `EdgeDevice.Command.value_number` — a number is read.
-/

namespace EdgeDevice.Command

open Ascii Grammar
open scoped Computability

/-! ## Characters of a phrase -/

/-- The phrases of a language are made of characters of one class. -/
def Only (p : Char → Prop) (l : Language Char) : Prop := ∀ cs ∈ l, ∀ c ∈ cs, p c

namespace Only

variable {p q : Char → Prop} {l m : Language Char}

/-- A class of characters that is part of another one is made of characters of that one. -/
theorem single (h : ∀ c, q c → p c) : Only p (single q) := by
  rintro cs ⟨d, hd, rfl⟩ c hc
  exact h c (List.mem_singleton.1 hc ▸ hd)

/-- One word is made of characters of a class if each of its characters is in the class. -/
theorem word [DecidablePred p] {cs : List Char} (h : (cs.all fun c => p c) = true) :
    Only p {cs} := by
  rintro _ rfl
  exact List.all_iff_forall_prop.1 h

/-- The empty word is made of characters of any class. -/
theorem one : Only p 1 := by
  intro cs h c hc
  rw [(Language.mem_one cs).1 h] at hc
  cases hc

/-- What is in one of two such languages is made of characters of the class. -/
theorem add (hl : Only p l) (hm : Only p m) : Only p (l + m) := by
  intro cs h
  exact ((Language.mem_add _ _ _).1 h).elim (hl cs) (hm cs)

/-- What is put together from two such languages is made of characters of the class. -/
theorem mul (hl : Only p l) (hm : Only p m) : Only p (l * m) := by
  intro cs h c hc
  obtain ⟨as, ha, bs, hb, rfl⟩ := Language.mem_mul.1 h
  exact (List.mem_append.1 hc).elim (hl as ha c) (hm bs hb c)

/-- What is put together from any number of such phrases is made of characters of the class. -/
theorem kstar (hl : Only p l) : Only p l∗ := by
  intro cs h c hc
  obtain ⟨pieces, rfl, hp⟩ := Language.mem_kstar.1 h
  obtain ⟨piece, hpiece, hc⟩ := List.mem_flatten.1 hc
  exact hl piece (hp piece hpiece) c hc

end Only

/-! ## Blanks and marks -/

/-- The bytes are blanks. -/
def AllBlank (bs : Bytes) : Prop := ∀ b ∈ bs, Blank.isCommand b = true

/-- A blank is one of five bytes. -/
theorem blank_cases {b : UInt8} (h : Blank.isCommand b = true) :
    b = 0x20 ∨ b = 0x09 ∨ b = 0x0A ∨ b = 0x0C ∨ b = 0x0D := by
  simpa [Blank.isCommand, or_assoc] using h

/-- The blanks of the grammar are blanks to the scan. -/
theorem allBlank_of_mem {cs : List Char} (h : cs ∈ blanks) : AllBlank (Bytes.ofChars cs) := by
  have hclass : ∀ c ∈ [' ', '\t', '\n', '\r'], c.toNat < 0x80 ∧
      Blank.isCommand (UInt8.ofNat c.toNat) = true := List.all_iff_forall_prop.1 (by decide)
  have hcs := (Only.single fun _ hc => hc).kstar cs h
  rw [Bytes.ofChars_of_ascii fun c hc => (hclass c (hcs c hc)).1]
  intro b hb
  obtain ⟨c, hc, rfl⟩ := List.mem_map.1 hb
  exact (hclass c (hcs c hc)).2

/-- All blanks in front are left out. -/
theorem skipBlanks_append {bs : Bytes} (h : AllBlank bs) (rest : Bytes) :
    skipBlanks (bs ++ rest) = skipBlanks rest := List.dropWhile_append_of_pos h

/-- Where there is no blank in front nothing is left out. -/
theorem skipBlanks_cons {b : UInt8} (h : Blank.isCommand b = false) (rest : Bytes) :
    skipBlanks (b :: rest) = b :: rest := List.dropWhile_cons_of_neg (by simp [h])

/-- The bytes are a mark with blanks around it. -/
structure Marks (mark : UInt8) (before after bs : Bytes) : Prop where
  front : AllBlank before
  back : AllBlank after
  eq : bs = before ++ mark :: after

/-- A mark of the grammar is a byte with blanks around it. -/
theorem marks_of_mem {c : Char} {cs : List Char} (h : cs ∈ mark c) (hc : c.toNat < 0x80) :
    ∃ before after, Marks (UInt8.ofNat c.toNat) before after (Bytes.ofChars cs) := by
  obtain ⟨as, has, after, hafter, rfl⟩ := Language.mem_mul.1 h
  obtain ⟨before, hbefore, m, hm, rfl⟩ := Language.mem_mul.1 has
  obtain rfl : m = [c] := hm
  refine ⟨_, _, allBlank_of_mem hbefore, allBlank_of_mem hafter, ?_⟩
  rw [Bytes.ofChars_append, Bytes.ofChars_append, Bytes.ofChars_singleton_of_ascii hc,
    List.append_assoc]
  rfl

/-- Behind the blanks in front of it there is the mark. -/
theorem Marks.skipBlanks {mark : UInt8} {before after bs : Bytes} (h : Marks mark before after bs)
    (hm : Blank.isCommand mark = false) (rest : Bytes) :
    skipBlanks (bs ++ rest) = mark :: (after ++ rest) := by
  rw [h.eq, List.append_assoc, skipBlanks_append h.front, List.cons_append, skipBlanks_cons hm]

/-! ## Strings -/

/-- The end of a string is not inside these bytes. -/
def Passes (bs : Bytes) : Prop :=
  ∀ rest, Quoted.split? (bs ++ rest) =
    (Quoted.split? rest).map fun found => (bs ++ found.1, found.2)

/-- In no bytes there is no end of a string. -/
theorem passes_nil : Passes [] := fun rest => by
  simp

/-- Where there is no end of a string in two parts there is none in both together. -/
theorem Passes.append {bs bs' : Bytes} (h : Passes bs) (h' : Passes bs') :
    Passes (bs ++ bs') := by
  intro rest
  rw [List.append_assoc, h, h', Option.map_map]
  simp [Function.comp_def]

/-- No string ends at a byte that is neither a quote nor a backslash. -/
theorem passes_singleton {b : UInt8} (hq : b ≠ quote) (hb : b ≠ backslash) : Passes [b] := by
  intro rest
  rw [List.singleton_append, Quoted.split?.eq_def]
  simp only [if_neg hq, if_neg hb]
  rfl

/-- A backslash protects the byte behind it. -/
theorem passes_escape (b : UInt8) : Passes [backslash, b] := by
  intro rest
  rw [List.cons_append, List.singleton_append, Quoted.split?.eq_def]
  simp only [if_pos, if_neg (show backslash ≠ quote by decide)]
  rfl

/-- No string ends where there is neither a quote nor a backslash. -/
theorem passes_of_forall {bs : Bytes} (h : ∀ b ∈ bs, b ≠ quote ∧ b ≠ backslash) : Passes bs := by
  induction bs with
  | nil => exact passes_nil
  | cons b bs ih =>
    obtain ⟨⟨hq, hb⟩, hbs⟩ := List.forall_mem_cons.1 h
    exact (passes_singleton hq hb).append (ih hbs)

/-- No string ends among characters that are neither quotes nor backslashes. -/
theorem passes_ofChars {cs : List Char} (h : ∀ c ∈ cs, c ≠ '"' ∧ c ≠ '\\') :
    Passes (Bytes.ofChars cs) := by
  apply passes_of_forall
  intro b hb
  constructor
  · rintro rfl
    obtain ⟨c, hc, he⟩ := Bytes.exists_of_mem_ofChars hb (by decide)
    exact (h c hc).1 (Char.toNat_inj.1 he)
  · rintro rfl
    obtain ⟨c, hc, he⟩ := Bytes.exists_of_mem_ofChars hb (by decide)
    exact (h c hc).2 (Char.toNat_inj.1 he)

/-- No string ends at a digit in base sixteen. -/
theorem passes_hexDigit {cs : List Char} (h : cs ∈ hexDigit) : Passes (Bytes.ofChars cs) := by
  obtain ⟨c, hc, rfl⟩ := h
  apply passes_ofChars
  intro d hd
  obtain rfl := List.mem_singleton.1 hd
  constructor <;> rintro rfl <;> revert hc <;> decide

/-- No string ends in what is put together from phrases in which none ends. -/
theorem passes_mul {l m : Language Char} (hl : ∀ cs ∈ l, Passes (Bytes.ofChars cs))
    (hm : ∀ cs ∈ m, Passes (Bytes.ofChars cs)) : ∀ cs ∈ l * m, Passes (Bytes.ofChars cs) := by
  intro cs h
  obtain ⟨as, ha, bs, hb, rfl⟩ := Language.mem_mul.1 h
  rw [Bytes.ofChars_append]
  exact (hl as ha).append (hm bs hb)

/-- An escape holds no end of a string, not even if a quote is escaped. -/
theorem passes_of_mem_escape {cs : List Char} (h : cs ∈ escape) : Passes (Bytes.ofChars cs) := by
  obtain ⟨as, ha, ds, hd, rfl⟩ := Language.mem_mul.1 h
  obtain rfl : as = ['\\'] := ha
  rcases (Language.mem_add _ _ _).1 hd with ⟨c, hc, rfl⟩ | hu
  · have hclass : ∀ c ∈ ['"', '\\', '/', 'b', 'f', 'n', 'r', 't'], c.toNat < 0x80 :=
      List.all_iff_forall_prop.1 (by decide)
    rw [Bytes.ofChars_append, Bytes.ofChars_singleton_of_ascii (hclass c hc)]
    exact passes_escape _
  · obtain ⟨us, hus, hs, hhs, rfl⟩ := Language.mem_mul.1 hu
    obtain rfl : us = ['u'] := hus
    have hhex : ∀ cs ∈ hexDigit, Passes (Bytes.ofChars cs) := fun _ => passes_hexDigit
    have hdigits := passes_mul (passes_mul (passes_mul hhex hhex) hhex) hhex hs hhs
    rw [← List.append_assoc, Bytes.ofChars_append]
    exact (passes_escape _).append hdigits

/-- No string ends in what the grammar puts between quotes. -/
theorem passes_of_mem_content {raw : List Char} (h : raw ∈ content) :
    Passes (Bytes.ofChars raw) := by
  obtain ⟨pieces, rfl, hp⟩ := Language.mem_kstar.1 h
  clear h
  induction pieces with
  | nil => exact passes_nil
  | cons piece pieces ih =>
    obtain ⟨hpiece, hp⟩ := List.forall_mem_cons.1 hp
    rw [List.flatten_cons, Bytes.ofChars_append]
    refine Passes.append ?_ (ih hp)
    rcases (Language.mem_add _ _ _).1 hpiece with ⟨c, hc, rfl⟩ | hpiece
    · exact passes_ofChars fun d hd => List.mem_singleton.1 hd ▸ hc.2
    · exact passes_of_mem_escape hpiece

/-- The content of a string is found. -/
theorem split?_content {raw : List Char} (h : raw ∈ content) (rest : Bytes) :
    Quoted.split? (Bytes.ofChars raw ++ quote :: rest) = some (Bytes.ofChars raw, rest) := by
  have hend : Quoted.split? (quote :: rest) = some ([], rest) := by
    rw [Quoted.split?.eq_def]
    rfl
  rw [passes_of_mem_content h, hend, Option.map_some, List.append_nil]

/-- **A string is read up to its closing quote.** -/
theorem quoted_content {raw : List Char} (h : raw ∈ content) (rest : Bytes) :
    Command.quoted (Bytes.ofChars raw ++ quote :: rest) = .done (String.ofList raw) rest := by
  rw [Command.quoted, split?_content h]
  simp only [Bytes.ofChars, Bytes.text?_ofText]

/-- The bytes of characters between quotes stand between the bytes of quotes. -/
theorem ofChars_quoted (raw : List Char) :
    Bytes.ofChars (Grammar.quoted raw) = quote :: (Bytes.ofChars raw ++ [quote]) := by
  rw [Grammar.quoted, Bytes.ofChars_append, Bytes.ofChars_cons]
  rfl

/-! ## Numbers and literals -/

/-- The bytes start with nothing that could belong to a number or a literal. -/
def Stops (bs : Bytes) : Prop := ∀ b ∈ bs.head?, isNumeric b = false ∧ isLetter b = false

/-- What is dropped up to a byte that stops it leaves what starts with that byte. -/
theorem dropWhile_append_of_stops {q : UInt8 → Bool} {bs rest : Bytes} (h : ∀ b ∈ bs, q b = true)
    (hrest : ∀ b ∈ rest.head?, q b = false) : (bs ++ rest).dropWhile q = rest := by
  rw [List.dropWhile_append_of_pos h]
  cases rest with
  | nil => rfl
  | cons b rest => exact List.dropWhile_cons_of_neg (by simp [hrest b rfl])

/-- What is taken up to a byte that stops it is what stands in front of that byte. -/
theorem takeWhile_append_of_stops {q : UInt8 → Bool} {bs rest : Bytes} (h : ∀ b ∈ bs, q b = true)
    (hrest : ∀ b ∈ rest.head?, q b = false) : (bs ++ rest).takeWhile q = bs := by
  rw [List.takeWhile_append_of_pos h]
  cases rest with
  | nil => simp
  | cons b rest => rw [List.takeWhile_cons_of_neg (by simp [hrest b rfl]), List.append_nil]

/-- The characters of numbers. -/
def IsNumeric (c : Char) : Prop := c.isDigit = true ∨ c ∈ ['-', '+', '.', 'e', 'E']

instance (c : Char) : Decidable (IsNumeric c) := inferInstanceAs (Decidable (_ ∨ _))

/-- The byte of a digit is a digit to the scan. -/
theorem isDigit_ofNat {c : Char} (h : c.isDigit = true) :
    isDigit (UInt8.ofNat c.toNat) = true := by
  have hdigit : 0x30 ≤ c.toNat ∧ c.toNat ≤ 0x39 := Char.isDigit_iff_toNat.1 h
  have hbyte : (UInt8.ofNat c.toNat).toNat = c.toNat := by
    rw [UInt8.toNat_ofNat']
    omega
  simp only [isDigit, Bool.and_eq_true, decide_eq_true_eq, UInt8.le_iff_toNat_le, hbyte]
  exact hdigit

/-- The byte of a character of numbers is one to the scan. -/
theorem isNumeric_ofNat {c : Char} (h : IsNumeric c) :
    c.toNat < 0x80 ∧ isNumeric (UInt8.ofNat c.toNat) = true := by
  rcases h with h | h
  · have hdigit : 0x30 ≤ c.toNat ∧ c.toNat ≤ 0x39 := Char.isDigit_iff_toNat.1 h
    exact ⟨by omega, by simp [isNumeric, isDigit_ofNat h]⟩
  · have hclass : ∀ c ∈ ['-', '+', '.', 'e', 'E'], c.toNat < 0x80 ∧
        isNumeric (UInt8.ofNat c.toNat) = true := List.all_iff_forall_prop.1 (by decide)
    exact hclass c h

/-- Digits are characters of numbers. -/
theorem only_digit : Only IsNumeric digit := .single fun _ => .inl

/-- A number without fraction and exponent is made of characters of numbers. -/
theorem only_whole : Only IsNumeric whole := by
  have hsign : Only IsNumeric (1 + {['-']}) := .add .one (.word (by decide))
  have hnatural : Only IsNumeric natural :=
    .add (.word (by decide)) (.mul (.single fun _ h => .inl h.1) only_digit.kstar)
  exact hsign.mul hnatural

/-- A number is made of the bytes that the scan takes for one. -/
theorem only_number : Only IsNumeric Grammar.number := by
  have hdigits : Only IsNumeric (digit * digit∗) := only_digit.mul only_digit.kstar
  have hfraction : Only IsNumeric fraction := .mul (.word (by decide)) hdigits
  have hexponent : Only IsNumeric exponent :=
    .mul (.mul (.add (.word (by decide)) (.word (by decide)))
      (.add (.add .one (.word (by decide))) (.word (by decide)))) hdigits
  exact (only_whole.mul (.add .one hfraction)).mul (.add .one hexponent)

/-- A number without sign starts with a digit. -/
theorem exists_cons_of_mem_natural {cs : List Char} (h : cs ∈ natural) :
    ∃ c cs', cs = c :: cs' ∧ c.isDigit = true := by
  rcases (Language.mem_add _ _ _).1 h with rfl | h
  · exact ⟨'0', [], rfl, rfl⟩
  · obtain ⟨_, ⟨c, hc, rfl⟩, ds, -, rfl⟩ := Language.mem_mul.1 h
    exact ⟨c, ds, rfl, hc.1⟩

/-- The first byte of a number is one that the scan takes for it. -/
theorem startsNumber_of_mem_number {cs : List Char} (h : cs ∈ Grammar.number) :
    ∃ c cs', cs = c :: cs' ∧ startsNumber (UInt8.ofNat c.toNat) = true := by
  obtain ⟨_, hf, exponent, -, rfl⟩ := Language.mem_mul.1 h
  obtain ⟨_, hw, fraction, -, rfl⟩ := Language.mem_mul.1 hf
  obtain ⟨sign, hsign, ds, hds, rfl⟩ := Language.mem_mul.1 hw
  obtain ⟨c, ds, rfl, hc⟩ := exists_cons_of_mem_natural hds
  rcases (Language.mem_add _ _ _).1 hsign with hsign | rfl
  · rw [(Language.mem_one sign).1 hsign]
    exact ⟨c, _, rfl, by simp [startsNumber, isDigit_ofNat hc]⟩
  · exact ⟨'-', _, rfl, rfl⟩

/-- A row of characters of numbers that starts like a number is read up to its last character. -/
theorem value_of_numeric {cs : List Char} (hcs : ∀ c ∈ cs, IsNumeric c)
    (hstart : ∃ c cs', cs = c :: cs' ∧ startsNumber (UInt8.ofNat c.toNat) = true) {rest : Bytes}
    (hrest : Stops rest) :
    value (Bytes.ofChars cs ++ rest) = .done (Value.ofNumber (Bytes.ofChars cs)) rest := by
  have hbytes := Bytes.ofChars_of_ascii fun c hc => (isNumeric_ofNat (hcs c hc)).1
  have hnumeric : ∀ b ∈ Bytes.ofChars cs, isNumeric b = true := by
    intro b hb
    rw [hbytes] at hb
    obtain ⟨c, hc, rfl⟩ := List.mem_map.1 hb
    exact (isNumeric_ofNat (hcs c hc)).2
  have hnumber : number (Bytes.ofChars cs ++ rest) =
      .done (Value.ofNumber (Bytes.ofChars cs)) rest := by
    rw [number, takeWhile_append_of_stops hnumeric fun b hb => (hrest b hb).1,
      dropWhile_append_of_stops hnumeric fun b hb => (hrest b hb).1]
  obtain ⟨c, cs', rfl, hstart⟩ := hstart
  rw [hbytes, List.map_cons, List.cons_append] at hnumber ⊢
  have hquote : UInt8.ofNat c.toNat ≠ quote := by
    intro he
    rw [he] at hstart
    revert hstart
    decide
  rw [value, if_neg hquote, if_pos hstart, hnumber]

/-- A number is read up to its last character. -/
theorem value_of_mem_number {cs : List Char} (h : cs ∈ Grammar.number) {rest : Bytes}
    (hrest : Stops rest) :
    value (Bytes.ofChars cs ++ rest) = .done (Value.ofNumber (Bytes.ofChars cs)) rest :=
  value_of_numeric (only_number cs h) (startsNumber_of_mem_number h) hrest

/-- The bytes of characters below U+0080 tell the characters again. -/
theorem map_toChar_ofChars {cs : List Char} (h : ∀ c ∈ cs, c.toNat < 0x80) :
    (Bytes.ofChars cs).map toChar = cs := by
  rw [Bytes.ofChars_of_ascii h, List.map_map]
  conv_rhs => rw [← List.map_id cs]
  apply List.map_congr_left
  intro c hc
  have hbyte : (UInt8.ofNat c.toNat).toNat = c.toNat := by
    have := h c hc
    rw [UInt8.toNat_ofNat']
    omega
  show Char.ofNat (UInt8.ofNat c.toNat).toNat = c
  rw [hbyte, Char.ofNat_toNat]

/-- A number is viewed by what its characters spell. -/
theorem ofNumber_ofChars {cs : List Char} (hcs : ∀ c ∈ cs, IsNumeric c) :
    Value.ofNumber (Bytes.ofChars cs) = ((Decimal.integer? cs).map .integer).getD .other := by
  rw [Value.ofNumber, map_toChar_ofChars fun c hc => (isNumeric_ofNat (hcs c hc)).1]
  cases Decimal.integer? cs <;> rfl

/-- A number may do without fraction and exponent. -/
theorem mem_number_of_mem_whole {cs : List Char} (h : cs ∈ whole) : cs ∈ Grammar.number := by
  rw [← List.append_nil cs, ← List.append_nil cs]
  exact Language.append_mem_mul (Language.append_mem_mul h (.inl rfl)) (.inl rfl)

/-- A number that spells an integer has neither fraction nor exponent. -/
theorem mem_whole_of_spells {cs : List Char} {n : Int} (h : cs ∈ Grammar.number)
    (hn : Decimal.Spells cs n) : cs ∈ whole := by
  obtain ⟨_, hf, exponent, hexponent, rfl⟩ := Language.mem_mul.1 h
  obtain ⟨w, hw, fraction, hfraction, rfl⟩ := Language.mem_mul.1 hf
  rcases (Language.mem_add _ _ _).1 hfraction with hfraction | hfraction
  · rcases (Language.mem_add _ _ _).1 hexponent with hexponent | hexponent
    · rw [(Language.mem_one _).1 hfraction, (Language.mem_one _).1 hexponent, List.append_nil,
        List.append_nil]
      exact hw
    · obtain ⟨_, he, ds, -, rfl⟩ := Language.mem_mul.1 hexponent
      obtain ⟨_, hletter, sign, -, rfl⟩ := Language.mem_mul.1 he
      rcases (Language.mem_add _ _ _).1 hletter with rfl | rfl
      · exact absurd (hn.mem (c := 'e') (by simp)) (by decide)
      · exact absurd (hn.mem (c := 'E') (by simp)) (by decide)
  · obtain ⟨_, rfl, ds, -, rfl⟩ := Language.mem_mul.1 hfraction
    exact absurd (hn.mem (c := '.') (by simp)) (by decide)

/-- **A whole number that fits is read as an integer.** -/
theorem value_integer {cs : List Char} {n : Int} (h : cs ∈ whole) (hn : Decimal.Spells cs n)
    (hfit : Decimal.Fits n) {rest : Bytes} (hrest : Stops rest) :
    value (Bytes.ofChars cs ++ rest) = .done (.integer n) rest := by
  have hnumber := mem_number_of_mem_whole h
  rw [value_of_mem_number hnumber hrest, ofNumber_ofChars (only_number cs hnumber),
    Decimal.integer?_eq_some_iff.2 ⟨hn, hfit⟩]
  rfl

/-- **Any other number is read as something else.** -/
theorem value_number {cs : List Char} (h : cs ∈ Grammar.number)
    (hn : ∀ n, cs ∈ whole → Decimal.Spells cs n → ¬ Decimal.Fits n) {rest : Bytes}
    (hrest : Stops rest) : value (Bytes.ofChars cs ++ rest) = .done .other rest := by
  have hnone : Decimal.integer? cs = none := by
    rw [Option.eq_none_iff_forall_ne_some]
    intro n he
    obtain ⟨hs, hfit⟩ := Decimal.integer?_eq_some_iff.1 he
    exact hn n (mem_whole_of_spells h hs) hs hfit
  rw [value_of_mem_number h hrest, ofNumber_ofChars (only_number cs h), hnone]
  rfl

/-- A literal is read up to its last letter. -/
theorem value_literal {cs : List Char} (h : cs ∈ literals) {rest : Bytes} (hrest : Stops rest) :
    value (Bytes.ofChars cs ++ rest) = .done .other rest := by
  have hletters : ∀ b ∈ Bytes.ofChars cs, isLetter b = true := by
    apply List.all_eq_true.1
    rcases (Language.mem_add _ _ _).1 h with h | rfl
    · rcases (Language.mem_add _ _ _).1 h with rfl | rfl <;> decide
    · decide
  have hstart : ∃ b bs, Bytes.ofChars cs = b :: bs ∧ b ≠ quote ∧ startsNumber b = false ∧
      isOpening b = false ∧ startsLiteral b = true := by
    rcases (Language.mem_add _ _ _).1 h with h | rfl
    · rcases (Language.mem_add _ _ _).1 h with rfl | rfl
      · exact ⟨_, _, rfl, by decide⟩
      · exact ⟨_, _, rfl, by decide⟩
    · exact ⟨_, _, rfl, by decide⟩
  obtain ⟨b, bs, hbs, hquote, hnumber, hopening, hliteral⟩ := hstart
  have hdrop := dropWhile_append_of_stops hletters fun b hb => (hrest b hb).2
  rw [hbs, List.cons_append] at hdrop ⊢
  rw [value, if_neg hquote, if_neg (by simp [hnumber]), if_neg (by simp [hopening]),
    if_pos hliteral, hdrop]

end EdgeDevice.Command
