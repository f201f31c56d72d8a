import EdgeDevice.Command.Scan
import EdgeDevice.Proofs.Text.Integer
import Mathlib.Computability.Language

set_option autoImplicit false
set_option relaxedAutoImplicit false

/-!
# The grammar of JSON documents

The standard grammar of JSON, rule by rule. What has no values inside is a language of characters:
blanks, the six structural marks with the blanks around them, numbers, and the content of strings.
What has values inside is one inductive predicate over five kinds of phrases. A phrase comes with
what a scan is to make of it: a value with its coarse view, an object with its members in order.

The content of a string is any row of characters from U+0020 on, without quotes and backslashes, and
of escapes; as the scan leaves escapes alone, it is at the same time the key or the text that is
meant.

## Main definitions

* `EdgeDevice.Command.Grammar.mark` — a structural mark with the blanks around it.
* `EdgeDevice.Command.Grammar.whole`, `EdgeDevice.Command.Grammar.number` — numbers without and with
  fraction and exponent.
* `EdgeDevice.Command.Grammar.content` — what stands between the quotes of a string.
* `EdgeDevice.Command.Grammar.Phrase` — all phrases with values inside.
-/

namespace EdgeDevice.Command.Grammar

open scoped Computability

/-! ## Phrases without values inside -/

/-- One character of a class. -/
def single (p : Char → Prop) : Language Char := {cs : List Char | ∃ c, p c ∧ cs = [c]}

/-- Blanks, as many as there are: spaces, tabs, line feeds and carriage returns. -/
def blanks : Language Char := (single (· ∈ [' ', '\t', '\n', '\r']))∗

/-- A structural mark with the blanks around it. -/
def mark (c : Char) : Language Char := blanks * {[c]} * blanks

/-- The three literals. -/
def literals : Language Char := {"false".toList} + {"null".toList} + {"true".toList}

/-- One digit. -/
def digit : Language Char := single fun c => c.isDigit = true

/-- A number without sign: a zero, or digits that do not start with one. -/
def natural : Language Char := {['0']} + single (fun c => c.isDigit = true ∧ c ≠ '0') * digit∗

/-- A number without fraction and exponent. -/
def whole : Language Char := (1 + {['-']}) * natural

/-- A fraction. -/
def fraction : Language Char := {['.']} * (digit * digit∗)

/-- An exponent. -/
def exponent : Language Char :=
  ({['e']} + {['E']}) * (1 + {['-']} + {['+']}) * (digit * digit∗)

/-- A number. -/
def number : Language Char := whole * (1 + fraction) * (1 + exponent)

/-- A character that stands for itself in a string. -/
def unescaped : Language Char := single fun c => 0x20 ≤ c.toNat ∧ c ≠ '"' ∧ c ≠ '\\'

/-- A digit in base sixteen, of either case. -/
def hexDigit : Language Char :=
  single fun c => c.isDigit = true ∨ ('a' ≤ c ∧ c ≤ 'f') ∨ ('A' ≤ c ∧ c ≤ 'F')

/-- A character that stands for another one behind a backslash. -/
def shorthand : Language Char := single (· ∈ ['"', '\\', '/', 'b', 'f', 'n', 'r', 't'])

/-- An escape: a backslash, and either a shorthand or four digits in base sixteen. -/
def escape : Language Char :=
  {['\\']} * (shorthand + {['u']} * (hexDigit * hexDigit * hexDigit * hexDigit))

/-- What stands between the quotes of a string. -/
def content : Language Char := (unescaped + escape)∗

/-- Characters that can stand alone can stand in a row. -/
theorem mem_kstar_of_forall {l : Language Char} {cs : List Char} (h : ∀ c ∈ cs, [c] ∈ l) :
    cs ∈ l∗ := by
  induction cs with
  | nil => exact Language.nil_mem_kstar l
  | cons c cs ih =>
    obtain ⟨hc, hcs⟩ := List.forall_mem_cons.1 h
    obtain ⟨pieces, rfl, hp⟩ := Language.mem_kstar.1 (ih hcs)
    refine Language.mem_kstar.2 ⟨[c] :: pieces, rfl, List.forall_mem_cons.2 ⟨hc, hp⟩⟩

/-- Text without quotes, backslashes and control characters stands for itself. -/
theorem mem_content_of_forall {raw : List Char}
    (h : ∀ c ∈ raw, 0x20 ≤ c.toNat ∧ c ≠ '"' ∧ c ≠ '\\') : raw ∈ content :=
  mem_kstar_of_forall fun c hc => .inl ⟨c, h c hc, rfl⟩

/-- A mark may stand without blanks. -/
theorem singleton_mem_mark (c : Char) : [c] ∈ mark c := by
  have hblank : [] ∈ blanks := Language.nil_mem_kstar _
  have hleft : [c] ∈ blanks * {[c]} := Language.append_mem_mul hblank rfl
  exact Language.append_mem_mul hleft hblank

/-- Characters between quotes. -/
def quoted (raw : List Char) : List Char := '"' :: raw ++ ['"']

/-! ## Phrases with values inside -/

/-- The kinds of phrases with values inside. -/
inductive Category where
  | value
  /-- One value or more with commas between them. -/
  | elements
  | member
  /-- One member or more with commas between them. -/
  | members
  | object

/-- What a phrase means to a scan. -/
def Category.Meaning : Category → Type
  | value => Value
  | elements => Unit
  | member => String × Value
  | members => List (String × Value)
  | object => List (String × Value)

/-- The phrases with values inside, and what they mean. -/
inductive Phrase : (c : Category) → List Char → c.Meaning → Prop
  /-- A number without fraction and exponent that fits 64 bits. -/
  | integer {cs : List Char} {n : Int} (h : cs ∈ whole) (hn : Decimal.Spells cs n)
      (hfit : Decimal.Fits n) : Phrase .value cs (Value.integer n)
  /-- Any other number. -/
  | number {cs : List Char} (h : cs ∈ number)
      (hn : ∀ n, cs ∈ whole → Decimal.Spells cs n → ¬ Decimal.Fits n) :
      Phrase .value cs Value.other
  | string {raw : List Char} (h : raw ∈ content) :
      Phrase .value (quoted raw) (Value.text (String.ofList raw))
  | literal {cs : List Char} (h : cs ∈ literals) : Phrase .value cs Value.other
  | emptyArray {cs : List Char} (h : cs ∈ mark '[' * mark ']') : Phrase .value cs Value.other
  | array {opens cs closes : List Char} (ho : opens ∈ mark '[') (h : Phrase .elements cs ())
      (hc : closes ∈ mark ']') : Phrase .value (opens ++ cs ++ closes) Value.other
  | nestedObject {cs : List Char} {ms : List (String × Value)} (h : Phrase .object cs ms) :
      Phrase .value cs Value.other
  | oneElement {cs : List Char} {v : Value} (h : Phrase .value cs v) : Phrase .elements cs ()
  | moreElements {cs comma ds : List Char} {v : Value} (h : Phrase .value cs v)
      (hc : comma ∈ mark ',') (hs : Phrase .elements ds ()) :
      Phrase .elements (cs ++ comma ++ ds) ()
  | member {raw colon cs : List Char} {v : Value} (hk : raw ∈ content) (hc : colon ∈ mark ':')
      (h : Phrase .value cs v) :
      Phrase .member (quoted raw ++ colon ++ cs) (String.ofList raw, v)
  | oneMember {cs : List Char} {m : String × Value} (h : Phrase .member cs m) :
      Phrase .members cs [m]
  | moreMembers {cs comma ds : List Char} {m : String × Value} {ms : List (String × Value)}
      (h : Phrase .member cs m) (hc : comma ∈ mark ',') (hs : Phrase .members ds ms) :
      Phrase .members (cs ++ comma ++ ds) (m :: ms)
  | emptyObject {cs : List Char} (h : cs ∈ mark '{' * mark '}') : Phrase .object cs []
  | object {opens cs closes : List Char} {ms : List (String × Value)} (ho : opens ∈ mark '{')
      (h : Phrase .members cs ms) (hc : closes ∈ mark '}') :
      Phrase .object (opens ++ cs ++ closes) ms

end EdgeDevice.Command.Grammar
