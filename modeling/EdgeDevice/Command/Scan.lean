import EdgeDevice.Text.Blank
import EdgeDevice.Text.Number
import EdgeDevice.Text.Quoted

set_option autoImplicit false
set_option relaxedAutoImplicit false

/-!
# Scanning a command

A command is meant to be one JSON object, but it comes over a poor link and is read leniently, in
one pass and without building a document. The scan yields the members of the object in order, each
with its key and a coarse view of its value.

* Strings are not unescaped; what stands between the quotes is the key or the value.
* A value inside a value is skipped by counting brackets of either shape, strings left out.
* A payload that runs out is not an error: the member that is cut short is dropped.
* Anything else out of place ends the scan with one `Item.malformed`. A string that is not UTF-8
  inside a skipped value counts as the end of the payload, however.

## Main definitions

* `EdgeDevice.Command.Value`, `EdgeDevice.Command.Item` — what a scan yields.
* `EdgeDevice.Command.Cursor` — a scan under way; `Cursor.next` yields the next item.
* `EdgeDevice.Command.pairs` — all items of a payload.

## Main results

* `EdgeDevice.Command.Cursor.rest_suffix_next` — a scan only moves forward.
* `EdgeDevice.Command.Cursor.left_next_lt` — every item uses up some of the payload.
-/

namespace EdgeDevice.Command

open Ascii

/-- The coarse view of a value. -/
inductive Value where
  /-- A number without fraction or exponent that fits 64 bits. -/
  | integer (n : Int)
  /-- The content of a string with its escapes left in place. -/
  | text (s : String)
  /-- Any other value. -/
  | other
  deriving DecidableEq, Repr

/-- What a scan yields. -/
inductive Item where
  /-- A member of the object. -/
  | pair (key : String) (value : Value)
  /-- The payload is not a flat object; nothing follows. -/
  | malformed
  deriving DecidableEq, Repr

/-! ## Parts of a payload -/

/-- What reading one part of a payload comes to, with the bytes not yet read. -/
inductive Reading (α : Type) where
  /-- The part was read. -/
  | done (value : α) (rest : Bytes)
  /-- The payload ends inside the part. -/
  | ended (rest : Bytes)
  /-- Something else stands in place of the part. -/
  | malformed (rest : Bytes)

namespace Reading

variable {α β : Type}

/-- The bytes not yet read. -/
def rest : Reading α → Bytes
  | done _ rest => rest
  | ended rest => rest
  | malformed rest => rest

/-- Reads on behind a part. -/
def bind (r : Reading α) (f : α → Bytes → Reading β) : Reading β :=
  match r with
  | done a rest => f a rest
  | ended rest => ended rest
  | malformed rest => malformed rest

/-- Changes the value that was read. -/
def map (f : α → β) (r : Reading α) : Reading β := r.bind fun a rest => done (f a) rest

/-- What two readings in a row leave is an end of what there was, if that is so for each of them. -/
theorem rest_bind_suffix {r : Reading α} {f : α → Bytes → Reading β} {bs : Bytes}
    (hr : r.rest <:+ bs) (hf : ∀ a rest, (f a rest).rest <:+ rest) : (r.bind f).rest <:+ bs := by
  cases r with
  | done a rest => exact (hf a rest).trans hr
  | ended rest => exact hr
  | malformed rest => exact hr

/-- A reading leaves the same however its result is looked at. -/
@[simp] theorem rest_map (f : α → β) (r : Reading α) : (r.map f).rest = r.rest := by
  cases r <;> rfl

end Reading

/-- Leaves out the blanks in front. -/
def skipBlanks (bs : Bytes) : Bytes := bs.dropWhile Blank.isCommand

/-- Reads a string from behind its opening quote on. -/
def quoted (bs : Bytes) : Reading String :=
  match Quoted.split? bs with
  | none => .ended []
  | some (raw, rest) =>
    match Bytes.text? raw with
    | some s => .done s rest
    | none => .malformed rest

/-- Bytes that can stand in a number. -/
def isNumeric (b : UInt8) : Bool :=
  isDigit b || b == minus || b == plus || b == point || b == 0x65 || b == 0x45

/-- The view of a number: its characters either spell an integer or they do not. -/
def Value.ofNumber (bs : Bytes) : Value :=
  match Decimal.integer? (bs.map toChar) with
  | some n => .integer n
  | none => .other

/-- Reads a number: the longest row of bytes that can stand in one. -/
def number (bs : Bytes) : Reading Value :=
  .done (Value.ofNumber (bs.takeWhile isNumeric)) (bs.dropWhile isNumeric)

/-- Whether a byte opens a nested value. -/
def isOpening (b : UInt8) : Bool := b == openBrace || b == openBracket

/-- Whether a byte closes a nested value. -/
def isClosing (b : UInt8) : Bool := b == closeBrace || b == closeBracket

/-- Skips the rest of a nested value that is open, with `outer` more values open around it. -/
def nested (outer : Nat) (bs : Bytes) : Reading Unit :=
  match bs with
  | [] => .ended []
  | b :: bs =>
    if b = quote then
      match h : Quoted.split? bs with
      | none => .ended []
      | some (raw, rest) =>
        have := Quoted.length_lt_of_split? h
        if (Bytes.text? raw).isSome then nested outer rest else .ended rest
    else if isOpening b then nested (outer + 1) bs
    else if isClosing b then
      match outer with
      | 0 => .done () bs
      | outer + 1 => nested outer bs
    else nested outer bs
termination_by bs.length

/-- First bytes of a number. -/
def startsNumber (b : UInt8) : Bool := b == minus || isDigit b

/-- First bytes of the literals `true`, `false` and `null`. -/
def startsLiteral (b : UInt8) : Bool := b == 0x74 || b == 0x66 || b == 0x6E

/-- Reads a value. A literal is any row of letters that starts like one. -/
def value (bs : Bytes) : Reading Value :=
  match bs with
  | [] => .ended []
  | b :: rest =>
    if b = quote then (quoted rest).map .text
    else if startsNumber b then number bs
    else if isOpening b then (nested 0 rest).map fun _ => .other
    else if startsLiteral b then .done .other (bs.dropWhile isLetter)
    else .malformed bs

/-- Reads what stands between a key and its value. -/
def separator (bs : Bytes) : Reading Unit :=
  match skipBlanks bs with
  | [] => .ended []
  | b :: rest => if b = colon then .done () (skipBlanks rest) else .malformed (b :: rest)

/-- Reads a key, or finds that there is no further member. -/
def key (bs : Bytes) : Reading String :=
  match skipBlanks bs with
  | [] => .ended []
  | b :: rest =>
    if b = closeBrace then .ended (b :: rest)
    else if b = quote then quoted rest
    else .malformed (b :: rest)

/-- Reads a member. -/
def pair (bs : Bytes) : Reading (String × Value) :=
  (key bs).bind fun k rest =>
    (separator rest).bind fun _ rest => (value rest).map fun v => (k, v)

/-! ## The scan -/

/-- What a scan expects next. -/
inductive Phase where
  /-- The opening of the object. -/
  | start
  /-- A comma or the end of the object. -/
  | separator
  /-- Nothing: the scan is over. -/
  | done
  deriving DecidableEq, Repr

/-- A scan under way. -/
structure Cursor where
  /-- The bytes not yet read. -/
  rest : Bytes
  phase : Phase
  deriving DecidableEq

namespace Cursor

/-- The start of a scan. -/
def ofPayload (bs : Bytes) : Cursor := ⟨bs, .start⟩

/-- Ends a scan with an error. -/
def fail (rest : Bytes) : Option Item × Cursor := (some .malformed, ⟨rest, .done⟩)

/-- Ends a scan without a further item. -/
def stop (rest : Bytes) : Option Item × Cursor := (none, ⟨rest, .done⟩)

/-- Yields the member that starts here, if there is one. -/
def member (bs : Bytes) : Option Item × Cursor :=
  match pair bs with
  | .done p rest => (some (.pair p.1 p.2), ⟨rest, .separator⟩)
  | .ended rest => stop rest
  | .malformed rest => fail rest

/-- Yields the next item, if there is one. -/
def next (c : Cursor) : Option Item × Cursor :=
  match c.phase with
  | .done => (none, c)
  | .start =>
    match skipBlanks c.rest with
    | [] => fail []
    | b :: rest => if b = openBrace then member rest else fail (b :: rest)
  | .separator =>
    match skipBlanks c.rest with
    | [] => stop []
    | b :: rest =>
      if b = comma then member rest
      else if b = closeBrace then stop (b :: rest)
      else fail (b :: rest)

end Cursor

/-! ## A scan only moves forward -/

/-- What is left behind the blanks is an end of what there was. -/
theorem skipBlanks_suffix (bs : Bytes) : skipBlanks bs <:+ bs := List.dropWhile_suffix _

/-- What is left behind the first byte that is no blank is an end of what there was. -/
theorem suffix_of_skipBlanks {bs rest : Bytes} {b : UInt8} (h : skipBlanks bs = b :: rest) :
    rest <:+ bs :=
  (List.suffix_cons b rest).trans (h ▸ skipBlanks_suffix bs)

/-- Behind the first byte that is no blank there is less than there was. -/
theorem length_lt_of_skipBlanks {bs rest : Bytes} {b : UInt8} (h : skipBlanks bs = b :: rest) :
    rest.length < bs.length := by
  have := (h ▸ skipBlanks_suffix bs : (b :: rest) <:+ bs).length_le
  simp only [List.length_cons] at this
  omega

/-- What is left behind a string is an end of what there was. -/
theorem rest_quoted_suffix (bs : Bytes) : (quoted bs).rest <:+ bs := by
  unfold quoted
  split
  · exact List.nil_suffix
  · rename_i h
    have := Quoted.suffix_of_split? h
    split <;> exact this

/-- What is left behind a nested value is an end of what there was. -/
theorem rest_nested_suffix (outer : Nat) (bs : Bytes) : (nested outer bs).rest <:+ bs := by
  fun_induction nested outer bs with
  | case1 => exact List.nil_suffix
  | case2 => exact List.nil_suffix
  | case3 _ _ _ _ h _ _ ih =>
    exact ih.trans ((Quoted.suffix_of_split? h).trans (List.suffix_cons ..))
  | case4 _ _ _ _ h => exact (Quoted.suffix_of_split? h).trans (List.suffix_cons ..)
  | case5 _ _ _ _ _ ih => exact ih.trans (List.suffix_cons ..)
  | case6 => exact List.suffix_cons ..
  | case7 _ _ _ _ _ _ ih => exact ih.trans (List.suffix_cons ..)
  | case8 _ _ _ _ _ _ ih => exact ih.trans (List.suffix_cons ..)

/-- What is left behind a value is an end of what there was. -/
theorem rest_value_suffix (bs : Bytes) : (value bs).rest <:+ bs := by
  unfold value
  split
  · exact List.nil_suffix
  · rename_i b rest
    split
    · rw [Reading.rest_map]
      exact (rest_quoted_suffix rest).trans (List.suffix_cons ..)
    · split
      · exact List.dropWhile_suffix _
      · split
        · rw [Reading.rest_map]
          exact (rest_nested_suffix 0 rest).trans (List.suffix_cons ..)
        · split
          · exact List.dropWhile_suffix _
          · exact List.suffix_refl _

/-- What is left behind a separator is an end of what there was. -/
theorem rest_separator_suffix (bs : Bytes) : (separator bs).rest <:+ bs := by
  unfold separator
  split
  · exact List.nil_suffix
  · rename_i b rest h
    split
    · exact (skipBlanks_suffix rest).trans (suffix_of_skipBlanks h)
    · exact h ▸ skipBlanks_suffix bs

/-- What is left behind a key is an end of what there was. -/
theorem rest_key_suffix (bs : Bytes) : (key bs).rest <:+ bs := by
  unfold key
  split
  · exact List.nil_suffix
  · rename_i b rest h
    split
    · exact h ▸ skipBlanks_suffix bs
    · split
      · exact (rest_quoted_suffix rest).trans (suffix_of_skipBlanks h)
      · exact h ▸ skipBlanks_suffix bs

/-- What is left behind a pair is an end of what there was. -/
theorem rest_pair_suffix (bs : Bytes) : (pair bs).rest <:+ bs :=
  Reading.rest_bind_suffix (rest_key_suffix bs) fun _ _ =>
    Reading.rest_bind_suffix (rest_separator_suffix _) fun _ _ => by
      rw [Reading.rest_map]
      exact rest_value_suffix _

namespace Cursor

/-- How much a scan can still yield: one more than the bytes left, or nothing once it is over. -/
def left (c : Cursor) : Nat :=
  match c.phase with
  | .done => 0
  | _ => c.rest.length + 1

/-- What is left behind a member is an end of what there was. -/
theorem rest_member_suffix (bs : Bytes) : (member bs).2.rest <:+ bs := by
  have h := rest_pair_suffix bs
  unfold member
  split <;> rename_i he <;> rw [he] at h <;> exact h

/-- **A scan only moves forward**: what is left after a step is the end of what was left before. -/
theorem rest_suffix_next (c : Cursor) : c.next.2.rest <:+ c.rest := by
  unfold next
  split
  · exact List.suffix_refl _
  · split
    · exact List.nil_suffix
    · rename_i b rest h
      split
      · exact (rest_member_suffix rest).trans (suffix_of_skipBlanks h)
      · exact h ▸ skipBlanks_suffix c.rest
  · split
    · exact List.nil_suffix
    · rename_i b rest h
      split
      · exact (rest_member_suffix rest).trans (suffix_of_skipBlanks h)
      · split <;> exact h ▸ skipBlanks_suffix c.rest

/-- Behind a member a scan can still yield at most one more than there were bytes. -/
theorem left_member_le (bs : Bytes) : (member bs).2.left ≤ bs.length + 1 := by
  have h := (rest_member_suffix bs).length_le
  unfold left
  split <;> omega

/-- **Every item uses up some of the payload.** -/
theorem left_next_lt {c c' : Cursor} {i : Item} (h : c.next = (some i, c')) : c'.left < c.left := by
  obtain rfl : c' = c.next.2 := by rw [h]
  have hi : c.next.1 = some i := by rw [h]
  have hl : ∀ rest, (fail rest).2.left = 0 := fun _ => rfl
  cases c with
  | mk bs phase =>
    cases phase with
    | done => simp [next] at hi
    | start =>
      show _ < bs.length + 1
      simp only [next] at hi ⊢
      split
      · simp [hl]
      · rename_i b rest hs
        have hlt := length_lt_of_skipBlanks hs
        split
        · have := left_member_le rest
          omega
        · simp [hl]
    | separator =>
      show _ < bs.length + 1
      simp only [next] at hi ⊢
      split
      · rename_i hs
        simp [hs, stop] at hi
      · rename_i b rest hs
        have hlt := length_lt_of_skipBlanks hs
        split
        · have := left_member_le rest
          omega
        · split
          · show 0 < _
            omega
          · simp [hl]

/-- Runs a scan to its end: the items it yields and the cursor it leaves. -/
def run (c : Cursor) : List Item × Cursor :=
  match h : c.next with
  | (none, c') => ([], c')
  | (some i, c') =>
    have := left_next_lt h
    let (is, final) := c'.run
    (i :: is, final)
termination_by c.left

end Cursor

/-- The members of a payload in order, and `Item.malformed` at the end if it is out of shape. -/
def pairs (payload : Bytes) : List Item := (Cursor.ofPayload payload).run.1

end EdgeDevice.Command
