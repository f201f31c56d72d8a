import EdgeDevice.Command.Scan

set_option autoImplicit false
set_option relaxedAutoImplicit false

/-!
# A scan makes progress

A scan may be asked for items again and again, whatever the payload is. It stands inside the payload
all the time and never goes back. Every member uses up five bytes at least: a bracket or a comma,
the two quotes of the key, a colon and the first byte of the value. Anything else ends the scan, so
that something out of place is reported once, at the end, and nothing follows where nothing was
yielded.

The only loop that moves by more than one byte is the one for strings, which goes two bytes past the
position of a backslash and so may come out behind the end of the payload. It finds no quote then,
and the string counts as cut off.

The brackets of a nested value are counted from its opening one, which raises the count to one. The
value is over as soon as a closing bracket brings the count back to zero, so that no bracket is met
at zero: counting with a count that must not fall below zero comes to the same.

## Main definitions

* `EdgeDevice.Command.closingQuote?` — where a string ends, by positions.
* `EdgeDevice.Command.nested?`, `EdgeDevice.Command.Cursor.next?` — the next item, if no count falls
  below zero.
* `EdgeDevice.Command.Reading.Takes` — how much a part uses up.
* `EdgeDevice.Command.Cursor.after`, `EdgeDevice.Command.Cursor.item?` — a scan that is asked for
  items again and again.
* `EdgeDevice.Command.WellBehaved` — how the scan of a payload goes.

## Main results

* `EdgeDevice.Command.rest_split?_drop` — strings end where the positions say.
* `EdgeDevice.Command.nested?_succ` — no count falls below zero.
* `EdgeDevice.Command.Cursor.advances_next` — what one step uses up.
* `EdgeDevice.Command.wellBehaved` — the scan of every payload is well-behaved.
-/

namespace EdgeDevice.Command

open Ascii

/-! ## The end of a string -/

/-- The position of the quote that closes a string, looked for from a position on. A backslash moves
the position by two, past the end of the payload if it stands there. -/
def closingQuote? (payload : Bytes) (i : Nat) : Option Nat :=
  if h : i < payload.length then
    if payload[i] = backslash then closingQuote? payload (i + 2)
    else if payload[i] = quote then some i
    else closingQuote? payload (i + 1)
  else none
termination_by payload.length - i

/-- A quote that closes a string is found ahead, inside the payload. -/
theorem closingQuote?_bounds {payload : Bytes} {i j : Nat} (h : closingQuote? payload i = some j) :
    i ≤ j ∧ j < payload.length := by
  fun_induction closingQuote? payload i with
  | case1 i _ _ ih =>
    have := ih h
    omega
  | case2 i hi =>
    obtain rfl := Option.some.inj h
    exact ⟨Nat.le_refl _, hi⟩
  | case3 i _ _ _ ih =>
    have := ih h
    omega
  | case4 => cases h

/-- Looking for the closing quote by positions leaves the same rest. -/
theorem rest_split?_drop (payload : Bytes) (i : Nat) :
    (Quoted.split? (payload.drop i)).map Prod.snd =
      (closingQuote? payload i).map fun j => payload.drop (j + 1) := by
  fun_induction closingQuote? payload i with
  | case1 i hi hb ih =>
    rw [List.drop_eq_getElem_cons hi, hb, ← ih]
    by_cases hi' : i + 1 < payload.length
    · rw [List.drop_eq_getElem_cons hi', Quoted.split?, if_neg (by decide), if_pos rfl,
        Option.map_map]
      rfl
    -- The backslash is the last byte: the position is behind the end, and nothing is found there.
    · rw [List.drop_eq_nil_of_le (Nat.le_of_not_lt hi'),
        List.drop_eq_nil_of_le (show payload.length ≤ i + 2 by omega)]
      rfl
  | case2 i hi hb hq =>
    rw [List.drop_eq_getElem_cons hi, hq, Quoted.split?.eq_def]
    rfl
  | case3 i hi hb hq ih =>
    rw [List.drop_eq_getElem_cons hi, Quoted.split?.eq_def]
    dsimp only
    rw [if_neg hq, if_neg hb, ← ih, Option.map_map]
    rfl
  | case4 i hi =>
    rw [List.drop_eq_nil_of_le (Nat.le_of_not_lt hi)]
    rfl
/-! ## The count of open brackets -/

/-- Reads on behind a part, if that is possible. -/
def Reading.bind? {α β : Type} (r : Reading α) (f : α → Bytes → Option (Reading β)) :
    Option (Reading β) :=
  match r with
  | done a rest => f a rest
  | ended rest => some (ended rest)
  | malformed rest => some (malformed rest)

/-- Reading on never fails if what is read behind a part never does. -/
theorem Reading.bind?_eq {α β : Type} (r : Reading α) {f? : α → Bytes → Option (Reading β)}
    {f : α → Bytes → Reading β} (h : ∀ a rest, f? a rest = some (f a rest)) :
    r.bind? f? = some (r.bind f) := by
  cases r with
  | done a rest => exact h a rest
  | ended rest => rfl
  | malformed rest => rfl

/-- Skips a nested value, with `depth` brackets open; fails at a closing bracket where none is. -/
def nested? (depth : Nat) (bs : Bytes) : Option (Reading Unit) :=
  match bs with
  | [] => some (.ended [])
  | b :: bs =>
    if b = quote then
      match h : Quoted.split? bs with
      | none => some (.ended [])
      | some (raw, rest) =>
        have := Quoted.length_lt_of_split? h
        if (Bytes.text? raw).isSome then nested? depth rest else some (.ended rest)
    else if isOpening b then nested? (depth + 1) bs
    else if isClosing b then
      match depth with
      | 0 => none
      | depth + 1 => if depth = 0 then some (.done () bs) else nested? depth bs
    else nested? depth bs
termination_by bs.length

/-- A string is skipped, or the payload counts as ended in it. -/
theorem nested?_quote (depth : Nat) (bs : Bytes) :
    nested? depth (quote :: bs) =
      match Quoted.split? bs with
      | none => some (.ended [])
      | some (raw, rest) =>
        if (Bytes.text? raw).isSome then nested? depth rest else some (.ended rest) := by
  rw [nested?.eq_def]
  dsimp only
  rw [if_pos rfl]
  split <;> simp [*]

/-- A bracket that opens adds one to the count. -/
theorem nested?_opening {b : UInt8} (h : isOpening b = true) (depth : Nat) (bs : Bytes) :
    nested? depth (b :: bs) = nested? (depth + 1) bs := by
  have hq : b ≠ quote := by
    rintro rfl
    exact absurd h (by decide)
  rw [nested?.eq_def]
  dsimp only
  rw [if_neg hq, if_pos h]

/-- **No count falls below zero** inside a value that is open. -/
theorem nested?_succ (outer : Nat) (bs : Bytes) :
    nested? (outer + 1) bs = some (nested outer bs) := by
  fun_induction nested outer bs with
  | case1 => rw [nested?]
  | case2 _ _ hs => rw [nested?_quote, hs]
  | case3 _ _ _ _ hs _ ht ih =>
    rw [nested?_quote, hs]
    exact (if_pos ht).trans ih
  | case4 _ _ _ _ hs _ ht =>
    rw [nested?_quote, hs]
    exact if_neg ht
  | case5 _ _ _ _ ho ih => rw [nested?_opening ho, ih]
  | case6 _ _ hq ho hc => rw [nested?, if_neg hq, if_neg ho, if_pos hc, if_pos rfl]
  | case7 _ _ hq ho hc outer ih =>
    rw [nested?, if_neg hq, if_neg ho, if_pos hc, if_neg (Nat.succ_ne_zero outer), ih]
  | case8 _ _ _ hq ho hc ih => rw [nested?, if_neg hq, if_neg ho, if_neg hc, ih]

/-- Reads a value, if no count falls below zero. The count starts in front of the opening
bracket. -/
def value? (bs : Bytes) : Option (Reading Value) :=
  match bs with
  | [] => some (.ended [])
  | b :: rest =>
    if b = quote then some ((quoted rest).map .text)
    else if startsNumber b then some (number bs)
    else if isOpening b then (nested? 0 bs).map fun r => r.map fun _ => .other
    else if startsLiteral b then some (.done .other (bs.dropWhile isLetter))
    else some (.malformed bs)

/-- In reading a value no count falls below zero. -/
theorem value?_eq (bs : Bytes) : value? bs = some (value bs) := by
  cases bs with
  | nil => rfl
  | cons b rest =>
    unfold value? value
    dsimp only
    split
    · rfl
    · split
      · rfl
      · split
        · rename_i ho
          rw [nested?_opening ho, nested?_succ]
          rfl
        · split <;> rfl

/-- Reads a member, if no count falls below zero. -/
def pair? (bs : Bytes) : Option (Reading (String × Value)) :=
  (key bs).bind? fun k rest =>
    (separator rest).bind? fun _ rest => (value? rest).map fun r => r.map fun v => (k, v)

/-- In reading a pair no count falls below zero. -/
theorem pair?_eq (bs : Bytes) : pair? bs = some (pair bs) :=
  Reading.bind?_eq _ fun k rest => Reading.bind?_eq _ fun _ rest => by
    rw [value?_eq]
    rfl

namespace Cursor

/-- Yields the member that starts here, if no count falls below zero. -/
def member? (bs : Bytes) : Option (Option Item × Cursor) :=
  (pair? bs).map fun
    | .done p rest => (some (.pair p.1 p.2), ⟨rest, .separator⟩)
    | .ended rest => stop rest
    | .malformed rest => fail rest

/-- In the step that yields a member no count falls below zero. -/
theorem member?_eq (bs : Bytes) : member? bs = some (member bs) := by
  rw [member?, pair?_eq]
  rfl

/-- Yields the next item, if no count falls below zero. -/
def next? (c : Cursor) : Option (Option Item × Cursor) :=
  match c.phase with
  | .done => some (none, c)
  | .start =>
    match skipBlanks c.rest with
    | [] => some (fail [])
    | b :: rest => if b = openBrace then member? rest else some (fail (b :: rest))
  | .separator =>
    match skipBlanks c.rest with
    | [] => some (stop [])
    | b :: rest =>
      if b = comma then member? rest
      else if b = closeBrace then some (stop (b :: rest))
      else some (fail (b :: rest))

/-- In no step of a scan a count falls below zero. -/
theorem next?_eq (c : Cursor) : c.next? = some c.next := by
  obtain ⟨bs, phase⟩ := c
  cases phase with
  | done => rfl
  | start =>
    unfold next? next
    dsimp only
    cases skipBlanks bs with
    | nil => rfl
    | cons b rest =>
      dsimp only
      rw [member?_eq]
      split <;> rfl
  | separator =>
    unfold next? next
    dsimp only
    cases skipBlanks bs with
    | nil => rfl
    | cons b rest =>
      dsimp only
      rw [member?_eq]
      split
      · rfl
      · split <;> rfl

end Cursor

/-! ## What the parts use up -/

/-- A part that is read uses up `n` bytes at least. -/
def Reading.Takes {α : Type} (n : Nat) (bs : Bytes) : Reading α → Prop
  | .done _ rest => rest.length + n ≤ bs.length
  | _ => True

namespace Reading.Takes

variable {α β : Type} {n k : Nat} {bs bs' : Bytes} {r : Reading α}

/-- What a reading uses up of an end it uses up of the whole, and what stands in front as well. -/
theorem of_length_le (h : r.Takes n bs) (hl : bs.length + k ≤ bs'.length) :
    r.Takes (n + k) bs' := by
  cases r with
  | done a rest =>
    simp only [Takes] at h ⊢
    omega
  | ended rest => trivial
  | malformed rest => trivial

/-- Two readings in a row use up what each of them does. -/
theorem bind {f : α → Bytes → Reading β} (h : r.Takes n bs)
    (hf : ∀ a rest, (f a rest).Takes k rest) : (r.bind f).Takes (k + n) bs := by
  cases r with
  | done a rest => exact (hf a rest).of_length_le h
  | ended rest => trivial
  | malformed rest => trivial

/-- A reading uses up the same however its result is looked at. -/
theorem map {f : α → β} (h : r.Takes n bs) : (r.map f).Takes n bs := by
  cases r with
  | done a rest => exact h
  | ended rest => trivial
  | malformed rest => trivial

end Reading.Takes

/-- A string uses up its closing quote. -/
theorem takes_quoted (bs : Bytes) : (quoted bs).Takes 1 bs := by
  unfold quoted
  split
  · trivial
  · rename_i hs
    split
    · exact Quoted.length_lt_of_split? hs
    · trivial

/-- A key uses up two quotes. -/
theorem takes_key (bs : Bytes) : (key bs).Takes 2 bs := by
  unfold key
  split
  · trivial
  · rename_i b rest h
    split
    · trivial
    · split
      · exact (takes_quoted rest).of_length_le (k := 1) (length_lt_of_skipBlanks h)
      · trivial

/-- What stands between a key and its value uses up a colon. -/
theorem takes_separator (bs : Bytes) : (separator bs).Takes 1 bs := by
  unfold separator
  split
  · trivial
  · rename_i b rest h
    split
    · exact Nat.lt_of_le_of_lt (skipBlanks_suffix rest).length_le (length_lt_of_skipBlanks h)
    · trivial

/-- A nested value that is open need not use up anything. -/
theorem takes_nested (outer : Nat) (bs : Bytes) : (nested outer bs).Takes 0 bs := by
  have h := (rest_nested_suffix outer bs).length_le
  generalize nested outer bs = r at h
  cases r with
  | done a rest => exact h
  | ended rest => trivial
  | malformed rest => trivial

/-- Dropping gets rid of the first byte at least if that is to be dropped. -/
theorem length_dropWhile_lt {p : UInt8 → Bool} {b : UInt8} (h : p b = true) (bs : Bytes) :
    ((b :: bs).dropWhile p).length < (b :: bs).length := by
  rw [List.dropWhile_cons_of_pos h]
  exact Nat.lt_succ_of_le (List.dropWhile_suffix p).length_le

/-- A value uses up its first byte. -/
theorem takes_value (bs : Bytes) : (value bs).Takes 1 bs := by
  unfold value
  split
  · trivial
  · rename_i b rest
    split
    · exact (takes_quoted rest).map.of_length_le (k := 0) (Nat.le_succ rest.length)
    · split
      · rename_i hn
        have hnumeric : isNumeric b = true := by
          rcases Bool.or_eq_true_iff.1 hn with h | h <;> simp [isNumeric, h]
        exact length_dropWhile_lt hnumeric rest
      · split
        · exact (takes_nested 0 rest).map.of_length_le (k := 1) (Nat.le_refl _)
        · split
          · rename_i hl
            have hletter : isLetter b = true := by
              simp only [startsLiteral, Bool.or_eq_true, beq_iff_eq] at hl
              rcases hl with (rfl | rfl) | rfl <;> decide
            exact length_dropWhile_lt hletter rest
          · trivial

/-- A member uses up four bytes behind the bracket or comma in front of it. -/
theorem takes_pair (bs : Bytes) : (pair bs).Takes 4 bs :=
  (takes_key bs).bind fun _ rest => (takes_separator rest).bind fun _ rest => (takes_value rest).map

/-! ## One step -/

namespace Cursor

/-- What a step comes to: a member uses up five bytes at least, and anything else ends the scan. -/
def Advances (bs : Bytes) : Option Item × Cursor → Prop
  | (some (.pair _ _), c) => c.rest.length + 5 ≤ bs.length
  | (_, c) => c.phase = .done

/-- The step that yields a member uses up five bytes, one of them in front of the member. -/
theorem advances_member {bs rest : Bytes} (h : rest.length < bs.length) :
    Advances bs (member rest) := by
  have ht := takes_pair rest
  unfold member
  split
  · rename_i he
    rw [he] at ht
    exact Nat.le_trans (Nat.add_le_add_right ht 1) h
  · rfl
  · rfl

/-- **A member uses up five bytes, and anything else ends the scan.** -/
theorem advances_next (c : Cursor) : Advances c.rest c.next := by
  unfold next
  split
  · assumption
  · split
    · rfl
    · rename_i h
      split
      · exact advances_member (length_lt_of_skipBlanks h)
      · rfl
  · split
    · rfl
    · rename_i h
      split
      · exact advances_member (length_lt_of_skipBlanks h)
      · split <;> rfl

/-! ## Asking again and again -/

/-- A scan that was asked for `k` items. -/
def after (c : Cursor) : Nat → Cursor
  | 0 => c
  | k + 1 => c.next.2.after k

/-- What a scan yields that was asked for `k` items before, if it yields anything. -/
def item? (c : Cursor) (k : Nat) : Option Item := (c.after k).next.1

/-- To ask once more is to take the next step. -/
theorem after_succ (c : Cursor) (k : Nat) : c.after (k + 1) = (c.after k).next.2 := by
  induction k generalizing c with
  | zero => rfl
  | succ k ih => exact ih c.next.2

/-- However often a scan is asked, what is left is an end of what there was. -/
theorem rest_after_suffix (c : Cursor) (k : Nat) : (c.after k).rest <:+ c.rest := by
  induction k generalizing c with
  | zero => exact List.suffix_refl _
  | succ k ih => exact (ih c.next.2).trans c.rest_suffix_next

/-- Nothing follows where a scan is over. -/
theorem item?_of_done {c : Cursor} (h : c.phase = .done) (k : Nat) : c.item? k = none := by
  have hnext : c.next = (none, c) := by
    unfold next
    rw [h]
  have hafter : c.after k = c := by
    induction k with
    | zero => rfl
    | succ k ih => rw [after_succ, ih, hnext]
  rw [item?, hafter, hnext]

/-- Behind something out of place a scan is over. -/
theorem item?_succ_of_malformed {c : Cursor} {k : Nat} (h : c.item? k = some .malformed) :
    c.item? (k + 1) = none := by
  have hdone : (c.after (k + 1)).phase = .done := by
    have hstep := (c.after k).advances_next
    rw [item?] at h
    rw [after_succ]
    generalize (c.after k).next = step at h hstep
    obtain ⟨i, c'⟩ := step
    obtain rfl : i = some .malformed := h
    exact hstep
  exact item?_of_done hdone 0

/-- A scan that is asked again and again yields the items of a run, and then nothing. -/
theorem item?_eq_run (c : Cursor) (k : Nat) : c.item? k = c.run.1[k]? := by
  fun_induction run c generalizing k with
  | case1 c c' hn =>
    have h := c.advances_next
    rw [hn] at h
    cases k with
    | zero => exact congrArg Prod.fst hn
    | succ k =>
      show c.next.2.item? k = none
      rw [hn]
      exact item?_of_done h k
  | case2 c i c' hn _ is final hr ih =>
    cases k with
    | zero => exact congrArg Prod.fst hn
    | succ k =>
      show c.next.2.item? k = is[k]?
      rw [hn, ih, hr]

end Cursor

/-- Whether an item is a member. -/
def Item.isMember : Item → Bool
  | .pair _ _ => true
  | .malformed => false

/-- Every member of a run has five bytes of its own. -/
theorem Cursor.members_run_le (c : Cursor) :
    5 * c.run.1.countP Item.isMember ≤ c.rest.length := by
  fun_induction run c with
  | case1 => exact Nat.zero_le _
  | case2 c i c' hn _ is final hr ih =>
    have hsuffix := c.rest_suffix_next.length_le
    have hadvance := c.advances_next
    rw [hn] at hsuffix hadvance
    rw [hr] at ih
    cases i with
    | pair k v =>
      simp only [Advances, List.countP_cons, Item.isMember, if_true] at hadvance ih ⊢
      omega
    | malformed =>
      simp only [List.countP_cons, Item.isMember] at hsuffix ih ⊢
      exact Nat.le_trans ih hsuffix

/-- Where a scan stands in a payload after it was asked for `k` items. -/
def position (payload : Bytes) (k : Nat) : Nat :=
  payload.length - ((Cursor.ofPayload payload).after k).rest.length

/-- **How the scan of a payload goes** that is asked for items again and again. It stands inside the
payload, with the rest of it ahead, and never goes back; strings end inside the payload, ahead of
where they start. No count of open brackets falls below zero. The scan yields the items of the
payload and nothing behind them; something out of place is reported at the end only; and there are
five bytes for every member. -/
structure WellBehaved (payload : Bytes) : Prop where
  strings : ∀ i, (Quoted.split? (payload.drop i)).map Prod.snd =
      (closingQuote? payload i).map (fun j => payload.drop (j + 1)) ∧
    ∀ j ∈ closingQuote? payload i, i ≤ j ∧ j < payload.length
  inside : ∀ k, position payload k ≤ payload.length ∧
    ((Cursor.ofPayload payload).after k).rest = payload.drop (position payload k)
  forward : ∀ k, position payload k ≤ position payload (k + 1)
  counted : ∀ k, ((Cursor.ofPayload payload).after k).next? =
    some ((Cursor.ofPayload payload).after k).next
  items : ∀ k, (Cursor.ofPayload payload).item? k = (pairs payload)[k]?
  ended : ∀ j k, j ≤ k → (Cursor.ofPayload payload).item? j = none →
    (Cursor.ofPayload payload).item? k = none
  malformed : ∀ k, (pairs payload)[k]? = some .malformed → k + 1 = (pairs payload).length
  room : 5 * (pairs payload).countP Item.isMember ≤ payload.length

/-- **The scan of every payload is well-behaved.** -/
theorem wellBehaved (payload : Bytes) : WellBehaved payload where
  strings i := ⟨rest_split?_drop payload i, fun _ hj => closingQuote?_bounds hj⟩
  inside k := ⟨Nat.sub_le .., List.suffix_iff_eq_drop.1 (Cursor.rest_after_suffix _ k)⟩
  forward k := by
    have h := ((Cursor.ofPayload payload).after k).rest_suffix_next.length_le
    rw [← Cursor.after_succ] at h
    exact Nat.sub_le_sub_left h payload.length
  counted k := Cursor.next?_eq _
  items := Cursor.item?_eq_run _
  ended j k hjk hj := by
    rw [Cursor.item?_eq_run, List.getElem?_eq_none_iff] at hj ⊢
    exact Nat.le_trans hj hjk
  malformed k hk := by
    have hlt : k < (pairs payload).length := (List.getElem?_eq_some_iff.1 hk).1
    have hnone := Cursor.item?_succ_of_malformed ((Cursor.item?_eq_run _ k).trans hk)
    rw [Cursor.item?_eq_run, List.getElem?_eq_none_iff] at hnone
    exact Nat.le_antisymm hlt hnone
  room := Cursor.members_run_le _

/-- Members of five bytes each. -/
example : (pairs (Bytes.ofText "\x7b\"\":1,\"\":2")).countP Item.isMember = 2 := by decide +kernel

end EdgeDevice.Command
