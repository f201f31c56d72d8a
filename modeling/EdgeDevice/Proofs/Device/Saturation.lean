import EdgeDevice.Proofs.Command.Assignment
import EdgeDevice.Proofs.Device.Acceptance

set_option autoImplicit false
set_option relaxedAutoImplicit false

/-!
# Integers out of range

An integer that no field can hold is moved to the nearest one that a field can hold, and the model
is left to refuse it. This goes as far as 64 bits. An integer beyond them is not read as an integer
at all: the payload is malformed, and a model that would have refused the integer answers that it
cannot read the command.

The integer may stand under any known key, bare or in a string, with any number of digits. Zeros in
front, which a JSON number cannot have, make no difference. So the literal is not a phrase of the
grammar; the grammar is needed for what stands in front of it only, and behind it the scan has to go
on without anything to report.

## Main definitions

* `EdgeDevice.Decimal.Literal` — characters are the literal of an integer.
* `EdgeDevice.Command.Gives` — a value gives an integer, bare or in a string.
* `EdgeDevice.Command.Offers` — a payload gives an integer to a key.
* `EdgeDevice.Command.Records` — an integer is recorded, moved into the range of 32 bits.

## Main results

* `EdgeDevice.Command.exists_value_of_gives` — what is read where an integer is given.
* `EdgeDevice.Command.itemsFrom_members` — members in front of another one.
* `EdgeDevice.Command.offers_of_document` — a document that gives an integer, whatever follows it.
* `EdgeDevice.Command.records_iff_fits` — an integer is recorded, and refused by the model, exactly
  if it fits 64 bits.
-/

namespace EdgeDevice

/-! ## Literals -/

namespace Decimal

/-- Characters are the literal of an integer: a row of digits with or without a minus sign. -/
inductive Literal : List Char → Int → Prop
  | natural {ds : List Char} (h : IsRow ds) : Literal ds (Nat.ofDigitChars 10 ds 0)
  | negative {ds : List Char} (h : IsRow ds) : Literal ('-' :: ds) (-Nat.ofDigitChars 10 ds 0)

/-- The literal of an integer spells it. -/
theorem Literal.spells {cs : List Char} {n : Int} (h : Literal cs n) : Spells cs n := by
  cases h with
  | natural h => exact .unsigned h
  | negative h => exact .negative h

/-- No text spells two integers. -/
theorem Spells.eq {cs : List Char} {n k : Int} (h : Spells cs n) (h' : Spells cs k) : n = k := by
  have hminus {ds : List Char} : ¬ IsRow ('-' :: ds) := fun h => (ne_sign_of_isRow h).1 rfl
  have hplus {ds : List Char} : ¬ IsRow ('+' :: ds) := fun h => (ne_sign_of_isRow h).2 rfl
  cases h with
  | unsigned hrow =>
    cases h' with
    | unsigned => rfl
    | positive => exact absurd hrow hplus
    | negative => exact absurd hrow hminus
  | positive =>
    cases h' with
    | unsigned hrow => exact absurd hrow hplus
    | positive => rfl
  | negative =>
    cases h' with
    | unsigned hrow => exact absurd hrow hminus
    | negative => rfl

/-- The integer of a text is read if it fits, and nothing else is. -/
theorem integer?_of_spells {cs : List Char} {n : Int} (h : Spells cs n) :
    integer? cs = if Fits n then some n else none := by
  split
  · rename_i hfit
    exact integer?_eq_some_iff.2 ⟨h, hfit⟩
  · rename_i hfit
    rw [Option.eq_none_iff_forall_ne_some]
    intro k hk
    obtain ⟨hs, hk⟩ := integer?_eq_some_iff.1 hk
    exact hfit (h.eq hs ▸ hk)

end Decimal

/-! ## Models -/

section

variable [RandomSource]

namespace Sensor

/-- A sensor has three fields at most. -/
theorem LaidOut.length_le {s : Sensor} (h : s.LaidOut) : s.fields.length ≤ 3 := by
  have hlength : s.fields.length = (Field.layout s.kind).length := by
    simpa using congrArg List.length h
  rw [hlength]
  cases s.kind <;> decide

end Sensor

namespace Model

/-- A model has three keys at most. -/
theorem LaidOut.length_keys_le {m : Model} (h : m.LaidOut) : m.keys.length ≤ 3 := by
  cases m with
  | actuator act => exact Nat.le_add_left 1 2
  | sensor s =>
    rw [keys, List.length_map]
    exact Sensor.LaidOut.length_le h

variable {m : Model} {payload : Bytes}

/-- A malformed payload is answered by 4.00 and changes nothing. -/
theorem put_of_malformed [Json.Writer] (h : (Command.read payload m.keys).value = .malformed) :
    (m.put payload).value.1.code = .badRequest ∧ (m.put payload).value.2 = m := by
  unfold put
  split
  · exact ⟨rfl, rfl⟩
  · rw [Logged.value_bind, h]
    exact ⟨rfl, rfl⟩

/-- A command that is read and not acceptable is answered by 4.06 and changes nothing. -/
theorem put_of_not_acceptable [Json.Writer] (hm : m.LaidOut) {a : Command.Assignment}
    (h : (Command.read payload m.keys).value = .found a) (ha : ¬ m.Acceptable a) :
    (m.put payload).value.1.code = .notAcceptable ∧ (m.put payload).value.2 = m := by
  obtain ⟨hne, hkeys⟩ := Command.entries_of_gather h fun e he => absurd he List.not_mem_nil
  obtain ⟨v, ho⟩ := exists_error_of_not_acceptable hm hne hkeys ha
  have hblank : ¬ payload.all Blank.isCommand = true := fun hb => by
    rw [Command.read_of_blank hb] at h
    cases h
  rw [put, if_neg hblank, Logged.value_bind, h]
  simp only [Logged.value_bind, ho]
  exact ⟨rfl, rfl⟩

end Model

end

namespace Command

open Ascii Grammar
open Decimal (Fits Literal Spells IsRow)

/-! ## Values that give an integer -/

/-- A value gives an integer: it is the literal of one, or a string that holds the literal with or
without blanks around it. -/
inductive Gives : List Char → Int → Prop
  | bare {cs : List Char} {n : Int} (h : Literal cs n) : Gives cs n
  | string {raw : List Char} {n : Int} (hraw : raw ∈ content) (h : Literal (Blank.trim raw) n) :
      Gives (Grammar.quoted raw) n

/-- A literal is made of characters of numbers. -/
theorem isNumeric_of_literal {cs : List Char} {n : Int} (h : Literal cs n) :
    ∀ c ∈ cs, IsNumeric c := by
  intro c hc
  rcases h.spells.mem hc with hd | rfl | rfl
  · exact .inl hd
  · exact .inr (by decide)
  · exact .inr (by decide)

/-- A literal starts as the scan expects of a number. -/
theorem startsNumber_of_literal {cs : List Char} {n : Int} (h : Literal cs n) :
    ∃ c cs', cs = c :: cs' ∧ startsNumber (UInt8.ofNat c.toNat) = true := by
  cases h with
  | natural hrow =>
    obtain ⟨c, cs', rfl⟩ := List.exists_cons_of_ne_nil hrow.1
    exact ⟨c, cs', rfl, by simp [startsNumber, isDigit_ofNat (hrow.2 c List.mem_cons_self)]⟩
  | negative => exact ⟨'-', _, rfl, rfl⟩

/-- **What is read where an integer is given** stands for that integer if it fits 64 bits, and for
none otherwise. -/
theorem exists_value_of_gives {cs : List Char} {n : Int} (h : Gives cs n) :
    ∃ v : Value, Reads .value cs v ∧ ∀ k, v.StandsFor k ↔ k = n ∧ Fits n := by
  cases h with
  | bare h =>
    have hcs := isNumeric_of_literal h
    refine ⟨_, reads_value fun rest => value_of_numeric hcs (startsNumber_of_literal h), ?_⟩
    intro k
    rw [ofNumber_ofChars hcs, Decimal.integer?_of_spells h.spells]
    split
    · rename_i hfit
      constructor
      · rintro ⟨⟩
        exact ⟨rfl, hfit⟩
      · rintro ⟨rfl, -⟩
        exact .integer k
    · rename_i hfit
      exact ⟨nofun, fun hk => absurd hk.2 hfit⟩
  | @string raw _ hraw h =>
    refine ⟨_, reads_value fun rest _ => value_quoted hraw rest, ?_⟩
    intro k
    constructor
    · rintro (_ | ⟨hs, hfit⟩)
      rw [String.toList_ofList] at hs
      obtain rfl := hs.eq h.spells
      exact ⟨rfl, hfit⟩
    · rintro ⟨rfl, hfit⟩
      refine .text ?_ hfit
      rw [String.toList_ofList]
      exact h.spells

/-! ## Payloads that give an integer -/

/-- What stands in front of a member: nothing, or other members and a comma. -/
inductive Leading : List Char → List (String × Value) → Prop
  | nothing : Leading [] []
  | members {cs comma : List Char} {ms : List (String × Value)} (h : Phrase .members cs ms)
      (hc : comma ∈ mark ',') : Leading (cs ++ comma) ms

/-- What stands behind a member: nothing, or a comma and other members. -/
inductive Trailing : List Char → List (String × Value) → Prop
  | nothing : Trailing [] []
  | members {comma cs : List Char} {ms : List (String × Value)} (hc : comma ∈ mark ',')
      (h : Phrase .members cs ms) : Trailing (comma ++ cs) ms

/-- **A payload gives an integer to a key**, next to other members. Up to the integer it is the
beginning of a document. Behind it the payload may go on as it likes or be cut off, as long as the
scan yields nothing but members, none of them under the same key. -/
inductive Offers (name : String) (n : Int) : Bytes → List (String × Value) → Prop
  | mk {opens lead raw colon cs : List Char} {tail : Bytes} {before after : List (String × Value)}
      (ho : opens ∈ mark '{') (hl : Leading lead before) (hk : raw ∈ content)
      (hname : String.ofList raw = name) (hc : colon ∈ mark ':') (hcs : Gives cs n)
      (ht : itemsBehind tail = after.map item) (hlast : ∀ m ∈ after, m.1 ≠ name) :
      Offers name n (Bytes.ofChars (opens ++ lead ++ Grammar.quoted raw ++ colon ++ cs) ++ tail)
        (before ++ after)

/-- Where nothing is reported, nothing stands behind a value that could belong to it. -/
theorem stops_of_itemsBehind {tail : Bytes} {ms : List (String × Value)}
    (h : itemsBehind tail = ms.map item) : Stops tail := by
  intro b hb
  obtain ⟨bs, rfl⟩ := List.head?_eq_some_iff.1 hb
  by_cases hblank : Blank.isCommand b = true
  · rcases blank_cases hblank with rfl | rfl | rfl | rfl | rfl <;> decide
  · rw [itemsBehind, Cursor.next] at h
    simp only [skipBlanks_cons (Bool.eq_false_of_not_eq_true hblank)] at h
    split at h
    · rename_i hcomma
      rw [hcomma]
      decide
    · split at h
      · rename_i hclose
        rw [hclose]
        decide
      · cases ms <;> cases h

/-- **Members in front of a member** are yielded before it. -/
theorem itemsFrom_members : ∀ {cs comma : List Char} {ms : List (String × Value)},
    Phrase .members cs ms → comma ∈ mark ',' → ∀ bs,
      itemsFrom (Cursor.member (Bytes.ofChars (cs ++ comma) ++ bs)) =
        ms.map item ++ itemsFrom (Cursor.member bs)
  | _, _, _, .oneMember h, hc, bs => itemsFrom_member_comma (reads_phrase h) hc bs
  | _, comma, _, @Phrase.moreMembers cs comma' ds _ _ h hc' hs, hc, bs => by
    have hsplit : Bytes.ofChars (cs ++ comma' ++ ds ++ comma) ++ bs =
        Bytes.ofChars (cs ++ comma') ++ (Bytes.ofChars (ds ++ comma) ++ bs) := by
      simp only [Bytes.ofChars_append, List.append_assoc]
    rw [hsplit, itemsFrom_member_comma (reads_phrase h) hc', itemsFrom_members hs hc bs]
    rfl

/-- The members in front of a member are yielded before it. -/
theorem Leading.items {lead : List Char} {ms : List (String × Value)} (h : Leading lead ms)
    (bs : Bytes) : itemsFrom (Cursor.member (Bytes.ofChars lead ++ bs)) =
      ms.map item ++ itemsFrom (Cursor.member bs) := by
  cases h with
  | nothing => rfl
  | members h hc => exact itemsFrom_members h hc bs

/-- The rest of a document yields its members, whatever follows it. -/
theorem Trailing.items {trail closes : List Char} {ms : List (String × Value)}
    (h : Trailing trail ms) (hc : closes ∈ mark '}') (rest : Bytes) :
    itemsBehind (Bytes.ofChars (trail ++ closes) ++ rest) = ms.map item := by
  rw [Bytes.ofChars_append, List.append_assoc]
  cases h with
  | nothing => exact itemsBehind_close hc rest
  | members hcomma h =>
    rw [Bytes.ofChars_append, List.append_assoc, itemsBehind_comma hcomma]
    exact reads_phrase h closes hc rest

/-- A document that gives an integer to a key is a payload that does so, whatever follows it. -/
theorem offers_of_document {name : String} {n : Int}
    {opens lead raw colon cs trail closes : List Char} {before after : List (String × Value)}
    (ho : opens ∈ mark '{') (hl : Leading lead before) (hk : raw ∈ content)
    (hname : String.ofList raw = name) (hc : colon ∈ mark ':') (hcs : Gives cs n)
    (ht : Trailing trail after) (hcl : closes ∈ mark '}') (hlast : ∀ m ∈ after, m.1 ≠ name)
    (rest : Bytes) :
    Offers name n (Bytes.ofChars (opens ++ lead ++ Grammar.quoted raw ++ colon ++ cs) ++
      (Bytes.ofChars (trail ++ closes) ++ rest)) (before ++ after) :=
  .mk ho hl hk hname hc hcs (ht.items hcl rest) hlast

/-- **What the scan yields of a payload that gives an integer**: the member between the others, with
a value that stands for the integer if it fits 64 bits, and for none otherwise. -/
theorem Offers.exists_pairs {name : String} {n : Int} {payload : Bytes}
    {others : List (String × Value)} (h : Offers name n payload others) :
    ∃ (v : Value) (before after : List (String × Value)), others = before ++ after ∧
      pairs payload = (before ++ (name, v) :: after).map item ∧ (∀ m ∈ after, m.1 ≠ name) ∧
      ∀ k, v.StandsFor k ↔ k = n ∧ Fits n := by
  obtain @⟨opens, lead, raw, colon, cs, tail, before, after, ho, hl, hk, rfl, hc, hcs, ht, hlast⟩ :=
    h
  obtain ⟨v, hv, hstands⟩ := exists_value_of_gives hcs
  refine ⟨v, before, after, rfl, ?_, hlast, hstands⟩
  have hsplit : Bytes.ofChars (opens ++ lead ++ Grammar.quoted raw ++ colon ++ cs) ++ tail =
      Bytes.ofChars opens ++ (Bytes.ofChars lead ++
        (Bytes.ofChars (Grammar.quoted raw ++ colon ++ cs) ++ tail)) := by
    simp only [Bytes.ofChars_append, List.append_assoc]
  rw [hsplit, pairs_open ho, hl.items,
    itemsFrom_member (reads_member hk hc hv) (stops_of_itemsBehind ht), ht]
  simp

/-! ## What is recorded -/

/-- Known keys stand with integers only. -/
def Readable (keys : List String) (ms : List (String × Value)) : Prop :=
  ∀ m ∈ ms, m.1 ∈ keys → ∃ n, m.2.StandsFor n

/-- The integer is recorded under the key, moved into the range of 32 bits. -/
def Records (payload : Bytes) (keys : List String) (name : String) (n : Int) : Prop :=
  ∃ a, (read payload keys).value = .found a ∧ a.get? name = some (Decimal.clamp n)

/-- A member that no other one under the same key follows has the last value of the key. -/
theorem lastValue_of_last {name : String} {after : List (String × Value)}
    (h : ∀ m ∈ after, m.1 ≠ name) (before : List (String × Value)) (v : Value) :
    lastValue name (before ++ (name, v) :: after) = some v := by
  have hnone : after.filter (fun m => m.1 = name) = [] := by
    simpa [List.filter_eq_nil_iff] using h
  simp [lastValue, hnone]

/-- Under a known key stands the integer of its last value. -/
theorem Assigns.get?_eq {keys : List String} {ms : List (String × Value)} {a : Assignment}
    (h : Assigns keys ms a) {name : String} (hname : name ∈ known keys ms) {v : Value}
    (hv : lastValue name ms = some v) {n : Int} (hn : ∀ k, v.StandsFor k → k = n) :
    a.get? name = some (Decimal.clamp n) := by
  have hkey : name ∈ a.entries.map Prod.fst := by
    rw [h.order]
    exact List.mem_eraseDups.2 hname
  obtain ⟨⟨_, k⟩, he, rfl⟩ := List.mem_map.1 hkey
  obtain ⟨w, i, hw, hi, rfl⟩ := h.values _ he
  obtain rfl : v = w := Option.some.inj (hv.symm.trans hw)
  obtain rfl := hn i hi
  exact Assignment.get?_eq_some_iff.2 he

/-- One more member, at most one more known key. -/
theorem card_known_le {keys : List String} {before after : List (String × Value)} {name : String}
    (v : Value) : (known keys (before ++ (name, v) :: after)).toFinset.card ≤
      (insert name (known keys (before ++ after)).toFinset).card := by
  apply Finset.card_le_card
  intro k hk
  obtain ⟨hkey, m, hm, rfl⟩ := mem_known.1 (List.mem_toFinset.1 hk)
  rw [Finset.mem_insert, List.mem_toFinset, mem_known]
  rcases List.mem_cons.1 (List.perm_middle.mem_iff.1 hm) with rfl | hm
  · exact .inl rfl
  · exact .inr ⟨hkey, m, hm, rfl⟩

section

variable {name : String} {n : Int} {payload : Bytes} {others : List (String × Value)}
  {keys : List String}

/-- **What becomes of an integer that is given to a known key**: it is recorded if it fits 64 bits,
and the payload is malformed otherwise. -/
theorem Offers.read_cases (h : Offers name n payload others) (hname : name ∈ keys)
    (hothers : Readable keys others)
    (hroom : (insert name (known keys others).toFinset).card ≤ 3) :
    Fits n ∧ Records payload keys name n ∨
      ¬ Fits n ∧ (read payload keys).value = .malformed := by
  obtain ⟨v, before, after, rfl, hpairs, hlast, hstands⟩ := h.exists_pairs
  have hmem : (name, v) ∈ before ++ (name, v) :: after :=
    List.mem_append_right _ List.mem_cons_self
  have hroom' : (known keys ([] ++ (before ++ (name, v) :: after))).toFinset.card ≤ 3 :=
    (card_known_le v).trans hroom
  obtain ⟨verdict, hgather, hdecides⟩ :=
    gather_items assigns_empty (fun _ hm => absurd hm List.not_mem_nil) hroom'
  have hread : read payload keys = pure verdict := by
    rw [read, hpairs, hgather]
  rw [Records, hread, Logged.value_pure]
  by_cases hfit : Fits n
  · refine .inl ⟨hfit, ?_⟩
    cases hdecides with
    | @malformed m hm hk hn =>
      exfalso
      rcases List.mem_cons.1 (List.perm_middle.mem_iff.1 hm) with rfl | hm
      · exact hn n ((hstands n).2 ⟨rfl, hfit⟩)
      · obtain ⟨k, hk⟩ := hothers m hm hk
        exact hn k hk
    | notFound hnone => exact absurd hname (hnone _ hmem)
    | @found a _ _ ha =>
      exact ⟨a, rfl, ha.get?_eq (mem_known.2 ⟨hname, _, hmem, rfl⟩)
        (lastValue_of_last hlast before v) fun k hk => ((hstands k).1 hk).1⟩
  · refine .inr ⟨hfit, hdecides.eq_malformed_iff.2 ⟨(name, v), hmem, hname, fun k hk => ?_⟩⟩
    exact hfit ((hstands k).1 hk).2

end

/-! ## How a model answers -/

/-- There is room for all keys of a model. -/
theorem card_insert_known_le [RandomSource] {m : Model} (hm : m.LaidOut) {name : String}
    (hname : name ∈ m.keys) (ms : List (String × Value)) :
    (insert name (known m.keys ms).toFinset).card ≤ 3 := by
  have hsub : insert name (known m.keys ms).toFinset ⊆ m.keys.toFinset := by
    intro k hk
    rw [List.mem_toFinset]
    rcases Finset.mem_insert.1 hk with rfl | hk
    · exact hname
    · exact (mem_known.1 (List.mem_toFinset.1 hk)).1
  exact ((Finset.card_le_card hsub).trans (List.toFinset_card_le _)).trans hm.length_keys_le

/-- **How far integers saturate.** An integer that is given to a known key is recorded, moved into
the range of 32 bits, exactly if it fits 64 bits; otherwise the payload is malformed. A model that
cannot take the value it is moved to is left as it was, and answers 4.06 exactly if the integer fits
64 bits, and 4.00 otherwise. -/
theorem records_iff_fits [RandomSource] [Json.Writer] {name : String} {n : Int} {payload : Bytes}
    {others : List (String × Value)} (h : Offers name n payload others) :
    (∀ keys, name ∈ keys → Readable keys others →
      (insert name (known keys others).toFinset).card ≤ 3 →
        (Records payload keys name n ↔ Decimal.Fits n) ∧
          (¬ Decimal.Fits n → (read payload keys).value = .malformed)) ∧
    ∀ m : Model, m.Reachable → name ∈ m.keys → Readable m.keys others →
      ¬ m.CanTake name (Decimal.clamp n) →
        (m.put payload).value.2 = m ∧
          ((m.put payload).value.1.code = .notAcceptable ↔ Decimal.Fits n) ∧
          ((m.put payload).value.1.code = .badRequest ↔ ¬ Decimal.Fits n) := by
  constructor
  · intro keys hname hothers hroom
    rcases h.read_cases hname hothers hroom with ⟨hfit, hrecords⟩ | ⟨hfit, hmalformed⟩
    · exact ⟨iff_of_true hrecords hfit, fun hn => absurd hfit hn⟩
    · refine ⟨iff_of_false ?_ hfit, fun _ => hmalformed⟩
      rintro ⟨a, ha, -⟩
      rw [hmalformed] at ha
      cases ha
  · intro m hm hname hothers htake
    have hroom := card_insert_known_le hm.laidOut hname others
    rcases h.read_cases hname hothers hroom with ⟨hfit, a, hread, hget⟩ | ⟨hfit, hmalformed⟩
    · have ha : ¬ m.Acceptable a := fun ha =>
        htake (ha.2 _ (Assignment.get?_eq_some_iff.1 hget))
      obtain ⟨hcode, hsame⟩ := Model.put_of_not_acceptable hm.laidOut hread ha
      rw [hcode]
      exact ⟨hsame, iff_of_true rfl hfit, iff_of_false (by decide) (not_not_intro hfit)⟩
    · obtain ⟨hcode, hsame⟩ := Model.put_of_malformed hmalformed
      rw [hcode]
      exact ⟨hsame, iff_of_false (by decide) hfit, iff_of_true rfl hfit⟩

/-- A target far out of range, with zeros in front, next to one that is in range. -/
def farOut : Bytes := Bytes.ofText "\x7b\"t\":-0042949672960,\"h\":60\x7d"

/-- That payload gives the temperature a target far out of range. -/
theorem offers_farOut : Offers "t" (-42949672960) farOut [("h", .integer 60)] := by
  have hname : ∀ raw ∈ ["t".toList, "h".toList], raw ∈ content := by
    intro raw hraw
    have hall : ∀ raw ∈ ["t".toList, "h".toList],
        (raw.all fun c => 0x20 ≤ c.toNat ∧ c ≠ '"' ∧ c ≠ '\\') = true := by decide
    exact mem_content_of_forall (List.all_iff_forall_prop.1 (hall raw hraw))
  have hwhole : "60".toList ∈ whole := by
    refine Language.append_mem_mul (a := []) (.inl rfl) (.inr ?_)
    refine Language.append_mem_mul (a := ['6']) ⟨'6', by decide, rfl⟩ ?_
    exact mem_kstar_of_forall fun c hc => ⟨c, List.mem_singleton.1 hc ▸ rfl, rfl⟩
  have hsixty : Spells "60".toList 60 := .unsigned ⟨by decide, List.all_eq_true.1 (by decide)⟩
  have hother := Phrase.member (hname "h".toList (by decide)) (singleton_mem_mark ':')
    (.integer hwhole hsixty (by decide))
  have htrail := Trailing.members (singleton_mem_mark ',') (.oneMember hother)
  have hrow : IsRow "0042949672960".toList := ⟨by decide, List.all_eq_true.1 (by decide)⟩
  have hliteral : Literal "-0042949672960".toList (-42949672960) := .negative hrow
  exact offers_of_document (singleton_mem_mark '\x7b') .nothing (hname "t".toList (by decide)) rfl
    (singleton_mem_mark ':') (.bare hliteral) htrail (singleton_mem_mark '\x7d') (by decide) []

/-- The sensor refuses a target that is recorded as the smallest number of 32 bits. -/
theorem records_iff_fits_farOut :
    Records farOut ["t"] "t" (-42949672960) ∧ (Model.climate.put farOut).value.2 = Model.climate ∧
      (Model.climate.put farOut).value.1.code = .notAcceptable := by
  obtain ⟨hread, hput⟩ := records_iff_fits offers_farOut
  have hreadable : ∀ keys, Readable keys [("h", .integer 60)] := by
    intro keys m hm _
    obtain rfl := List.mem_singleton.1 hm
    exact ⟨60, .integer 60⟩
  have htake : ¬ Model.climate.CanTake "t" (Decimal.clamp (-42949672960)) := by
    rw [Model.climate, Model.CanTake, ← Sensor.accepts_iff (Sensor.laidOut_ofKind _ _)]
    decide +kernel
  obtain ⟨hsame, hcode, -⟩ := hput Model.climate (.sensor _ _) (by decide +kernel)
    (hreadable _) htake
  exact ⟨(hread ["t"] (by decide) (hreadable _) (by decide)).1.2 (by decide), hsame,
    hcode.2 (by decide)⟩

/-- A target one past the largest number of 64 bits. -/
def beyond : Bytes := Bytes.ofText "\x7b\"t\":9223372036854775808\x7d"

/-- One past 64 bits the target is not recorded, and the sensor answers that it cannot read the
command. -/
theorem not_records_beyond :
    Offers "t" 9223372036854775808 beyond [] ∧ ¬ Records beyond ["t"] "t" 9223372036854775808 ∧
      ¬ Model.climate.CanTake "t" (Decimal.clamp 9223372036854775808) ∧
      (Model.climate.put beyond).value.1.code = .badRequest := by
  refine ⟨?_, ?_, ?_, by decide +kernel⟩
  · have hname : "t".toList ∈ content := by
      have hall : ("t".toList.all fun c => 0x20 ≤ c.toNat ∧ c ≠ '"' ∧ c ≠ '\\') = true := by decide
      exact mem_content_of_forall (List.all_iff_forall_prop.1 hall)
    have hliteral : Literal "9223372036854775808".toList 9223372036854775808 :=
      .natural ⟨by decide, List.all_eq_true.1 (by decide)⟩
    exact offers_of_document (singleton_mem_mark '\x7b') .nothing hname rfl
      (singleton_mem_mark ':') (.bare hliteral) .nothing (singleton_mem_mark '\x7d')
      (fun _ hm => absurd hm List.not_mem_nil) []
  · rintro ⟨a, ha, -⟩
    have hmalformed : (read beyond ["t"]).value = .malformed := by decide +kernel
    rw [hmalformed] at ha
    cases ha
  · rw [Model.climate, Model.CanTake, ← Sensor.accepts_iff (Sensor.laidOut_ofKind _ _)]
    decide +kernel

end Command

end EdgeDevice
