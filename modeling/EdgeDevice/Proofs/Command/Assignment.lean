import EdgeDevice.Command.Assignment
import EdgeDevice.Proofs.Command.Document
import Mathlib.Data.Finset.Card

set_option autoImplicit false
set_option relaxedAutoImplicit false

/-!
# What a document assigns

A document is malformed as a command exactly if a known key stands with a value that is no integer.
Otherwise it assigns to each known key the integer of the last member under that key, moved into the
range of 32 bits, and the keys stand in the order in which they were first seen. Without any known
key there is nothing to assign.

An assignment has room for three keys. With at most three different known keys in the document, none
is left out.

## Main definitions

* `EdgeDevice.Command.Value.StandsFor` — a value is an integer, or a text that spells one.
* `EdgeDevice.Command.known` — the known keys of a document, in order.
* `EdgeDevice.Command.Assigns` — an assignment is what the members of a document ask for.

## Main results

* `EdgeDevice.Command.assigns_set` — one more member, one more assignment.
* `EdgeDevice.Command.gather_items` — what becomes of the members of a document.
* `EdgeDevice.Command.read_document` — what becomes of a document.
-/

namespace EdgeDevice.Command

/-! ## Integers -/

/-- A value is an integer, or a text that spells one when the blanks around it are left out. -/
inductive Value.StandsFor : Value → Int → Prop
  | integer (n : Int) : StandsFor (.integer n) n
  | text {s : String} {n : Int} (h : Decimal.Spells (Blank.trim s.toList) n)
      (hfit : Decimal.Fits n) : StandsFor (.text s) n

/-- The integer of a value is the one it stands for, moved into the range of 32 bits. -/
theorem Value.integer?_eq_some_iff {v : Value} {k : Int} :
    v.integer? = some k ↔ ∃ n, v.StandsFor n ∧ k = Decimal.clamp n := by
  constructor
  · intro h
    cases v with
    | integer n => exact ⟨n, .integer n, (Option.some.inj h).symm⟩
    | text s =>
      obtain ⟨n, hn, rfl⟩ := Option.map_eq_some_iff.1 h
      obtain ⟨hs, hfit⟩ := Decimal.integer?_eq_some_iff.1 hn
      exact ⟨n, .text hs hfit, rfl⟩
    | other => cases h
  · rintro ⟨n, hn, rfl⟩
    cases hn with
    | integer => rfl
    | text hs hfit =>
      exact Option.map_eq_some_iff.2 ⟨n, Decimal.integer?_eq_some_iff.2 ⟨hs, hfit⟩, rfl⟩

/-- A value without an integer stands for none. -/
theorem Value.integer?_eq_none_iff {v : Value} : v.integer? = none ↔ ∀ n, ¬ v.StandsFor n := by
  rw [Option.eq_none_iff_forall_ne_some]
  constructor
  · intro h n hn
    exact h _ (integer?_eq_some_iff.2 ⟨n, hn, rfl⟩)
  · intro h k hk
    obtain ⟨n, hn, -⟩ := integer?_eq_some_iff.1 hk
    exact h n hn

/-! ## What members ask for -/

/-- The known keys of some members, in order. -/
def known (keys : List String) (ms : List (String × Value)) : List String :=
  (ms.map Prod.fst).filter fun k => k ∈ keys

/-- The value of the last member under a key. -/
def lastValue (key : String) (ms : List (String × Value)) : Option Value :=
  ((ms.filter fun m => m.1 = key).getLast?).map Prod.snd

/-- An assignment is what some members ask for: their known keys in the order in which they were
first seen, each with the integer of its last value. -/
structure Assigns (keys : List String) (ms : List (String × Value)) (a : Assignment) : Prop where
  order : a.entries.map Prod.fst = (known keys ms).eraseDups
  values : ∀ e ∈ a.entries, ∃ v n, lastValue e.1 ms = some v ∧ v.StandsFor n ∧
    e.2 = Decimal.clamp n

/-- A list without repetitions is no longer than the number of different values it is taken from. -/
theorem length_le_card {l l' : List String} (hn : l.Nodup) (h : ∀ k ∈ l, k ∈ l') :
    l.length ≤ l'.toFinset.card := by
  rw [← List.toFinset_card_of_nodup hn]
  apply Finset.card_le_card
  intro k hk
  exact List.mem_toFinset.2 (h k (List.mem_toFinset.1 hk))

variable {keys : List String} {done : List (String × Value)} {a : Assignment}

/-- The known keys of members one behind the other are those of the first and then those of the
others. -/
theorem known_append (ms ms' : List (String × Value)) :
    known keys (ms ++ ms') = known keys ms ++ known keys ms' := by
  rw [known, List.map_append, List.filter_append]
  rfl

/-- A member under a known key has that key. -/
theorem known_singleton_of_mem {m : String × Value} (h : m.1 ∈ keys) : known keys [m] = [m.1] := by
  simp [known, h]

/-- A member under another key counts for nothing. -/
theorem known_singleton_of_notMem {m : String × Value} (h : m.1 ∉ keys) : known keys [m] = [] := by
  simp [known, h]

/-- A known key of some members is one under which one of them stands. -/
theorem mem_known {ms : List (String × Value)} {k : String} :
    k ∈ known keys ms ↔ k ∈ keys ∧ ∃ m ∈ ms, m.1 = k := by
  simp only [known, List.mem_filter, List.mem_map, decide_eq_true_eq]
  exact and_comm

/-- Further members do not take known keys away. -/
theorem card_known_le_append (ms ms' : List (String × Value)) :
    (known keys ms).toFinset.card ≤ (known keys (ms ++ ms')).toFinset.card := by
  rw [known_append, List.toFinset_append]
  exact Finset.card_le_card Finset.subset_union_left

/-- A value that was there before leaves no trace where repetitions are left out. -/
theorem eraseDups_concat_of_mem {k : String} {l : List String} (h : k ∈ l) :
    (l ++ [k]).eraseDups = l.eraseDups := by
  simp [List.eraseDups_append, List.removeAll, h]

/-- A value that was not there before comes last where repetitions are left out. -/
theorem eraseDups_concat_of_notMem {k : String} {l : List String} (h : k ∉ l) :
    (l ++ [k]).eraseDups = l.eraseDups ++ [k] := by
  simp [List.eraseDups_append, List.removeAll, h, List.eraseDups_cons]

/-- A further member under a key has the last value of the key. -/
theorem lastValue_concat_of_eq {key : String} {m : String × Value} (h : m.1 = key)
    (ms : List (String × Value)) : lastValue key (ms ++ [m]) = some m.2 := by
  simp [lastValue, h]

/-- A further member under another key leaves the last value of a key as it was. -/
theorem lastValue_concat_of_ne {key : String} {m : String × Value} (h : m.1 ≠ key)
    (ms : List (String × Value)) : lastValue key (ms ++ [m]) = lastValue key ms := by
  simp [lastValue, h]

/-- After a replacement an entry is the new one, or one under another key that was there before. -/
theorem mem_replace {key : String} {n : Int} {entries : List (String × Int)} {e : String × Int}
    (h : e ∈ Assignment.replace key n entries) : e = (key, n) ∨ e ∈ entries ∧ e.1 ≠ key := by
  obtain ⟨e', he, rfl⟩ := List.mem_map.1 h
  by_cases hk : e'.1 = key
  · rw [if_pos hk]
    exact .inl rfl
  · rw [if_neg hk]
    exact .inr ⟨he, hk⟩

/-- No members ask for no values. -/
theorem assigns_empty : Assigns keys [] .empty :=
  ⟨rfl, fun _ he => absurd he List.not_mem_nil⟩

/-- A member under another key changes nothing. -/
theorem Assigns.skip {m : String × Value} (h : Assigns keys done a) (hm : m.1 ∉ keys) :
    Assigns keys (done ++ [m]) a := by
  refine ⟨?_, fun e he => ?_⟩
  · rw [known_append, known_singleton_of_notMem hm, List.append_nil, h.order]
  · have hmem : e.1 ∈ (known keys done).eraseDups := h.order ▸ List.mem_map_of_mem he
    have hkey : e.1 ∈ keys := (mem_known.1 (List.mem_eraseDups.1 hmem)).1
    have hne : m.1 ≠ e.1 := fun he => hm (he ▸ hkey)
    rw [lastValue_concat_of_ne hne]
    exact h.values e he

/-- **One more member, one more assignment**: the value takes the place of an earlier one under the
same key, or stands behind the others. -/
theorem assigns_set {m : String × Value} {n : Int} (h : Assigns keys done a) (hm : m.1 ∈ keys)
    (hn : m.2.StandsFor n) (hroom : (known keys (done ++ [m])).toFinset.card ≤ 3) :
    ∃ a', a.set m.1 (Decimal.clamp n) = pure a' ∧ Assigns keys (done ++ [m]) a' := by
  have hknown : known keys (done ++ [m]) = known keys done ++ [m.1] := by
    rw [known_append, known_singleton_of_mem hm]
  have hlast := lastValue_concat_of_eq (rfl : m.1 = m.1) done
  have hother : ∀ e ∈ a.entries, e.1 ≠ m.1 → ∃ v n, lastValue e.1 (done ++ [m]) = some v ∧
      v.StandsFor n ∧ e.2 = Decimal.clamp n := by
    intro e he hne
    rw [lastValue_concat_of_ne hne.symm]
    exact h.values e he
  by_cases hk : m.1 ∈ a.entries.map Prod.fst
  -- The key is there already: its value is replaced, and the order stays.
  · have hdone : m.1 ∈ known keys done := by
      rw [h.order] at hk
      exact List.mem_eraseDups.1 hk
    rw [Assignment.set, dif_pos hk]
    refine ⟨_, rfl, ?_, ?_⟩
    · show (Assignment.replace _ _ _).map Prod.fst = _
      rw [Assignment.map_fst_replace, h.order, hknown, eraseDups_concat_of_mem hdone]
    · intro e he
      rcases mem_replace he with rfl | ⟨he, hne⟩
      · exact ⟨m.2, n, hlast, hn, rfl⟩
      · exact hother e he hne
  -- The key is new: it takes a place of its own, and there are not enough known keys to fill all.
  · have hdone : m.1 ∉ known keys done := by
      rw [h.order] at hk
      exact fun hd => hk (List.mem_eraseDups.2 hd)
    have hsub : ∀ k ∈ a.entries.map Prod.fst ++ [m.1], k ∈ known keys (done ++ [m]) := by
      intro k hk
      rw [h.order, List.mem_append, List.mem_eraseDups] at hk
      rw [hknown, List.mem_append]
      exact hk
    have hnodup : (a.entries.map Prod.fst ++ [m.1]).Nodup := by
      rw [← List.concat_eq_append]
      exact List.Nodup.concat hk a.nodup
    have hlength := length_le_card hnodup hsub
    rw [List.length_append, List.length_map, List.length_singleton] at hlength
    rw [Assignment.set, dif_neg hk, dif_pos (by omega)]
    refine ⟨_, rfl, ?_, ?_⟩
    · show (a.entries ++ _).map Prod.fst = _
      rw [List.map_append, h.order, hknown, eraseDups_concat_of_notMem hdone]
      rfl
    · intro e he
      rcases List.mem_append.1 he with he | he
      · exact hother e he fun heq => hk (heq ▸ List.mem_map_of_mem he)
      · obtain rfl := List.mem_singleton.1 he
        exact ⟨m.2, n, hlast, hn, rfl⟩

/-! ## What becomes of members -/

/-- What becomes of members under known keys. -/
inductive Decides (keys : List String) (ms : List (String × Value)) : Verdict → Prop
  /-- A known key stands with a value that is no integer. -/
  | malformed {m : String × Value} (hm : m ∈ ms) (hk : m.1 ∈ keys)
      (hn : ∀ n, ¬ m.2.StandsFor n) : Decides keys ms .malformed
  /-- There is no known key. -/
  | notFound (h : ∀ m ∈ ms, m.1 ∉ keys) : Decides keys ms .notFound
  /-- There are known keys, and all stand with integers. -/
  | found {a : Assignment} (hk : ∃ m ∈ ms, m.1 ∈ keys)
      (hn : ∀ m ∈ ms, m.1 ∈ keys → ∃ n, m.2.StandsFor n) (ha : Assigns keys ms a) :
      Decides keys ms (.found a)

/-- An assignment is empty exactly if there is no known key. -/
theorem Assigns.entries_eq_nil_iff {ms : List (String × Value)} (h : Assigns keys ms a) :
    a.entries = [] ↔ ∀ m ∈ ms, m.1 ∉ keys := by
  rw [← List.map_eq_nil_iff (f := Prod.fst), h.order, List.eq_nil_iff_forall_not_mem]
  constructor
  · intro hn m hm hk
    exact hn m.1 (List.mem_eraseDups.2 (mem_known.2 ⟨hk, m, hm, rfl⟩))
  · intro hn k hk
    obtain ⟨hkey, m, hm, rfl⟩ := mem_known.1 (List.mem_eraseDups.1 hk)
    exact hn m hm hkey

/-- **What becomes of the members of a document**, some of which are dealt with already.

**Proof sketch.** By induction on the members still to come. A member that has been dealt with is
put behind the others, so that the assignment at any time is what all members so far ask for. -/
theorem gather_items {ms : List (String × Value)} (h : Assigns keys done a)
    (hdone : ∀ m ∈ done, m.1 ∈ keys → ∃ n, m.2.StandsFor n)
    (hroom : (known keys (done ++ ms)).toFinset.card ≤ 3) :
    ∃ verdict, gather keys (ms.map item) a = pure verdict ∧ Decides keys (done ++ ms) verdict := by
  induction ms generalizing done a with
  | nil =>
    rw [List.append_nil]
    refine ⟨_, rfl, ?_⟩
    by_cases he : a.entries = []
    · rw [Assignment.isEmpty, he]
      exact .notFound (h.entries_eq_nil_iff.1 he)
    · rw [Assignment.isEmpty, if_neg (by simpa using he)]
      have hk : ∃ m ∈ done, m.1 ∈ keys := by
        by_contra hn
        exact he (h.entries_eq_nil_iff.2 fun m hm hk => hn ⟨m, hm, hk⟩)
      exact .found hk hdone h
  | cons m ms ih =>
    have hsplit : done ++ m :: ms = (done ++ [m]) ++ ms := List.append_cons ..
    have hmem : m ∈ done ++ m :: ms := List.mem_append_right _ List.mem_cons_self
    rw [List.map_cons, item, gather]
    by_cases hk : m.1 ∈ keys
    · rw [if_pos (List.contains_iff_mem.2 hk)]
      rcases hv : m.2.integer? with _ | k
      · exact ⟨_, rfl, .malformed hmem hk (Value.integer?_eq_none_iff.1 hv)⟩
      · obtain ⟨n, hn, rfl⟩ := Value.integer?_eq_some_iff.1 hv
        rw [hsplit] at hroom
        obtain ⟨a', hset, ha'⟩ :=
          assigns_set h hk hn (Nat.le_trans (card_known_le_append _ _) hroom)
        have hdone' : ∀ m' ∈ done ++ [m], m'.1 ∈ keys → ∃ n, m'.2.StandsFor n :=
          List.forall_mem_append.2 ⟨hdone, List.forall_mem_singleton.2 fun _ => ⟨n, hn⟩⟩
        rw [hsplit]
        simp only [hset, pure_bind]
        exact ih ha' hdone' hroom
    -- A key that is not known is passed over, whatever its value.
    · rw [if_neg (mt List.contains_iff_mem.1 hk), hsplit]
      have hdone' : ∀ m' ∈ done ++ [m], m'.1 ∈ keys → ∃ n, m'.2.StandsFor n :=
        List.forall_mem_append.2 ⟨hdone, List.forall_mem_singleton.2 fun hk' => absurd hk' hk⟩
      rw [hsplit] at hroom
      exact ih (h.skip hk) hdone' hroom

/-- Members are out of shape exactly if a known key stands with a value that is no integer. -/
theorem Decides.eq_malformed_iff {ms : List (String × Value)} {verdict : Verdict}
    (h : Decides keys ms verdict) :
    verdict = .malformed ↔ ∃ m ∈ ms, m.1 ∈ keys ∧ ∀ n, ¬ m.2.StandsFor n := by
  cases h with
  | malformed hm hk hn => exact ⟨fun _ => ⟨_, hm, hk, hn⟩, fun _ => rfl⟩
  | notFound h =>
    refine ⟨nofun, ?_⟩
    rintro ⟨m, hm, hk, -⟩
    exact absurd hk (h m hm)
  | found _ hn =>
    refine ⟨nofun, ?_⟩
    rintro ⟨m, hm, hk, hnone⟩
    obtain ⟨n, hm'⟩ := hn m hm hk
    exact absurd hm' (hnone n)

/-- Nothing is found exactly if no key is known. -/
theorem Decides.eq_notFound_iff {ms : List (String × Value)} {verdict : Verdict}
    (h : Decides keys ms verdict) : verdict = .notFound ↔ ∀ m ∈ ms, m.1 ∉ keys := by
  cases h with
  | malformed hm hk => exact ⟨nofun, fun h => absurd hk (h _ hm)⟩
  | notFound h => exact ⟨fun _ => h, fun _ => rfl⟩
  | found hk =>
    obtain ⟨m, hm, hk⟩ := hk
    exact ⟨nofun, fun h => absurd hk (h m hm)⟩

/-! ## Documents -/

/-- **What becomes of a document**, whatever follows it. The scan yields its members in order. If it
has at most three different known keys, it is malformed as a command exactly if a known key stands
with a value that is no integer, nothing is found exactly if there is no known key, and otherwise
the assignment is what the members ask for. -/
theorem read_document {text : String} {ms : List (String × Value)}
    (h : Grammar.Phrase .object text.toList ms) (rest : Bytes) (keys : List String) :
    pairs (Bytes.ofText text ++ rest) = ms.map item ∧
      ((known keys ms).toFinset.card ≤ 3 →
        ∃ verdict, read (Bytes.ofText text ++ rest) keys = pure verdict ∧
          (verdict = .malformed ↔ ∃ m ∈ ms, m.1 ∈ keys ∧ ∀ n, ¬ m.2.StandsFor n) ∧
          (verdict = .notFound ↔ ∀ m ∈ ms, m.1 ∉ keys) ∧
          ∀ a, verdict = .found a → Assigns keys ms a) := by
  have hpairs := pairs_object h rest
  refine ⟨hpairs, fun hroom => ?_⟩
  obtain ⟨verdict, hread, hdecides⟩ :=
    gather_items assigns_empty (fun _ hm => absurd hm List.not_mem_nil) hroom
  refine ⟨verdict, ?_, hdecides.eq_malformed_iff, hdecides.eq_notFound_iff, ?_⟩
  · rw [read, hpairs, hread]
  · rintro a rfl
    cases hdecides with
    | found _ _ ha => exact ha

/-- A document in which a key stands twice, and an array that holds a bracket in a string. -/
def crowded : String :=
  "\x7b\"t\":\" 19 \",\"x\":[\"\x7d\",null],\"t\":-300000000000\x7d"

/-- The crowded document is an object of JSON with these members. -/
theorem phrase_crowded : Grammar.Phrase .object crowded.toList
    [("t", .text " 19 "), ("x", .other), ("t", .integer (-300000000000))] := by
  have hplain : ∀ raw ∈ ["t".toList, "x".toList, " 19 ".toList, "\x7d".toList],
      raw ∈ Grammar.content := by
    intro raw hraw
    have hall : ∀ raw ∈ ["t".toList, "x".toList, " 19 ".toList, "\x7d".toList],
        (raw.all fun c => 0x20 ≤ c.toNat ∧ c ≠ '"' ∧ c ≠ '\\') = true := by decide
    exact Grammar.mem_content_of_forall (List.all_iff_forall_prop.1 (hall raw hraw))
  have hwhole : "-300000000000".toList ∈ Grammar.whole := by
    have hdigits : ∀ c ∈ "00000000000".toList, c.isDigit = true := List.all_eq_true.1 (by decide)
    refine Language.append_mem_mul (a := ['-']) (.inr rfl) (.inr ?_)
    refine Language.append_mem_mul (a := ['3']) ⟨'3', by decide, rfl⟩ ?_
    exact Grammar.mem_kstar_of_forall fun c hc => ⟨c, hdigits c hc, rfl⟩
  have hinteger : Decimal.integer? "-300000000000".toList = some (-300000000000) := by decide
  obtain ⟨hspells, hfits⟩ := Decimal.integer?_eq_some_iff.1 hinteger
  have hfirst := Grammar.Phrase.member (hplain "t".toList (by decide))
    (Grammar.singleton_mem_mark ':') (.string (hplain " 19 ".toList (by decide)))
  have harray := Grammar.Phrase.array (Grammar.singleton_mem_mark '[')
    (.moreElements (.string (hplain "\x7d".toList (by decide))) (Grammar.singleton_mem_mark ',')
      (.oneElement (.literal (.inl (.inr rfl))))) (Grammar.singleton_mem_mark ']')
  have hsecond := Grammar.Phrase.member (hplain "x".toList (by decide))
    (Grammar.singleton_mem_mark ':') harray
  have hthird := Grammar.Phrase.member (hplain "t".toList (by decide))
    (Grammar.singleton_mem_mark ':') (.integer hwhole hspells hfits)
  exact .object (Grammar.singleton_mem_mark '\x7b') (.moreMembers hfirst
    (Grammar.singleton_mem_mark ',') (.moreMembers hsecond (Grammar.singleton_mem_mark ',')
      (.oneMember hthird))) (Grammar.singleton_mem_mark '\x7d')

/-- With the key that stands twice alone the last value counts, which is too small for a field. With
the key of the array the document is malformed, and with neither key there is nothing in it. -/
theorem read_document_crowded :
    (∃ a, read (Bytes.ofText crowded ++ [0xFF]) ["t"] = pure (.found a) ∧
      a.entries = [("t", -2147483648)]) ∧
    read (Bytes.ofText crowded ++ [0xFF]) ["t", "x"] = pure .malformed ∧
    read (Bytes.ofText crowded ++ [0xFF]) ["y"] = pure .notFound := by
  have hdocument := read_document phrase_crowded [0xFF]
  refine ⟨?_, ?_, ?_⟩
  · obtain ⟨verdict, hread, hmalformed, hnotFound, hfound⟩ := (hdocument ["t"]).2 (by decide)
    cases verdict with
    | malformed =>
      obtain ⟨m, hm, hk, hn⟩ := hmalformed.1 rfl
      have hinteger : ∀ m ∈ [("t", Value.text " 19 "), ("x", .other),
        ("t", .integer (-300000000000))], m.1 ∈ ["t"] → m.2.integer? ≠ none := by decide
      exact absurd (Value.integer?_eq_none_iff.2 hn) (hinteger m hm hk)
    | notFound => exact absurd (hnotFound.1 rfl ("t", .text " 19 ") (by decide)) (by decide)
    | found a =>
      refine ⟨a, hread, ?_⟩
      obtain ⟨horder, hvalues⟩ := hfound a rfl
      have hkeys : a.entries.map Prod.fst = ["t"] := horder.trans (by decide)
      obtain ⟨⟨key, k⟩, hentries, rfl⟩ := List.map_eq_singleton_iff.1 hkeys
      obtain ⟨v, n, hv, hn, rfl⟩ := hvalues (_, k) (hentries ▸ List.mem_singleton_self _)
      obtain rfl : Value.integer (-300000000000) = v := Option.some.inj hv
      cases hn
      exact hentries
  · obtain ⟨verdict, hread, hmalformed, -, -⟩ := (hdocument ["t", "x"]).2 (by decide)
    rw [hread, hmalformed.2 ⟨("x", .other), by decide, by decide, fun _ => nofun⟩]
  · obtain ⟨verdict, hread, -, hnotFound, -⟩ := (hdocument ["y"]).2 (by decide)
    rw [hread, hnotFound.2 (by decide)]

end EdgeDevice.Command
