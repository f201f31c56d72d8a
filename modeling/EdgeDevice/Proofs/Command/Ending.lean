import EdgeDevice.Proofs.Command.Document
import Mathlib.Logic.Relation

set_option autoImplicit false
set_option relaxedAutoImplicit false

/-!
# Where a scan ends that reports nothing

A scan that reports nothing out of place ends at the bracket that closes the object, or where the
payload does. There is one exception: a string that is not text inside a nested value ends the scan
behind the string, unreported, so that everything behind it is dropped while the members in front of
it count. At the level of the object such a string is reported.

Which bracket closes the object is said by a walk over the payload that knows nothing of members: it
goes byte by byte, over a string in one step, and counts the values that are open.

## Main definitions

* `EdgeDevice.Command.Place`, `EdgeDevice.Command.Walk` — places in an object, and the way from one
  to another.
* `EdgeDevice.Command.leftover` — what a scan leaves of a payload.
* `EdgeDevice.Command.Closes` — the object of a payload is closed here.
* `EdgeDevice.Command.BrokenInside` — a string that is not text ends here, inside a nested value.
* `EdgeDevice.Command.EndsInPlace` — the scan reports something, or ends where it should.

## Main results

* `EdgeDevice.Command.ends_of_unreported` — where a scan that reports nothing ends.
* `EdgeDevice.Command.leftover_of_brokenInside` — behind a broken string everything is dropped.
* `EdgeDevice.Command.endsInPlace_iff` — a scan ends in place exactly if it reports something or no
  broken string is in its way.
-/

namespace EdgeDevice.Command

open Ascii

/-! ## Walking over a payload -/

/-- The quote and the four brackets. -/
def landmarks : List UInt8 := [quote, openBrace, openBracket, closeBrace, closeBracket]

/-- A place in a payload, behind the bracket that opens the object. -/
structure Place where
  /-- How many values are open inside the object. -/
  depth : Nat
  /-- The bytes from here on. -/
  rest : Bytes

/-- From a place to the next one. A string is passed in one step, if it is text; the bracket that
closes the object itself is not passed. -/
inductive Step : Place → Place → Prop
  | byte {d : Nat} {b : UInt8} {bs : Bytes} (h : b ∉ landmarks) : Step ⟨d, b :: bs⟩ ⟨d, bs⟩
  | string {d : Nat} {bs raw rest : Bytes} (hs : Quoted.split? bs = some (raw, rest))
      (ht : (Bytes.text? raw).isSome = true) : Step ⟨d, quote :: bs⟩ ⟨d, rest⟩
  | opening {d : Nat} {b : UInt8} {bs : Bytes} (h : isOpening b = true) :
      Step ⟨d, b :: bs⟩ ⟨d + 1, bs⟩
  | closing {d : Nat} {b : UInt8} {bs : Bytes} (h : isClosing b = true) :
      Step ⟨d + 1, b :: bs⟩ ⟨d, bs⟩

/-- The way from one place to another. -/
abbrev Walk : Place → Place → Prop := Relation.ReflTransGen Step

/-- No way leads on from a place. -/
def Place.Final (p : Place) : Prop := ∀ q, ¬ Step p q

/-- The landmarks are the quote and the brackets. -/
theorem mem_landmarks_iff {b : UInt8} :
    b ∈ landmarks ↔ b = quote ∨ isOpening b = true ∨ isClosing b = true := by
  simp [landmarks, isOpening, isClosing, or_assoc]

/-- A bracket that opens does not close. -/
theorem isClosing_of_isOpening {b : UInt8} (h : isOpening b = true) : isClosing b = false := by
  rcases isOpening_cases h with rfl | rfl <;> decide

/-- There is one way to go. -/
theorem step_rightUnique : Relator.RightUnique Step := by
  intro p q q' h h'
  cases h with
  | byte hb =>
    cases h' with
    | byte => rfl
    | string => exact absurd (by decide) hb
    | opening ho => exact absurd (mem_landmarks_iff.2 (.inr (.inl ho))) hb
    | closing hc => exact absurd (mem_landmarks_iff.2 (.inr (.inr hc))) hb
  | string hs ht =>
    cases h' with
    | byte hb => exact absurd (by decide) hb
    | string hs' =>
      rw [hs] at hs'
      cases hs'
      rfl
    | opening ho => exact absurd ho (by decide)
    | closing hc => exact absurd hc (by decide)
  | opening ho =>
    cases h' with
    | byte hb => exact absurd (mem_landmarks_iff.2 (.inr (.inl ho))) hb
    | string => exact absurd ho (by decide)
    | opening => rfl
    | closing hc => exact absurd hc (by simp [isClosing_of_isOpening ho])
  | closing hc =>
    cases h' with
    | byte hb => exact absurd (mem_landmarks_iff.2 (.inr (.inr hc))) hb
    | string => exact absurd hc (by decide)
    | opening ho => exact absurd hc (by simp [isClosing_of_isOpening ho])
    | closing => rfl

/-- From a place from which no way leads on, the way leads nowhere else. -/
theorem eq_of_final {p q : Place} (hp : p.Final) (h : Walk p q) : q = p := by
  rcases h.cases_head with rfl | ⟨p', hs, -⟩
  · rfl
  · exact absurd hs (hp p')

/-- From every place there is at most one end of the way. -/
theorem final_unique {p q q' : Place} (h : Walk p q) (hq : q.Final) (h' : Walk p q')
    (hq' : q'.Final) : q = q' := by
  rcases Relation.ReflTransGen.total_of_right_unique step_rightUnique h h' with hw | hw
  · exact (eq_of_final hq hw).symm
  · exact eq_of_final hq' hw

/-- No way leads on from the end of a payload. -/
theorem final_nil (d : Nat) : Place.Final ⟨d, []⟩ := by
  rintro q ⟨⟩

/-- No way leads on from the bracket that closes the object. -/
theorem final_close (bs : Bytes) : Place.Final ⟨0, closeBrace :: bs⟩ := by
  intro q h
  cases h with
  | byte hb => exact hb (by decide)
  | opening ho => exact absurd ho (by decide)

/-- A string that does not end, or is not text, is not passed. -/
theorem final_quote {d : Nat} {bs : Bytes}
    (h : ∀ raw rest, Quoted.split? bs = some (raw, rest) → Bytes.text? raw = none) :
    Place.Final ⟨d, quote :: bs⟩ := by
  intro q hstep
  cases hstep with
  | byte hb => exact hb (by decide)
  | string hs ht => simp [h _ _ hs] at ht
  | opening ho => exact absurd ho (by decide)
  | closing hc => exact absurd hc (by decide)

/-- A way leads over all bytes of a class, if there is no landmark in the class. -/
theorem walk_dropWhile {p : UInt8 → Bool} (h : landmarks.any p = false) (d : Nat) (bs : Bytes) :
    Walk ⟨d, bs⟩ ⟨d, bs.dropWhile p⟩ := by
  induction bs with
  | nil => exact .refl
  | cons b bs ih =>
    cases hb : p b with
    | false =>
      rw [List.dropWhile_cons_of_neg (by simp [hb])]
    | true =>
      rw [List.dropWhile_cons_of_pos hb]
      have hmark : b ∉ landmarks := fun hm => List.any_eq_false.1 h b hm hb
      exact .head (.byte hmark) ih

/-- The way leads over blanks. -/
theorem walk_skipBlanks (d : Nat) (bs : Bytes) : Walk ⟨d, bs⟩ ⟨d, skipBlanks bs⟩ :=
  walk_dropWhile (by decide) d bs

/-! ## Ends that are not reported -/

/-- At a place where a scan may end without a report: what it leaves. -/
inductive Place.Silent : Place → Bytes → Prop
  /-- The payload is over. -/
  | exhausted {d : Nat} : Silent ⟨d, []⟩ []
  /-- The payload is over inside a string. -/
  | cut {d : Nat} {bs : Bytes} (hs : Quoted.split? bs = none) : Silent ⟨d, quote :: bs⟩ []
  /-- The object is closed. -/
  | closed {bs : Bytes} : Silent ⟨0, closeBrace :: bs⟩ (closeBrace :: bs)
  /-- A string inside a nested value is not text. -/
  | broken {d : Nat} {bs raw behind : Bytes} (hs : Quoted.split? bs = some (raw, behind))
      (ht : Bytes.text? raw = none) : Silent ⟨d + 1, quote :: bs⟩ behind

/-- No way leads on from a place at which a scan may end without a report. -/
theorem Place.Silent.final {p : Place} {rest : Bytes} (h : p.Silent rest) : p.Final := by
  cases h with
  | exhausted => exact final_nil _
  | cut hs => exact final_quote (by simp [hs])
  | closed => exact final_close _
  | broken hs ht => exact final_quote (by simpa [hs] using ht)

/-- What a scan leaves at such a place is determined by the place. -/
theorem Place.Silent.unique {p : Place} {rest rest' : Bytes} (h : p.Silent rest)
    (h' : p.Silent rest') : rest = rest' := by
  cases h with
  | exhausted => cases h' with
    | exhausted => rfl
  | cut hs => cases h' with
    | cut => rfl
    | broken hs' => simp [hs] at hs'
  | closed => cases h' with
    | closed => rfl
  | broken hs => cases h' with
    | cut hs' => simp [hs] at hs'
    | broken hs' =>
      rw [hs] at hs'
      cases hs'
      rfl

/-- What a scan from a place on leaves if it reports nothing. -/
def Place.Ends (p : Place) (rest : Bytes) : Prop := ∃ q : Place, Walk p q ∧ q.Silent rest

/-- What a scan leaves from a place on it leaves from any place on the way there. -/
theorem Place.Ends.of_walk {p q : Place} {rest : Bytes} (hw : Walk p q) (h : q.Ends rest) :
    p.Ends rest := by
  obtain ⟨q', hw', hq'⟩ := h
  exact ⟨q', hw.trans hw', hq'⟩

/-- A scan from a place on has one end. -/
theorem Place.Ends.unique {p : Place} {rest rest' : Bytes} (h : p.Ends rest) (h' : p.Ends rest') :
    rest = rest' := by
  obtain ⟨q, hw, hq⟩ := h
  obtain ⟨q', hw', hq'⟩ := h'
  obtain rfl := final_unique hw hq.final hw' hq'.final
  exact hq.unique hq'

/-! ## The readers go the way -/

/-- A part that is read ends on the way, at the level of the object, and where a payload ends inside
a part a scan may end without a report. -/
def Reading.Goes {α : Type} (p : Place) : Reading α → Prop
  | .done _ rest => Walk p ⟨0, rest⟩
  | .ended rest => p.Ends rest
  | .malformed _ => True

namespace Reading.Goes

variable {α β : Type} {p q : Place} {r : Reading α}

/-- A reading that goes on from a place goes on from any place on the way there. -/
theorem of_walk (hw : Walk p q) (h : r.Goes q) : r.Goes p := by
  cases r with
  | done a rest => exact hw.trans h
  | ended rest => exact Place.Ends.of_walk hw h
  | malformed rest => trivial

/-- Two readings in a row go on if each of them does. -/
theorem bind {f : α → Bytes → Reading β} (h : r.Goes p) (hf : ∀ a rest, (f a rest).Goes ⟨0, rest⟩) :
    (r.bind f).Goes p := by
  cases r with
  | done a rest => exact (hf a rest).of_walk h
  | ended rest => exact h
  | malformed rest => trivial

/-- A reading goes on however its result is looked at. -/
theorem map {f : α → β} (h : r.Goes p) : (r.map f).Goes p := h.bind fun _ _ => .refl

end Reading.Goes

/-- The reading of a string goes on. -/
theorem goes_quoted (bs : Bytes) : (quoted bs).Goes ⟨0, quote :: bs⟩ := by
  unfold quoted
  split
  · rename_i hs
    exact ⟨_, .refl, .cut hs⟩
  · rename_i raw rest hs
    split
    · rename_i s ht
      exact .single (.string hs (by rw [ht]; rfl))
    · trivial

/-- The reading of a nested value goes on. -/
theorem goes_nested (outer : Nat) (bs : Bytes) : (nested outer bs).Goes ⟨outer + 1, bs⟩ := by
  fun_induction nested outer bs with
  | case1 => exact ⟨_, .refl, .exhausted⟩
  | case2 _ _ hs => exact ⟨_, .refl, .cut hs⟩
  | case3 _ _ _ _ hs _ ht ih => exact ih.of_walk (.single (.string hs ht))
  | case4 _ _ _ _ hs _ ht => exact ⟨_, .refl, .broken hs (by simpa using ht)⟩
  | case5 _ _ _ _ ho ih => exact ih.of_walk (.single (.opening ho))
  | case6 _ _ _ _ hc => exact .single (.closing hc)
  | case7 _ _ _ _ hc _ ih => exact ih.of_walk (.single (.closing hc))
  | case8 _ _ _ hq ho hc ih => exact ih.of_walk (.single (.byte (by simp [mem_landmarks_iff, *])))

/-- The reading of a value goes on. -/
theorem goes_value (bs : Bytes) : (value bs).Goes ⟨0, bs⟩ := by
  unfold value
  split
  · exact ⟨_, .refl, .exhausted⟩
  · rename_i b rest
    split
    · rename_i hq
      rw [hq]
      exact (goes_quoted rest).map
    · split
      · exact walk_dropWhile (by decide) 0 _
      · split
        · rename_i ho
          exact (goes_nested 0 rest).map.of_walk (.single (.opening ho))
        · split
          · exact walk_dropWhile (by decide) 0 _
          · trivial

/-- The reading of a separator goes on. -/
theorem goes_separator (bs : Bytes) : (separator bs).Goes ⟨0, bs⟩ := by
  refine Reading.Goes.of_walk (walk_skipBlanks 0 bs) ?_
  unfold separator
  split
  · rename_i h
    rw [h]
    exact ⟨_, .refl, .exhausted⟩
  · rename_i b rest h
    rw [h]
    split
    · rename_i hb
      rw [hb]
      exact (walk_skipBlanks 0 rest).head (.byte (by decide))
    · trivial

/-- The reading of a key goes on. -/
theorem goes_key (bs : Bytes) : (key bs).Goes ⟨0, bs⟩ := by
  refine Reading.Goes.of_walk (walk_skipBlanks 0 bs) ?_
  unfold key
  split
  · rename_i h
    rw [h]
    exact ⟨_, .refl, .exhausted⟩
  · rename_i b rest h
    rw [h]
    split
    · rename_i hb
      rw [hb]
      exact ⟨_, .refl, .closed⟩
    · split
      · rename_i hb
        rw [hb]
        exact goes_quoted rest
      · trivial

/-- The reading of a pair goes on. -/
theorem goes_pair (bs : Bytes) : (pair bs).Goes ⟨0, bs⟩ :=
  (goes_key bs).bind fun _ rest => (goes_separator rest).bind fun _ rest => (goes_value rest).map

/-! ## The scan goes the way -/

/-- Behind a member a scan is on the way, and where it yields nothing it may end without a
report. -/
def Cursor.Goes (p : Place) : Option Item × Cursor → Prop
  | (some (.pair _ _), c) => c.phase = .separator ∧ Walk p ⟨0, c.rest⟩
  | (some .malformed, _) => True
  | (none, c) => p.Ends c.rest

namespace Cursor

/-- A step that goes on from a place goes on from any place on the way there. -/
theorem Goes.of_walk {p q : Place} {step : Option Item × Cursor} (hw : Walk p q)
    (h : Goes q step) : Goes p step := by
  obtain ⟨_ | _ | _, c⟩ := step
  · exact Place.Ends.of_walk hw h
  · exact ⟨h.1, hw.trans h.2⟩
  · trivial

/-- The step that yields a member goes on. -/
theorem goes_member (bs : Bytes) : Goes ⟨0, bs⟩ (member bs) := by
  have h := goes_pair bs
  unfold member
  split <;> rename_i he <;> rw [he] at h
  · exact ⟨rfl, h⟩
  · exact h
  · trivial

/-- The step behind a member goes on. -/
theorem goes_next (bs : Bytes) : Goes ⟨0, bs⟩ (next ⟨bs, .separator⟩) := by
  refine Goes.of_walk (walk_skipBlanks 0 bs) ?_
  unfold next
  simp only
  split
  · rename_i h
    rw [h]
    exact ⟨_, .refl, .exhausted⟩
  · rename_i b rest h
    rw [h]
    split
    · rename_i hb
      rw [hb]
      exact (goes_member rest).of_walk (.single (.byte (by decide)))
    · split
      · rename_i hb
        rw [hb]
        exact ⟨_, .refl, .closed⟩
      · trivial

/-- A scan that reports nothing goes the way to its end. -/
theorem ends_run {c : Cursor} {p : Place} (h : Goes p c.next) (hm : .malformed ∉ c.run.1) :
    p.Ends c.run.2.rest := by
  -- Behind every member the scan stands at the level of the object again, on the same way.
  fun_induction run c generalizing p with
  | case1 c c' hn =>
    rw [hn] at h
    exact h
  | case2 c i c' hn _ is final hr ih =>
    rw [hn] at h
    rw [hr] at ih
    obtain ⟨hi, his⟩ := not_or.1 (mt List.mem_cons.2 hm)
    cases i with
    | malformed => exact absurd rfl hi
    | pair k v =>
      obtain ⟨hphase, hw⟩ := h
      obtain ⟨rest, phase⟩ := c'
      obtain rfl : phase = .separator := hphase
      exact Place.Ends.of_walk hw (ih (goes_next rest) his)

end Cursor

/-! ## Where a scan ends -/

/-- What a scan leaves of a payload. -/
def leftover (payload : Bytes) : Bytes := (Cursor.ofPayload payload).run.2.rest

/-- Behind the blanks in front of it, the bracket that opens the object of a payload, and the bytes
behind it. -/
def Opens (payload body : Bytes) : Prop := skipBlanks payload = openBrace :: body

/-- The object of a payload is closed here. -/
def Closes (payload rest : Bytes) : Prop :=
  ∃ body after, Opens payload body ∧ rest = closeBrace :: after ∧ Walk ⟨0, body⟩ ⟨0, rest⟩

/-- On the way through a payload there is a string inside a nested value that is not text, and
`behind` is what follows it. -/
def BrokenInside (payload behind : Bytes) : Prop :=
  ∃ (body bs raw : Bytes) (d : Nat), Opens payload body ∧ Walk ⟨0, body⟩ ⟨d + 1, quote :: bs⟩ ∧
    Quoted.split? bs = some (raw, behind) ∧ Bytes.text? raw = none

/-- The scan of a payload reports something out of place, or it ends at the bracket that closes the
object or where the payload does. -/
def EndsInPlace (payload : Bytes) : Prop :=
  .malformed ∉ pairs payload → leftover payload = [] ∨ Closes payload (leftover payload)

/-- What does not open an object is reported. -/
theorem exists_opens_of_unreported {payload : Bytes} (hm : .malformed ∉ pairs payload) :
    ∃ body, Opens payload body := by
  unfold Opens
  cases hs : skipBlanks payload with
  | nil =>
    rw [pairs_of_blank hs] at hm
    exact absurd (List.mem_singleton_self _) hm
  | cons b body =>
    by_cases hb : b = openBrace
    · exact ⟨body, by rw [hb]⟩
    · rw [pairs_of_other hs hb] at hm
      exact absurd (List.mem_singleton_self _) hm

/-- **Where a scan that reports nothing ends.** -/
theorem ends_of_unreported {payload body : Bytes} (ho : Opens payload body)
    (hm : .malformed ∉ pairs payload) : Place.Ends ⟨0, body⟩ (leftover payload) :=
  Cursor.ends_run (next_of_opens ho ▸ Cursor.goes_member body) hm

/-- **Behind a broken string everything is dropped**, unless something else was reported before. -/
theorem leftover_of_brokenInside {payload behind : Bytes} (hm : .malformed ∉ pairs payload)
    (hb : BrokenInside payload behind) : leftover payload = behind := by
  obtain ⟨body, bs, raw, d, ho, hw, hs, ht⟩ := hb
  exact (ends_of_unreported ho hm).unique ⟨_, hw, .broken hs ht⟩

/-- In front of a broken string the object is not closed. -/
theorem not_closes_of_brokenInside {payload behind rest : Bytes}
    (hb : BrokenInside payload behind) : ¬ Closes payload rest := by
  obtain ⟨body, bs, raw, d, ho, hw, hs, ht⟩ := hb
  rintro ⟨body', after, ho', rfl, hw'⟩
  obtain rfl : body = body' := (List.cons.inj (ho.symm.trans ho')).2
  have hbroken := (Place.Silent.broken (d := d) hs ht).final
  cases final_unique hw hbroken hw' (final_close after)

/-- **A scan ends in place exactly if it reports something or no broken string is in its way.** A
string that is not text inside a nested value does no harm only where nothing follows it.

**Proof sketch.** Every reader goes the way that the walk goes, up to the place where it stops; a
scan that reports nothing so ends at one of four kinds of places, from which the walk does not go on
either. The walk has one end at most, so that the broken string is the end of the scan if there is
one, and otherwise one of the other three kinds is. -/
theorem endsInPlace_iff (payload : Bytes) :
    EndsInPlace payload ↔
      .malformed ∈ pairs payload ∨ ∀ behind, BrokenInside payload behind → behind = [] := by
  constructor
  · intro h
    refine or_iff_not_imp_left.2 fun hm behind hb => ?_
    have hleft := leftover_of_brokenInside hm hb
    rcases h hm with he | hc
    · exact hleft.symm.trans he
    · exact absurd hc (not_closes_of_brokenInside hb)
  · intro h hm
    obtain ⟨body, ho⟩ := exists_opens_of_unreported hm
    obtain ⟨q, hw, hq⟩ := ends_of_unreported ho hm
    generalize leftover payload = rest at hq
    cases hq with
    | exhausted => exact .inl rfl
    | cut => exact .inl rfl
    | closed => exact .inr ⟨body, _, ho, rfl, hw⟩
    | broken hs ht => exact .inl (h.resolve_left hm rest ⟨body, _, _, _, ho, hw, hs, ht⟩)

/-- A setpoint, an array with a string of one byte that is not text, and the setpoint again. -/
def setTwice : Bytes :=
  Bytes.ofText "\x7b\"t\":20,\"x\":[\"" ++ 0xFF :: Bytes.ofText "\"],\"t\":25\x7d"

/-- The first setpoint counts, the second one is dropped, and nothing is reported. -/
theorem dropped_setTwice :
    pairs setTwice = [.pair "t" (.integer 20)] ∧
      leftover setTwice = Bytes.ofText "],\"t\":25\x7d" ∧ ¬ EndsInPlace setTwice := by
  have hpairs : pairs setTwice = [.pair "t" (.integer 20)] := by decide +kernel
  have hleft : leftover setTwice = Bytes.ofText "],\"t\":25\x7d" := by decide +kernel
  refine ⟨hpairs, hleft, fun h => ?_⟩
  rcases h (by simp [hpairs]) with he | ⟨body, after, -, he, -⟩
  · rw [hleft] at he
    revert he
    decide
  · rw [hleft] at he
    have hhead := congrArg List.head? he
    revert hhead
    simp only [List.head?_cons]
    decide

end EdgeDevice.Command
