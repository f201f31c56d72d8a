import EdgeDevice.Simulation.Wire

set_option autoImplicit false
set_option relaxedAutoImplicit false

/-!
# Bytes that are there to be read

A link holds some bytes if reads find them one piece after the other, in pieces of whatever size,
and find nothing more behind them, or a failure. What is read of such bytes does not depend on the
pieces.

A link supplies some bytes if it holds them, goes on having nothing more behind them, and loses none
of them when it is closed. Then it is known how every further read ends, and not only those that
find bytes.

## Main definitions

* `EdgeDevice.Ending` — what a read finds behind the bytes.
* `EdgeDevice.Link.Yields` — every read finds some of the bytes that are left.
* `EdgeDevice.Link.Holds` — a link holds some bytes.
* `EdgeDevice.DialLink.Supplies` — a link supplies some bytes.

## Main results

* `EdgeDevice.Link.Yields.readExact` — all bytes that are left can be read.
* `EdgeDevice.DialLink.Supplies.eq` — a link supplies the bytes of one stream only.
* `EdgeDevice.Wire.supplies_flatten` — a wire supplies the chunks that it delivers.
-/

namespace EdgeDevice

/-- What a read finds behind the bytes that are there. -/
inductive Ending where
  /-- There is nothing more for now. -/
  | quiet
  /-- The link fails. -/
  | broken
  deriving DecidableEq

/-- A read finds what an ending says. -/
def Ending.Found : Ending → Except NetError Bytes → Prop
  | quiet, r => r = .error .timeout ∨ r = .ok []
  | broken, r => ∃ e, r = .error e ∧ e ≠ .timeout

/-! ## Links that hold bytes -/

namespace Link

variable {τ : Type} [Link τ] {ending : Ending}

/-- Where a relation says which bytes are left, every read finds some of them, of whatever number,
and the relation says which are left then. -/
def Yields (left : τ → Bytes → Prop) : Prop :=
  ∀ ⦃t : τ⦄ ⦃bs : Bytes⦄ ⦃n : Nat⦄, left t bs → bs ≠ [] → 0 < n →
    ∃ found rest t', found ≠ [] ∧ bs = found ++ rest ∧ Link.read t n = (.ok found, t') ∧
      left t' rest

/-- **A link holds some bytes.** Every read finds some of them, and afterwards the link holds the
others; behind the last one a read finds what the ending says. -/
inductive Holds (ending : Ending) : τ → Bytes → Prop
  | nothing {t : τ} (h : ∀ n, 0 < n → ending.Found (Link.read t n).1) : Holds ending t []
  | some {t : τ} {bs : Bytes}
      (h : ∀ n, 0 < n →
        ∃ found rest, found ≠ [] ∧ bs = found ++ rest ∧ (Link.read t n).1 = .ok found)
      (hrest : ∀ n found rest, 0 < n → bs = found ++ rest → (Link.read t n).1 = .ok found →
        Holds ending (Link.read t n).2 rest) : Holds ending t bs

/-- A link that holds some bytes yields them. -/
theorem yields_holds : Yields (@Holds τ _ ending) := by
  intro t bs n h hbs hn
  cases h with
  | nothing h => exact absurd rfl hbs
  | some h hrest =>
    obtain ⟨found, rest, hne, he, hr⟩ := h n hn
    exact ⟨found, rest, _, hne, he, Prod.ext hr rfl, hrest n found rest hn he hr⟩

/-- Where no bytes are left a read finds what the ending says. -/
theorem Holds.found_of_nil {t : τ} {n : Nat} (h : Holds ending t []) (hn : 0 < n) :
    ending.Found (Link.read t n).1 := by
  cases h with
  | nothing h => exact h n hn
  | some h hrest =>
    obtain ⟨found, rest, hne, he, -⟩ := h n hn
    exact absurd (List.append_eq_nil_iff.1 he.symm).1 hne

namespace Yields

variable {left : τ → Bytes → Prop} {t : τ}

/-- A single byte is read as it is. -/
theorem read_one (hl : Yields left) {b : UInt8} {bs : Bytes} (h : left t (b :: bs)) :
    ∃ t', Link.read t 1 = (.ok [b], t') ∧ left t' bs := by
  obtain ⟨found, rest, t', hne, he, hr, hrest⟩ := hl h (List.cons_ne_nil _ _) Nat.one_pos
  have hlen := length_read_le hr
  match found, hne, hlen with
  | [b'], _, _ =>
    obtain ⟨rfl, rfl⟩ := List.cons.inj he
    exact ⟨t', hr, hrest⟩

/-- **All bytes that are left can be read**, in whatever pieces they come. -/
theorem readExact (hl : Yields left) {front rest : Bytes} (h : left t (front ++ rest)) :
    ∃ t', Link.readExact t front.length = (.ok front, t') ∧ left t' rest := by
  induction hn : front.length using Nat.strongRecOn generalizing t front with
  | ind n ih =>
    subst hn
    rw [Link.readExact]
    by_cases hzero : front.length = 0
    · obtain rfl := List.eq_nil_of_length_eq_zero hzero
      exact ⟨t, if_pos rfl, h⟩
    · rw [if_neg hzero]
      have hfront : front ≠ [] := fun hf => hzero (by rw [hf]; rfl)
      obtain ⟨found, rest₁, t₁, hne, he, hr, hrest⟩ :=
        hl h (List.append_ne_nil_of_left_ne_nil hfront rest) (Nat.pos_of_ne_zero hzero)
      have hlen := length_read_le hr
      -- a read never finds more than was asked for, so what it finds is all in front
      obtain ⟨front₁, rfl⟩ : found <+: front :=
        List.prefix_of_prefix_length_le ⟨rest₁, he.symm⟩ (List.prefix_append ..) hlen
      rw [List.append_assoc] at he
      obtain rfl := List.append_cancel_left he
      match found, hne with
      | b :: bs, _ =>
        have hlength : (b :: bs ++ front₁).length = bs.length + 1 + front₁.length := by
          simp only [List.length_append, List.length_cons]
        obtain ⟨t₂, hread, hleft⟩ := ih front₁.length (by omega) hrest rfl
        refine ⟨t₂, ?_, hleft⟩
        have hremaining : (b :: bs ++ front₁).length - (bs.length + 1) = front₁.length := by omega
        rw [hr]
        dsimp only
        rw [hremaining, hread]

end Yields

end Link

/-! ## Links that supply bytes -/

namespace DialLink

variable {τ : Type} [DialLink τ]

/-- A relation accounts for the bytes that are left: every read finds some of them, behind the last
one there is nothing more, however often one reads, and closing takes nothing away. -/
structure Accounts (left : τ → Bytes → Prop) : Prop where
  yields : Link.Yields left
  read_nil : ∀ {t : τ} {n : Nat}, left t [] → 0 < n →
    ∃ r t', Link.read t n = (r, t') ∧ Ending.quiet.Found r ∧ left t' []
  close : ∀ {t : τ} {bs : Bytes}, left t bs → left (DialLink.close t) bs

/-- **A link supplies some bytes**: they are accounted for, in pieces of whatever size. -/
def Supplies (t : τ) (bs : Bytes) : Prop := ∃ left : τ → Bytes → Prop, Accounts left ∧ left t bs

/-- To supply bytes is to account for them. -/
theorem accounts_supplies : Accounts (@Supplies τ _) where
  yields := by
    rintro t bs n ⟨left, hleft, ht⟩ hbs hn
    obtain ⟨found, rest, t', hne, he, hr, hrest⟩ := hleft.yields ht hbs hn
    exact ⟨found, rest, t', hne, he, hr, left, hleft, hrest⟩
  read_nil := by
    rintro t n ⟨left, hleft, ht⟩ hn
    obtain ⟨r, t', hr, hfound, hrest⟩ := hleft.read_nil ht hn
    exact ⟨r, t', hr, hfound, left, hleft, hrest⟩
  close := fun ⟨left, hleft, ht⟩ => ⟨left, hleft, hleft.close ht⟩

namespace Supplies

variable {t : τ} {bs : Bytes}

/-- A link holds the bytes that it supplies. -/
theorem holds (h : Supplies t bs) : Link.Holds .quiet t bs := by
  induction hn : bs.length using Nat.strongRecOn generalizing t bs with
  | ind n ih =>
    subst hn
    by_cases hbs : bs = []
    · subst hbs
      refine .nothing fun n hn => ?_
      obtain ⟨r, t', hr, hfound, -⟩ := accounts_supplies.read_nil h hn
      rwa [hr]
    · refine .some (fun n hn => ?_) fun n found rest hn he hr => ?_
      · obtain ⟨found, rest, t', hne, he, hr, -⟩ := accounts_supplies.yields h hbs hn
        exact ⟨found, rest, hne, he, by rw [hr]⟩
      · obtain ⟨found', rest', t', hne, he', hr', hrest⟩ := accounts_supplies.yields h hbs hn
        rw [hr'] at hr ⊢
        obtain rfl := Except.ok.inj hr
        obtain rfl := List.append_cancel_left (he.symm.trans he')
        have hlen := List.length_pos_iff.2 hne
        exact ih rest.length (by rw [he, List.length_append]; omega) hrest rfl

/-- What supplies nothing does not supply a byte. -/
theorem ne_cons_of_nil (h : Supplies t []) {b : UInt8} (h' : Supplies t (b :: bs)) : False := by
  obtain ⟨r, t₁, hr, hfound, -⟩ := accounts_supplies.read_nil h Nat.one_pos
  obtain ⟨t₂, hr', -⟩ := accounts_supplies.yields.read_one h'
  obtain rfl : r = .ok [b] := congrArg Prod.fst (hr.symm.trans hr')
  rcases hfound with hfound | hfound <;> cases hfound

/-- **A link supplies the bytes of one stream only.** -/
theorem eq {bs' : Bytes} (h : Supplies t bs) (h' : Supplies t bs') : bs = bs' := by
  induction bs generalizing t bs' with
  | nil =>
    cases bs' with
    | nil => rfl
    | cons b bs' => exact (h.ne_cons_of_nil h').elim
  | cons b bs ih =>
    cases bs' with
    | nil => exact (h'.ne_cons_of_nil h).elim
    | cons b' bs' =>
      obtain ⟨t₁, hr, h₁⟩ := accounts_supplies.yields.read_one h
      obtain ⟨t₂, hr', h₂⟩ := accounts_supplies.yields.read_one h'
      obtain ⟨hb, rfl⟩ := Prod.mk.inj (hr.symm.trans hr')
      rw [ih h₁ h₂, (List.cons.inj (Except.ok.inj hb)).1]

/-- Where fewer bytes are left than are asked for, reading fails, and nothing is left then. -/
theorem readExact_of_lt {n : Nat} (h : Supplies t bs) (hn : bs.length < n) :
    ∃ e t', Link.readExact t n = (.error e, t') ∧ Supplies t' [] := by
  induction hk : n using Nat.strongRecOn generalizing t bs n with
  | ind k ih =>
    subst hk
    rw [Link.readExact, if_neg (Nat.ne_of_gt (Nat.zero_lt_of_lt hn))]
    by_cases hbs : bs = []
    · subst hbs
      obtain ⟨r, t₁, hr, hfound, h₁⟩ := accounts_supplies.read_nil h (Nat.zero_lt_of_lt hn)
      rw [hr]
      rcases hfound with rfl | rfl
      · exact ⟨_, t₁, rfl, h₁⟩
      · exact ⟨_, t₁, rfl, h₁⟩
    · obtain ⟨found, rest, t₁, hne, rfl, hr, h₁⟩ :=
        accounts_supplies.yields h hbs (Nat.zero_lt_of_lt hn)
      match found, hne with
      | b :: found, _ =>
        rw [List.length_append, List.length_cons] at hn
        obtain ⟨e, t₂, hread, h₂⟩ := ih (n - (found.length + 1)) (by omega) h₁ (by omega) rfl
        rw [hr]
        dsimp only
        rw [hread]
        exact ⟨e, t₂, rfl, h₂⟩

end Supplies

end DialLink

namespace Wire

/-- What is left on a wire that delivers chunks, none of them empty, as long as there are any. -/
def Chunked (w : Wire) (bs : Bytes) : Prop :=
  ∃ chunks : List Bytes, [] ∉ chunks ∧ w.inbound = chunks.map .chunk ∧ bs = chunks.flatten

/-- A read takes what it has room for from the first chunk. -/
theorem read_of_inbound {w : Wire} {bs : Bytes} {rest : List Delivery} {n : Nat}
    (h : w.inbound = .chunk bs :: rest) :
    ∃ w', Link.read w n = (.ok (bs.take n), w') ∧ w'.inbound = remainder n bs rest := by
  show ∃ w', w.read n = _ ∧ _
  unfold read
  rw [h]
  exact ⟨_, rfl, rfl⟩

/-- The bytes of the chunks are accounted for. -/
theorem accounts_chunked : DialLink.Accounts Chunked where
  yields := by
    rintro w _ n ⟨chunks, hne, hw, rfl⟩ hbs hn
    cases chunks with
    | nil => exact absurd rfl hbs
    | cons bs chunks =>
      rw [List.mem_cons, not_or] at hne
      obtain ⟨hbs, hne⟩ := hne
      obtain ⟨w', hr, hw'⟩ := read_of_inbound (n := n) hw
      have hfound : bs.take n ≠ [] := fun he =>
        (List.take_eq_nil_iff.1 he).elim (Nat.ne_of_gt hn) (Ne.symm hbs)
      refine ⟨bs.take n, bs.drop n ++ chunks.flatten, w', hfound, ?_, hr, ?_⟩
      · rw [← List.append_assoc, List.take_append_drop]
        rfl
      · unfold remainder at hw'
        split at hw'
        · rename_i hle
          rw [List.drop_eq_nil_of_le hle]
          exact ⟨chunks, hne, hw', rfl⟩
        · rename_i hle
          have hdrop : [] ≠ bs.drop n := fun hd => hle (List.drop_eq_nil_iff.1 hd.symm)
          exact ⟨bs.drop n :: chunks, List.not_mem_cons_of_ne_of_not_mem hdrop hne, hw', rfl⟩
  read_nil := by
    rintro w n ⟨chunks, hne, hw, he⟩ hn
    obtain rfl : chunks = [] := by
      rw [List.eq_nil_iff_forall_not_mem]
      exact fun bs hbs => hne (List.flatten_eq_nil_iff.1 he.symm bs hbs ▸ hbs)
    have hread : Link.read w n = (.error .timeout, w.elapse (w.patience.getD 0)) := by
      show w.read n = _
      unfold read
      rw [hw]
      rfl
    exact ⟨_, _, hread, .inl rfl, [], hne, hw, rfl⟩
  close := id

/-- **A wire supplies the chunks that it delivers**, as long as none of them is empty. -/
theorem supplies_flatten {w : Wire} {chunks : List Bytes} (hne : [] ∉ chunks)
    (hw : w.inbound = chunks.map .chunk) : DialLink.Supplies w chunks.flatten :=
  ⟨Chunked, accounts_chunked, chunks, hne, hw, rfl⟩

/-- A wire holds the chunks that it delivers, as long as none of them is empty. -/
theorem holds_flatten {w : Wire} {chunks : List Bytes} (hne : ∀ bs ∈ chunks, bs ≠ [])
    (hw : w.inbound = chunks.map .chunk) : Link.Holds .quiet w chunks.flatten :=
  (supplies_flatten (fun hmem => hne [] hmem rfl) hw).holds

end Wire

end EdgeDevice
