import EdgeDevice.Proofs.Net.Tap
import EdgeDevice.Simulation.Wire

set_option autoImplicit false
set_option relaxedAutoImplicit false

/-!
# Links that keep time

A link is punctual if its clock does not go back, if only reading takes time, and if no read takes
longer than the bound that was set for it. On a stamped link the clock is written down with all that
is done, so that its record tells when each read was bounded, and for how long.

Stamps do not show in what the link does. That is one instance of a faithful view of a link: a
function of its state under which every operation corresponds.

## Main definitions

* `EdgeDevice.Link.WriteFaithful`, `EdgeDevice.TimedLink.Faithful` — a view of a link that writing
  respects, and one that every operation respects.
* `EdgeDevice.TimedLink.Punctual` — a link keeps to its clock and to the bounds on reads.
* `EdgeDevice.Stamped` — a link with a record of acts and times.

## Main results

* `EdgeDevice.Link.WriteFaithful.writeAll` — writing pieces respects such a view.
* `EdgeDevice.Stamped.faithful_link` — stamps do not show.
* `EdgeDevice.Wire.punctual` — a simulated wire is punctual, whatever its delay.
-/

namespace EdgeDevice

/-! ## Views -/

/-- A view of a link on which writing is the same: whatever is written over the link is written over
what is seen of it, with the same answers. -/
structure Link.WriteFaithful {τ σ : Type} [Link τ] [Link σ] (f : τ → σ) : Prop where
  write : ∀ (t : τ) (bs : Bytes), Link.write (f t) bs = (Link.write t bs).map id f
  flush : ∀ t : τ, Link.flush (f t) = (Link.flush t).map id f

/-- A view of a link is faithful: whatever is done over the link is done over what is seen of it,
with the same answers and at the same time. -/
structure TimedLink.Faithful {τ σ : Type} [TimedLink τ] [TimedLink σ] (f : τ → σ) : Prop
    extends Link.WriteFaithful f where
  now : ∀ t : τ, TimedLink.now (f t) = TimedLink.now t
  read : ∀ (t : τ) (n : Nat), Link.read (f t) n = (Link.read t n).map id f
  limit : ∀ (t : τ) (d : Duration), TimedLink.limit (f t) d = (TimedLink.limit t d).map id f

/-- Where writing is the same over a view of a link, so is writing several pieces. -/
theorem Link.WriteFaithful.writeAll {τ σ : Type} [Link τ] [Link σ] {f : τ → σ}
    (h : Link.WriteFaithful f) (t : τ) (pieces : List Bytes) :
    Link.writeAll (f t) pieces = (Link.writeAll t pieces).map id f := by
  induction pieces generalizing t with
  | nil => exact h.flush t
  | cons piece pieces ih =>
    rw [Link.writeAll, h.write, Link.writeAll]
    rcases Link.write t piece with ⟨_ | _, t'⟩
    · rfl
    · exact ih t'

/-! ## Time -/

/-- **A link is punctual**: only reading takes time, the clock does not go back as far as durations
reach, and a read takes no longer than the bound that was just set. -/
structure TimedLink.Punctual (τ : Type) [TimedLink τ] : Prop where
  now_write : ∀ (t : τ) (bs : Bytes), now (Link.write t bs).2 = now t
  now_flush : ∀ t : τ, now (Link.flush t).2 = now t
  now_limit : ∀ (t : τ) (d : Duration), now (limit t d).2 = now t
  le_now_read : ∀ (t : τ) (n : Nat), now t ≤ Duration.longest → now t ≤ now (Link.read t n).2
  now_read_le : ∀ {t t' : τ} {d : Duration} (n : Nat), limit t d = (none, t') →
    now (Link.read t' n).2 ≤ now t' + d

/-- Writing takes no time on a punctual link. -/
theorem TimedLink.Punctual.now_writeAll {τ : Type} [TimedLink τ] (h : TimedLink.Punctual τ) (t : τ)
    (pieces : List Bytes) : now (Link.writeAll t pieces).2 = now t := by
  induction pieces generalizing t with
  | nil => exact h.now_flush t
  | cons piece pieces ih =>
    have hw := h.now_write t piece
    rw [Link.writeAll]
    rcases hp : Link.write t piece with ⟨taken, t'⟩
    rw [hp] at hw
    cases taken with
    | false => exact hw
    | true => exact (ih t').trans hw

/-- A read is over when its bound says so. -/
theorem TimedLink.Punctual.now_le_of_read {τ : Type} [TimedLink τ] (h : TimedLink.Punctual τ)
    {t t₁ t₂ : τ} {d : Duration} {n : Nat} {found : Except NetError Bytes}
    (hl : limit t d = (none, t₁)) (hr : Link.read t₁ n = (found, t₂)) :
    now t₁ = now t ∧ now t₂ ≤ now t + d ∧ (now t ≤ Duration.longest → now t ≤ now t₂) := by
  have hnow : now t₁ = now t := by rw [← h.now_limit t d, hl]
  have hle := h.now_read_le n hl
  have hge := h.le_now_read t₁ n
  rw [hr, hnow] at hle hge
  exact ⟨hnow, hle, hge⟩

/-- **A simulated wire is punctual**, whatever its script and its delay. -/
theorem Wire.punctual : TimedLink.Punctual Wire where
  now_write w bs := by
    show (w.write bs).2.now = w.now
    unfold write
    split
    · rfl
    · split <;> rfl
  now_flush w := rfl
  now_limit w d := by
    show (w.limit d).2.now = w.now
    unfold limit
    split <;> rfl
  le_now_read w n hle := by
    show w.now ≤ (w.read n).2.now
    unfold read
    split
    · exact Nat.le_min.2 ⟨Nat.le_add_right _ _, hle⟩
    · exact Nat.le_refl _
    · exact Nat.le_min.2 ⟨Nat.le_add_right _ _, hle⟩
  now_read_le {w w' d} n hlimit := by
    have hpatience : w'.patience = some d := by
      have hlimit' : w.limit d = (none, w') := hlimit
      unfold limit at hlimit'
      split at hlimit'
      · cases hlimit'
      · obtain ⟨-, rfl⟩ := Prod.mk.inj hlimit'
        rfl
    show (w'.read n).2.now ≤ w'.now + d
    unfold read
    split
    · show w'.now.plus (w'.patience.getD 0) ≤ _
      rw [hpatience]
      exact Nat.min_le_left _ _
    · exact Nat.le_add_right _ _
    · show w'.now.plus w'.chunkTime ≤ _
      rw [chunkTime, hpatience]
      exact Nat.le_trans (Nat.min_le_left _ _) (Nat.add_le_add_left (Nat.min_le_right _ _) _)

/-! ## Stamps -/

/-- What is done over a link, and the clock before it. -/
structure Stamp where
  clock : Duration
  act : LinkAct
  deriving DecidableEq

/-- The bound on reads that is set, if one is. -/
def Stamp.bound? (s : Stamp) : Option Duration :=
  match s.act with
  | .limited d _ => some d
  | _ => none

namespace Stamp

/-- A read is bounded and something is read, all of it begun at the same time. -/
def round (clock d : Duration) (found : Except NetError Bytes) : List Stamp :=
  [⟨clock, .limited d none⟩, ⟨clock, .ofRead found⟩]

/-- A round is a bound and a read. -/
theorem mem_round {s : Stamp} {clock d : Duration} {found : Except NetError Bytes} :
    s ∈ round clock d found ↔ s = ⟨clock, .limited d none⟩ ∨ s = ⟨clock, .ofRead found⟩ := by
  simp [round]

/-- One bound is set in a round. -/
theorem filterMap_round (clock d : Duration) (found : Except NetError Bytes) :
    (round clock d found).filterMap bound? = [d] := by
  cases found <;> rfl

/-- There is one read in a round. -/
theorem countP_round (clock d : Duration) (found : Except NetError Bytes) :
    (round clock d found).countP (·.act.isRead) = 1 := by
  cases found <;> rfl

/-- The bound of a round is set at its beginning. -/
theorem eq_of_mem_round {s : Stamp} {clock d d' : Duration} {found : Except NetError Bytes}
    (h : s ∈ round clock d found) (hd : s.bound? = some d') : s.clock = clock ∧ d' = d := by
  rcases mem_round.1 h with rfl | rfl
  · exact ⟨rfl, (Option.some.inj hd).symm⟩
  · cases found <;> cases hd

/-- A write sets no bound. -/
theorem bound?_of_isWrite {s : Stamp} (h : s.act.isWrite = true) : s.bound? = none := by
  unfold bound?
  cases hact : s.act with
  | limited d failure =>
    rw [hact] at h
    cases h
  | _ => rfl

variable {log : List Stamp}

/-- Where there are only writes no bound is set. -/
theorem filterMap_of_isWrite (h : ∀ s ∈ log, s.act.isWrite = true) :
    log.filterMap bound? = [] :=
  List.filterMap_eq_nil_iff.2 fun s hs => bound?_of_isWrite (h s hs)

/-- Where there are only writes nothing is read. -/
theorem countP_of_isWrite (h : ∀ s ∈ log, s.act.isWrite = true) :
    log.countP (·.act.isRead) = 0 := by
  refine List.countP_eq_zero.2 fun s hs hr => ?_
  have hw := h s hs
  cases hact : s.act with
  | wrote bs taken =>
    rw [hact] at hr
    cases hr
  | flushed done =>
    rw [hact] at hr
    cases hr
  | _ =>
    rw [hact] at hw
    cases hw

end Stamp

/-- A link with a record of what was done over it and when, the first act in front. -/
structure Stamped (τ : Type) where
  link : τ
  stamps : List Stamp := []

namespace Stamped

variable {τ : Type} [TimedLink τ]

/-- What came of something, written down with the clock before it. -/
def note {α : Type} (t : Stamped τ) (act : α → LinkAct) (answer : α × τ) : α × Stamped τ :=
  (answer.1, ⟨answer.2, t.stamps ++ [⟨TimedLink.now t.link, act answer.1⟩]⟩)

instance : Link (Stamped τ) where
  read t n := t.note .ofRead (Link.read t.link n)
  write t bs := t.note (.wrote bs) (Link.write t.link bs)
  flush t := t.note .flushed (Link.flush t.link)
  backlog t := Link.backlog t.link
  length_read_le h := Link.length_read_le (Prod.ext (Prod.mk.inj h).1 rfl)
  backlog_read_le t n := Link.backlog_read_le t.link n
  backlog_read_lt h hbs := by
    obtain ⟨h₁, rfl⟩ := Prod.mk.inj h
    exact Link.backlog_read_lt (Prod.ext h₁ rfl) hbs
  backlog_fail_lt h he := by
    obtain ⟨h₁, rfl⟩ := Prod.mk.inj h
    exact Link.backlog_fail_lt (Prod.ext h₁ rfl) he
  backlog_write_le t bs := Link.backlog_write_le t.link bs
  backlog_flush_le t := Link.backlog_flush_le t.link

instance : TimedLink (Stamped τ) where
  now t := TimedLink.now t.link
  limit t d := t.note (.limited d) (TimedLink.limit t.link d)
  backlog_limit_le t d := TimedLink.backlog_limit_le t.link d

/-- Stamps do not show in what a link does. -/
theorem faithful_link : TimedLink.Faithful (link : Stamped τ → τ) where
  now _ := rfl
  read _ _ := rfl
  write _ _ := rfl
  flush _ := rfl
  limit _ _ := rfl

/-- A punctual link stays punctual when it is stamped. -/
theorem punctual (h : TimedLink.Punctual τ) : TimedLink.Punctual (Stamped τ) where
  now_write t bs := h.now_write t.link bs
  now_flush t := h.now_flush t.link
  now_limit t d := h.now_limit t.link d
  le_now_read t n := h.le_now_read t.link n
  now_read_le n hlimit := by
    obtain ⟨h₁, rfl⟩ := Prod.mk.inj hlimit
    exact h.now_read_le n (Prod.ext h₁ rfl)

/-- A bound over a stamped link is recorded with the clock before it. -/
theorem stamps_of_limit {t t' : Stamped τ} {d : Duration} {failure : Option NetError}
    (h : TimedLink.limit t d = (failure, t')) :
    t'.stamps = t.stamps ++ [⟨TimedLink.now t, .limited d failure⟩] := by
  obtain ⟨rfl, rfl⟩ := Prod.mk.inj h
  rfl

/-- What is written down when a read is bounded and something is read. -/
theorem stamps_of_read (h : TimedLink.Punctual τ) {t t₁ t₂ : Stamped τ} {d : Duration} {n : Nat}
    {found : Except NetError Bytes} (hl : TimedLink.limit t d = (none, t₁))
    (hr : Link.read t₁ n = (found, t₂)) :
    t₂.stamps = t.stamps ++ Stamp.round (TimedLink.now t) d found := by
  have hread : t₂.stamps = t₁.stamps ++ [⟨TimedLink.now t₁, .ofRead found⟩] := by
    obtain ⟨rfl, rfl⟩ := Prod.mk.inj hr
    rfl
  rw [hread, stamps_of_limit hl, ((punctual h).now_le_of_read hl hr).1, List.append_assoc]
  rfl

/-- What is written down while pieces are written. -/
theorem stamps_writeAll (t : Stamped τ) (pieces : List Bytes) :
    ∃ more, (Link.writeAll t pieces).2.stamps = t.stamps ++ more ∧
      ∀ s ∈ more, s.act.isWrite = true := by
  induction pieces generalizing t with
  | nil => exact ⟨_, rfl, by simp [LinkAct.isWrite]⟩
  | cons piece pieces ih =>
    have hstamps : (Link.write t piece).2.stamps = t.stamps ++
        [⟨TimedLink.now t.link, .wrote piece (Link.write t piece).1⟩] := rfl
    rw [Link.writeAll]
    rcases hp : Link.write t piece with ⟨taken, t'⟩
    rw [hp] at hstamps
    cases taken with
    | false => exact ⟨_, hstamps, by simp [LinkAct.isWrite]⟩
    | true =>
      obtain ⟨more, hmore, hwrites⟩ := ih t'
      have hmore' : (Link.writeAll t' pieces).2.stamps =
          t.stamps ++ (⟨TimedLink.now t.link, .wrote piece true⟩ :: more) := by
        rw [hmore, hstamps, List.append_assoc]
        rfl
      exact ⟨_, hmore', List.forall_mem_cons.2 ⟨rfl, hwrites⟩⟩

end Stamped

end EdgeDevice
