import EdgeDevice.Net.Link

set_option autoImplicit false
set_option relaxedAutoImplicit false

/-!
# Tapped links

A link can be tapped: whatever is done over it is written down with what came of it, and apart from
that the link does what it does without the tap. So what is proved of the records of a tapped link
is true of what happens over the link itself.

## Main definitions

* `EdgeDevice.LinkAct` — what is done over a link, with what came of it.
* `EdgeDevice.Tapped` — a link with a record, and its instances.
* `EdgeDevice.Tapped.Agrees` — something comes to the same over a link and over the tapped link, and
  what it adds to the record has a property.
* `EdgeDevice.Link.Sending` — what is recorded while pieces are written.

## Main results

* `EdgeDevice.Tapped.agrees_readExact`, `EdgeDevice.Tapped.agrees_writeAll` — reading a number of
  bytes and writing pieces are the same over a tapped link.
-/

namespace EdgeDevice

/-- What is done over a link, with what came of it. -/
inductive LinkAct where
  | heard (bs : Bytes)
  | unheard (e : NetError)
  | wrote (bs : Bytes) (taken : Bool)
  | flushed (done : Bool)
  | limited (d : Duration) (failure : Option NetError)
  | dialled (address : String) (reached : Bool)
  | closed
  deriving DecidableEq

namespace LinkAct

/-- A read, by what it finds. -/
def ofRead : Except NetError Bytes → LinkAct
  | .ok bs => heard bs
  | .error e => unheard e

/-- Whether something is read. -/
def isRead : LinkAct → Bool
  | heard _ => true
  | unheard _ => true
  | _ => false

/-- Whatever a read finds, it is a read. -/
@[simp] theorem isRead_ofRead (found : Except NetError Bytes) : (ofRead found).isRead = true := by
  cases found <;> rfl

/-- Whether something is passed on to the other side. -/
def isWrite : LinkAct → Bool
  | wrote .. => true
  | flushed .. => true
  | _ => false

/-- Whether a connection is opened, or would be, or is given up. -/
def isSwitch : LinkAct → Bool
  | dialled .. => true
  | closed => true
  | _ => false

/-- Nothing is done but reading. -/
def OnlyReads (acts : List LinkAct) : Prop := ∀ a ∈ acts, a.isRead = true

/-- Nothing is done but passing on. -/
def OnlyWrites (acts : List LinkAct) : Prop := ∀ a ∈ acts, a.isWrite = true

/-- Where nothing is done, nothing is done but reading. -/
theorem OnlyReads.nil : OnlyReads [] := by simp [OnlyReads]

/-- Where nothing is done, nothing is done but passing on. -/
theorem OnlyWrites.nil : OnlyWrites [] := by simp [OnlyWrites]

/-- Nothing is done but reading if that is so of both parts. -/
theorem OnlyReads.append {acts more : List LinkAct} (h : OnlyReads acts) (h' : OnlyReads more) :
    OnlyReads (acts ++ more) := fun a ha => (List.mem_append.1 ha).elim (h a) (h' a)

/-- A read opens and closes nothing. -/
theorem isSwitch_of_isRead {a : LinkAct} (h : a.isRead = true) : a.isSwitch = false := by
  cases a with
  | heard bs => rfl
  | unheard e => rfl
  | _ => cases h

/-- A write opens and closes nothing. -/
theorem isSwitch_of_isWrite {a : LinkAct} (h : a.isWrite = true) : a.isSwitch = false := by
  cases a with
  | wrote bs taken => rfl
  | flushed done => rfl
  | _ => cases h

end LinkAct

/-- A link with a record of what was done over it, the first act in front. -/
structure Tapped (τ : Type) where
  link : τ
  acts : List LinkAct := []

namespace Tapped

variable {τ : Type}

/-- What came of something, written down. -/
def note {α : Type} (t : Tapped τ) (act : α → LinkAct) (answer : α × τ) : α × Tapped τ :=
  (answer.1, ⟨answer.2, t.acts ++ [act answer.1]⟩)

instance [Link τ] : Link (Tapped τ) where
  read t n := t.note .ofRead (Link.read t.link n)
  write t bs := t.note (.wrote bs) (Link.write t.link bs)
  flush t := t.note .flushed (Link.flush t.link)
  backlog t := Link.backlog t.link
  length_read_le h := Link.length_read_le (Prod.ext (Prod.mk.inj h).1 rfl)
  backlog_read_le t n := Link.backlog_read_le t.link n
  backlog_read_lt h hbs := by
    obtain ⟨h₁, rfl⟩ := Prod.mk.inj h
    exact Link.backlog_read_lt (Prod.ext h₁ rfl) hbs
  backlog_fail_lt h he := by
    obtain ⟨h₁, rfl⟩ := Prod.mk.inj h
    exact Link.backlog_fail_lt (Prod.ext h₁ rfl) he
  backlog_write_le t bs := Link.backlog_write_le t.link bs
  backlog_flush_le t := Link.backlog_flush_le t.link

instance [TimedLink τ] : TimedLink (Tapped τ) where
  now t := TimedLink.now t.link
  limit t d := t.note (.limited d) (TimedLink.limit t.link d)
  backlog_limit_le t d := TimedLink.backlog_limit_le t.link d

instance [DialLink τ] : DialLink (Tapped τ) where
  dial t address := t.note (.dialled address) (DialLink.dial t.link address)
  close t := ⟨DialLink.close t.link, t.acts ++ [.closed]⟩
  backlog_dial_le t address := DialLink.backlog_dial_le t.link address
  backlog_close_le t := DialLink.backlog_close_le t.link

end Tapped

/-! ## What writing adds to a record -/

/-- What is recorded while pieces are written and flushed, and whether all of it worked. Nothing
follows a piece that was not taken. -/
inductive Link.Sending : List Bytes → Bool → List LinkAct → Prop
  | flushed (done : Bool) : Sending [] done [.flushed done]
  | refused {piece : Bytes} {pieces : List Bytes} :
      Sending (piece :: pieces) false [.wrote piece false]
  | taken {piece : Bytes} {pieces : List Bytes} {done : Bool} {acts : List LinkAct}
      (h : Sending pieces done acts) : Sending (piece :: pieces) done (.wrote piece true :: acts)

namespace Link.Sending

variable {pieces : List Bytes} {done : Bool} {acts : List LinkAct}

/-- While pieces are written nothing is done but passing on. -/
theorem onlyWrites (h : Sending pieces done acts) : LinkAct.OnlyWrites acts := by
  unfold LinkAct.OnlyWrites
  induction h with
  | flushed done => simp [LinkAct.isWrite]
  | refused => simp [LinkAct.isWrite]
  | taken h ih => simpa [LinkAct.isWrite] using ih

/-- Where all of it works, every piece is written in order, and then all is flushed. -/
theorem eq_of_done (h : Sending pieces true acts) :
    acts = pieces.map (LinkAct.wrote · true) ++ [.flushed true] := by
  generalize hd : true = done at h
  induction h with
  | flushed done => rw [← hd]; rfl
  | refused => cases hd
  | taken h ih => rw [ih hd, hd]; rfl

end Link.Sending

/-! ## The same over a tapped link -/

namespace Tapped

variable {τ α : Type}

/-- **Something comes to the same over a link and over the tapped link** with the record `acts`, and
what it adds to the record has a property. -/
def Agrees (P : List LinkAct → Prop) (acts : List LinkAct) (plain : α × τ)
    (tapped : α × Tapped τ) : Prop :=
  ∃ more, P more ∧ tapped = (plain.1, ⟨plain.2, acts ++ more⟩)

/-- Where nothing is done the record stays. -/
theorem Agrees.nothing {P : List LinkAct → Prop} {r : α} {t : τ} {acts : List LinkAct}
    (h : P []) : Agrees P acts (r, t) (r, ⟨t, acts⟩) :=
  ⟨[], h, by rw [List.append_nil]⟩

section

variable [Link τ]

/-- A read over a tapped link finds what a read over the link finds, and is recorded. -/
theorem read_of_read {t t' : τ} {n : Nat} {r : Except NetError Bytes} (acts : List LinkAct)
    (h : Link.read t n = (r, t')) :
    Link.read (⟨t, acts⟩ : Tapped τ) n = (r, ⟨t', acts ++ [.ofRead r]⟩) := by
  show note ⟨t, acts⟩ .ofRead (Link.read t n) = _
  rw [h]
  rfl

/-- A write over a tapped link is taken if one over the link is, and is recorded. -/
theorem write_of_write {t t' : τ} {bs : Bytes} {taken : Bool} (acts : List LinkAct)
    (h : Link.write t bs = (taken, t')) :
    Link.write (⟨t, acts⟩ : Tapped τ) bs = (taken, ⟨t', acts ++ [.wrote bs taken]⟩) := by
  show note ⟨t, acts⟩ (.wrote bs) (Link.write t bs) = _
  rw [h]
  rfl

/-- A bound over a tapped link is set if one over the link is, and is recorded. -/
theorem limit_of_limit {τ : Type} [TimedLink τ] {t t' : τ} {d : Duration} {e : Option NetError}
    (acts : List LinkAct) (h : TimedLink.limit t d = (e, t')) :
    TimedLink.limit (⟨t, acts⟩ : Tapped τ) d = (e, ⟨t', acts ++ [.limited d e]⟩) := by
  show note ⟨t, acts⟩ (.limited d) (TimedLink.limit t d) = _
  rw [h]
  rfl

/-- Reading a number of bytes is the same over a tapped link. -/
theorem agrees_readExact (t : τ) (n : Nat) (acts : List LinkAct) :
    Agrees LinkAct.OnlyReads acts (Link.readExact t n)
      (Link.readExact (⟨t, acts⟩ : Tapped τ) n) := by
  unfold LinkAct.OnlyReads
  fun_induction Link.readExact t n generalizing acts with
  | case1 t =>
    rw [Link.readExact, if_pos rfl]
    exact .nothing (by simp)
  | case2 t n hn e t₁ hr =>
    refine ⟨[.ofRead (.error e)], by simp, ?_⟩
    rw [Link.readExact, if_neg hn, read_of_read acts hr]
  | case3 t n hn t₁ hr =>
    refine ⟨[.ofRead (.ok [])], by simp, ?_⟩
    rw [Link.readExact, if_neg hn, read_of_read acts hr]
  | case4 t n hn b bs t₁ hr e t₂ he ih =>
    obtain ⟨more, hmore, hm⟩ := ih (acts ++ [.ofRead (.ok (b :: bs))])
    refine ⟨.ofRead (.ok (b :: bs)) :: more, by simpa using hmore, ?_⟩
    rw [Link.readExact, if_neg hn, read_of_read acts hr]
    dsimp only
    rw [hm, he, List.append_assoc]
    rfl
  | case5 t n hn b bs t₁ hr rest t₂ he ih =>
    obtain ⟨more, hmore, hm⟩ := ih (acts ++ [.ofRead (.ok (b :: bs))])
    refine ⟨.ofRead (.ok (b :: bs)) :: more, by simpa using hmore, ?_⟩
    rw [Link.readExact, if_neg hn, read_of_read acts hr]
    dsimp only
    rw [hm, he, List.append_assoc]
    rfl

/-- Writing pieces is the same over a tapped link. -/
theorem agrees_writeAll (t : τ) (pieces : List Bytes) (acts : List LinkAct) :
    Agrees (Link.Sending pieces (Link.writeAll t pieces).1) acts (Link.writeAll t pieces)
      (Link.writeAll (⟨t, acts⟩ : Tapped τ) pieces) := by
  induction pieces generalizing t acts with
  | nil => exact ⟨_, .flushed _, rfl⟩
  | cons piece pieces ih =>
    rcases hw : Link.write t piece with ⟨taken, t₁⟩
    have hw' := write_of_write acts hw
    cases taken with
    | false =>
      refine ⟨[.wrote piece false], ?_, ?_⟩
      · simp only [Link.writeAll, hw]
        exact .refused
      · simp only [Link.writeAll, hw, hw']
    | true =>
      obtain ⟨more, hs, hm⟩ := ih t₁ (acts ++ [.wrote piece true])
      refine ⟨.wrote piece true :: more, ?_, ?_⟩
      · simp only [Link.writeAll, hw]
        exact .taken hs
      · simp only [Link.writeAll, hw, hw', hm, List.append_assoc, List.singleton_append]

end

end Tapped

end EdgeDevice
