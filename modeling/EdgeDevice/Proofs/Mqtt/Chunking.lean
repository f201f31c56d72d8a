import EdgeDevice.Proofs.Mqtt.History
import EdgeDevice.Proofs.Net.Stream

set_option autoImplicit false
set_option relaxedAutoImplicit false

/-!
# Polling in whatever pieces

A packet is read in three places: its first byte, the groups of its length and its body. Each of
the three may end in the middle of what a link delivers at once, and each may come to the end of all
there is. What a client finds depends on the bytes alone and not on how they are cut, also where
they are no packets.

Two clients poll side by side, each over a link of its own. Their links stay abreast: both have the
same bytes left. Only why reading fails may differ, as one link may find nothing more where the
other one finds that the other side is gone; no client looks at that.

## Main definitions

* `EdgeDevice.DialLink.Abreast` — two links have the same bytes left.
* `EdgeDevice.DialLink.Tallies` — two links were read with the same result.
* `EdgeDevice.Mqtt.Client.Abreast` — two clients are in the same state, over links that are abreast.

## Main results

* `EdgeDevice.DialLink.Abreast.readExact` — how the bytes are cut makes no difference to reading.
* `EdgeDevice.Mqtt.Client.Abreast.poll` — one poll.
* `EdgeDevice.Mqtt.Client.history_polls_eq` — any number of polls.
-/

namespace EdgeDevice

/-! ## Links side by side -/

namespace DialLink

variable {σ τ α : Type} [DialLink σ] [DialLink τ]

/-- Two links are abreast within some bytes: both supply what is left of them. -/
def Abreast (bs : Bytes) (s : σ) (t : τ) : Prop :=
  ∃ rest, rest <:+ bs ∧ Supplies s rest ∧ Supplies t rest

/-- **Two links were read with the same result**, or both without one, and are abreast. -/
inductive Tallies (bs : Bytes) : Except NetError α × σ → Except NetError α × τ → Prop
  | found {a : α} {s : σ} {t : τ} (h : Abreast bs s t) : Tallies bs (.ok a, s) (.ok a, t)
  | failed {e e' : NetError} {s : σ} {t : τ} (h : Abreast bs s t) :
      Tallies bs (.error e, s) (.error e', t)

variable {bs : Bytes} {s : σ} {t : τ}

/-- Links that are abreast are so after they are closed. -/
theorem Abreast.close (h : Abreast bs s t) : Abreast bs (DialLink.close s) (DialLink.close t) := by
  obtain ⟨rest, hrest, hs, ht⟩ := h
  exact ⟨rest, hrest, accounts_supplies.close hs, accounts_supplies.close ht⟩

/-- **How the bytes are cut makes no difference to reading.** -/
theorem Abreast.readExact (h : Abreast bs s t) (n : Nat) :
    Tallies bs (Link.readExact s n) (Link.readExact t n) := by
  obtain ⟨rest, hrest, hs, ht⟩ := h
  by_cases hn : n ≤ rest.length
  · rw [← List.take_append_drop n rest] at hs ht
    obtain ⟨s', hrs, hs'⟩ := accounts_supplies.yields.readExact hs
    obtain ⟨t', hrt, ht'⟩ := accounts_supplies.yields.readExact ht
    rw [List.length_take_of_le hn] at hrs hrt
    rw [hrs, hrt]
    exact .found ⟨rest.drop n, (List.drop_suffix n rest).trans hrest, hs', ht'⟩
  · obtain ⟨e, s', hrs, hs'⟩ := hs.readExact_of_lt (Nat.lt_of_not_le hn)
    obtain ⟨e', t', hrt, ht'⟩ := ht.readExact_of_lt (Nat.lt_of_not_le hn)
    rw [hrs, hrt]
    exact .failed ⟨[], List.nil_suffix, hs', ht'⟩

end DialLink

namespace Mqtt

open DialLink (Abreast Tallies)

/-! ## Reading a packet -/

namespace Receipt

variable {σ τ : Type} [DialLink σ] [DialLink τ] {bs : Bytes} {s : σ} {t : τ}

/-- Links that are abreast yield the same length. -/
theorem tallies_readLength (h : Abreast bs s t) (groups unit sum : Nat) :
    Tallies bs (readLength groups unit sum s) (readLength groups unit sum t) := by
  induction groups generalizing unit sum s t with
  | zero => exact .failed h
  | succ groups ih =>
    have hone := h.readExact 1
    unfold readLength
    generalize Link.readExact s 1 = r, Link.readExact t 1 = r' at hone
    cases hone with
    | failed h => exact .failed h
    | found h =>
      dsimp only
      split
      · exact .found h
      · exact ih h _ _

/-- Links that are abreast yield the same body. -/
theorem tallies_readBody (h : Abreast bs s t) : Tallies bs (readBody s) (readBody t) := by
  have hlength := tallies_readLength h 4 1 0
  unfold readBody
  generalize readLength 4 1 0 s = r, readLength 4 1 0 t = r' at hlength
  cases hlength with
  | failed h => exact .failed h
  | found h =>
    dsimp only
    split
    · exact h.readExact _
    · exact .failed h

/-- Behind the last byte there is no packet. -/
theorem read_of_supplies_nil (h : DialLink.Supplies t []) :
    ∃ t', read t = (.quiet, t') ∧ DialLink.Supplies t' [] := by
  obtain ⟨r, t', hr, hfound, ht'⟩ := DialLink.accounts_supplies.read_nil h Nat.one_pos
  refine ⟨t', ?_, ht'⟩
  unfold read
  rw [hr]
  rcases hfound with rfl | rfl <;> rfl

/-- Two clients read the same. -/
theorem read_of_abreast (h : Abreast bs s t) :
    ∃ receipt s' t', read s = (receipt, s') ∧ read t = (receipt, t') ∧ Abreast bs s' t' := by
  obtain ⟨rest, hrest, hs, ht⟩ := h
  cases rest with
  | nil =>
    obtain ⟨s', hrs, hs'⟩ := read_of_supplies_nil hs
    obtain ⟨t', hrt, ht'⟩ := read_of_supplies_nil ht
    exact ⟨.quiet, s', t', hrs, hrt, [], hrest, hs', ht'⟩
  | cons first rest =>
    obtain ⟨s₁, hrs, hs₁⟩ := DialLink.accounts_supplies.yields.read_one hs
    obtain ⟨t₁, hrt, ht₁⟩ := DialLink.accounts_supplies.yields.read_one ht
    have habreast : Abreast bs s₁ t₁ :=
      ⟨rest, (List.suffix_cons first rest).trans hrest, hs₁, ht₁⟩
    have hbody := tallies_readBody habreast
    unfold read
    rw [hrs, hrt]
    dsimp only
    generalize readBody s₁ = r, readBody t₁ = r' at hbody
    cases hbody with
    | failed h => exact ⟨.broken, _, _, rfl, rfl, h⟩
    | found h => exact ⟨.packet first _, _, _, rfl, rfl, h⟩

end Receipt

/-! ## Clients side by side -/

namespace Client

variable {σ τ : Type} [DialLink σ] [DialLink τ] {bs : Bytes} {c : Client σ} {d : Client τ}

/-- **Two clients are abreast**: in the same state, over links that are. -/
structure Abreast (bs : Bytes) (c : Client σ) (d : Client τ) : Prop where
  session : c.session = d.session
  isOpen : c.isOpen = d.isOpen
  link : DialLink.Abreast bs c.link d.link

/-- A number of polls. -/
def polls (n : Nat) : List (Errand τ) := List.replicate n { call := .poll }

namespace Abreast

/-- Clients that are abreast are so after they give up their connections. -/
theorem drop (h : Abreast bs c d) : Abreast bs c.drop d.drop where
  session := rfl
  isOpen := rfl
  link := by
    unfold Client.drop
    rw [h.isOpen]
    cases d.isOpen with
    | false => exact h.link
    | true => exact h.link.close

/-- Clients that are abreast act alike on a packet, and are abreast afterwards. -/
theorem handle (h : Abreast bs c d) (first : UInt8) (body : Bytes) :
    (c.handle first body).1 = (d.handle first body).1 ∧
      Abreast bs (c.handle first body).2 (d.handle first body).2 := by
  unfold Client.handle
  cases Inbound.read first body with
  | error e => exact ⟨rfl, h⟩
  | ok inbound =>
    cases inbound with
    | accepted => exact ⟨rfl, rfl, h.isOpen, h.link⟩
    | refused reason => exact ⟨rfl, h.drop⟩
    | published p => exact ⟨rfl, h⟩
    | other => exact ⟨rfl, h⟩

/-- Clients that are abreast make the same of what they received, and are abreast afterwards. -/
theorem receive (h : Abreast bs c d) (receipt : Receipt) :
    (c.receive receipt).1 = (d.receive receipt).1 ∧
      Abreast bs (c.receive receipt).2 (d.receive receipt).2 := by
  cases receipt with
  | quiet => exact ⟨rfl, h⟩
  | broken => exact ⟨rfl, h.drop⟩
  | packet first body => exact h.handle first body

/-- One poll finds the same for both clients, and leaves them abreast. -/
theorem poll (h : Abreast bs c d) : c.poll.1 = d.poll.1 ∧ Abreast bs c.poll.2 d.poll.2 := by
  cases hd : d.isOpen with
  | false =>
    rw [poll_of_not_isOpen (h.isOpen.trans hd), poll_of_not_isOpen hd]
    exact ⟨rfl, h⟩
  | true =>
    obtain ⟨receipt, s', t', hrs, hrt, hlink⟩ := Receipt.read_of_abreast h.link
    rw [poll_of_isOpen (h.isOpen.trans hd) hrs, poll_of_isOpen hd hrt]
    exact receive (c := { c with link := s' }) (d := { d with link := t' })
      ⟨h.session, h.isOpen, hlink⟩ receipt

/-- Any number of polls finds the same for both clients, and leaves them abreast. -/
theorem polls (h : Abreast bs c d) (n : Nat) :
    c.history (Client.polls n) = d.history (Client.polls n) ∧
      Abreast bs (c.run (Client.polls n)) (d.run (Client.polls n)) := by
  induction n generalizing c d with
  | zero => exact ⟨rfl, h⟩
  | succ n ih =>
    obtain ⟨hresult, hnext⟩ := h.poll
    obtain ⟨hhistory, hrun⟩ := ih hnext
    refine ⟨?_, hrun⟩
    show Deed.poll c.poll.1 :: c.poll.2.history (Client.polls n) =
      Deed.poll d.poll.1 :: d.poll.2.history (Client.polls n)
    rw [hresult, hhistory]

end Abreast

/-- **Polling does not depend on how the bytes that come in are cut.** Two clients in the same
state, whose links supply the same bytes in pieces of their own, find the same with any number of
polls, are in the same state then, and have the same bytes left to read. -/
theorem history_polls_eq (hc : DialLink.Supplies c.link bs) (hd : DialLink.Supplies d.link bs)
    (hs : c.session = d.session) (ho : c.isOpen = d.isOpen) (n : Nat) :
    c.history (polls n) = d.history (polls n) ∧
      Abreast bs (c.run (polls n)) (d.run (polls n)) :=
  Abreast.polls ⟨hs, ho, bs, List.suffix_rfl, hc, hd⟩ n

/-- An answer, a message whose length is spelled with a byte more than it needs, and the beginning
of a packet, at once and byte for byte. -/
theorem history_polls_trickle :
    let stream : Bytes := [0x20, 2, 0, 0, 0x30, 0x85, 0, 0, 1, 0x61, 0x68, 0x69, 0x30, 5, 0]
    let options : Options := ⟨⟨"button", by decide⟩, 60, true⟩
    let c : Client Wire :=
      ⟨{ inbound := [.chunk stream] }, ⟨"fd00::1", by decide⟩, options, true, .awaiting⟩
    let d : Client Wire := { c with link := { inbound := stream.map fun b => .chunk [b] } }
    DialLink.Supplies c.link stream ∧ DialLink.Supplies d.link stream ∧
      c.history (polls 4) = [.poll (.ok (some .connected)),
        .poll (.ok (some (.published ⟨⟨"a", by decide⟩, ⟨[0x68, 0x69], by decide⟩⟩))),
        .poll (.ok (some .disconnected)), .poll (.ok none)] ∧
      c.history (polls 4) = d.history (polls 4) ∧
      Abreast stream (c.run (polls 4)) (d.run (polls 4)) := by
  intro stream options c d
  have hc : DialLink.Supplies c.link stream :=
    @Wire.supplies_flatten c.link [stream] (by decide) rfl
  have hd : DialLink.Supplies d.link stream :=
    @Wire.supplies_flatten d.link (stream.map fun b => [b]) (by decide) rfl
  have hfound : c.history (polls 4) = [.poll (.ok (some .connected)),
      .poll (.ok (some (.published ⟨⟨"a", by decide⟩, ⟨[0x68, 0x69], by decide⟩⟩))),
      .poll (.ok (some .disconnected)), .poll (.ok none)] := by cbv
  exact ⟨hc, hd, hfound, history_polls_eq hc hd rfl rfl 4⟩

end Client

end Mqtt

end EdgeDevice
