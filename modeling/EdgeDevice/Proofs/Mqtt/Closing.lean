import Mathlib
import EdgeDevice.Proofs.Mqtt.History

set_option autoImplicit false
set_option relaxedAutoImplicit false

/-!
# What becomes of connections

A client has one connection at a time, so nobody is left to close a connection once the next one is
opened, or once the client has none. A client closes its connection wherever it gives it up. But
when it asks for a session, the new connection is not yet its own while the request is written, and
is forgotten if that fails. Such a connection is never closed, whatever the client does later.

## Main definitions

* `EdgeDevice.LinkAct.Settled` — a connection is closed before the next one is opened, or it is the
  last one and still held.
* `EdgeDevice.LinkAct.NoneLost` — this is so for every connection.
* `EdgeDevice.Mqtt.Client.record` — what a client that is asked one thing after another does over
  its link.
* `EdgeDevice.Mqtt.Client.Passage` — how a call bears on the connection.

## Main results

* `EdgeDevice.Mqtt.Client.passage` — every call keeps the connection, closes it, or opens another
  one.
* `EdgeDevice.Mqtt.Client.Passage.sound_iff` — what one more call adds to what is lost.
* `EdgeDevice.Mqtt.Client.noneLost_iff` — when no connection is lost.
-/

namespace EdgeDevice

/-! ## Connections in a record -/

namespace LinkAct

/-- Whether a connection is opened. -/
def opens : LinkAct → Bool
  | dialled _ reached => reached
  | _ => false

/-- No connection is opened and none is closed. -/
def Calm (acts : List LinkAct) : Prop := ∀ a ∈ acts, a.opens = false ∧ a ≠ closed

/-- **What has to become of a connection**, as what is done after it was opened tells: it is closed
before another one is opened, or it is the last one and is `held`. -/
inductive Settled (held : Bool) : List LinkAct → Prop
  | atHand (h : held = true) : Settled held []
  | closed (acts : List LinkAct) : Settled held (.closed :: acts)
  | later {a : LinkAct} {acts : List LinkAct} (ha : a.opens = false) (h : Settled held acts) :
      Settled held (a :: acts)

/-- **No connection is lost**: every one that is opened is closed before the next one is opened, or
is the last one and is `held`. -/
def NoneLost (held : Bool) (acts : List LinkAct) : Prop :=
  ∀ front a rest, acts = front ++ a :: rest → a.opens = true → Settled held rest

variable {held : Bool} {acts more : List LinkAct}

/-- Reading opens and closes nothing. -/
theorem calm_of_onlyReads (h : OnlyReads acts) : Calm acts := by
  intro a ha
  have hread := h a ha
  cases a with
  | heard bs => exact ⟨rfl, nofun⟩
  | unheard e => exact ⟨rfl, nofun⟩
  | _ => cases hread

/-- Writing opens and closes nothing. -/
theorem calm_of_onlyWrites (h : OnlyWrites acts) : Calm acts := by
  intro a ha
  have hwrite := h a ha
  cases a with
  | wrote bs taken => exact ⟨rfl, nofun⟩
  | flushed done => exact ⟨rfl, nofun⟩
  | _ => cases hwrite

/-- An act that opens and closes nothing does not disturb the calm. -/
theorem calm_cons {a : LinkAct} (ha : a.opens = false ∧ a ≠ closed) (h : Calm acts) :
    Calm (a :: acts) := List.forall_mem_cons.2 ⟨ha, h⟩

/-- What has to become of a connection is settled by an act that closes it, or later. -/
theorem settled_cons_iff {a : LinkAct} :
    Settled held (a :: acts) ↔ a = closed ∨ a.opens = false ∧ Settled held acts := by
  constructor
  · intro h
    cases h with
    | closed => exact .inl rfl
    | later ha h => exact .inr ⟨ha, h⟩
  · rintro (rfl | ⟨ha, h⟩)
    · exact .closed acts
    · exact .later ha h

/-- While it is calm nothing is settled. -/
theorem Calm.settled_append_iff (h : Calm acts) :
    Settled held (acts ++ more) ↔ Settled held more := by
  induction acts with
  | nil => exact Iff.rfl
  | cons a acts ih =>
    obtain ⟨⟨ha, hne⟩, hacts⟩ := List.forall_mem_cons.1 h
    rw [List.cons_append, settled_cons_iff, or_iff_right hne, and_iff_right ha, ih hacts]

/-- No connection is lost if the one that is opened first is settled, and none is lost after
that. -/
theorem noneLost_cons_iff {a : LinkAct} :
    NoneLost held (a :: acts) ↔ (a.opens = true → Settled held acts) ∧ NoneLost held acts := by
  constructor
  · exact fun h => ⟨h [] a acts rfl, fun front b rest he => h (a :: front) b rest (he ▸ rfl)⟩
  · rintro ⟨ha, h⟩ front b rest he
    cases front with
    | nil =>
      obtain ⟨rfl, rfl⟩ := List.cons.inj he
      exact ha
    | cons _ front => exact h front b rest (List.cons.inj he).2

/-- Where none is opened none is lost. -/
theorem noneLost_append_iff (h : ∀ a ∈ acts, a.opens = false) :
    NoneLost held (acts ++ more) ↔ NoneLost held more := by
  induction acts with
  | nil => exact Iff.rfl
  | cons a acts ih =>
    obtain ⟨ha, hacts⟩ := List.forall_mem_cons.1 h
    rw [List.cons_append, noneLost_cons_iff, ih hacts]
    exact and_iff_right fun hopens => absurd (ha.symm.trans hopens) Bool.false_ne_true

end LinkAct

/-! ## Calls -/

namespace Mqtt

open LinkAct

/-- Whether a new connection is forgotten: it is open, but the request for a session cannot be
written. -/
def Deed.forgets : Deed → Bool
  | connect (.error .writeError) => true
  | _ => false

namespace Client

variable {τ : Type} [DialLink τ]

/-- Where the broker is reached the connection is held, or the request cannot be written and it is
not. -/
theorem connect_of_reaches {c : Client τ} (h : c.reaches = true) :
    c.connect.1 = .ok () ∧ c.connect.2.isOpen = true ∨
      c.connect.1 = .error .writeError ∧ c.connect.2.isOpen = false := by
  have hbroker : c.drop.broker = c.broker := rfl
  unfold reaches at h
  unfold connect
  dsimp only
  rw [hbroker]
  rcases hd : DialLink.dial c.drop.link c.broker.string with ⟨reached, t⟩
  rw [hd] at h
  obtain rfl : reached = true := h
  dsimp only
  rcases Link.writeAll t (Packet.connect c.drop.options) with ⟨_ | _, t'⟩
  · exact .inr ⟨rfl, rfl⟩
  · exact .inl ⟨rfl, rfl⟩

/-- Where the broker is not reached there is no connection. -/
theorem connect_of_not_reaches {c : Client τ} (h : c.reaches = false) :
    c.connect.1 = .error .connectionRefused ∧ c.connect.2.isOpen = false := by
  have hbroker : c.drop.broker = c.broker := rfl
  unfold reaches at h
  unfold connect
  dsimp only
  rw [hbroker]
  rcases hd : DialLink.dial c.drop.link c.broker.string with ⟨reached, t⟩
  rw [hd] at h
  obtain rfl : reached = false := h
  exact ⟨rfl, rfl⟩

/-- To ask for a session a client gives up its connection, opens another one and writes. -/
theorem acts_connect (c : Client τ) : ∃ writes, OnlyWrites writes ∧
    c.acts .connect = c.parting c.drop ++ .dialled c.broker.string c.reaches :: writes := by
  obtain ⟨more, ⟨writes, hw, rfl⟩, hm⟩ := c.agrees_connect []
  refine ⟨writes, hw, ?_⟩
  rw [acts, perform, hm]
  rfl

omit [DialLink τ] in
/-- A client that had a connection and has none any more has closed it. -/
theorem parting_of_left {c c' : Client τ} (ho : c.isOpen = true) (ho' : c'.isOpen = false) :
    c.parting c' = [.closed] := by
  rw [parting, ho, ho']
  rfl

/-- How a call bears on the connection of a client that was `c` and is `c'` then. -/
inductive Passage (c c' : Client τ) (d : Deed) (acts : List LinkAct) : Prop
  | keeps (ho : c'.isOpen = c.isOpen) (hacts : Calm acts) (hd : d.forgets = false)
  | leaves {front back : List LinkAct} (ho : c.isOpen = true) (ho' : c'.isOpen = false)
      (hacts : acts = front ++ .closed :: back) (hfront : Calm front) (hback : Calm back)
      (hd : d.forgets = false)
  | opens {address : String} {writes : List LinkAct}
      (hacts : acts = c.parting c.drop ++ .dialled address true :: writes) (hwrites : Calm writes)
      (hd : d.forgets = !c'.isOpen)

/-- Where a connection is closed last, or there is none, the call leaves it or keeps it. -/
theorem Passage.of_parting {c c' : Client τ} {d : Deed} {front back : List LinkAct}
    (ho : c'.isOpen = true → c.isOpen = true) (hfront : Calm front) (hback : Calm back)
    (hd : d.forgets = false) : Passage c c' d (front ++ c.parting c' ++ back) := by
  cases hc : c.isOpen with
  | false =>
    have hc' : c'.isOpen = false := by
      rw [← Bool.not_eq_true]
      exact fun h => Bool.false_ne_true (hc.symm.trans (ho h))
    rw [parting_of_isOpen_eq (hc'.trans hc.symm), List.append_nil]
    exact .keeps (hc'.trans hc.symm) (List.forall_mem_append.2 ⟨hfront, hback⟩) hd
  | true =>
    cases hc' : c'.isOpen with
    | false =>
      rw [parting_of_left hc hc', List.append_assoc]
      exact .leaves hc hc' rfl hfront hback hd
    | true =>
      rw [parting_of_isOpen_eq (hc'.trans hc.symm), List.append_nil]
      exact .keeps (hc'.trans hc.symm) (List.forall_mem_append.2 ⟨hfront, hback⟩) hd

/-- **How each call bears on the connection.** -/
theorem passage (c : Client τ) (call : Call) :
    Passage c (c.perform call).2 (c.perform call).1 (c.acts call) := by
  have hacts := (c.tapped_perform call).2
  have hnone : Calm [] := List.forall_mem_nil _
  cases call with
  | connect =>
    show Passage c c.connect.2 (.connect c.connect.1) (c.acts .connect)
    obtain ⟨writes, hw, hacts⟩ := c.acts_connect
    rw [hacts]
    cases hr : c.reaches with
    | false =>
      obtain ⟨he, ho⟩ := connect_of_not_reaches hr
      have hdrop : c.parting c.drop = c.parting c.connect.2 := by rw [parting, parting, ho]; rfl
      rw [hdrop, he, ← List.nil_append (c.parting _)]
      exact .of_parting (by simp [ho]) hnone (calm_cons ⟨rfl, nofun⟩ (calm_of_onlyWrites hw)) rfl
    | true =>
      refine .opens rfl (calm_of_onlyWrites hw) ?_
      rcases connect_of_reaches hr with ⟨he, ho⟩ | ⟨he, ho⟩
      · rw [he, ho]
        rfl
      · rw [he, ho]
        rfl
  | publish topic payload qos =>
    exact .keeps (c.publish_frame topic payload qos).2 (calm_of_onlyWrites hacts) rfl
  | ping => exact .keeps c.ping_frame.2 (calm_of_onlyWrites hacts) rfl
  | disconnect =>
    obtain ⟨writes, hw, hacts⟩ := hacts
    have hdrop : c.parting c.drop = c.parting c.disconnect := rfl
    rw [hacts, hdrop, ← List.append_nil (writes ++ _)]
    exact .of_parting nofun (calm_of_onlyWrites hw) hnone rfl
  | poll =>
    obtain ⟨reads, hreads, hacts⟩ := hacts
    rw [hacts, ← List.append_nil (reads ++ _)]
    refine .of_parting (fun ho => ?_) (calm_of_onlyReads hreads) hnone rfl
    by_contra hc
    rw [Bool.not_eq_true] at hc
    rw [perform, poll_of_not_isOpen hc] at ho
    exact Bool.false_ne_true (hc.symm.trans ho)

/-! ## Runs -/

/-- What a client that is asked one thing after another does over its link, the first act in
front. -/
def record (c : Client τ) : List (Errand τ) → List LinkAct
  | [] => []
  | e :: es => (c.upon e).acts e.call ++ ((c.upon e).perform e.call).2.record es

/-- No connection is lost, and the one that a client has before the acts is not lost either. -/
def Sound (c : Client τ) (held : Bool) (acts : List LinkAct) : Prop :=
  (c.isOpen = true → Settled held acts) ∧ NoneLost held acts

variable {c c' : Client τ} {d : Deed} {held : Bool} {acts more : List LinkAct}

/-- A call of a client without a connection settles nothing that is not settled later. -/
theorem Passage.not_settled (h : Passage c c' d acts) (ho : c.isOpen = false)
    (hmore : c'.isOpen = false → ¬ Settled held more) : ¬ Settled held (acts ++ more) := by
  cases h with
  | keeps ho' hacts hd =>
    rw [hacts.settled_append_iff]
    exact hmore (ho'.trans ho)
  | leaves ho' => exact absurd (ho.symm.trans ho') Bool.false_ne_true
  | opens hacts hwrites hd =>
    have hdrop : c.parting c.drop = [] := parting_of_isOpen_eq ho.symm
    rw [hacts, hdrop, List.nil_append, List.cons_append, settled_cons_iff]
    rintro (h | ⟨h, -⟩) <;> cases h

/-- **What one more call adds to what is lost**: nothing, unless a connection is forgotten. -/
theorem Passage.sound_iff (h : Passage c c' d acts)
    (hmore : c'.isOpen = false → ¬ Settled held more) :
    Sound c held (acts ++ more) ↔ d.forgets = false ∧ Sound c' held more := by
  cases h with
  | keeps ho hacts hd =>
    rw [Sound, hacts.settled_append_iff, noneLost_append_iff fun a ha => (hacts a ha).1, Sound, ho]
    exact (and_iff_right hd).symm
  | @leaves front back ho ho' hacts hfront hback hd =>
    have hsettled : Settled held (acts ++ more) := by
      rw [hacts, List.append_assoc, hfront.settled_append_iff]
      exact .closed _
    have hopens : ∀ a ∈ acts, a.opens = false := by
      rw [hacts]
      exact List.forall_mem_append.2 ⟨fun a ha => (hfront a ha).1,
        List.forall_mem_cons.2 ⟨rfl, fun a ha => (hback a ha).1⟩⟩
    rw [Sound, noneLost_append_iff hopens, Sound, ho']
    exact ⟨fun h => ⟨hd, nofun, h.2⟩, fun h => ⟨fun _ => hsettled, h.2.2⟩⟩
  | @opens address writes hacts hwrites hd =>
    have hparting : ∀ a ∈ c.parting c.drop, a.opens = false := by
      unfold parting
      split
      · exact List.forall_mem_singleton.2 rfl
      · exact List.forall_mem_nil _
    have hsettled : c.isOpen = true → Settled held (acts ++ more) := fun ho => by
      rw [hacts, parting_of_left ho rfl]
      exact .closed _
    have hlost : NoneLost held (acts ++ more) ↔ Settled held more ∧ NoneLost held more := by
      rw [hacts, List.append_assoc, noneLost_append_iff hparting, List.cons_append,
        noneLost_cons_iff, hwrites.settled_append_iff,
        noneLost_append_iff fun a ha => (hwrites a ha).1]
      exact and_congr_left' ⟨fun h => h rfl, fun h _ => h⟩
    rw [Sound, and_iff_right hsettled, hlost, hd, Sound]
    cases ho' : c'.isOpen with
    | false => exact ⟨fun h => absurd h.1 (hmore ho'), fun h => absurd h.1 (by decide)⟩
    | true => exact ⟨fun h => ⟨rfl, fun _ => h.1, h.2⟩, fun h => ⟨h.2.1 rfl, h.2.2⟩⟩

/-- A client without a connection closes none before it has opened another one. -/
theorem not_settled_record (ho : c.isOpen = false) (es : List (Errand τ)) :
    ¬ Settled (c.run es).isOpen (c.record es) := by
  induction es generalizing c with
  | nil =>
    rintro ⟨h⟩
    exact Bool.false_ne_true (ho.symm.trans h)
  | cons e es ih =>
    have hupon : (c.upon e).isOpen = false := ho
    exact ((c.upon e).passage e.call).not_settled hupon ih

/-- What is lost in a run, with the connection that the client has before. -/
theorem sound_run_iff (c : Client τ) (es : List (Errand τ)) :
    Sound c (c.run es).isOpen (c.record es) ↔ ∀ d ∈ c.history es, d.forgets = false := by
  induction es generalizing c with
  | nil => exact iff_of_true ⟨.atHand, by simp [NoneLost, record]⟩ (List.forall_mem_nil _)
  | cons e es ih =>
    rw [history, List.forall_mem_cons, ← ih]
    exact ((c.upon e).passage e.call).sound_iff fun ho => not_settled_record ho es

/-- **When no connection is lost**, however the link behaves: as long as the client never opens a
connection without being able to write its request. -/
theorem noneLost_iff {link : τ} {broker : String} {options : Options}
    (hc : Client.of link broker options = .ok c) (es : List (Errand τ)) :
    NoneLost (c.run es).isOpen (c.record es) ↔ ∀ d ∈ c.history es, d.forgets = false := by
  have ho : c.isOpen = false := by
    unfold Client.of at hc
    split at hc
    · obtain rfl := Except.ok.inj hc
      rfl
    · cases hc
  rw [← sound_run_iff, Sound, ho]
  exact (and_iff_right nofun).symm

/-- A conversation with setbacks: the broker cannot be reached, then the connection is lost, and
after two more attempts the farewell cannot be written. -/
def setbacks : List (Errand Wire) :=
  [{ meanwhile := fun w => { w with refuses := true }, call := .connect },
    { meanwhile := fun w => { w with refuses := false }, call := .connect },
    { meanwhile := fun w => { w with inbound := [.failure .connectionClosed] }, call := .poll },
    { call := .connect }, { call := .connect },
    { meanwhile := fun w => { w with inbound := [.chunk [0x20, 2, 0, 0]] }, call := .poll },
    { meanwhile := fun w => { w with flushFails := true }, call := .disconnect },
    { meanwhile := fun w => { w with flushFails := false }, call := .connect }]

/-- All four connections of the conversation are accounted for. -/
theorem noneLost_setbacks :
    let options : Options := ⟨⟨"scale", by decide⟩, 60, true⟩
    let c : Client Wire := ⟨{}, ⟨"[fd00::1]:1883", by decide⟩, options, false, .idle⟩
    Client.of ({} : Wire) "[fd00::1]:1883" options = .ok c ∧
      (c.record setbacks).countP LinkAct.opens = 4 ∧
      (∀ d ∈ c.history setbacks, d.forgets = false) ∧
      NoneLost (c.run setbacks).isOpen (c.record setbacks) := by
  intro options c
  have hc : Client.of ({} : Wire) "[fd00::1]:1883" options = .ok c := rfl
  have hnone : (c.history setbacks).any Deed.forgets = false := by cbv
  have hall : ∀ d ∈ c.history setbacks, d.forgets = false := by
    intro d hd
    rw [List.any_eq_false] at hnone
    exact Bool.eq_false_iff.2 (hnone d hd)
  exact ⟨hc, by cbv, hall, (noneLost_iff hc setbacks).2 hall⟩

/-- A request for a session that cannot be written leaves a connection that nobody closes. -/
theorem not_noneLost_unwritten :
    let c : Client Wire := ⟨{ writesLeft := some 0 }, ⟨"[fd00::1]:1883", by decide⟩,
      ⟨⟨"scale", by decide⟩, 60, true⟩, false, .idle⟩
    c.record [{ call := .connect }] = [.dialled "[fd00::1]:1883" true, .wrote [0x10, 17] false] ∧
      (c.run [{ call := .connect }]).isOpen = false ∧
      ¬ NoneLost (c.run [{ call := .connect }]).isOpen (c.record [{ call := .connect }]) := by
  intro c
  have hrecord : c.record [{ call := .connect }] =
      [.dialled "[fd00::1]:1883" true, .wrote [0x10, 17] false] := by cbv
  have ho : (c.run [{ call := .connect }]).isOpen = false := by cbv
  refine ⟨hrecord, ho, fun h => ?_⟩
  have hsettled := h [] _ _ hrecord rfl
  rw [ho, settled_cons_iff] at hsettled
  rcases hsettled with hclosed | ⟨-, hend⟩
  · cases hclosed
  · cases hend
    contradiction

end Client

end Mqtt

end EdgeDevice
