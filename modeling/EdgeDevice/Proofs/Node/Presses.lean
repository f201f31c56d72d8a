import EdgeDevice.Proofs.Node.Rest
import EdgeDevice.Proofs.Session.Record
import EdgeDevice.Simulation.Counterpart
import Mathlib.Data.List.Forall2
import Mathlib.Data.Nat.Find

set_option autoImplicit false
set_option relaxedAutoImplicit false

/-!
# A press means one thing

A press is a row of seconds, in each of which the device may or may not be connected, and an end.
It asks to connect again in the first second that is late enough and finds the device not connected,
and only then; at its end it asks for the next period if it was short. It never does both, because
no second of a short press is late enough, and it leaves nothing behind for the press that follows.
The count of seconds stops at the largest number of 32 bits, which no threshold exceeds.

A node sees the same seconds and ends among other events. So the period it has chosen is counted by
the short presses that it has dealt with, whatever became of its session in between.

## Main definitions

* `EdgeDevice.Button.press`, `EdgeDevice.Button.presses` — what presses ask for.
* `EdgeDevice.Button.Counts`, `EdgeDevice.Button.IsFirst` — a second of a press is late enough and
  finds the device not connected, and it is the first one that does.
* `EdgeDevice.Button.Means` — a press means one thing.
* `EdgeDevice.PressTally` — the presses that events tell of.

## Main results

* `EdgeDevice.Button.After.hold` — one more second of a press.
* `EdgeDevice.Button.means_press` — a press means one thing and leaves nothing behind.
* `EdgeDevice.Node.tallied_invariant` — no step of a run miscounts the presses.
* `EdgeDevice.Node.presses_run` — a press means one thing, and the short ones choose the period.
-/

namespace EdgeDevice

/-! ## One press -/

namespace Button

/-- What a button asks for in the seconds of a press, and the button behind them. In each second the
device is not connected, or it is. -/
def holdAll (b : Button) : List Bool → List (Option ButtonAction) × Button
  | [] => ([], b)
  | flag :: flags =>
    let (action, b) := b.hold flag
    let (actions, b) := b.holdAll flags
    (action :: actions, b)

/-- What a press asks for in its seconds and at its end. -/
structure Answers where
  held : List (Option ButtonAction)
  released : Option ButtonAction

/-- What a press asks for, and the button behind it. -/
def press (b : Button) (flags : List Bool) : Answers × Button :=
  let (held, b) := b.holdAll flags
  let (released, b) := b.release
  (⟨held, released⟩, b)

/-- What a row of presses asks for, and the button behind them. -/
def presses (b : Button) : List (List Bool) → List Answers × Button
  | [] => ([], b)
  | flags :: rest =>
    let (answers, b) := b.press flags
    let (more, b) := b.presses rest
    (answers :: more, b)

/-- A second of a press is late enough and finds the device not connected. The first second has the
number `0`. -/
def Counts (threshold : Nat) (flags : List Bool) (i : Nat) : Prop :=
  threshold ≤ i + 1 ∧ flags[i]? = some true

/-- The first second of a press that counts. -/
def IsFirst (threshold : Nat) (flags : List Bool) (i : Nat) : Prop :=
  Counts threshold flags i ∧ ∀ j < i, ¬Counts threshold flags j

/-- **A press means one thing.** It asks to connect again in the first second that is late enough
and finds the device not connected, exactly once if there is such a second and never otherwise; at
its end it asks for the next period if it was short, and says how long it was. It does not do
both. -/
structure Means (threshold : Nat) (flags : List Bool) (answers : Answers) : Prop where
  length : answers.held.length = flags.length
  held : ∀ i action, answers.held[i]? = some (some action) ↔
    action = .reconnect ∧ IsFirst threshold flags i
  once : (∃ i, Counts threshold flags i) →
    ∃! i : Nat, answers.held[i]? = some (some ButtonAction.reconnect)
  released : answers.released =
    if flags.length < threshold then some (.nextPeriod flags.length) else none
  one : answers.released = none ∨ ∀ action ∈ answers.held, action = none

section

variable {threshold : Nat} {flags : List Bool} {i : Nat}

/-- A second that counts is one of the press. -/
theorem Counts.lt_length (h : Counts threshold flags i) : i < flags.length :=
  (List.getElem?_eq_some_iff.1 h.2).1

/-- Whether a second counts does not depend on the seconds after it. -/
theorem counts_append {more : List Bool} (hi : i < flags.length) :
    Counts threshold (flags ++ more) i ↔ Counts threshold flags i := by
  rw [Counts, Counts, List.getElem?_append_left hi]

/-- The second that follows counts if it is late enough and finds the device not connected. -/
theorem counts_length {flag : Bool} {more : List Bool} :
    Counts threshold (flags ++ flag :: more) flags.length ↔
      threshold ≤ flags.length + 1 ∧ flag = true := by
  simp [Counts]

/-- A longer press has the seconds that counted before, and maybe the last one. -/
theorem counts_concat {flag : Bool} :
    Counts threshold (flags ++ [flag]) i ↔
      Counts threshold flags i ∨
        i = flags.length ∧ threshold ≤ flags.length + 1 ∧ flag = true := by
  rcases Nat.lt_trichotomy i flags.length with hi | rfl | hi
  · simp [counts_append hi, Nat.ne_of_lt hi]
  · rw [counts_length]
    exact ⟨fun h => .inr ⟨rfl, h⟩, fun h =>
      h.elim (fun hc => absurd hc.lt_length (Nat.lt_irrefl _)) fun hc => hc.2⟩
  · refine ⟨fun h => ?_, fun h => ?_⟩
    · have := h.lt_length
      simp only [List.length_append, List.length_singleton] at this
      omega
    · rcases h with h | ⟨rfl, -⟩
      · exact absurd h.lt_length (Nat.lt_asymm hi)
      · exact absurd hi (Nat.lt_irrefl _)

/-- A second counts for the first time if it counts and nothing before it did. -/
theorem isFirst_length {flag : Bool} {more : List Bool} :
    IsFirst threshold (flags ++ flag :: more) flags.length ↔
      (threshold ≤ flags.length + 1 ∧ flag = true) ∧ ¬∃ j, Counts threshold flags j := by
  rw [IsFirst, counts_length]
  refine and_congr_right fun _ => ⟨?_, ?_⟩
  · rintro h ⟨j, hj⟩
    exact h j hj.lt_length ((counts_append hj.lt_length).2 hj)
  · intro h j hj hc
    exact h ⟨j, (counts_append hj).1 hc⟩

/-- There is one first second at most. -/
theorem IsFirst.eq {j : Nat} (hi : IsFirst threshold flags i) (hj : IsFirst threshold flags j) :
    i = j := by
  rcases Nat.lt_trichotomy i j with h | h | h
  · exact absurd hi.1 (hj.2 i h)
  · exact h
  · exact absurd hj.1 (hi.2 j h)

/-- Among the seconds that count one is the first. -/
theorem exists_isFirst (h : ∃ i, Counts threshold flags i) : ∃ i, IsFirst threshold flags i := by
  classical
  exact ⟨Nat.find h, Nat.find_spec h, fun j hj => Nat.find_min h hj⟩

/-- In a short press no second is late enough. -/
theorem not_counts_of_short (h : flags.length < threshold) : ¬Counts threshold flags i := by
  intro hc
  have := hc.lt_length
  have := hc.1
  omega

/-! ## The seconds of a press -/

/-- What a button knows of the seconds of a press so far. -/
structure After (threshold : Nat) (flags : List Bool) (b : Button) : Prop where
  threshold_eq : b.threshold = threshold
  elapsed_eq : b.elapsed = min flags.length maxElapsed
  fired_iff : b.fired = true ↔ ∃ i, Counts threshold flags i

/-- Before the first second of a press nothing has been counted. -/
theorem after_nil (threshold : Nat) : After threshold [] { threshold := threshold } :=
  ⟨rfl, rfl, by simp [Counts]⟩

variable {b : Button}

/-- **One more second of a press** asks to connect again exactly if it is the first one that
counts. -/
theorem After.hold (h : After threshold flags b) (ht : threshold ≤ maxElapsed) (flag : Bool)
    (more : List Bool) :
    After threshold (flags ++ [flag]) (b.hold flag).2 ∧
      ∀ action, (b.hold flag).1 = some action ↔
        action = .reconnect ∧ IsFirst threshold (flags ++ flag :: more) flags.length := by
  have hlate : b.threshold ≤ min (b.elapsed + 1) maxElapsed ↔ threshold ≤ flags.length + 1 := by
    rw [h.threshold_eq, h.elapsed_eq]
    omega
  have helapsed : min (b.elapsed + 1) maxElapsed = min (flags ++ [flag]).length maxElapsed := by
    rw [h.elapsed_eq, List.length_append, List.length_singleton]
    omega
  have hfired : (∃ i, Counts threshold (flags ++ [flag]) i) ↔
      b.fired = true ∨ threshold ≤ flags.length + 1 ∧ flag = true := by
    simp only [counts_concat, exists_or, exists_eq_left, h.fired_iff]
  rw [Button.hold]
  simp only [hlate]
  split
  · rename_i hc
    refine ⟨⟨h.threshold_eq, helapsed, iff_of_true rfl (hfired.2 (.inr ⟨hc.1, hc.2.1⟩))⟩,
      fun action => ?_⟩
    rw [isFirst_length, ← h.fired_iff]
    simp [hc.1, hc.2.1, hc.2.2, eq_comm]
  · rename_i hc
    refine ⟨⟨h.threshold_eq, helapsed, ?_⟩, fun action => ?_⟩
    · rw [hfired]
      exact ⟨.inl, fun hf => hf.elim id fun ⟨hl, hf⟩ => by_contra fun hn => hc ⟨hl, hf, hn⟩⟩
    · rw [isFirst_length, ← h.fired_iff]
      simp only [reduceCtorEq, false_iff]
      exact fun ⟨_, ⟨hl, hf⟩, hn⟩ => hc ⟨hl, hf, hn⟩

/-- The seconds of a press that is under way. -/
theorem After.holdAll (h : After threshold flags b) (ht : threshold ≤ maxElapsed)
    (more : List Bool) :
    After threshold (flags ++ more) (b.holdAll more).2 ∧
      (b.holdAll more).1.length = more.length ∧
      ∀ i action, (b.holdAll more).1[i]? = some (some action) ↔
        action = .reconnect ∧ IsFirst threshold (flags ++ more) (flags.length + i) := by
  -- On the seconds to come; every step moves one of them behind those that are over.
  induction more generalizing flags b with
  | nil =>
    refine ⟨by simpa [Button.holdAll] using h, rfl, fun i action => ?_⟩
    simp only [Button.holdAll, List.getElem?_nil, reduceCtorEq, List.append_nil, false_iff]
    intro hf
    have := hf.2.1.lt_length
    omega
  | cons flag more ih =>
    obtain ⟨hafter, hanswer⟩ := h.hold ht flag more
    obtain ⟨hend, hlength, hheld⟩ := ih hafter
    rw [List.append_assoc, List.singleton_append] at hend hheld
    refine ⟨hend, congrArg (· + 1) hlength, fun i action => ?_⟩
    cases i with
    | zero => simpa [Button.holdAll] using hanswer action
    | succ i =>
      have := hheld i action
      rwa [List.length_append, List.length_singleton, Nat.add_assoc, Nat.add_comm 1 i] at this

/-- A second of a press does not move the threshold. -/
theorem threshold_hold (b : Button) (flag : Bool) : (b.hold flag).2.threshold = b.threshold := by
  unfold Button.hold
  dsimp only
  split <;> rfl

/-- A second of a press is counted, up to what the counter holds. -/
theorem elapsed_hold (b : Button) (flag : Bool) :
    (b.hold flag).2.elapsed = min (b.elapsed + 1) maxElapsed := by
  unfold Button.hold
  dsimp only
  split <;> rfl

/-- The end of a press. -/
theorem After.release (h : After threshold flags b) (ht : threshold ≤ maxElapsed) :
    b.release = (if flags.length < threshold then some (.nextPeriod flags.length) else none,
      { threshold := threshold }) := by
  rw [Button.release, h.threshold_eq, h.elapsed_eq]
  by_cases hs : flags.length < threshold
  · have he : min flags.length maxElapsed = flags.length := by omega
    rw [he, if_pos hs]
  · rw [if_neg hs, if_neg (by omega)]

/-- **A press means one thing** and leaves nothing behind. -/
theorem means_press (ht : threshold ≤ maxElapsed) (flags : List Bool) :
    Means threshold flags (press { threshold := threshold } flags).1 ∧
      (press { threshold := threshold } flags).2 = { threshold := threshold } := by
  obtain ⟨hend, hlength, hheld⟩ := (after_nil threshold).holdAll ht flags
  simp only [List.nil_append, List.length_nil, Nat.zero_add] at hend hheld
  have hrelease := hend.release ht
  rw [press]
  refine ⟨⟨hlength, hheld, fun hc => ?_, congrArg Prod.fst hrelease, ?_⟩,
    congrArg Prod.snd hrelease⟩
  · obtain ⟨i, hi⟩ := exists_isFirst hc
    exact ⟨i, (hheld i _).2 ⟨rfl, hi⟩, fun j hj => ((hheld j _).1 hj).2.eq hi⟩
  · by_cases hs : flags.length < threshold
    · refine .inr fun action hm => ?_
      obtain ⟨i, hi⟩ := List.mem_iff_getElem?.1 hm
      rcases action with _ | action
      · rfl
      · exact absurd ((hheld i action).1 hi).2.1 (not_counts_of_short hs)
    · exact .inl ((congrArg Prod.fst hrelease).trans (if_neg hs))

/-- So does every press of a row. -/
theorem means_presses (ht : threshold ≤ maxElapsed) (rows : List (List Bool)) :
    List.Forall₂ (Means threshold) rows (presses { threshold := threshold } rows).1 ∧
      (presses { threshold := threshold } rows).2 = { threshold := threshold } := by
  induction rows with
  | nil => exact ⟨.nil, rfl⟩
  | cons flags rows ih =>
    obtain ⟨hmeans, hnew⟩ := means_press ht flags
    rw [presses]
    simp only [hnew]
    exact ⟨.cons hmeans ih.1, ih.2⟩

end

end Button

/-! ## The presses that events tell of -/

/-- The presses that events tell of: how many seconds each one lasted, and how many seconds the one
under way has lasted so far. -/
structure PressTally where
  lengths : List Nat := []
  underway : Nat := 0

namespace PressTally

/-- The tally after one more event. -/
def add (p : PressTally) : NodeEvent → PressTally
  | .buttonHeld => { p with underway := p.underway + 1 }
  | .buttonReleased => { lengths := p.lengths ++ [p.underway] }
  | _ => p

/-- The presses that events tell of. -/
def ofEvents (events : List NodeEvent) : PressTally := events.foldl add {}

/-- One more event is added to the presses that were told of before. -/
theorem ofEvents_concat (events : List NodeEvent) (e : NodeEvent) :
    ofEvents (events ++ [e]) = (ofEvents events).add e := by
  simp [ofEvents]

/-- How many of the presses were short. -/
def short (p : PressTally) (threshold : Nat) : Nat := p.lengths.countP (· < threshold)

/-- The end of a press adds a short one, if it took fewer seconds than the threshold. -/
theorem short_released (p : PressTally) (threshold : Nat) :
    (p.add .buttonReleased).short threshold =
      p.short threshold + if p.underway < threshold then 1 else 0 := by
  simp [short, add, List.countP_cons]

end PressTally

/-- To choose the next period is to go to the next index, and from the last one to the first. -/
theorem PeriodDial.turn_eq {d : PeriodDial} (h : d.values ≠ []) :
    d.turn = { d with index := (d.index + 1) % d.values.length } := by
  rw [turn, if_neg (by simpa using h)]

namespace Node

section

variable [RandomSource] {σ : Type} [Channel σ]

/-- What a reaction does to the button and to the chosen period: a second of a press is counted, the
end of a short press chooses the next period, and nothing else matters to them. -/
def HeedsButton (n n' : Node σ) : NodeEvent → Prop
  | .buttonHeld =>
    n'.button = (n.button.hold (n.state == .notConnected)).2 ∧ n'.dial = n.dial
  | .buttonReleased =>
    n'.button = n.button.release.2 ∧
      n'.dial = if n.button.elapsed < n.button.threshold then n.dial.turn else n.dial
  | _ => n'.button = n.button ∧ n'.dial = n.dial

/-- Every reaction heeds the button. -/
theorem Reaction.heedsButton {net : Connectivity} {n n' : Node σ} {e : NodeEvent}
    (h : Reaction net n e n') : n.HeedsButton n' e := by
  cases h with
  | stale h => cases e <;> first | exact h.elim | exact ⟨rfl, rfl⟩
  | reconnected hs _ => simp [HeedsButton, value_beginConnecting, cancel, hs]
  | released h => simp [HeedsButton, Nat.not_lt.2 h]
  | pressed h _ => simp [HeedsButton, h, arm, cancel]
  | chosen h _ => simp [HeedsButton, h]
  | _ => simp [HeedsButton, value_dropSession, frame_conclude, arm, cancel, located]

/-- The button knows how long the press under way has lasted, and the short presses have chosen the
period. -/
structure Tallied (threshold : Nat) (values : List Nat) (p : PressTally) (n : Node σ) : Prop where
  threshold_eq : n.button.threshold = threshold
  elapsed_eq : n.button.elapsed = min p.underway Button.maxElapsed
  values_eq : n.dial.values = values
  index_eq : n.dial.index = p.short threshold % values.length

variable {threshold : Nat} {values : List Nat} {p : PressTally}

omit [Channel σ] in
/-- The account of the presses is a matter of the button and of the chosen period. -/
theorem Tallied.of_eq {n n' : Node σ} (h : Tallied threshold values p n)
    (hb : n'.button = n.button) (hd : n'.dial = n.dial) : Tallied threshold values p n' :=
  ⟨hb ▸ h.threshold_eq, hb ▸ h.elapsed_eq, hd ▸ h.values_eq, hd ▸ h.index_eq⟩

omit [Channel σ] in
/-- The button tells short presses from long ones, also where its count has stopped. -/
theorem Tallied.short_iff {n : Node σ} (h : Tallied threshold values p n)
    (ht : threshold ≤ Button.maxElapsed) :
    n.button.elapsed < n.button.threshold ↔ p.underway < threshold := by
  rw [h.elapsed_eq, h.threshold_eq]
  omega

/-- Dealing with an event counts it. -/
theorem Tallied.reaction (ht : threshold ≤ Button.maxElapsed) (hv : values ≠ [])
    {net : Connectivity} {n n' : Node σ} {e : NodeEvent} (h : Tallied threshold values p n)
    (hr : Reaction net n e n') : Tallied threshold values (p.add e) n' := by
  have hn := hr.heedsButton
  cases e with
  | buttonHeld =>
    obtain ⟨hb, hd⟩ := hn
    refine ⟨?_, ?_, hd ▸ h.values_eq, hd ▸ h.index_eq⟩
    · rw [hb, Button.threshold_hold, h.threshold_eq]
    · rw [hb, Button.elapsed_hold, h.elapsed_eq]
      show _ = min (p.underway + 1) Button.maxElapsed
      omega
  | buttonReleased =>
    obtain ⟨hb, hd⟩ := hn
    simp only [h.short_iff ht, PeriodDial.turn_eq (h.values_eq ▸ hv)] at hd
    refine ⟨hb ▸ h.threshold_eq, hb ▸ rfl, ?_, ?_⟩
    · rw [hd]
      split <;> exact h.values_eq
    · rw [hd, PressTally.short_released]
      split
      · simp only [h.index_eq, h.values_eq, Nat.mod_add_mod]
      · exact h.index_eq
  | timer id => exact h.of_eq hn.1 hn.2
  | session change => exact h.of_eq hn.1 hn.2

/-- **No step of a run miscounts the presses.** -/
theorem tallied_invariant (ht : threshold ≤ Button.maxElapsed) (hv : values ≠ []) :
    Invariant (fun _ _ => True) fun (h : List (Turn σ)) n =>
      Tallied threshold values (.ofEvents (h.map Turn.event)) n ∧
        ∀ before t after, h = before ++ t :: after →
          Tallied threshold values (.ofEvents (before.map Turn.event)) t.node where
  take h hi := ⟨by cases hi <;> exact h.1.of_eq rfl rfl, h.2⟩
  turn {_ t _} h _ := by
    have hn : Tallied threshold values _ t.node := h.1.of_eq rfl rfl
    refine ⟨?_, forall_split_concat h.2 hn⟩
    rw [List.map_append, List.map_singleton, PressTally.ofEvents_concat]
    exact hn.reaction ht hv t.reaction
  post _ h _ := ⟨h.1.of_eq rfl rfl, h.2⟩
  command _ _ h := ⟨h.1.of_eq rfl rfl, h.2⟩
  outside h _ := ⟨h.1.of_eq rfl rfl, h.2⟩
  tick _ h := ⟨h.1.of_eq rfl rfl, h.2⟩

/-- The same of whatever comes to a node. -/
theorem tallied_inputs [Json.Writer] {identity : Identity} {channel : σ}
    {settings : NodeSettings} {n : Node σ} (hn : create identity channel settings = .ok n)
    (ht : settings.buttonSeconds ≤ Button.maxElapsed) (is : List (Input σ)) :
    Tallied settings.buttonSeconds identity.kind.periods
        (.ofEvents ((n.chronicle is).map Turn.event)) (n.inputs is) ∧
      ∀ before t after, n.chronicle is = before ++ t :: after →
        Tallied settings.buttonSeconds identity.kind.periods
          (.ofEvents (before.map Turn.event)) t.node := by
  have hfirst : Tallied settings.buttonSeconds identity.kind.periods {} n := by
    obtain ⟨-, rfl⟩ := create_eq_ok_iff.1 hn
    exact ⟨rfl, rfl, rfl, (Nat.zero_mod _).symm⟩
  have hnil : ∀ (before : List (Turn σ)) (t : Turn σ) (after : List (Turn σ)),
      [] = before ++ t :: after →
        Tallied settings.buttonSeconds identity.kind.periods
          (.ofEvents (before.map Turn.event)) t.node :=
    fun before t after h => absurd h (by simp)
  have hR := (tallied_invariant (σ := σ) ht identity.kind.periods_ne_nil).robust
    (S := fun _ _ => True)
    (fun now h => ⟨h.1.of_eq (by rw [value_start]) (by rw [value_start]), h.2⟩)
    fun _ h _ => ⟨h.1.of_eq rfl rfl, h.2⟩
  exact hR.inputs (h := []) ⟨hfirst, hnil⟩ fun i _ => i.keeps_true

/-- **A press means one thing, and the short ones choose the period.** Every press of a row asks to
connect again in the first second that is late enough and finds the device not connected, exactly
once if there is such a second and never otherwise, and for the next period at its end if it was
short; it leaves the button as it was. Whatever comes to a node, in front of every turn and at the
end, the position of the chosen period is the number of the short presses dealt with so far, modulo
the number of periods. -/
theorem presses_run [Json.Writer] (ht : threshold ≤ Button.maxElapsed) :
    (∀ rows, List.Forall₂ (Button.Means threshold) rows
        (Button.presses { threshold := threshold } rows).1 ∧
      (Button.presses { threshold := threshold } rows).2 = { threshold := threshold }) ∧
    ∀ (identity : Identity) (channel : σ) (settings : NodeSettings) (n : Node σ),
      settings.buttonSeconds = threshold → create identity channel settings = .ok n →
      ∀ is : List (Input σ),
        (n.inputs is).dial.index =
          (PressTally.ofEvents ((n.chronicle is).map Turn.event)).short threshold %
            identity.kind.periods.length ∧
        ∀ before t after, n.chronicle is = before ++ t :: after →
          t.node.dial.index =
            (PressTally.ofEvents (before.map Turn.event)).short threshold %
              identity.kind.periods.length := by
  refine ⟨Button.means_presses ht, ?_⟩
  rintro identity channel settings n rfl hn is
  obtain ⟨hend, hturn⟩ := tallied_inputs hn ht is
  exact ⟨hend.index_eq, fun before t after h => (hturn before t after h).index_eq⟩

end

/-- The button of a thermostat is pressed for one second. -/
def pressedOnce : List (Input ScriptedChannel) :=
  [.start .start, .post .buttonHeld, .post .buttonReleased,
    .call (.poll (.ofSeconds 10) fun _ => ⟨true, none⟩)]

/-- A press of five seconds during which the connection comes and goes, and a press of one second,
which chooses the next period. -/
theorem presses_run_thermostat :
    3 ≤ Button.maxElapsed ∧
      List.Forall₂ (Button.Means 3) [[true, false, false, true, true]]
        (Button.presses { threshold := 3 } [[true, false, false, true, true]]).1 ∧
      ∃ n : Node ScriptedChannel, create thermostat {} {} = .ok n ∧
        (n.inputs pressedOnce).dial.index = 1 := by
  have ht : 3 ≤ Button.maxElapsed := by decide
  obtain ⟨n, hn⟩ : ∃ n : Node ScriptedChannel, create thermostat {} {} = .ok n := ⟨_, rfl⟩
  refine ⟨ht, ((presses_run (σ := ScriptedChannel) ht).1 _).1, n, hn, ?_⟩
  have h := ((presses_run ht).2 thermostat {} {} n rfl hn pressedOnce).1
  obtain rfl := Except.ok.inj hn
  rw [h]
  decide +kernel

end Node

end EdgeDevice
