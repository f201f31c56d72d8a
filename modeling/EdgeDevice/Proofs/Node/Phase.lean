import EdgeDevice.Proofs.Node.Reaction

set_option autoImplicit false
set_option relaxedAutoImplicit false

/-!
# The phases of a session

Seen from the node a session is not there, asked for, or granted. A change of the session takes one
phase to another, whatever else goes on in the node.

## Main definitions

* `EdgeDevice.SessionPhase`, `EdgeDevice.Node.phase` — how far a session has come.
* `EdgeDevice.SessionPhase.settle` — what a change makes of a phase.

## Main results

* `EdgeDevice.Node.Reaction.connecting_of_awaiting` — a session is waited for only while the node
  connects.
* `EdgeDevice.Node.Reaction.phase_of_session` — dealing with a change settles the phase.
-/

namespace EdgeDevice

/-- How far a session has come. -/
inductive SessionPhase where
  /-- There is no session, and none was asked for. -/
  | closed
  /-- A session was asked for; the answer is not there. -/
  | asked
  /-- The session was accepted. -/
  | granted
  deriving DecidableEq

namespace SessionPhase

/-- What a change makes of a phase. Without a session there is nothing to change. -/
def settle : SessionPhase → SessionChange → SessionPhase
  | closed, _ => closed
  | _, .connected => granted
  | _, .disconnected => closed

/-- Where there is no session a change means nothing. -/
@[simp] theorem settle_closed (change : SessionChange) : closed.settle change = closed := rfl

/-- A session that is granted again stays granted. -/
@[simp] theorem settle_granted_connected : granted.settle .connected = granted := rfl

/-- Where there is no session no row of changes makes one. -/
@[simp] theorem foldl_settle_closed (changes : List SessionChange) :
    changes.foldl settle closed = closed := by
  induction changes with
  | nil => rfl
  | cons change changes ih => exact ih

/-- A session that was asked for is granted by the change that says so. -/
theorem settle_connected {ph : SessionPhase} (h : ph ≠ closed) :
    ph.settle .connected = granted := by
  cases ph with
  | closed => exact absurd rfl h
  | asked => rfl
  | granted => rfl

/-- A session that is lost is over. -/
theorem settle_disconnected (ph : SessionPhase) : ph.settle .disconnected = closed := by
  cases ph <;> rfl

end SessionPhase

namespace Node

variable [RandomSource] {σ : Type}

/-- How far the session of a node has come. -/
def phase (n : Node σ) : SessionPhase :=
  if n.state = .connected then .granted else if n.awaiting then .asked else .closed

/-- A node that is connected has been granted its session. -/
theorem phase_of_connected {n : Node σ} (hs : n.state = .connected) : n.phase = .granted :=
  if_pos hs

/-- A node that waits for its session has asked for it. -/
theorem phase_of_awaiting {n : Node σ} (hs : n.state ≠ .connected) (hw : n.awaiting = true) :
    n.phase = .asked := by
  rw [phase, if_neg hs, if_pos hw]

/-- A node that is not connected and does not wait has no session. -/
theorem phase_of_idle {n : Node σ} (hs : n.state ≠ .connected) (hw : n.awaiting = false) :
    n.phase = .closed := by
  rw [phase, if_neg hs, if_neg (by simp [hw])]

/-- Exactly a node that is connected has been granted a session. -/
theorem phase_eq_granted_iff {n : Node σ} : n.phase = .granted ↔ n.state = .connected := by
  unfold phase
  split
  · simp_all
  · split <;> simp_all

/-- Exactly a node that is not connected and waits has asked for a session. -/
theorem phase_eq_asked_iff {n : Node σ} :
    n.phase = .asked ↔ n.state ≠ .connected ∧ n.awaiting = true := by
  unfold phase
  split
  · simp_all
  · split <;> simp_all

/-- The phase is a matter of the state and of the wait for the session. -/
theorem phase_congr {n n' : Node σ} (hs : n'.state = n.state) (hw : n'.awaiting = n.awaiting) :
    n'.phase = n.phase := by
  rw [phase, phase, hs, hw]

/-- A node that does not connect waits for no session. -/
theorem awaiting_of_ne_connecting {n : Node σ} (hn : n.awaiting = true → n.state = .connecting)
    (hs : n.state ≠ .connecting) : n.awaiting = false :=
  Bool.eq_false_iff.2 fun hw => hs (hn hw)

variable [Channel σ]

/-- A session is waited for only while the node connects. -/
theorem Reaction.connecting_of_awaiting {net : Connectivity} {n n' : Node σ} {e : NodeEvent}
    (h : Reaction net n e n') (hn : n.awaiting = true → n.state = .connecting) :
    n'.awaiting = true → n'.state = .connecting := by
  have hconc : ∀ (m : Node σ) (o : Outcome), m.awaiting = false →
      (m.conclude o).value.awaiting = true → (m.conclude o).value.state = .connecting := by
    intro m o hm hw
    simp [awaiting_conclude m o hm] at hw
  have hwait := awaiting_of_ne_connecting hn
  cases h with
  | stale => exact hn
  | unavailable => exact hn
  | resolved hs hw ha h => exact hconc _ _ hw
  | pending hs hw ha h => exact fun _ => hs
  | expired => exact hconc _ _ rfl
  | configured hs h => exact hconc _ _ (hwait (by simp [hs]))
  | keptAlive hs hm h => exact hconc _ _ (hwait (by simp [hs]))
  | published hs hm hr h => exact hconc _ _ (hwait (by simp [hs]))
  | unreadable hs hm hr => exact hconc _ _ (hwait (by simp [hs]))
  | blinked => exact hn
  | held => exact hn
  | reconnected =>
    rw [value_beginConnecting]
    exact fun _ => rfl
  | released => exact hn
  | pressed => exact hn
  | chosen => exact hn
  | answered hw => exact hconc _ _ rfl
  | lost hw hs => exact hconc n .rejected hw

/-- An outcome settles the session: it is granted, or there is none. -/
theorem phase_conclude (n : Node σ) (o : Outcome) :
    (n.conclude o).value.phase = if o = .accepted then .granted else .closed := by
  cases o <;> simp [phase, value_goOn, value_dropSession]

/-- **Dealing with a change settles the phase**, be it news to the node or not. -/
theorem Reaction.phase_of_session {net : Connectivity} {n n' : Node σ} {change : SessionChange}
    (h : Reaction net n (.session change) n') (hn : n.awaiting = true → n.state = .connecting) :
    n'.phase = n.phase.settle change := by
  cases h with
  | stale h =>
    obtain ⟨hw, hc⟩ := h
    by_cases hs : n.state = .connected
    · have : change = .connected := by
        cases change with
        | connected => rfl
        | disconnected => exact absurd ⟨rfl, hs⟩ hc
      rw [this, phase_of_connected hs, SessionPhase.settle_granted_connected]
    · rw [phase_of_idle hs hw, SessionPhase.settle_closed]
  | answered hw =>
    rw [phase_conclude, phase_of_awaiting (by simp [hn hw]) hw]
    cases change <;> rfl
  | lost hw hs =>
    rw [SessionPhase.settle_disconnected]
    exact phase_conclude n .rejected

end Node

end EdgeDevice
