import EdgeDevice.Proofs.Node.Effort
import EdgeDevice.Proofs.Session.Transparent

set_option autoImplicit false
set_option relaxedAutoImplicit false

/-!
# Every protocol is a channel

The law of channels, that only finitely many changes can still come in and that no action adds to
them, excludes no protocol. Any protocol is a channel once it has a budget for the changes that it
reports: each change is paid for, and when nothing is left no more are reported. Between two polls
the other side may grant as much as it likes.

As long as a budget is not used up, a poll does not depend on how large it is, so that it is a poll
of the protocol itself. What is true of all channels is therefore true of all protocols, for every
poll in which only finitely many changes come in. A poll that changes come in to without end never
ends anyway.

## Main definitions

* `EdgeDevice.FreeChannel` — a protocol for sessions, without any law.
* `EdgeDevice.Metered` — a protocol with a budget for the changes that it reports.

## Main results

* `EdgeDevice.Node.takeTurns_grant` — a greater budget makes no difference to one that is not used
  up.
* `EdgeDevice.Node.returns_metered` — a poll of any protocol comes to rest, after events that the
  budget pays for.
-/

namespace EdgeDevice

/-- A protocol for sessions, as a state with operations on it. How it acts is its own affair. -/
class FreeChannel (σ : Type) where
  /-- Opens a session. -/
  openSession : σ → SessionContext → Logged (Progress × σ)
  /-- Keeps a session alive. -/
  keepAlive : σ → SessionContext → Logged (Outcome × σ)
  /-- Tells the chosen period. -/
  configure : σ → SessionContext → Logged (Outcome × σ)
  /-- Publishes a reading. -/
  publish : σ → SessionContext → Bytes → Logged (Outcome × σ)
  /-- The next change of the session, if there is one by now. -/
  nextChange : σ → Logged (Option SessionChange × σ)
  /-- Gives up a session. -/
  abandon : σ → Logged σ
  /-- Whether a session that was just opened still has to be told the chosen period. -/
  announces : σ → Bool

/-- A protocol with a budget for the changes that it reports. -/
structure Metered (σ : Type) where
  channel : σ
  budget : Nat

namespace Metered

variable {σ : Type}

/-- An action of the protocol is free. -/
def act {α : Type} (m : Metered σ) (answer : Logged (α × σ)) : Logged (α × Metered σ) :=
  answer >>= fun (a, c) => return (a, { m with channel := c })

/-- Grants more. -/
def grant (d : Nat) (m : Metered σ) : Metered σ := { m with budget := m.budget + d }

variable [FreeChannel σ]

/-- The next change, if there is one and it can be paid for. -/
def nextChange (m : Metered σ) : Logged (Option SessionChange × Metered σ) :=
  if m.budget = 0 then return (none, m)
  else FreeChannel.nextChange m.channel >>= fun (change, c) =>
    return (change, ⟨c, m.budget - change.toList.length⟩)

/-- While the budget lasts a change is looked for, and paid for if there is one. -/
theorem value_nextChange {m : Metered σ} (h : m.budget ≠ 0) :
    m.nextChange.value = ((FreeChannel.nextChange m.channel).value.1,
      ⟨(FreeChannel.nextChange m.channel).value.2,
        m.budget - (FreeChannel.nextChange m.channel).value.1.toList.length⟩) := by
  rw [nextChange, if_neg h]
  rfl

/-- A change costs one, and to find none is free. -/
theorem budget_nextChange (m : Metered σ) :
    m.nextChange.value.2.budget = m.budget - m.nextChange.value.1.toList.length := by
  by_cases h : m.budget = 0
  · rw [nextChange, if_pos h]
    rfl
  · rw [value_nextChange h]

/-- A change that is reported could be paid for. -/
theorem budget_pos_of_nextChange {m : Metered σ} {change : SessionChange}
    (h : m.nextChange.value.1 = some change) : 0 < m.budget := by
  by_cases hb : m.budget = 0
  · rw [nextChange, if_pos hb] at h
    cases h
  · exact Nat.pos_of_ne_zero hb

instance : Channel (Metered σ) where
  openSession m ctx := m.act (FreeChannel.openSession m.channel ctx)
  keepAlive m ctx := m.act (FreeChannel.keepAlive m.channel ctx)
  configure m ctx := m.act (FreeChannel.configure m.channel ctx)
  publish m ctx reading := m.act (FreeChannel.publish m.channel ctx reading)
  nextChange := nextChange
  abandon m := FreeChannel.abandon m.channel >>= fun c => return { m with channel := c }
  announces m := FreeChannel.announces m.channel
  backlog := budget
  backlog_openSession_le _ _ := Nat.le_refl _
  backlog_keepAlive_le _ _ := Nat.le_refl _
  backlog_configure_le _ _ := Nat.le_refl _
  backlog_publish_le _ _ _ := Nat.le_refl _
  backlog_abandon_le _ := Nat.le_refl _
  backlog_nextChange_le m := by
    rw [budget_nextChange]
    exact Nat.sub_le ..
  backlog_nextChange_lt {m m' change} h := by
    have hb := m.budget_nextChange
    have hpos : 0 < m.budget := budget_pos_of_nextChange (congrArg Prod.fst h)
    rw [h] at hb
    simp only [Option.toList_some, List.length_singleton] at hb
    omega

/-! ## Greater budgets -/

/-- What is granted does not show in what the protocol does. -/
theorem faithful_grant (d : Nat) : Faithful (grant d : Metered σ → Metered σ) where
  openSession _ _ := rfl
  keepAlive _ _ := rfl
  configure _ _ := rfl
  publish _ _ _ := rfl
  abandon _ := rfl
  announces _ := rfl

/-- What is granted does not show in what is reported while something is left. -/
theorem relays_grant (d : Nat) {m : Metered σ} (h : 0 < m.budget) : Relays (grant d) m := by
  have hm : m.budget ≠ 0 := Nat.ne_of_gt h
  have hd : (m.grant d).budget ≠ 0 := by
    simp only [grant]
    omega
  show (m.grant d).nextChange.value = m.nextChange.value.map id (grant d)
  rw [value_nextChange hm, value_nextChange hd]
  have hone : (FreeChannel.nextChange m.channel).value.1.toList.length ≤ 1 := by
    cases (FreeChannel.nextChange m.channel).value.1 <;> simp
  simp only [grant, Prod.map, id]
  congr 2
  omega

end Metered

namespace Node

variable [RandomSource] {σ : Type} [FreeChannel σ]

/-- **A greater budget makes no difference to one that is not used up**: the turns of a poll are the
same, and so is the node that they lead to, but for what was granted. -/
theorem takeTurns_grant {nets : Nat → Connectivity} {k : Nat} {n : Node (Metered σ)}
    (h : 0 < (takeTurns nets k n).value.channel.budget) (d : Nat) :
    (takeTurns nets k n).value.through (Metered.grant d) =
        (takeTurns nets k (n.through (Metered.grant d))).value ∧
      (turns nets k n).map (Turn.through (Metered.grant d)) =
        turns nets k (n.through (Metered.grant d)) :=
  through_takeTurns (Metered.faithful_grant d) fun _ hc =>
    Metered.relays_grant d (Nat.lt_of_lt_of_le h hc)

/-- **A poll of any protocol comes to rest before the last instant**, after events that are paid for
by those that waited and by the budget. -/
theorem returns_metered [Json.Writer] {n : Node (Metered σ)} (hn : n.Timed) {now : Instant}
    (hl : now < .last) (nets : Nat → Connectivity) :
    n.Returns (.poll now nets) ∧
      (n.turnsOf (.poll now nets)).length ≤ 2 * n.queue.size + n.channel.budget + 5 := by
  have hlen := length_turnsOf_le hn hl nets
  have hdel : (n.deliveriesOf now nets).length ≤ n.channel.budget := length_deliveriesOf_le ..
  exact ⟨returns_of_beforeLast hn hl, by omega⟩

end Node

end EdgeDevice
