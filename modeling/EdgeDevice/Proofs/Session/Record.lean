import EdgeDevice.Proofs.Node.Runs

set_option autoImplicit false
set_option relaxedAutoImplicit false

/-!
# Records of what a channel is asked

Any channel can be put into a wrapper that writes down what it is asked and what it answers. A turn
adds to the record and takes nothing away, so that the record of a run tells what was asked in each
of its turns.

## Main definitions

* `EdgeDevice.SessionAct` — what a channel is asked, with its answer.
* `EdgeDevice.Recorded` — a channel with a record.
* `EdgeDevice.Node.Turn.acts` — what the channel is asked in a turn.

## Main results

* `EdgeDevice.Node.acts_run` — the record of a run is put together from the records of its turns.
-/

namespace EdgeDevice

/-- What holds of every entry of a list and of the entries in front of it still does when one more
entry has come in for which it holds too. -/
theorem forall_split_concat {α : Type} {entries : List α} {a : α} {P : List α → α → Prop}
    (h : ∀ before b after, entries = before ++ b :: after → P before b) (ha : P entries a) :
    ∀ before b after, entries ++ [a] = before ++ b :: after → P before b := by
  intro before b after hs
  rcases List.eq_nil_or_concat after with rfl | ⟨after, b', rfl⟩
  · obtain ⟨rfl, hb⟩ := List.append_inj' hs rfl
    exact List.singleton_inj.1 hb ▸ ha
  · rw [List.concat_eq_append, ← List.cons_append, ← List.append_assoc] at hs
    obtain ⟨rfl, -⟩ := List.append_inj' hs rfl
    exact h before b after rfl

/-- What a channel is asked, with its answer. -/
inductive SessionAct where
  | opened (ctx : SessionContext) (progress : Progress)
  | keptAlive (ctx : SessionContext) (outcome : Outcome)
  | configured (ctx : SessionContext) (outcome : Outcome)
  | published (ctx : SessionContext) (reading : Bytes) (outcome : Outcome)
  | abandoned

/-- Whether the channel is asked to pass something on. -/
def SessionAct.isSend : SessionAct → Bool
  | keptAlive .. => true
  | configured .. => true
  | published .. => true
  | _ => false

/-- A channel with a record of what it was asked, the first act in front. -/
structure Recorded (σ : Type) where
  channel : σ
  acts : List SessionAct := []

namespace Recorded

variable {σ : Type}

/-- The answer of the channel, written down. -/
def note {α : Type} (r : Recorded σ) (act : α → SessionAct) (answer : Logged (α × σ)) :
    Logged (α × Recorded σ) :=
  answer >>= fun (a, c) => return (a, ⟨c, r.acts ++ [act a]⟩)

variable [Channel σ]

instance : Channel (Recorded σ) where
  openSession r ctx := r.note (.opened ctx) (Channel.openSession r.channel ctx)
  keepAlive r ctx := r.note (.keptAlive ctx) (Channel.keepAlive r.channel ctx)
  configure r ctx := r.note (.configured ctx) (Channel.configure r.channel ctx)
  publish r ctx reading :=
    r.note (.published ctx reading) (Channel.publish r.channel ctx reading)
  nextChange r := Channel.nextChange r.channel >>= fun (change, c) =>
    return (change, { r with channel := c })
  abandon r := Channel.abandon r.channel >>= fun c => return ⟨c, r.acts ++ [.abandoned]⟩
  announces r := Channel.announces r.channel
  backlog r := Channel.backlog r.channel
  backlog_openSession_le r ctx := Channel.backlog_openSession_le r.channel ctx
  backlog_keepAlive_le r ctx := Channel.backlog_keepAlive_le r.channel ctx
  backlog_configure_le r ctx := Channel.backlog_configure_le r.channel ctx
  backlog_publish_le r ctx reading := Channel.backlog_publish_le r.channel ctx reading
  backlog_abandon_le r := Channel.backlog_abandon_le r.channel
  backlog_nextChange_le r := Channel.backlog_nextChange_le r.channel
  backlog_nextChange_lt {r r' change} h := by
    rcases hc : (Channel.nextChange r.channel).value with ⟨answer, c⟩
    simp only [Logged.value_bind, Logged.value_pure, hc, Prod.mk.injEq] at h
    obtain ⟨rfl, rfl⟩ := h
    exact Channel.backlog_nextChange_lt hc

omit [Channel σ] in
/-- What happens to the channel happens inside the wrapper. -/
def onChannel (change : σ → σ) (r : Recorded σ) : Recorded σ :=
  { r with channel := change r.channel }

omit [Channel σ] in
/-- What is written down is the last act. -/
theorem acts_of_note {α : Type} {r r' : Recorded σ} {act : α → SessionAct} {a : α}
    {answer : Logged (α × σ)} (h : (r.note act answer).value = (a, r')) :
    r'.acts = r.acts ++ [act a] := by
  simp only [note, Logged.value_bind, Logged.value_pure, Prod.mk.injEq] at h
  obtain ⟨rfl, rfl⟩ := h
  rfl

/-- To give up a session is an act of its own. -/
theorem acts_abandon (r : Recorded σ) :
    (Channel.abandon r).value.acts = r.acts ++ [.abandoned] := rfl

/-- To look for a change is not written down. -/
theorem acts_nextChange (r : Recorded σ) : (Channel.nextChange r).value.2.acts = r.acts := rfl

end Recorded

namespace Node

variable [RandomSource] {σ : Type} [Channel σ]

/-! ## What a turn asks of the channel -/

/-- What is asked after an outcome: a session that is not accepted is given up. -/
def closing : Outcome → List SessionAct
  | .accepted => []
  | .rejected => [.abandoned]
  | .timedOut => [.abandoned]

/-- After an outcome a session that is not accepted is given up, and nothing else is asked. -/
theorem acts_conclude (n : Node (Recorded σ)) (o : Outcome) :
    (n.conclude o).value.channel.acts = n.channel.acts ++ closing o := by
  cases o with
  | accepted => simp [value_goOn, closing]
  | rejected => simp [value_dropSession, closing, Recorded.acts_abandon]
  | timedOut => simp [value_dropSession, closing, Recorded.acts_abandon]

/-- What was written down before an outcome stays in front. -/
theorem prefix_conclude (n : Node (Recorded σ)) (o : Outcome) :
    n.channel.acts <+: (n.conclude o).value.channel.acts := by
  rw [acts_conclude]
  exact List.prefix_append ..

/-- The record only grows. -/
theorem Reaction.prefix_acts {net : Connectivity} {n n' : Node (Recorded σ)} {e : NodeEvent}
    (h : Reaction net n e n') : n.channel.acts <+: n'.channel.acts := by
  have hconc : ∀ (m : Node (Recorded σ)) (o : Outcome), n.channel.acts <+: m.channel.acts →
      n.channel.acts <+: (m.conclude o).value.channel.acts :=
    fun m o hm => hm.trans (prefix_conclude m o)
  cases h with
  | resolved hs hw ha h => exact hconc _ _ ⟨_, (Recorded.acts_of_note h).symm⟩
  | pending hs hw ha h => exact ⟨_, (Recorded.acts_of_note h).symm⟩
  | configured hs h => exact hconc _ _ ⟨_, (Recorded.acts_of_note h).symm⟩
  | keptAlive hs hm h => exact hconc _ _ ⟨_, (Recorded.acts_of_note h).symm⟩
  | published hs hm hr h => exact hconc _ _ ⟨_, (Recorded.acts_of_note h).symm⟩
  | expired => exact hconc _ _ List.prefix_rfl
  | unreadable => exact hconc _ _ List.prefix_rfl
  | answered => exact hconc _ _ List.prefix_rfl
  | lost => exact prefix_conclude n .rejected
  | reconnected =>
    rw [value_beginConnecting]
    exact List.prefix_rfl
  | _ => exact List.prefix_rfl

/-- What the channel is asked in a turn. -/
def Turn.acts (t : Turn (Recorded σ)) : List SessionAct :=
  t.after.channel.acts.drop t.node.channel.acts.length

/-- The acts of a turn come behind those from before. -/
theorem Turn.acts_after (t : Turn (Recorded σ)) :
    t.after.channel.acts = t.node.channel.acts ++ t.acts :=
  (List.prefix_iff_eq_append.1 t.reaction.prefix_acts).symm

/-- The acts of a turn are what comes behind those from before. -/
theorem Turn.acts_eq {t : Turn (Recorded σ)} {acts : List SessionAct}
    (h : t.after.channel.acts = t.node.channel.acts ++ acts) : t.acts = acts := by
  rw [Turn.acts, h, List.drop_left]

/-! ## Runs over a recorded channel -/

omit [RandomSource] [Channel σ] in
/-- What the other side does is not written down. -/
theorem keeps_acts (calls : List (Call σ)) {c : Call (Recorded σ)}
    (hc : c ∈ calls.map (Call.lift Recorded.onChannel)) :
    c.Keeps fun r r' : Recorded σ => r'.acts = r.acts := by
  have hk : ∀ change (r : Recorded σ), (r.onChannel change).acts = r.acts := fun _ _ => rfl
  exact Call.keeps_of_mem_lift hk hc

/-- Nothing is written down for an intake. -/
theorem Intake.acts_eq {n n' : Node (Recorded σ)} (h : Intake n n') :
    n'.channel.acts = n.channel.acts := by
  cases h with
  | full => rfl
  | change h hc hq =>
    have := Recorded.acts_nextChange n.channel
    rwa [hc] at this
  | timer h hc hd hq =>
    have := Recorded.acts_nextChange n.channel
    rwa [hc] at this
  | nothing h hc hd =>
    have := Recorded.acts_nextChange n.channel
    rwa [hc] at this

/-- **The record of a run is put together from the records of its turns.** -/
theorem acts_run [Json.Writer] (n : Node (Recorded σ)) (calls : List (Call σ)) :
    (n.run (calls.map (Call.lift Recorded.onChannel))).channel.acts =
      n.channel.acts ++
        (n.history (calls.map (Call.lift Recorded.onChannel))).flatMap Turn.acts := by
  have hI : Invariant (fun r r' : Recorded σ => r'.acts = r.acts) fun h m =>
      m.channel.acts = n.channel.acts ++ h.flatMap Turn.acts :=
    { post := fun _ hm _ => hm
      command := fun _ _ hm => hm
      outside := fun hm hr => hr.trans hm
      tick := fun _ hm => hm
      take := fun hm hi => hi.acts_eq.trans hm
      turn := fun {h t q} hm _ => by
        rw [t.acts_after, List.flatMap_append, List.flatMap_singleton, ← List.append_assoc, ← hm] }
  exact hI.run (h := []) (by simp) fun _ => keeps_acts calls

end Node

end EdgeDevice
