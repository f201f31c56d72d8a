import EdgeDevice.Proofs.Node.Expiry

set_option autoImplicit false
set_option relaxedAutoImplicit false

/-!
# Timers stay as they were set and fire in order

Whatever is done to a set of timers is done to one of them: one is set, one is taken back, or the
one that is due first is taken. So what a timer is set to depends on the last of these alone, and
things done to different timers can be done in either order.

Taking what is due until nothing is due yields every timer that was due, once. Which timer is due
first is a matter of the deadlines and, between timers with the same deadline, of their position
among all timers. To take one changes no other deadline, so that the timer that is found next comes
after all that were found before.

## Main definitions

* `EdgeDevice.Timers.Operation`, `EdgeDevice.Timers.operate` — what can be done to timers.
* `EdgeDevice.Timers.touched` — the timer to which something is done.
* `EdgeDevice.Timers.drain` — takes what is due until nothing is due.
* `EdgeDevice.Timers.Drained` — what was due was taken, in order, and nothing else has changed.
* `EdgeDevice.Timers.Lawful` — the law of timers.

## Main results

* `EdgeDevice.Timers.operate_eq` — an operation sets the timer it touches.
* `EdgeDevice.Timers.precedes_of_firstDue` — the timer that is due first comes before all others
  that are due.
* `EdgeDevice.Timers.drained_drain` — everything that is due is taken in order.
* `EdgeDevice.Timers.lawful` — the law of timers holds of every set of timers.
-/

namespace EdgeDevice

/-! ## The order of timers -/

/-- The position of a timer among all timers. -/
def TimerId.position (id : TimerId) : Nat := TimerId.all.idxOf id

/-- The timers stand in the order of their positions. -/
theorem TimerId.pairwise_position : all.Pairwise fun id id' => id.position < id'.position := by
  decide

namespace Instant

/-- An instant that is not after another is before it or the same. -/
theorem lt_or_eq_of_le {a b : Instant} (h : a ≤ b) : a < b ∨ a = b := by
  rcases Nat.lt_or_eq_of_le h with h | h
  · exact .inl h
  · exact .inr (ext h)

end Instant

namespace Timers

variable {t : Timers} {now : Instant} {id id' : TimerId}

/-! ## What is done to timers -/

/-- What can be done to a set of timers. -/
inductive Operation where
  /-- A timer is set to fire after some time. -/
  | arm (id : TimerId) (now : Instant) (d : Duration)
  /-- A timer is taken back. -/
  | cancel (id : TimerId)
  /-- The timer that is due first is taken, if one is due. -/
  | takeExpired (now : Instant)

/-- The timers after an operation. -/
def operate (t : Timers) : Operation → Timers
  | .arm id now d => t.arm id now d
  | .cancel id => t.cancel id
  | .takeExpired now => (t.takeExpired now).2

/-- The timers after a row of operations. -/
def operateAll (t : Timers) (ops : List Operation) : Timers := ops.foldl operate t

/-- The timer that an operation touches: the one it is about, or the one that is taken. -/
def touched (t : Timers) : Operation → Option TimerId
  | .arm id _ _ => some id
  | .cancel id => some id
  | .takeExpired now => (t.takeExpired now).1

/-- The deadline that an operation leaves to the timer it touches. -/
def Operation.leaves : Operation → Option Instant
  | arm _ now d => some (now.after d)
  | cancel _ => none
  | takeExpired _ => none

/-- The last of a row of operations that touches a timer. -/
def lastTouching (t : Timers) (id : TimerId) : List Operation → Option Operation
  | [] => none
  | op :: ops =>
    match (t.operate op).lastTouching id ops with
    | some last => some last
    | none => if t.touched op = some id then some op else none

/-- The timer that is due first is taken, and set no more. -/
theorem takeExpired_of_some (h : t.firstDue now = some id) :
    t.takeExpired now = (some id, t.cancel id) := by
  rw [takeExpired, h]

/-- Where no timer is due nothing is taken. -/
theorem takeExpired_of_none (h : t.firstDue now = none) : t.takeExpired now = (none, t) := by
  rw [takeExpired, h]

/-- **An operation sets the timer it touches** and no other. -/
theorem operate_eq (t : Timers) (op : Operation) :
    t.operate op = (t.touched op).elim t fun id => t.put id op.leaves := by
  cases op with
  | arm id now d => rfl
  | cancel id => rfl
  | takeExpired now =>
    simp only [operate, touched]
    cases h : t.firstDue now with
    | none => rw [takeExpired_of_none h, Option.elim_none]
    | some id =>
      rw [takeExpired_of_some h, Option.elim_some]
      rfl

/-- An operation puts what it leaves to the timer it touches. -/
theorem operate_of_touched {op : Operation} (h : t.touched op = some id) :
    t.operate op = t.put id op.leaves := by
  rw [operate_eq, h, Option.elim_some]

/-- An operation decides about the timer it touches and about no other. -/
theorem deadline_operate (t : Timers) (op : Operation) (id : TimerId) :
    (t.operate op).deadline id =
      if t.touched op = some id then op.leaves else t.deadline id := by
  rw [operate_eq]
  cases t.touched op with
  | none => simp
  | some id' => simp [eq_comm]

/-- What a timer is set to depends on the last operation that touched it. -/
theorem deadline_operateAll (t : Timers) (ops : List Operation) (id : TimerId) :
    (t.operateAll ops).deadline id =
      (t.lastTouching id ops).elim (t.deadline id) Operation.leaves := by
  induction ops generalizing t with
  | nil => rfl
  | cons op ops ih =>
    show ((t.operate op).operateAll ops).deadline id = _
    rw [ih, lastTouching]
    cases (t.operate op).lastTouching id ops with
    | some last => rfl
    | none =>
      rw [Option.elim_none, deadline_operate]
      split <;> rfl

/-- Deadlines of different timers can be put in either order. -/
theorem put_comm (hne : id ≠ id') (i i' : Option Instant) :
    (t.put id i).put id' i' = (t.put id' i').put id i := by
  refine ext fun id'' => ?_
  simp only [deadline_put]
  by_cases h : id'' = id
  · rw [if_pos h, if_pos h, if_neg fun h' => hne (h.symm.trans h')]
  · rw [if_neg h, if_neg h]

/-- Operations that touch different timers can be done in either order. -/
theorem operate_comm {op op' : Operation} (hne : id ≠ id') (h : t.touched op = some id)
    (h' : (t.operate op).touched op' = some id') (k' : t.touched op' = some id')
    (k : (t.operate op').touched op = some id) :
    (t.operate op).operate op' = (t.operate op').operate op := by
  rw [operate_of_touched h', operate_of_touched k, operate_of_touched h, operate_of_touched k',
    put_comm hne]

/-- Among the timers that are set, a timer stands once, with its deadline. -/
theorem filter_pending (t : Timers) (id : TimerId) :
    (t.pending.filter fun e => e.2 = id) = ((t.deadline id).map fun i => (i, id)).toList := by
  have hone : ∀ id', ((t.deadline id').map fun i => (i, id')).filter (fun e => e.2 = id) =
      if id' = id then (t.deadline id).map fun i => (i, id) else none := by
    intro id'
    by_cases h : id' = id
    · subst h
      cases t.deadline id' <;> simp
    · cases t.deadline id' <;> simp [h]
  simp only [pending, List.filter_filterMap, hone]
  cases id <;> simp [TimerId.all, List.filterMap_cons, Option.toList] <;> rfl

/-! ## The order in which timers fire -/

/-- One timer is set to fire before another: its deadline is earlier, or it is the same and the
timer stands before the other among all timers. -/
def Precedes (t : Timers) (id id' : TimerId) : Prop :=
  ∃ i i', t.deadline id = some i ∧ t.deadline id' = some i' ∧
    (i < i' ∨ i = i' ∧ id.position < id'.position)

/-- The first of the entries with the earliest instant: those in front of it are later, and those
behind it are not earlier. -/
theorem exists_of_earliest {l : List (Instant × TimerId)} {e : Instant × TimerId}
    (h : earliest l = some e) :
    ∃ before after, l = before ++ e :: after ∧ (∀ e' ∈ before, e.1 < e'.1) ∧
      ∀ e' ∈ after, e.1 ≤ e'.1 := by
  induction l generalizing e with
  | nil => simp [earliest] at h
  | cons e₁ l ih =>
    rw [earliest] at h
    cases hl : earliest l with
    | none =>
      rw [hl] at h
      obtain rfl := Option.some.inj h
      obtain rfl := earliest_eq_none_iff.1 hl
      exact ⟨[], [], rfl, List.forall_mem_nil _, List.forall_mem_nil _⟩
    | some e₂ =>
      obtain ⟨before, after, rfl, hbefore, hafter⟩ := ih hl
      rw [hl] at h
      by_cases hlt : e₂.1 < e₁.1
      · obtain rfl : e₂ = e := by simpa [hlt] using h
        exact ⟨e₁ :: before, after, rfl, List.forall_mem_cons.2 ⟨hlt, hbefore⟩, hafter⟩
      · obtain rfl : e₁ = e := by simpa [hlt] using h
        have hle : e₁.1 ≤ e₂.1 := Nat.le_of_not_lt hlt
        refine ⟨[], before ++ e₂ :: after, rfl, List.forall_mem_nil _, fun e' he' => ?_⟩
        rcases List.mem_append.1 he' with he' | he'
        · exact Nat.le_trans hle (Nat.le_of_lt (hbefore e' he'))
        · rcases List.mem_cons.1 he' with rfl | he'
          · exact hle
          · exact Nat.le_trans hle (hafter e' he')

/-- The timers that are set stand in the order of all timers. -/
theorem pairwise_pending (t : Timers) :
    t.pending.Pairwise fun e e' => e.2.position < e'.2.position := by
  refine TimerId.pairwise_position.filterMap _ fun id id' hlt e he e' he' => ?_
  obtain ⟨i, -, rfl⟩ := Option.map_eq_some_iff.1 he
  obtain ⟨i', -, rfl⟩ := Option.map_eq_some_iff.1 he'
  exact hlt

/-- **The timer that is due first comes before all others that are due.** -/
theorem precedes_of_firstDue (h : t.firstDue now = some id) (hdue : t.isDue now id' = true)
    (hne : id' ≠ id) : t.Precedes id id' := by
  obtain ⟨⟨i, id⟩, he, rfl⟩ := Option.map_eq_some_iff.1 h
  obtain ⟨before, after, hl, hbefore, hafter⟩ := exists_of_earliest he
  have horder := hl ▸ t.pairwise_pending.filter _
  obtain ⟨i', hi', hle⟩ : ∃ i', t.deadline id' = some i' ∧ i' ≤ now := by
    simpa [isDue, Option.any_eq_true] using hdue
  have hi : t.deadline id = some i :=
    mem_pending.1 (List.mem_filter.1 (mem_of_earliest he)).1
  have hm : (i', id') ∈ before ++ (i, id) :: after :=
    hl ▸ List.mem_filter.2 ⟨mem_pending.2 hi', decide_eq_true hle⟩
  refine ⟨i, i', hi, hi', ?_⟩
  rcases List.mem_append.1 hm with hm | hm
  · exact .inl (hbefore _ hm)
  · rcases List.mem_cons.1 hm with heq | hm
    · exact absurd (congrArg Prod.snd heq) hne
    · have hposition := (List.pairwise_cons.1 (List.pairwise_append.1 horder).2.1).1 _ hm
      exact (Instant.lt_or_eq_of_le (hafter _ hm)).imp_right fun heq => ⟨heq, hposition⟩

/-- What precedes does so whatever else is set. -/
theorem Precedes.of_cancel {id₀ : TimerId} (h : (t.cancel id₀).Precedes id id') :
    t.Precedes id id' := by
  obtain ⟨i, i', hi, hi', hlt⟩ := h
  rw [deadline_cancel] at hi hi'
  exact ⟨i, i', (Option.ite_none_left_eq_some.1 hi).2, (Option.ite_none_left_eq_some.1 hi').2, hlt⟩

/-! ## Taking all that is due -/

/-- Exactly the timer that is due first is taken, and set no more. -/
theorem takeExpired_eq_some_iff {t' : Timers} :
    t.takeExpired now = (some id, t') ↔ t.firstDue now = some id ∧ t' = t.cancel id := by
  unfold takeExpired
  cases t.firstDue now <;> simp +contextual [eq_comm]

/-- Nothing is taken exactly if no timer is due. -/
theorem takeExpired_eq_none_iff {t' : Timers} :
    t.takeExpired now = (none, t') ↔ t.firstDue now = none ∧ t' = t := by
  unfold takeExpired
  cases t.firstDue now <;> simp [eq_comm]

/-- Takes the timer that is due first until no timer is due: the timers that were taken, in order,
and the timers that are left. -/
def drain (t : Timers) (now : Instant) : List TimerId × Timers :=
  match h : t.takeExpired now with
  | (none, t') => ([], t')
  | (some id, t') =>
    have : t'.overdue now < t.overdue now := by
      obtain ⟨hdue, rfl⟩ := takeExpired_eq_some_iff.1 h
      exact Nat.lt_of_succ_le (Nat.le_of_eq (overdue_cancel hdue))
    let (ids, final) := t'.drain now
    (id :: ids, final)
termination_by t.overdue now

/-- **What was due was taken, in order**: each timer that was due once and no other, the earlier
deadline first and at a common deadline the timer that stands first. No other deadline has changed,
and none of those that are left has been reached. -/
structure Drained (t : Timers) (now : Instant) (ids : List TimerId) (t' : Timers) : Prop where
  once : ids.Nodup
  mem_iff : ∀ id, id ∈ ids ↔ ∃ i, t.deadline id = some i ∧ i ≤ now
  ordered : ids.Pairwise t.Precedes
  deadline : ∀ id, t'.deadline id = if id ∈ ids then none else t.deadline id
  later : ∀ i, t'.nextDeadline = some i → now < i

/-- A timer is due if its deadline has come. -/
theorem isDue_iff : t.isDue now id = true ↔ ∃ i, t.deadline id = some i ∧ i ≤ now := by
  simp [isDue, Option.any_eq_true]

/-- Where nothing is due nothing is taken. -/
theorem drained_nil (h : t.firstDue now = none) : t.Drained now [] t := by
  have hlater := firstDue_eq_none_iff.1 h
  refine ⟨List.nodup_nil, fun id => ?_, List.Pairwise.nil, fun id => rfl, fun i hi => ?_⟩
  · simp only [List.not_mem_nil, false_iff]
    rintro ⟨i, hi, hle⟩
    exact Instant.not_le.2 (hlater id i hi) hle
  · obtain ⟨id, hid⟩ := exists_deadline_of_nextDeadline hi
    exact hlater id i hid

/-- The timer that is due first comes in front of those that are taken after it. -/
theorem Drained.cons {ids : List TimerId} {t' : Timers} (h : t.firstDue now = some id)
    (hd : (t.cancel id).Drained now ids t') : t.Drained now (id :: ids) t' := by
  have hmem : ∀ id', id' ∈ ids ↔ id' ≠ id ∧ t.isDue now id' = true := by
    intro id'
    rw [hd.mem_iff, ← isDue_iff, isDue_cancel, Bool.and_eq_true, bne_iff_ne]
  refine ⟨List.nodup_cons.2 ⟨fun hid => ((hmem id).1 hid).1 rfl, hd.once⟩, fun id' => ?_,
    List.pairwise_cons.2 ⟨fun id' hid' => ?_, hd.ordered.imp Precedes.of_cancel⟩, fun id' => ?_,
    hd.later⟩
  · rw [List.mem_cons, hmem, ← isDue_iff]
    by_cases hne : id' = id
    · simp [hne, isDue_of_firstDue h]
    · simp [hne]
  · obtain ⟨hne, hdue⟩ := (hmem id').1 hid'
    exact precedes_of_firstDue h hdue hne
  · rw [hd.deadline, deadline_cancel]
    by_cases hne : id' = id
    · simp [hne]
    · simp [hne]

/-- **Everything that is due is taken in order.** -/
theorem drained_drain (t : Timers) (now : Instant) :
    t.Drained now (t.drain now).1 (t.drain now).2 := by
  fun_induction drain t now with
  | case1 t t' h =>
    obtain ⟨hdue, rfl⟩ := takeExpired_eq_none_iff.1 h
    exact drained_nil hdue
  | case2 t id t' h _ ids final hr ih =>
    obtain ⟨hdue, rfl⟩ := takeExpired_eq_some_iff.1 h
    rw [hr] at ih
    exact ih.cons hdue

/-! ## The law of timers -/

/-- **The law of timers.** What a timer is set to depends on the last operation that touched it, and
operations that touch different timers can be done in either order. A timer that is armed has one
deadline, the new one, at the last instant at the latest. Taking what is due until nothing is due
takes all of it in order. -/
structure Lawful (t : Timers) : Prop where
  last : ∀ ops id, (t.operateAll ops).deadline id =
    (t.lastTouching id ops).elim (t.deadline id) Operation.leaves
  commute : ∀ op op' id id', id ≠ id' → t.touched op = some id → t.touched op' = some id' →
    (t.operate op).touched op' = some id' → (t.operate op').touched op = some id →
    (t.operate op).operate op' = (t.operate op').operate op
  armed : ∀ id now d, ((t.arm id now d).pending.filter fun e => e.2 = id) = [(now.after d, id)] ∧
    (now.after d).millis = min (now.millis + d.millis) lastMillisecond
  drained : ∀ now, t.Drained now (t.drain now).1 (t.drain now).2

/-- **The law of timers holds of every set of timers.** -/
theorem lawful (t : Timers) : t.Lawful where
  last := t.deadline_operateAll
  commute _ _ _ _ hne h k' h' k := operate_comm hne h h' k' k
  armed id now d := by
    refine ⟨?_, Instant.millis_after now d⟩
    rw [filter_pending, deadline_arm, if_pos rfl]
    rfl
  drained := t.drained_drain

end Timers

end EdgeDevice
