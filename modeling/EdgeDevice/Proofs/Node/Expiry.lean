import EdgeDevice.Node.Timers

set_option autoImplicit false
set_option relaxedAutoImplicit false

/-!
# Which timers are set, and which are due

The deadlines of a set of timers are its only view: what is set, what is due at an instant and what
is due first are read off them.

## Main definitions

* `EdgeDevice.Timers.overdue` — how many timers are due at an instant.

## Main results

* `EdgeDevice.Timers.nextDeadline_eq_none_iff` — there is no next deadline exactly if no timer is
  set.
* `EdgeDevice.Timers.firstDue_eq_none_iff`, `EdgeDevice.Timers.deadline_of_firstDue` — a timer is
  found exactly if one is due, and the one that is found is due.
* `EdgeDevice.Timers.overdue_cancel` — taking back a timer that is due leaves one less.
-/

namespace EdgeDevice

namespace Instant

/-- Before the last instant, time that is not nothing leads to a later instant. -/
theorem lt_after {now : Instant} {d : Duration} (h : now < last) (hd : 0 < d.millis) :
    now < now.after d := by
  simp only [lt_iff, last, millis_ofMillis, millis_after] at *
  omega

/-- An instant that does not come by another comes after it. -/
theorem not_le {a b : Instant} : ¬a ≤ b ↔ b < a := by
  simp only [le_iff, lt_iff]
  omega

end Instant

namespace Timers

/-! ## Which timers are set -/

/-- A timer is set after one is armed, if it is that one or was set before. -/
@[simp] theorem isPending_arm (t : Timers) (id id' : TimerId) (now : Instant) (d : Duration) :
    (t.arm id now d).isPending id' = (id' == id || t.isPending id') := by
  by_cases h : id' = id <;> simp [isPending, deadline_arm, h]

/-- A timer is set after one is cancelled, if it is another and was set before. -/
@[simp] theorem isPending_cancel (t : Timers) (id id' : TimerId) :
    (t.cancel id).isPending id' = (id' != id && t.isPending id') := by
  by_cases h : id' = id <;> simp [isPending, deadline_cancel, h]

/-- Where no timer is set there are no deadlines. -/
@[simp] theorem deadline_empty (id : TimerId) : empty.deadline id = none := by
  cases id <;> rfl

/-- Among no timers none is set. -/
@[simp] theorem isPending_empty (id : TimerId) : empty.isPending id = false := by
  simp [isPending]

/-- The timers that are set are those with a deadline, each together with it. -/
theorem mem_pending {t : Timers} {id : TimerId} {i : Instant} :
    (i, id) ∈ t.pending ↔ t.deadline id = some i := by
  simp only [pending, List.mem_filterMap, Option.map_eq_some_iff, Prod.mk.injEq]
  constructor
  · rintro ⟨id', -, i', h, rfl, rfl⟩
    exact h
  · intro h
    exact ⟨id, TimerId.mem_all id, i, h, rfl, rfl⟩

/-! ## Which timer is first -/

/-- There is an earliest entry unless there are none. -/
theorem earliest_eq_none_iff {l : List (Instant × TimerId)} : earliest l = none ↔ l = [] := by
  cases l with
  | nil => simp [earliest]
  | cons e es =>
    unfold earliest
    split
    · simp
    · split <;> simp

/-- The earliest entry is one of the entries. -/
theorem mem_of_earliest {l : List (Instant × TimerId)} {e : Instant × TimerId}
    (h : earliest l = some e) : e ∈ l := by
  induction l with
  | nil => simp [earliest] at h
  | cons e₁ es ih =>
    unfold earliest at h
    split at h
    · obtain rfl := Option.some.inj h
      exact List.mem_cons_self
    · rename_i e₂ he
      split at h
      · exact List.mem_cons_of_mem _ (ih (he.trans h))
      · obtain rfl := Option.some.inj h
        exact List.mem_cons_self

/-- There is a next deadline unless no timer is set. -/
theorem nextDeadline_eq_none_iff {t : Timers} :
    t.nextDeadline = none ↔ ∀ id, t.isPending id = false := by
  rw [nextDeadline, Option.map_eq_none_iff, earliest_eq_none_iff, List.eq_nil_iff_forall_not_mem]
  constructor
  · intro h id
    cases hd : t.deadline id with
    | none => simp [isPending, hd]
    | some i => exact absurd (mem_pending.2 hd) (h (i, id))
  · rintro h ⟨i, id⟩ hm
    have := h id
    simp [isPending, mem_pending.1 hm] at this

/-- The next deadline is the deadline of a timer. -/
theorem exists_deadline_of_nextDeadline {t : Timers} {i : Instant} (h : t.nextDeadline = some i) :
    ∃ id, t.deadline id = some i := by
  obtain ⟨⟨i, id⟩, he, rfl⟩ := Option.map_eq_some_iff.1 h
  exact ⟨id, mem_pending.1 (mem_of_earliest he)⟩

/-- The timer that is due first has a deadline that has come. -/
theorem deadline_of_firstDue {t : Timers} {now : Instant} {id : TimerId}
    (h : t.firstDue now = some id) : ∃ i, t.deadline id = some i ∧ i ≤ now := by
  obtain ⟨⟨i, id'⟩, he, rfl⟩ := Option.map_eq_some_iff.1 h
  obtain ⟨hm, hi⟩ := List.mem_filter.1 (mem_of_earliest he)
  exact ⟨i, mem_pending.1 hm, of_decide_eq_true hi⟩

/-- The timer that is due first is set. -/
theorem isPending_of_firstDue {t : Timers} {now : Instant} {id : TimerId}
    (h : t.firstDue now = some id) : t.isPending id = true := by
  obtain ⟨i, hi, -⟩ := deadline_of_firstDue h
  simp [isPending, hi]

/-- No timer is due exactly if all deadlines are still to come. -/
theorem firstDue_eq_none_iff {t : Timers} {now : Instant} :
    t.firstDue now = none ↔ ∀ id i, t.deadline id = some i → now < i := by
  rw [firstDue, Option.map_eq_none_iff, earliest_eq_none_iff, List.filter_eq_nil_iff]
  constructor
  · intro h id i hd
    have := h (i, id) (mem_pending.2 hd)
    exact Instant.not_le.1 (by simpa using this)
  · rintro h ⟨i, id⟩ hm
    have := h id i (mem_pending.1 hm)
    simpa using Instant.not_le.2 this

/-! ## How many timers are due -/

/-- Whether a timer is due. -/
def isDue (t : Timers) (now : Instant) (id : TimerId) : Bool := (t.deadline id).any (· ≤ now)

/-- Among no timers none is due. -/
@[simp] theorem isDue_empty (now : Instant) (id : TimerId) : empty.isDue now id = false := by
  simp [isDue]

/-- Putting a deadline decides whether its timer is due, and matters to no other. -/
theorem isDue_put (t : Timers) (now : Instant) (id id' : TimerId) (i : Option Instant) :
    (t.put id i).isDue now id' = if id' = id then i.any (· ≤ now) else t.isDue now id' := by
  by_cases h : id' = id <;> simp [isDue, h]

/-- A timer that is cancelled is not due, and the others are as they were. -/
theorem isDue_cancel (t : Timers) (now : Instant) (id id' : TimerId) :
    (t.cancel id).isDue now id' = (id' != id && t.isDue now id') := by
  by_cases h : id' = id <;> simp [cancel, isDue_put, h]

/-- A timer that is due after one is cancelled was due before. -/
theorem isDue_of_cancel {t : Timers} {now : Instant} {id id' : TimerId}
    (h : (t.cancel id).isDue now id' = true) : t.isDue now id' = true := by
  rw [isDue_cancel, Bool.and_eq_true] at h
  exact h.2

/-- A timer that is set to fire after some time is not due before that. -/
theorem isDue_of_arm {t : Timers} {now : Instant} {id id' : TimerId} {d : Duration}
    (h : now < .last) (hd : 0 < d.millis) (hdue : (t.arm id now d).isDue now id' = true) :
    t.isDue now id' = true := by
  have hlt := Instant.not_le.2 (Instant.lt_after h hd)
  by_cases hid : id' = id
  · simp [arm, isDue_put, hid, hlt] at hdue
  · simpa [arm, isDue_put, hid] using hdue

/-- The timer that is due first is due. -/
theorem isDue_of_firstDue {t : Timers} {now : Instant} {id : TimerId}
    (h : t.firstDue now = some id) : t.isDue now id = true := by
  obtain ⟨i, hd, hi⟩ := deadline_of_firstDue h
  simp [isDue, hd, hi]

/-- How many timers are due. -/
def overdue (t : Timers) (now : Instant) : Nat := TimerId.all.countP (t.isDue now)

/-- There are five timers, so that no more than five are due. -/
theorem overdue_le (t : Timers) (now : Instant) : t.overdue now ≤ 5 := List.countP_le_length

/-- Changing a deadline matters to the timer it belongs to and to no other. -/
theorem overdue_put (t : Timers) (now : Instant) (id : TimerId) (i : Option Instant) :
    (t.put id i).overdue now + (if t.isDue now id then 1 else 0) =
      t.overdue now + (if i.any (· ≤ now) then 1 else 0) := by
  simp only [overdue, TimerId.all, List.countP_cons, List.countP_nil, isDue_put]
  cases id <;> simp only [reduceCtorEq, if_true, if_false] <;> omega

/-- If no timer but one has become due, there is at most one more that is due. -/
theorem overdue_le_succ {t t' : Timers} {now : Instant} (id : TimerId)
    (h : ∀ id', id' ≠ id → t'.isDue now id' = true → t.isDue now id' = true) :
    t'.overdue now ≤ t.overdue now + 1 := by
  have hput := overdue_put t' now id none
  have hle : (t'.cancel id).overdue now ≤ t.overdue now := by
    refine List.countP_mono_left fun id' _ hdue => ?_
    rw [isDue_cancel, Bool.and_eq_true] at hdue
    exact h id' (by simpa using hdue.1) hdue.2
  rw [cancel] at hle
  simp only [Option.any_none, Bool.false_eq_true, if_false] at hput
  split at hput <;> omega

/-- Taking back a timer that is due leaves one less. -/
theorem overdue_cancel {t : Timers} {now : Instant} {id : TimerId}
    (h : t.firstDue now = some id) : (t.cancel id).overdue now + 1 = t.overdue now := by
  have := overdue_put t now id none
  simpa [isDue_of_firstDue h, cancel] using this

end Timers

end EdgeDevice
