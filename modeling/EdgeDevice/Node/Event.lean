import EdgeDevice.Node.Timers
import EdgeDevice.Session.Channel

set_option autoImplicit false
set_option relaxedAutoImplicit false

/-!
# Events and the queue they wait in

## Main definitions

* `EdgeDevice.NodeEvent` — what a node reacts to.
* `EdgeDevice.EventQueue` — up to eight events, first in, first out.
-/

namespace EdgeDevice

/-- What a node reacts to. -/
inductive NodeEvent where
  /-- A timer has fired. -/
  | timer (id : TimerId)
  /-- The button has been down for one more second. -/
  | buttonHeld
  /-- The button came up. -/
  | buttonReleased
  /-- The session has changed. -/
  | session (change : SessionChange)
  deriving DecidableEq, Repr

/-- An event in words. -/
def NodeEvent.describe : NodeEvent → String
  | timer id => "Timer(" ++ id.name ++ ")"
  | buttonHeld => "ButtonHeld"
  | buttonReleased => "ButtonReleased"
  | session change => "Session(" ++ change.name ++ ")"

/-- Events that wait, the oldest in front. -/
structure EventQueue where
  events : List NodeEvent
  length_le : events.length ≤ 8
  deriving DecidableEq

namespace EventQueue

/-- How many events can wait. -/
def capacity : Nat := 8

/-- No events. -/
def empty : EventQueue := ⟨[], Nat.zero_le _⟩

instance : Inhabited EventQueue := ⟨empty⟩

/-- How many events wait. -/
def size (q : EventQueue) : Nat := q.events.length

/-- Whether no event waits. -/
def isEmpty (q : EventQueue) : Bool := q.events.isEmpty

/-- Whether there is no room for another event. -/
def isFull (q : EventQueue) : Bool := q.size == capacity

/-- The queue with one more event at the end, if there is room for it. -/
def push? (q : EventQueue) (e : NodeEvent) : Option EventQueue :=
  if h : q.events.length < 8 then
    some ⟨q.events ++ [e], by rw [List.length_append]; exact h⟩
  else none

/-- The oldest event and the queue without it. -/
def pop? (q : EventQueue) : Option (NodeEvent × EventQueue) :=
  match q with
  | ⟨[], _⟩ => none
  | ⟨e :: es, h⟩ => some (e, ⟨es, Nat.le_of_succ_le h⟩)

/-- An event that is put into a queue is the last one in it. -/
theorem events_of_push? {q q' : EventQueue} {e : NodeEvent} (h : q.push? e = some q') :
    q'.events = q.events ++ [e] := by
  unfold push? at h
  split at h
  · injection h with h
    exact h ▸ rfl
  · simp at h

/-- An event is refused exactly if the queue is full. -/
theorem push?_eq_none_iff {q : EventQueue} {e : NodeEvent} :
    q.push? e = none ↔ q.isFull = true := by
  have := q.length_le
  simp only [push?, isFull, size, capacity, beq_iff_eq, dite_eq_right_iff, reduceCtorEq, imp_false]
  omega

/-- The event that is taken from a queue is the first one in it. -/
theorem events_of_pop? {q q' : EventQueue} {e : NodeEvent} (h : q.pop? = some (e, q')) :
    q.events = e :: q'.events := by
  unfold pop? at h
  split at h
  · simp at h
  · simp only [Option.some.injEq, Prod.mk.injEq] at h
    obtain ⟨rfl, rfl⟩ := h
    rfl

end EventQueue

end EdgeDevice
