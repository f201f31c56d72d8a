import EdgeDevice.Clock

set_option autoImplicit false
set_option relaxedAutoImplicit false

/-!
# Timers

A node has five timers, each of which fires once at its deadline. Setting a timer that is already
set replaces the deadline.

## Main definitions

* `EdgeDevice.TimerId` — the five timers; `TimerId.all` lists them in the order in which timers with
  the same deadline fire.
* `EdgeDevice.Timers` — a deadline for every timer that is set.
* `EdgeDevice.Timers.arm`, `EdgeDevice.Timers.cancel`, `EdgeDevice.Timers.takeExpired`.

## Main results

* `EdgeDevice.Timers.deadline_arm`, `EdgeDevice.Timers.deadline_cancel` — what the operations do to
  each deadline.
-/

namespace EdgeDevice

/-- The timers of a node. -/
inductive TimerId where
  /-- Looks for connectivity. -/
  | connectivityProbe
  /-- Bounds the wait for a pending session. -/
  | sessionDeadline
  /-- Puts off telling the chosen period until the user has stopped pressing. -/
  | configuration
  /-- Beats the chosen period. -/
  | cadence
  /-- Toggles the light. -/
  | blink
  deriving DecidableEq, Repr

namespace TimerId

/-- Every timer, the ones that fire first at a common deadline in front. -/
def all : List TimerId := [connectivityProbe, sessionDeadline, configuration, cadence, blink]

/-- A timer by its name. -/
def name : TimerId → String
  | connectivityProbe => "ConnectivityProbe"
  | sessionDeadline => "SessionDeadline"
  | configuration => "Configuration"
  | cadence => "Cadence"
  | blink => "Blink"

/-- Every timer is in the list of all timers. -/
theorem mem_all (id : TimerId) : id ∈ all := by cases id <;> decide

end TimerId

/-- A deadline for every timer that is set. -/
structure Timers where
  connectivityProbe : Option Instant := none
  sessionDeadline : Option Instant := none
  configuration : Option Instant := none
  cadence : Option Instant := none
  blink : Option Instant := none
  deriving DecidableEq

namespace Timers

/-- No timer is set. -/
def empty : Timers := {}

/-- The deadline of a timer, if it is set. -/
def deadline (t : Timers) : TimerId → Option Instant
  | .connectivityProbe => t.connectivityProbe
  | .sessionDeadline => t.sessionDeadline
  | .configuration => t.configuration
  | .cadence => t.cadence
  | .blink => t.blink

/-- Changes the deadline of one timer. -/
def put (t : Timers) (id : TimerId) (at? : Option Instant) : Timers :=
  match id with
  | .connectivityProbe => { t with connectivityProbe := at? }
  | .sessionDeadline => { t with sessionDeadline := at? }
  | .configuration => { t with configuration := at? }
  | .cadence => { t with cadence := at? }
  | .blink => { t with blink := at? }

/-- Sets a timer to fire after some time. -/
def arm (t : Timers) (id : TimerId) (now : Instant) (d : Duration) : Timers :=
  t.put id (some (now.after d))

/-- Takes a timer back. -/
def cancel (t : Timers) (id : TimerId) : Timers := t.put id none

/-- Whether a timer is set. -/
def isPending (t : Timers) (id : TimerId) : Bool := (t.deadline id).isSome

/-- The timers that are set, with their deadlines. -/
def pending (t : Timers) : List (Instant × TimerId) :=
  TimerId.all.filterMap fun id => (t.deadline id).map fun at? => (at?, id)

/-- The first of the entries with the earliest instant. -/
def earliest : List (Instant × TimerId) → Option (Instant × TimerId)
  | [] => none
  | e :: es =>
    match earliest es with
    | none => some e
    | some e' => if e'.1 < e.1 then some e' else some e

/-- The earliest deadline. -/
def nextDeadline (t : Timers) : Option Instant := (earliest t.pending).map Prod.fst

/-- The timer that is due first, if one is due. -/
def firstDue (t : Timers) (now : Instant) : Option TimerId :=
  (earliest (t.pending.filter fun e => e.1 ≤ now)).map Prod.snd

/-- Takes the timer that is due first, which is then no longer set. -/
def takeExpired (t : Timers) (now : Instant) : Option TimerId × Timers :=
  match t.firstDue now with
  | some id => (some id, t.cancel id)
  | none => (none, t)

/-- Changing one deadline leaves those of the other timers as they are. -/
@[simp] theorem deadline_put (t : Timers) (id id' : TimerId) (at? : Option Instant) :
    (t.put id at?).deadline id' = if id' = id then at? else t.deadline id' := by
  cases id <;> cases id' <;> rfl

/-- Setting a timer sets its deadline and no other. -/
theorem deadline_arm (t : Timers) (id id' : TimerId) (now : Instant) (d : Duration) :
    (t.arm id now d).deadline id' = if id' = id then some (now.after d) else t.deadline id' :=
  deadline_put ..

/-- Cancelling a timer takes its deadline and no other. -/
theorem deadline_cancel (t : Timers) (id id' : TimerId) :
    (t.cancel id).deadline id' = if id' = id then none else t.deadline id' :=
  deadline_put ..

/-- A set of timers is determined by the deadlines. -/
theorem ext {t t' : Timers} (h : ∀ id, t.deadline id = t'.deadline id) : t = t' := by
  cases t
  cases t'
  simp only [mk.injEq]
  exact ⟨h .connectivityProbe, h .sessionDeadline, h .configuration, h .cadence, h .blink⟩

end Timers

end EdgeDevice
