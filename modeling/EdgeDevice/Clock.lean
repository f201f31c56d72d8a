set_option autoImplicit false
set_option relaxedAutoImplicit false

/-!
# Instants and durations

The clock of the device counts whole milliseconds since it was switched on. It is a 64-bit counter,
so there is a last instant; a deadline past it is moved to it.

Lengths of time are finer than the clock and reach further: they are counted in nanoseconds, and 64
bits hold the whole seconds. A sum that would be longer than the longest length is cut to it.

## Main definitions

* `EdgeDevice.Duration` — a length of time in nanoseconds.
* `EdgeDevice.Instant` — milliseconds since switching on, at most `Instant.last`.
-/

namespace EdgeDevice

/-- A length of time in nanoseconds. -/
abbrev Duration := Nat

namespace Duration

/-- A duration of whole milliseconds. -/
def ofMillis (n : Nat) : Duration := n * 1000000

/-- A duration of whole seconds. -/
def ofSeconds (s : Nat) : Duration := s * 1000000000

/-- The whole milliseconds in a duration. -/
def millis (d : Duration) : Nat := d / 1000000

/-- The longest duration: the largest number of seconds that 64 bits hold, and all but a nanosecond
of another. -/
def longest : Duration := 18446744073709551615999999999

/-- The sum of two durations, the longest one at most. -/
def plus (d e : Duration) : Duration := min (d + e) longest

/-- A duration given in milliseconds has so many of them. -/
@[simp] theorem millis_ofMillis (n : Nat) : (ofMillis n).millis = n :=
  Nat.mul_div_cancel n (by decide)

/-- A second has a thousand milliseconds. -/
@[simp] theorem millis_ofSeconds (s : Nat) : (ofSeconds s).millis = s * 1000 := by
  simp only [ofSeconds, millis]
  omega

/-- A sum of durations stops at the longest one. -/
theorem plus_le_longest (d e : Duration) : d.plus e ≤ longest := Nat.min_le_right _ _

/-- A sum of durations that is not beyond the longest one is exact. -/
theorem plus_of_le {d e : Duration} (h : d + e ≤ longest) : d.plus e = d + e := Nat.min_eq_left h

end Duration

/-- The largest count of milliseconds the clock can show, the largest number of 64 bits. -/
def lastMillisecond : Nat := 18446744073709551615

/-- A point in time. -/
structure Instant where
  /-- Milliseconds since the device was switched on. -/
  millis : Nat
  millis_le : millis ≤ lastMillisecond
  deriving DecidableEq

namespace Instant

/-- The instant `n` milliseconds after switching on, or the last one if the clock cannot show it. -/
def ofMillis (n : Nat) : Instant := ⟨min n lastMillisecond, Nat.min_le_right _ _⟩

/-- The instant `s` seconds after switching on. -/
def ofSeconds (s : Nat) : Instant := ofMillis (s * 1000)

/-- When the device is switched on. -/
def start : Instant := ofMillis 0

/-- The last instant the clock can show. -/
def last : Instant := ofMillis lastMillisecond

instance : Inhabited Instant := ⟨start⟩

/-- The instant `d` later in whole milliseconds, the last one at the latest. -/
def after (t : Instant) (d : Duration) : Instant := ofMillis (t.millis + d.millis)

instance : LE Instant := ⟨fun a b => a.millis ≤ b.millis⟩

instance : LT Instant := ⟨fun a b => a.millis < b.millis⟩

instance (a b : Instant) : Decidable (a ≤ b) := inferInstanceAs (Decidable (a.millis ≤ b.millis))

instance (a b : Instant) : Decidable (a < b) := inferInstanceAs (Decidable (a.millis < b.millis))

/-- Instants are in order as their milliseconds are. -/
theorem le_iff {a b : Instant} : a ≤ b ↔ a.millis ≤ b.millis := Iff.rfl

/-- One instant is before another if it has fewer milliseconds. -/
theorem lt_iff {a b : Instant} : a < b ↔ a.millis < b.millis := Iff.rfl

/-- An instant beyond the last one is the last one. -/
@[simp] theorem millis_ofMillis (n : Nat) : (ofMillis n).millis = min n lastMillisecond := rfl

/-- The clock stops at its last instant. -/
@[simp] theorem millis_after (t : Instant) (d : Duration) :
    (t.after d).millis = min (t.millis + d.millis) lastMillisecond := rfl

/-- An instant is determined by its milliseconds. -/
theorem ext {a b : Instant} (h : a.millis = b.millis) : a = b := by
  cases a
  cases b
  simp_all

end Instant

end EdgeDevice
