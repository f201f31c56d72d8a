import EdgeDevice.Command.Scan
import EdgeDevice.Log

set_option autoImplicit false
set_option relaxedAutoImplicit false

/-!
# What a command assigns

Of the members of a command only those under a known key count. Their values have to be integers,
or strings that spell one, and are moved into the range of 32 bits. The last value of a key wins;
the keys stand in the order in which they were first seen.

## Main definitions

* `EdgeDevice.Command.Assignment` — values for at most three keys.
* `EdgeDevice.Command.Value.integer?` — the integer that a value stands for.
* `EdgeDevice.Command.read` — the assignment that a payload spells for given keys.

## Main results

* `EdgeDevice.Command.Assignment.get?_eq_some_iff` — the value of a key is the one that stands with
  it.
-/

namespace EdgeDevice.Command

/-- The integer that a value stands for, moved into the range of 32 bits. A string may have blanks
around the number. -/
def Value.integer? : Value → Option Int
  | .integer n => some (Decimal.clamp n)
  | .text s => (Decimal.integer? (Blank.trim s.toList)).map Decimal.clamp
  | .other => none

/-- Values for keys, in the order in which the keys were first seen. -/
structure Assignment where
  entries : List (String × Int)
  length_le : entries.length ≤ 3
  nodup : (entries.map Prod.fst).Nodup
  deriving DecidableEq

namespace Assignment

/-- No values. -/
def empty : Assignment := ⟨[], Nat.zero_le _, List.nodup_nil⟩

instance : Inhabited Assignment := ⟨empty⟩

/-- The value of a key. -/
def get? (a : Assignment) (key : String) : Option Int :=
  (a.entries.find? fun e => e.1 == key).map Prod.snd

/-- Where keys do not repeat, the entry that is found under a key is the one that is there. -/
theorem find?_eq_some_iff {entries : List (String × Int)} (hn : (entries.map Prod.fst).Nodup)
    (key : String) (e : String × Int) :
    entries.find? (fun e => e.1 == key) = some e ↔ e ∈ entries ∧ e.1 = key := by
  constructor
  · intro h
    have hk := List.find?_some h
    exact ⟨List.mem_of_find?_eq_some h, eq_of_beq hk⟩
  · rintro ⟨he, rfl⟩
    induction entries with
    | nil => cases he
    | cons e' entries ih =>
      rw [List.map_cons, List.nodup_cons] at hn
      rcases List.mem_cons.1 he with rfl | he
      · simp
      · have hne : e'.1 ≠ e.1 := fun h => hn.1 (h ▸ List.mem_map_of_mem he)
        rw [List.find?_cons_of_neg (by simpa using hne)]
        exact ih hn.2 he

/-- The value of a key is the one that stands with it. -/
theorem get?_eq_some_iff {a : Assignment} {key : String} {n : Int} :
    a.get? key = some n ↔ (key, n) ∈ a.entries := by
  simp only [get?, Option.map_eq_some_iff, find?_eq_some_iff a.nodup]
  constructor
  · rintro ⟨e, ⟨he, rfl⟩, rfl⟩
    exact he
  · intro h
    exact ⟨(key, n), ⟨h, rfl⟩, rfl⟩

/-- The assignment gives no value. -/
def isEmpty (a : Assignment) : Bool := a.entries.isEmpty

/-- A value found no room. -/
inductive Remark where
  | dropped (key : String)

instance : Loggable Remark where
  entry
    | .dropped key => ⟨.warn, s!"Dropping command value for {key}"⟩

/-- Puts a value in place of the one under a key. -/
def replace (key : String) (n : Int) (entries : List (String × Int)) : List (String × Int) :=
  entries.map fun e => if e.1 = key then (key, n) else e

/-- Replacing a value leaves the keys and their order as they are. -/
theorem map_fst_replace (key : String) (n : Int) (entries : List (String × Int)) :
    (replace key n entries).map Prod.fst = entries.map Prod.fst := by
  simp only [replace, List.map_map]
  refine List.map_congr_left fun e _ => ?_
  simp only [Function.comp_apply]
  split
  · rename_i h
    exact h.symm
  · rfl

/-- Gives a key a value, in place of an earlier one if there is one. A fourth key is left out. -/
def set (a : Assignment) (key : String) (n : Int) : Logged Assignment :=
  if hk : key ∈ a.entries.map Prod.fst then
    return ⟨replace key n a.entries, by
      rw [replace, List.length_map]
      exact a.length_le, by
      rw [map_fst_replace]
      exact a.nodup⟩
  else if h : a.entries.length < 3 then
    return ⟨a.entries ++ [(key, n)], by
      rw [List.length_append]
      exact h, by
      rw [List.map_append]
      exact (List.perm_append_singleton key _).nodup_iff.2 (List.nodup_cons.2 ⟨hk, a.nodup⟩)⟩
  else do
    Logged.remark (Remark.dropped key)
    return a

end Assignment

/-- What a payload comes to for given keys. -/
inductive Verdict where
  /-- At least one of the keys has a value. -/
  | found (a : Assignment)
  /-- The payload is an object without any of the keys. -/
  | notFound
  /-- The payload is out of shape, or one of the keys has a value that is no integer. -/
  | malformed
  deriving DecidableEq

/-- Gathers the values of known keys from what a scan yields. -/
def gather (keys : List String) : List Item → Assignment → Logged Verdict
  | [], a => return if a.isEmpty then .notFound else .found a
  | .malformed :: _, _ => return .malformed
  | .pair key value :: rest, a =>
    if keys.contains key then
      match value.integer? with
      | some n => do gather keys rest (← a.set key n)
      | none => return .malformed
    else gather keys rest a

/-- The assignment that a payload spells for the given keys. -/
def read (payload : Bytes) (keys : List String) : Logged Verdict :=
  gather keys (pairs payload) .empty

end EdgeDevice.Command
