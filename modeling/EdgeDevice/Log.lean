set_option autoImplicit false
set_option relaxedAutoImplicit false

/-!
# The log

A step of the device may leave remarks for whoever watches it. A remark never changes what the
step does, so a step is a value together with the entries it left, in order: `Logged`.

Each part of the device has its own type of remarks, an inductive type of causes, and says once in
its `Loggable` instance at which level and in which words they are written.

## Main definitions

* `EdgeDevice.Entry` — one line of the log.
* `EdgeDevice.Loggable` — a type of remarks with their wording.
* `EdgeDevice.Logged` — a value with the entries left on the way to it; a lawful monad.
-/

namespace EdgeDevice

/-- How much attention an entry asks for. -/
inductive Level where
  | error
  | warn
  | info
  | debug
  deriving DecidableEq, Repr

/-- The level in capitals, as it stands in front of an entry. -/
def Level.name : Level → String
  | .error => "ERROR"
  | .warn => "WARN"
  | .info => "INFO"
  | .debug => "DEBUG"

/-- One line of the log. -/
structure Entry where
  level : Level
  text : String
  deriving DecidableEq, Repr

/-- The line as it is shown. -/
def Entry.line (e : Entry) : String := e.level.name ++ " " ++ e.text

/-- Remarks that can be written to the log. -/
class Loggable (ν : Type) where
  /-- The level and the wording of a remark. -/
  entry : ν → Entry

/-- A value and the entries left on the way to it, oldest first. -/
structure Logged (α : Type) where
  value : α
  entries : List Entry := []

namespace Logged

instance : Monad Logged where
  pure a := ⟨a, []⟩
  bind x f := ⟨(f x.value).value, x.entries ++ (f x.value).entries⟩

/-- Leaves one remark. -/
def remark {ν : Type} [Loggable ν] (n : ν) : Logged Unit := ⟨(), [Loggable.entry n]⟩

variable {α β : Type}

/-- What is only returned is the value. -/
@[simp] theorem value_pure (a : α) : (pure a : Logged α).value = a := rfl

/-- What is only returned is not remarked on. -/
@[simp] theorem entries_pure (a : α) : (pure a : Logged α).entries = [] := rfl

/-- The value of two steps is that of the second one, from the value of the first. -/
@[simp] theorem value_bind (x : Logged α) (f : α → Logged β) :
    (x >>= f).value = (f x.value).value := rfl

/-- The remarks of two steps are those of the first and then those of the second. -/
@[simp] theorem entries_bind (x : Logged α) (f : α → Logged β) :
    (x >>= f).entries = x.entries ++ (f x.value).entries := rfl

/-- The value is looked at without another step. -/
@[simp] theorem value_map (f : α → β) (x : Logged α) : (f <$> x).value = f x.value := rfl

/-- A remark has no value of its own. -/
@[simp] theorem value_remark {ν : Type} [Loggable ν] (n : ν) : (remark n).value = () := rfl

/-- Two steps are the same if they have the same value and the same remarks. -/
theorem ext {x y : Logged α} (hv : x.value = y.value) (he : x.entries = y.entries) : x = y := by
  cases x
  cases y
  simp_all

instance : LawfulMonad Logged :=
  LawfulMonad.mk' Logged (fun _ => ext rfl (by simp [Functor.map])) (fun _ _ => ext rfl rfl)
    (fun _ _ _ => ext rfl (by simp [List.append_assoc]))

end Logged

end EdgeDevice
