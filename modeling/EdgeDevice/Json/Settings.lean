import EdgeDevice.Bytes

set_option autoImplicit false
set_option relaxedAutoImplicit false

/-!
# Settings documents

Settings are a flat JSON object. A schema lists the fields that are known, each with what its value
may be. How a document is taken apart is left to a reader: it yields the values of the known fields
that it found, or nothing if the document does not follow the schema. A device relies on one thing
only: a value that is found is one that the schema admits for its field. That is a law of the
reader, apart from the reader itself.

## Main definitions

* `EdgeDevice.Settings.Shape`, `EdgeDevice.Settings.Schema` — what fields there may be.
* `EdgeDevice.Settings.Schema.Admits` — a value is one that the schema allows.
* `EdgeDevice.Settings.Reader`, `EdgeDevice.Settings.Reader.Lawful` — what reads documents, and the
  law of it.
* `EdgeDevice.Settings.naturalOr`, `EdgeDevice.Settings.textOr` — the value of a field, or its
  default.
-/

namespace EdgeDevice.Settings

/-- What the value of a field may be. -/
inductive Shape where
  /-- A string of at most so many bytes. -/
  | text (capacity : Nat)
  /-- A whole number from zero on that is not larger than the bound. -/
  | natural (bound : Nat)
  deriving DecidableEq

/-- The value of a field. -/
inductive Datum where
  | text (s : String)
  | natural (n : Nat)
  deriving DecidableEq

/-- A value is one that a field of that shape may have. -/
def Shape.Admits : Shape → Datum → Prop
  | .text capacity, .text s => s.utf8ByteSize ≤ capacity
  | .natural bound, .natural n => n ≤ bound
  | _, _ => False

/-- The fields that are known. -/
abbrev Schema := List (String × Shape)

/-- A value stands under a key of the schema and has the shape that the schema gives. -/
def Schema.Admits (schema : Schema) (e : String × Datum) : Prop :=
  ∃ shape, schema.lookup e.1 = some shape ∧ shape.Admits e.2

/-! ## Readers -/

/-- What finds the values of the known fields of a document; a document that does not follow the
schema has none. -/
class Reader where
  read : Schema → Bytes → Option (List (String × Datum))

/-- What is found are values of known fields, each of the shape of its field. -/
class Reader.Lawful [Reader] : Prop where
  admits_of_read {schema : Schema} {bs : Bytes} {found : List (String × Datum)} :
    Reader.read schema bs = some found → ∀ e ∈ found, schema.Admits e

/-! ## What was found -/

/-- The number under a key, or the one that stands for a missing field. -/
def naturalOr (found : List (String × Datum)) (key : String) (default : Nat) : Nat :=
  match found.lookup key with
  | some (.natural n) => n
  | _ => default

/-- The string under a key, or the one that stands for a missing field. -/
def textOr {capacity : Nat} (found : List (String × Datum)) (key : String)
    (default : Text capacity) : Text capacity :=
  match found.lookup key with
  | some (.text s) => (Text.ofString? s).getD default
  | _ => default

end EdgeDevice.Settings

namespace EdgeDevice

/-- Why settings cannot be used. -/
inductive SettingsError where
  /-- The document does not follow the schema. -/
  | unreadable
  /-- A field has a value with which the device cannot run. -/
  | invalid (field : String)
  deriving DecidableEq, Repr

end EdgeDevice
