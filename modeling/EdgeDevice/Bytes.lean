set_option autoImplicit false
set_option relaxedAutoImplicit false

/-!
# Bytes, and data held in a fixed space

Everything a device sends or receives is a list of bytes. What it keeps, it keeps in a space of a
fixed size: a `Buffer` holds bytes, a `Text` holds a string counted in UTF-8 bytes. Data that does
not fit is refused as a whole and the old content stays.

## Main definitions

* `EdgeDevice.Bytes` — a list of bytes, with its reading as UTF-8 text.
* `EdgeDevice.Buffer` — at most `capacity` bytes.
* `EdgeDevice.Text` — a string of at most `capacity` bytes.

## Main results

* `EdgeDevice.Bytes.text?_ofText` — the bytes of a text read back as that text.
* `EdgeDevice.Bytes.ofText_of_text?` — bytes that read as a text are the bytes of that text.
-/

namespace EdgeDevice

/-- A finite sequence of bytes. -/
abbrev Bytes := List UInt8

namespace Bytes

/-- The UTF-8 bytes of a text. -/
def ofText (s : String) : Bytes := s.toByteArray.data.toList

/-- The text that the bytes spell in UTF-8, if they are well formed: shortest forms only, no
surrogates, nothing above U+10FFFF. -/
def text? (bs : Bytes) : Option String := String.fromUTF8? ⟨bs.toArray⟩

/-- A number below 65536 as two bytes, the high one first. -/
def ofWord (n : Nat) : Bytes := [UInt8.ofNat (n / 256), UInt8.ofNat n]

/-- The number that two bytes spell, the high one first. -/
def word (high low : UInt8) : Nat := high.toNat * 256 + low.toNat

/-- The bytes of a text spell that text. -/
theorem text?_ofText (s : String) : text? (ofText s) = some s := by
  have h : (⟨(ofText s).toArray⟩ : ByteArray) = s.toByteArray := by simp [ofText]
  rw [text?, h, String.fromUTF8?, dif_pos s.isValidUTF8]
  rfl

/-- Bytes that spell a text are the bytes of that text. -/
theorem ofText_of_text? {bs : Bytes} {s : String} (h : text? bs = some s) : ofText s = bs := by
  rw [text?, String.fromUTF8?] at h
  split at h
  · injection h with h
    subst h
    rfl
  · simp at h

/-- Texts with the same bytes are the same. -/
theorem eq_of_ofText_eq {s t : String} (h : ofText s = ofText t) : s = t :=
  Option.some.inj (by rw [← text?_ofText s, h, text?_ofText t])

/-- The bytes of two texts one behind the other are those of the first and then those of the
second. -/
theorem ofText_append (s t : String) : ofText (s ++ t) = ofText s ++ ofText t := by
  simp [ofText, String.toByteArray_append]

/-- A text has as many bytes as its size says. -/
theorem length_ofText (s : String) : (ofText s).length = s.utf8ByteSize := by
  rfl

/-- A word takes two bytes. -/
theorem length_ofWord (n : Nat) : (ofWord n).length = 2 := rfl

/-- Cutting a number below 2¹⁶ into two bytes and putting them together again gives the number. -/
theorem word_ofNat {n : Nat} (h : n < 65536) :
    word (UInt8.ofNat (n / 256)) (UInt8.ofNat n) = n := by
  simp only [word, UInt8.toNat_ofNat']
  omega

/-- Two bytes make a number of 16 bits. -/
theorem word_lt (high low : UInt8) : word high low < 65536 := by
  have hh := high.toNat_lt
  have hl := low.toNat_lt
  unfold word
  omega

/-- Putting two bytes together and cutting the number again gives the two bytes. -/
theorem ofWord_word (high low : UInt8) : ofWord (word high low) = [high, low] := by
  have hl := low.toNat_lt
  have hdiv : word high low / 256 = high.toNat := by
    unfold word
    omega
  have hmod : word high low % 256 = low.toNat := by
    unfold word
    omega
  rw [ofWord, hdiv, UInt8.ofNat_toNat, ← UInt8.ofNat_mod_size, hmod, UInt8.ofNat_toNat]

end Bytes

/-! ## Bounded data -/

/-- At most `capacity` bytes. -/
structure Buffer (capacity : Nat) where
  /-- The content. -/
  bytes : Bytes
  length_le : bytes.length ≤ capacity
  deriving DecidableEq

namespace Buffer

variable {capacity : Nat}

/-- The buffer without content. -/
def empty : Buffer capacity := ⟨[], Nat.zero_le _⟩

instance : Inhabited (Buffer capacity) := ⟨empty⟩

/-- The bytes as a buffer, if they fit. -/
def ofBytes? (bs : Bytes) : Option (Buffer capacity) :=
  if h : bs.length ≤ capacity then some ⟨bs, h⟩ else none

/-- Bytes fit a buffer if there are no more of them than its capacity. -/
theorem ofBytes?_of_le {bs : Bytes} (h : bs.length ≤ capacity) :
    (ofBytes? bs : Option (Buffer capacity)) = some ⟨bs, h⟩ := dif_pos h

/-- Bytes that fit a buffer are no more than its capacity. -/
theorem length_of_ofBytes? {bs : Bytes} {buffer : Buffer capacity}
    (h : ofBytes? bs = some buffer) : bs.length ≤ capacity := by
  unfold ofBytes? at h
  split at h
  · assumption
  · cases h

/-- Bytes do not fit a buffer exactly if there are more of them than its capacity. -/
theorem ofBytes?_eq_none_iff {bs : Bytes} :
    (ofBytes? bs : Option (Buffer capacity)) = none ↔ capacity < bs.length := by
  simp [ofBytes?]

/-- A buffer is determined by its bytes. -/
theorem ext {a b : Buffer capacity} (h : a.bytes = b.bytes) : a = b := by
  cases a
  cases b
  simp_all

end Buffer

/-- A string of at most `capacity` UTF-8 bytes. -/
structure Text (capacity : Nat) where
  /-- The content. -/
  string : String
  size_le : string.utf8ByteSize ≤ capacity
  deriving DecidableEq

namespace Text

variable {capacity : Nat}

/-- The text without content. -/
def empty : Text capacity := ⟨"", Nat.zero_le _⟩

instance : Inhabited (Text capacity) := ⟨empty⟩

/-- The string as a text, if it fits. -/
def ofString? (s : String) : Option (Text capacity) :=
  if h : s.utf8ByteSize ≤ capacity then some ⟨s, h⟩ else none

/-- The text with `s` behind it, if that still fits. -/
def append? (t : Text capacity) (s : String) : Option (Text capacity) := ofString? (t.string ++ s)

/-- The UTF-8 bytes of the content. -/
def bytes (t : Text capacity) : Bytes := Bytes.ofText t.string

/-- A string fits if its size is at most the capacity. -/
theorem ofString?_of_le {s : String} (h : s.utf8ByteSize ≤ capacity) :
    (ofString? s : Option (Text capacity)) = some ⟨s, h⟩ := dif_pos h

/-- A string does not fit exactly if its size is more than the capacity. -/
theorem ofString?_eq_none_iff {s : String} :
    (ofString? s : Option (Text capacity)) = none ↔ capacity < s.utf8ByteSize := by
  simp [ofString?]

end Text

end EdgeDevice
