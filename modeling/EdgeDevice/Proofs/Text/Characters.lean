import EdgeDevice.Bytes

set_option autoImplicit false
set_option relaxedAutoImplicit false

/-!
# Characters as bytes

A character of ASCII is one byte, the one with its own number. All bytes of any other character have
their highest bit set. So a byte of ASCII in a text is a character of ASCII there, and marks can be
looked for byte by byte.

## Main definitions

* `EdgeDevice.Bytes.ofChars` — the UTF-8 bytes of characters.

## Main results

* `EdgeDevice.Bytes.exists_of_mem_ofChars` — a byte of ASCII is a character.
* `EdgeDevice.Bytes.ofChars_of_ascii` — characters of ASCII are bytes one to one.
-/

namespace EdgeDevice.Bytes

/-- The UTF-8 bytes of characters. -/
def ofChars (cs : List Char) : Bytes := ofText (String.ofList cs)

/-- The bytes of the characters of a text are the bytes of the text. -/
theorem ofChars_toList (s : String) : ofChars s.toList = ofText s := by
  rw [ofChars, String.ofList_toList]

/-- The bytes of characters one behind the other stand one behind the other. -/
theorem ofChars_append (cs ds : List Char) : ofChars (cs ++ ds) = ofChars cs ++ ofChars ds := by
  rw [ofChars, String.ofList_append, ofText_append]
  rfl

/-- The bytes of the first character stand in front. -/
theorem ofChars_cons (c : Char) (cs : List Char) :
    ofChars (c :: cs) = ofChars [c] ++ ofChars cs := ofChars_append [c] cs

/-- The bytes of one character are its UTF-8 form. -/
theorem ofChars_singleton (c : Char) : ofChars [c] = String.utf8EncodeChar c := by
  simp [ofChars, ofText, List.utf8Encode]

/-- A character below U+0080 has one byte, its number. -/
theorem ofChars_singleton_of_ascii {c : Char} (h : c.toNat < 0x80) :
    ofChars [c] = [UInt8.ofNat c.toNat] := by
  have hle : c.val.toNat ≤ 127 := Nat.le_of_lt_succ h
  rw [ofChars_singleton, String.utf8EncodeChar]
  simp only [if_pos hle]
  rfl

/-- No byte of any other character is below 0x80. -/
theorem le_of_mem_ofChars_singleton {c : Char} (h : 0x80 ≤ c.toNat) {b : UInt8}
    (hb : b ∈ ofChars [c]) : 0x80 ≤ b.toNat := by
  have hgt : ¬ c.val.toNat ≤ 127 := Nat.not_le_of_lt h
  rw [ofChars_singleton, String.utf8EncodeChar] at hb
  simp only [if_neg hgt] at hb
  split at hb
  · simp only [List.mem_cons, List.not_mem_nil, or_false] at hb
    rcases hb with rfl | rfl <;> rw [UInt8.toNat_ofNat'] <;> omega
  · split at hb
    · simp only [List.mem_cons, List.not_mem_nil, or_false] at hb
      rcases hb with rfl | rfl | rfl <;> rw [UInt8.toNat_ofNat'] <;> omega
    · simp only [List.mem_cons, List.not_mem_nil, or_false] at hb
      rcases hb with rfl | rfl | rfl | rfl <;> rw [UInt8.toNat_ofNat'] <;> omega

/-- **A byte of ASCII in a text is a character of it.** -/
theorem exists_of_mem_ofChars {cs : List Char} {b : UInt8} (hb : b ∈ ofChars cs)
    (hlt : b.toNat < 0x80) : ∃ c ∈ cs, c.toNat = b.toNat := by
  induction cs with
  | nil => cases hb
  | cons c cs ih =>
    rw [ofChars_cons] at hb
    rcases List.mem_append.1 hb with hb | hb
    · refine ⟨c, List.mem_cons_self, ?_⟩
      by_cases hc : c.toNat < 0x80
      · rw [ofChars_singleton_of_ascii hc, List.mem_singleton] at hb
        rw [hb, UInt8.toNat_ofNat']
        omega
      · have := le_of_mem_ofChars_singleton (Nat.le_of_not_lt hc) hb
        omega
    · obtain ⟨d, hd, he⟩ := ih hb
      exact ⟨d, List.mem_cons_of_mem _ hd, he⟩

/-- **Characters of ASCII are bytes one to one.** -/
theorem ofChars_of_ascii {cs : List Char} (h : ∀ c ∈ cs, c.toNat < 0x80) :
    ofChars cs = cs.map fun c => UInt8.ofNat c.toNat := by
  induction cs with
  | nil => rfl
  | cons c cs ih =>
    obtain ⟨hc, hcs⟩ := List.forall_mem_cons.1 h
    rw [ofChars_cons, ofChars_singleton_of_ascii hc, ih hcs]
    rfl

end EdgeDevice.Bytes
