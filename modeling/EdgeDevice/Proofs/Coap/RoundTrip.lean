import EdgeDevice.Proofs.Coap.Datagram

set_option autoImplicit false
set_option relaxedAutoImplicit false

/-!
# Messages come back as they were

Every message has a datagram, and the datagram is read as the message again, apart from needless
slashes in the path, which leave no trace. A path that was set segment by segment has none.

The datagram never needs all the room there is. What decides is how many segments can be long: a
segment of 13 bytes or more has two bytes in front of it where others have one, but only four such
segments fit into a path. The count is done with weights: 14 bytes of path, slash included, become
at most 15.

## Main definitions

* `EdgeDevice.Coap.Message.datagram` — what the datagram of a message says.

## Main results

* `EdgeDevice.Coap.Message.wellFormed_datagram` — it is within the limits of the format.
* `EdgeDevice.Coap.Message.length_bytes_le` — it has at most 213 bytes.
* `EdgeDevice.Coap.Message.decode_datagram` — what is read from it.
* `EdgeDevice.Coap.Message.decode_encode` — messages come back.
-/

namespace EdgeDevice.Coap.Message

open OptionField

/-! ## The format of the payload -/

/-- A format takes at most two bytes. -/
theorem length_formatBytes_le (format : UInt16) : (formatBytes format).length ≤ 2 := by
  unfold formatBytes
  split
  · exact Nat.zero_le _
  · split
    · exact Nat.le_succ _
    · exact Nat.le_refl _

/-- A format is spelled by the bytes it is written in. -/
theorem bigEndian_formatBytes (format : UInt16) :
    bigEndian (formatBytes format) = format.toNat := by
  have hlt := format.toNat_lt
  unfold formatBytes
  split
  · rename_i h
    rw [h]
    rfl
  · split
    · simp only [bigEndian, List.foldl_cons, List.foldl_nil, UInt8.toNat_ofNat']
      omega
    · simp only [bigEndian, Bytes.ofWord, List.foldl_cons, List.foldl_nil, UInt8.toNat_ofNat']
      omega

/-! ## The options of a message -/

/-- One segment of the path as an option. -/
def pathOption (s : String) : OptionField := ⟨uriPath, Bytes.ofText s⟩

/-- The format of the payload as an option. -/
def formatOption (format : UInt16) : OptionField := ⟨contentFormat, formatBytes format⟩

/-- A segment of the path has the number of path options. -/
theorem number_pathOption (s : String) : (pathOption s).number = uriPath := rfl

/-- A format has the number of format options. -/
theorem number_formatOption (format : UInt16) : (formatOption format).number = contentFormat :=
  rfl

/-- The options of a message are its segments and then its format, if it has one. -/
theorem options_eq (m : Message) :
    m.options = (Path.segments m.path.string).map pathOption ++
      m.format.toList.map formatOption := rfl

/-- The path options that are written hold the segments. -/
theorem valuesOf_path (segs : List String) (format : Option UInt16) :
    valuesOf uriPath (segs.map pathOption ++ format.toList.map formatOption) =
      segs.map Bytes.ofText := by
  induction segs with
  | nil => cases format <;> rfl
  | cons s segs ih =>
    rw [List.map_cons, List.cons_append, valuesOf_cons_of_eq (number_pathOption s), ih]
    rfl

/-- The format options that are written hold the format. -/
theorem valuesOf_format (segs : List String) (format : Option UInt16) :
    valuesOf contentFormat (segs.map pathOption ++ format.toList.map formatOption) =
      format.toList.map formatBytes := by
  induction segs with
  | nil => cases format <;> rfl
  | cons s segs ih =>
    have hne : (pathOption s).number ≠ contentFormat := by
      rw [number_pathOption]
      decide
    rw [List.map_cons, List.cons_append, valuesOf_cons_of_ne hne, ih]

/-- The format that is written is read again. -/
theorem lastFormat_formatBytes (format : Option UInt16) :
    lastFormat (format.toList.map formatBytes) = format := by
  cases format with
  | none => rfl
  | some format =>
    show some (UInt16.ofNat (bigEndian (formatBytes format))) = some format
    rw [bigEndian_formatBytes, UInt16.ofNat_toNat]

/-- The segments of a path, and behind them the format, are in the order of their numbers. -/
theorem ascending_options {last : Nat} (hl : last ≤ uriPath) {segs : List String}
    (hs : ∀ s ∈ segs, s.utf8ByteSize < unreachable) (format : Option UInt16) :
    Ascending last (segs.map pathOption ++ format.toList.map formatOption) := by
  induction segs generalizing last with
  | nil =>
    cases format with
    | none => exact ascending_nil last
    | some format =>
      have hlen := length_formatBytes_le format
      refine ascending_cons.2 ⟨?_, ⟨?_, Nat.lt_of_le_of_lt hlen (by decide)⟩, ascending_nil _⟩
      · exact Nat.le_succ_of_le hl
      · rw [number_formatOption]
        decide
  | cons s segs ih =>
    obtain ⟨hs₀, hs⟩ := List.forall_mem_cons.1 hs
    refine ascending_cons.2 ⟨hl, ⟨?_, hs₀⟩, ih (Nat.le_refl _) hs⟩
    rw [number_pathOption]
    decide

/-- A segment is no longer than its path. -/
theorem size_le_of_mem_segments {path s : String} (h : s ∈ Path.segments path) :
    s.utf8ByteSize ≤ path.utf8ByteSize := by
  have hmem := List.mem_map_of_mem (f := fun s => s.utf8ByteSize + 1) h
  have hsum := List.single_le_sum (fun _ _ => Nat.zero_le _) _ hmem
  have hle := Path.size_segments_le path
  omega

/-- A segment of the path of a message has at most 64 bytes. -/
theorem size_lt_of_mem_segments (m : Message) {s : String}
    (h : s ∈ Path.segments m.path.string) : s.utf8ByteSize < 65 :=
  Nat.lt_succ_of_le (Nat.le_trans (size_le_of_mem_segments h) m.path.size_le)

/-! ## The datagram of a message -/

/-- What the datagram of a message says. -/
def datagram (m : Message) : Datagram where
  type := m.type
  code := m.code
  id := m.id
  token := m.token.bytes
  options := m.options
  payload := m.payload.bytes

/-- The datagram of a message has the bytes of the message. -/
theorem bytes_datagram (m : Message) : m.datagram.bytes = m.bytes := rfl

/-- The datagram of a message keeps to the limits of the format. -/
theorem wellFormed_datagram (m : Message) : m.datagram.WellFormed where
  token := m.token.length_le
  options := ascending_options (Nat.zero_le _)
    (fun _ hs => Nat.lt_trans (m.size_lt_of_mem_segments hs) (by decide)) m.format
  payload := m.payload.length_le

/-- The segments of the path still fit when they are put together again. -/
theorem size_join_segments_le (m : Message) :
    (Path.join (Path.segments m.path.string)).utf8ByteSize ≤ maxPath :=
  Nat.le_trans (Path.size_join_segments_le m.path.string) m.path.size_le

/-- What the options of a message make of one that has neither path nor format. -/
theorem foldlM_options (m : Message) {n : Message} (hpath : n.path.string = "")
    (hnone : n.format = none) :
    m.options.foldlM applyOption n =
      .ok { n with path := ⟨Path.join (Path.segments m.path.string), m.size_join_segments_le⟩,
                   format := m.format } := by
  have hattach : Path.attachAll n.path.string (Path.segments m.path.string) =
      Path.join (Path.segments m.path.string) := by
    rw [hpath]
    exact Path.attachAll_empty_of_isSegment fun _ hs => Path.isSegment_of_mem_segments hs
  have hsegs : valuesOf uriPath m.options = (Path.segments m.path.string).map Bytes.ofText :=
    valuesOf_path _ m.format
  have hformat : ∀ v ∈ valuesOf contentFormat m.options, bigEndian v % 2 ^ 32 < 65536 := by
    intro v hv
    rw [options_eq, valuesOf_format] at hv
    obtain ⟨format, -, rfl⟩ := List.mem_map.1 hv
    exact bigEndian_mod_lt (length_formatBytes_le format)
  have hlast : lastFormat (valuesOf contentFormat m.options) = m.format := by
    rw [options_eq, valuesOf_format, lastFormat_formatBytes]
  rw [foldlM_applyOption hsegs (hattach ▸ m.size_join_segments_le) hformat]
  simp only [hattach, hlast, hnone, Option.or_none]

/-- **What is read from the datagram of a message**: the message, with the segments of its path put
together again. -/
theorem decode_datagram (m : Message) :
    Message.decode m.datagram.bytes =
      .ok { m with
        path := ⟨Path.join (Path.segments m.path.string), m.size_join_segments_le⟩ } := by
  have hoptions : m.datagram.options = m.options := rfl
  rw [Datagram.decode_bytes m.wellFormed_datagram, hoptions, foldlM_options m rfl rfl]
  rfl

/-! ## The size of a datagram -/

/-- A number below 13 needs no further byte. -/
theorem length_extended_of_lt {n : Nat} (h : n < 13) : (extended n).2.length = 0 := by
  rw [extended, if_pos h]
  rfl

/-- A number below 269 needs at most one further byte. -/
theorem length_extended_le {n : Nat} (h : n < 269) : (extended n).2.length ≤ 1 := by
  unfold extended
  split
  · exact Nat.zero_le _
  · exact Nat.le_refl _

/-- An option takes its first byte, the further bytes of difference and length, and its value. -/
theorem length_write (last : Nat) (o : OptionField) :
    (o.write last).length = 1 + (extended (o.number - last)).2.length +
      (extended o.value.length).2.length + o.value.length := by
  simp only [write, List.length_cons, List.length_append]
  omega

/-- Fourteen bytes of path, slash included, become at most fifteen. -/
theorem length_write_pathOption (last : Nat) {s : String} (hs : s.utf8ByteSize < 269) :
    14 * ((pathOption s).write last).length ≤ 15 * (s.utf8ByteSize + 1) := by
  have hvalue : (pathOption s).value.length = s.utf8ByteSize := rfl
  have hdelta : (extended ((pathOption s).number - last)).2.length = 0 := by
    rw [number_pathOption]
    exact length_extended_of_lt (Nat.lt_of_le_of_lt (Nat.sub_le _ _) (by decide))
  rw [length_write, hdelta, hvalue]
  by_cases hshort : s.utf8ByteSize < 13
  · rw [length_extended_of_lt hshort]
    omega
  · have hlen := length_extended_le hs
    omega

/-- A format option takes at most three bytes. -/
theorem length_write_formatOption (last : Nat) (format : UInt16) :
    ((formatOption format).write last).length ≤ 3 := by
  have hvalue : (formatOption format).value.length ≤ 2 := length_formatBytes_le format
  have hdelta : (extended ((formatOption format).number - last)).2.length = 0 := by
    rw [number_formatOption]
    exact length_extended_of_lt (Nat.lt_of_le_of_lt (Nat.sub_le _ _) (by decide))
  have hlen : (extended (formatOption format).value.length).2.length = 0 :=
    length_extended_of_lt (Nat.lt_of_le_of_lt hvalue (by decide))
  rw [length_write, hdelta, hlen]
  omega

/-- Fourteen bytes of segments, slashes included, become at most fifteen, and a format takes
three. -/
theorem length_writeAll_le (last : Nat) {segs : List String}
    (hs : ∀ s ∈ segs, s.utf8ByteSize < 269) (format : Option UInt16) :
    14 * (writeAll last (segs.map pathOption ++ format.toList.map formatOption)).length ≤
      15 * (segs.map fun s => s.utf8ByteSize + 1).sum + 14 * 3 := by
  induction segs generalizing last with
  | nil =>
    cases format with
    | none => exact Nat.zero_le _
    | some format =>
      have hlen := length_write_formatOption last format
      simp only [List.map_nil, Option.toList_some, List.map_cons, List.nil_append, writeAll,
        List.append_nil, List.sum_nil]
      omega
  | cons s segs ih =>
    obtain ⟨hs₀, hs⟩ := List.forall_mem_cons.1 hs
    have hstep := length_write_pathOption last hs₀
    have hrest := ih (pathOption s).number hs
    rw [List.map_cons, List.cons_append, writeAll, List.length_append, List.map_cons,
      List.sum_cons]
    omega

/-- **The datagram of a message has at most 213 bytes.**

**Proof sketch.** The segments of a path of 64 bytes have at most 65 bytes together with a slash for
each. At fifteen bytes for fourteen, and with three bytes for the format, the options have at most
72. The rest are 4 bytes of header, 8 of token, and 129 of payload with its marker. -/
theorem length_bytes_le (m : Message) : m.bytes.length ≤ 213 := by
  have hshort : ∀ s ∈ Path.segments m.path.string, s.utf8ByteSize < 269 := fun _ hs =>
    Nat.lt_trans (m.size_lt_of_mem_segments hs) (by decide)
  have hoptions := length_writeAll_le 0 hshort m.format
  have hsum := Path.size_segments_le m.path.string
  have hpath := m.path.size_le
  have htoken := m.token.length_le
  have hpayload : (Tail.writePayload m.payload.bytes).length ≤ 129 := by
    have := m.payload.length_le
    unfold maxPayload at this
    unfold Tail.writePayload
    split
    · exact Nat.zero_le _
    · rw [List.length_cons]
      omega
  unfold maxPath at hpath
  unfold maxToken at htoken
  rw [← options_eq] at hoptions
  rw [bytes, serialize, List.length_append, List.length_append, List.length_append, length_header]
  omega

/-- Every message has a datagram. -/
theorem encode_eq (m : Message) : m.encode = .ok m.bytes := by
  rw [encode, if_pos (Nat.le_trans m.length_bytes_le (by decide))]

/-! ## There and back -/

/-- A path that was set is put together from its segments. -/
theorem join_segments_setPath {m : Message} {path : String} (h : (m.setPath path).1 = .ok ()) :
    Path.join (Path.segments (m.setPath path).2.path.string) = (m.setPath path).2.path.string := by
  have hfits : (Path.extendAll (.empty : Text maxPath) (Path.segments path)).2 = true := by
    by_contra hn
    simp [setPath, hn] at h
  have hstring : (m.setPath path).2.path.string = Path.join (Path.segments path) := by
    rw [← Path.attachAll_empty_of_isSegment fun _ hs => Path.isSegment_of_mem_segments hs]
    exact Path.string_extendAll hfits
  rw [hstring]
  exact Path.join_segments_join fun _ hs => Path.isSegment_of_mem_segments hs

/-- A message whose path is put together from its segments comes back. -/
theorem exists_decode_of_join {m : Message}
    (h : Path.join (Path.segments m.path.string) = m.path.string) :
    ∃ data, m.encode = .ok data ∧ decode data = .ok m := by
  have hdecode := m.decode_datagram
  simp only [h] at hdecode
  exact ⟨m.bytes, m.encode_eq, hdecode⟩

/-- **Messages come back.** Every message has a datagram of at most 213 bytes, which is read as the
message with a tidy path. If the path was set segment by segment, it is the message itself. -/
theorem decode_encode (m : Message) :
    (∃ data, m.encode = .ok data ∧ data.length ≤ 213 ∧
      ∃ path : Text maxPath, path.string.toList = Path.tidy m.path.string.toList ∧
        decode data = .ok { m with path := path }) ∧
    ∀ (m₀ : Message) (path : String), (m₀.setPath path).1 = .ok () →
      m.path = (m₀.setPath path).2.path → ∃ data, m.encode = .ok data ∧ decode data = .ok m := by
  have hdecode := m.decode_datagram
  rw [bytes_datagram] at hdecode
  refine ⟨⟨m.bytes, m.encode_eq, m.length_bytes_le, _, ?_, hdecode⟩, ?_⟩
  · exact Path.toList_join_segments m.path.string
  · intro m₀ path hset hpath
    refine ⟨m.bytes, m.encode_eq, ?_⟩
    have hjoin := join_segments_setPath hset
    rw [← hpath] at hjoin
    simp only [hjoin] at hdecode
    exact hdecode

/-- A confirmable request with a path of slashes too many, whose first segment needs a further byte
for its length. -/
def dimmer : Message :=
  (setPath { type := .confirmable, code := .put, id := 513, format := some jsonFormat }
    "//kitchen-ceiling///lamp/").2

/-- That request is read again from what is written of it, with its path in normal form. -/
theorem decode_encode_dimmer :
    dimmer.path.string = "kitchen-ceiling/lamp" ∧
      ∃ data, dimmer.encode = .ok data ∧ decode data = .ok dimmer :=
  ⟨by decide, (decode_encode dimmer).2
    { type := .confirmable, code := .put, id := 513, format := some jsonFormat }
    "//kitchen-ceiling///lamp/" (by decide) rfl⟩

end EdgeDevice.Coap.Message
