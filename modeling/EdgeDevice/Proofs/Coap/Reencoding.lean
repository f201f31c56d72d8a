import EdgeDevice.Proofs.Coap.RoundTrip

set_option autoImplicit false
set_option relaxedAutoImplicit false

/-!
# What survives when a datagram is written again

A message that was read can always be written, and is read again as it was, but for needless slashes
in its path. A path that was set has none. One that was read can have some: each path option of a
datagram is taken as it is, even if it is empty or has slashes of its own, where only empty ones in
front leave no trace. So a message survives exactly if the others are clean.

## Main definitions

* `EdgeDevice.Coap.Path.Clean` — a text is not empty and has no needless slash.
* `EdgeDevice.Coap.Path.IsNormal` — a path is put together from segments.
* `EdgeDevice.Coap.Message.Survives` — a message has such a path and comes back when it is written.

## Main results

* `EdgeDevice.Coap.Path.cut_join` — the pieces of texts that are joined.
* `EdgeDevice.Coap.Path.tidy_eq_self_iff` — where there is no needless slash.
* `EdgeDevice.Coap.Path.isNormal_join_iff` — texts that are clean make a path in normal form.
* `EdgeDevice.Coap.Message.survives_iff` — when a message that was read survives.
-/

namespace EdgeDevice.Coap

namespace Path

/-! ## Pieces of joined texts -/

/-- A slash cuts what stands in front of it from what stands behind it. -/
theorem cut_append_slash (as bs : List Char) : cut (as ++ '/' :: bs) = cut as ++ cut bs := by
  induction as with
  | nil => exact cut_slash bs
  | cons a as ih =>
    rw [List.cons_append]
    by_cases ha : a = '/'
    · rw [ha, cut_slash, cut_slash, ih]
      rfl
    · obtain ⟨piece, rest, hcut⟩ := List.exists_cons_of_ne_nil (cut_ne_nil as)
      rw [hcut] at ih
      rw [cut_cons ha ih, cut_cons ha hcut]
      rfl

/-- **The pieces of texts that are joined** are the pieces of each. -/
theorem cut_join {segs : List String} (h : segs ≠ []) :
    cut (join segs).toList = segs.flatMap fun s => cut s.toList := by
  induction segs with
  | nil => exact absurd rfl h
  | cons s segs ih =>
    rcases hsegs : segs with _ | ⟨s', rest⟩
    · simp [join]
    · rw [hsegs] at ih
      have hjoin : (join (s :: s' :: rest)).toList =
          s.toList ++ '/' :: (join (s' :: rest)).toList := by
        simp [join, String.intercalate_cons_cons]
      rw [hjoin, cut_append_slash, ih (List.cons_ne_nil _ _)]
      rfl

/-! ## Paths in normal form -/

/-- **Where there is no needless slash**: there is nothing at all, or something between any two
slashes and at both ends. -/
theorem tidy_eq_self_iff {cs : List Char} :
    tidy cs = cs ↔ cs = [] ∨ ∀ piece ∈ cut cs, piece ≠ [] := by
  rw [(tidy_eq_joined cs).1]
  constructor
  · intro h
    by_cases hp : pieces cs = []
    · exact .inl (h.symm.trans (joined_eq_nil_iff.2 hp))
    · right
      have hslash : ∀ piece ∈ pieces cs, '/' ∉ piece := fun piece hpiece =>
        slash_notMem_of_mem_cut (List.mem_of_mem_filter hpiece)
      have hcut : cut cs = pieces cs :=
        calc cut cs = cut (joined cs) := by rw [h]
          _ = pieces cs := by rw [joined, cut_eq_splitOn, List.splitOn_intercalate '/' hslash hp]
      intro piece hpiece
      exact ne_nil_of_mem_pieces (hcut ▸ hpiece)
  · rintro (rfl | h)
    · rfl
    · have hpieces : pieces cs = cut cs := List.filter_eq_self.2 fun piece hpiece => by
        simpa using h piece hpiece
      rw [joined, hpieces, cut_eq_splitOn, List.intercalate_splitOn]

/-- A text is clean: it is not empty and has no needless slash. -/
def Clean (s : String) : Prop := s ≠ "" ∧ tidy s.toList = s.toList

instance (s : String) : Decidable (Clean s) := inferInstanceAs (Decidable (_ ∧ _))

/-- A text is clean exactly if none of its pieces is empty. -/
theorem clean_iff {s : String} : Clean s ↔ ∀ piece ∈ cut s.toList, piece ≠ [] := by
  rw [Clean, tidy_eq_self_iff]
  constructor
  · rintro ⟨hne, he | h⟩
    · exact absurd (String.toList_eq_nil_iff.1 he) hne
    · exact h
  · intro h
    refine ⟨?_, .inr h⟩
    rintro rfl
    exact h [] (List.mem_singleton_self _) rfl

/-- **A path is in normal form**: it is put together from segments, which neither are empty nor hold
a slash. -/
def IsNormal (path : String) : Prop :=
  ∃ segs : List String, (∀ s ∈ segs, IsSegment s) ∧ path = join segs

/-- A path is in normal form exactly if it is what its segments make. -/
theorem isNormal_iff {path : String} : IsNormal path ↔ join (segments path) = path := by
  constructor
  · rintro ⟨segs, hsegs, rfl⟩
    exact join_segments_join hsegs
  · exact fun h => ⟨segments path, fun _ hs => isSegment_of_mem_segments hs, h.symm⟩

/-- A path is in normal form exactly if it is tidy. -/
theorem isNormal_iff_tidy {path : String} : IsNormal path ↔ tidy path.toList = path.toList := by
  rw [isNormal_iff, ← toList_join_segments, String.toList_inj]

/-- **Texts that are clean make a path in normal form**, and no others do. -/
theorem isNormal_join_iff {segs : List String} (h : ∀ s ∈ segs.head?, s ≠ "") :
    IsNormal (join segs) ↔ ∀ s ∈ segs, Clean s := by
  cases segs with
  | nil => exact iff_of_true ⟨[], nofun, rfl⟩ nofun
  | cons s segs =>
    have hs : s ≠ "" := h s rfl
    have hne : (join (s :: segs)).toList ≠ [] := by
      rw [ne_eq, String.toList_eq_nil_iff]
      cases segs <;> simp [join, hs]
    rw [isNormal_iff_tidy, tidy_eq_self_iff, or_iff_right hne, cut_join (List.cons_ne_nil s segs)]
    simp only [clean_iff, List.mem_flatMap, forall_exists_index, and_imp]
    exact ⟨fun hall s hs piece => hall piece s hs, fun hall piece s hs => hall s hs piece⟩

end Path

/-! ## Messages that were read -/

namespace Message

open OptionField

/-- **A message survives**: its path is in normal form, the message can be written, and what is
written is read as the message again. -/
def Survives (m : Message) : Prop :=
  Path.IsNormal m.path.string ∧ ∃ data, m.encode = .ok data ∧ decode data = .ok m

/-- The path decides. -/
theorem survives_iff_isNormal {m : Message} : m.Survives ↔ Path.IsNormal m.path.string :=
  ⟨fun h => h.1, fun h => ⟨h, exists_decode_of_join (Path.isNormal_iff.1 h)⟩⟩

/-- **When a message that was read survives.** It can be written in any case, and is read again with
a tidy path. It survives exactly if the path options of its datagram are clean, apart from empty
ones in front. -/
theorem survives_iff {data : Bytes} {m : Message} (h : decode data = .ok m) :
    (∃ data', m.encode = .ok data' ∧ ∃ path : Text maxPath,
      path.string.toList = Path.tidy m.path.string.toList ∧
        decode data' = .ok { m with path := path }) ∧
    ∃ (d : Datagram) (segs : List String), d.WellFormed ∧ d.bytes = data ∧
      valuesOf uriPath d.options = segs.map Bytes.ofText ∧
      (m.Survives ↔ ∀ s ∈ segs.dropWhile (· == ""), Path.Clean s) := by
  obtain ⟨d, hd, rfl⟩ := Datagram.exists_of_decode h
  obtain ⟨segs, hsegs, hpath⟩ := (Datagram.spells_of_decode hd h).path
  have hhead : ∀ s ∈ (segs.dropWhile (· == "")).head?, s ≠ "" := by
    intro s hs
    have hnot := List.head?_dropWhile_not (· == "") segs
    rw [Option.mem_def.1 hs] at hnot
    simpa using hnot
  have hdecode := m.decode_datagram
  rw [bytes_datagram] at hdecode
  refine ⟨⟨m.bytes, m.encode_eq, _, ?_, hdecode⟩, d, segs, hd, rfl, hsegs, ?_⟩
  · exact Path.toList_join_segments m.path.string
  · rw [survives_iff_isNormal, hpath, Path.isNormal_join_iff hhead]

/-- A request with three path options, of which the first is empty and the last has a slash between
two segments. -/
def nested : Datagram where
  type := .confirmable
  code := .get
  id := 1
  token := []
  options := [⟨uriPath, []⟩, ⟨uriPath, Bytes.ofText "a"⟩, ⟨uriPath, Bytes.ofText "b/c"⟩]
  payload := []

/-- The datagram with a slash in a path option keeps to the limits of the format. -/
theorem wellFormed_nested : nested.WellFormed where
  token := by decide
  options :=
    ascending_cons.2 ⟨by decide, ⟨by decide, by decide⟩,
    ascending_cons.2 ⟨by decide, ⟨by decide, by decide⟩,
    ascending_cons.2 ⟨by decide, ⟨by decide, by decide⟩, ascending_nil _⟩⟩⟩
  payload := by decide

/-- The request survives. -/
theorem survives_iff_nested :
    ∃ m, decode nested.bytes = .ok m ∧ m.path.string = "a/b/c" ∧ m.Survives := by
  have hdecode : decode nested.bytes =
      .ok { type := .confirmable, code := .get, id := 1, path := ⟨"a/b/c", by decide⟩ } := by
    decide +kernel
  obtain ⟨-, d, segs, hd, hbytes, hsegs, hiff⟩ := survives_iff hdecode
  obtain rfl := Datagram.eq_of_bytes_eq hd wellFormed_nested hbytes
  have hvalues : valuesOf uriPath nested.options = ["", "a", "b/c"].map Bytes.ofText := by decide
  obtain rfl := List.map_injective_iff.2 (fun _ _ => Bytes.eq_of_ofText_eq)
    (hvalues.symm.trans hsegs)
  exact ⟨_, hdecode, rfl, hiff.2 (by decide)⟩

/-- A request whose path is not in normal form. -/
def leading : Message :=
  { type := .confirmable, code := .get, id := 1, path := ⟨"/a", by decide⟩ }

/-- It is read from a datagram whose path option starts with a slash, and does not survive: it is
read again without the slash. -/
theorem not_survives_leading :
    decode [0x40, 0x01, 0x00, 0x01, 0xB2, 0x2F, 0x61] = .ok leading ∧ ¬ leading.Survives ∧
      leading.encode = .ok [0x40, 0x01, 0x00, 0x01, 0xB1, 0x61] ∧
      decode [0x40, 0x01, 0x00, 0x01, 0xB1, 0x61] =
        .ok { leading with path := ⟨"a", by decide⟩ } := by
  refine ⟨by decide +kernel, ?_, by decide +kernel, by decide +kernel⟩
  rw [survives_iff_isNormal, Path.isNormal_iff_tidy]
  decide

end Message

end EdgeDevice.Coap
