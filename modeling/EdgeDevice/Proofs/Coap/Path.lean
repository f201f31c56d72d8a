import EdgeDevice.Coap.Path
import Mathlib.Algebra.Order.BigOperators.Group.List
import Mathlib.Algebra.Order.Ring.Nat
import Mathlib.Data.List.DropRight
import Mathlib.Data.List.Destutter

set_option autoImplicit false
set_option relaxedAutoImplicit false

/-!
# Paths and their segments

To take a path apart and to put the segments together again leaves out the slashes at both ends and
all but one of several in a row. Segments that neither are empty nor hold a slash come back as they
were.

Putting segments together one by one, with a slash in front of each but the first, is the same as
joining them, apart from empty segments at the beginning, which leave no trace.

## Main definitions

* `EdgeDevice.Coap.Path.tidy` — a path without needless slashes.
* `EdgeDevice.Coap.Path.attach`, `EdgeDevice.Coap.Path.attachAll` — a path with segments behind it,
  whatever the room.

## Main results

* `EdgeDevice.Coap.Path.toList_join_segments` — taken apart and put together, a path is tidy.
* `EdgeDevice.Coap.Path.tidy_eq_joined` — a tidy path is its segments with a slash between them.
* `EdgeDevice.Coap.Path.segments_join` — segments come back.
* `EdgeDevice.Coap.Path.attachAll_empty` — segments put together one by one.
* `EdgeDevice.Coap.Path.size_segments_le` — segments are not longer than the path.
-/

namespace EdgeDevice.Coap.Path

/-! ## Pieces between slashes -/

/-- There is always at least one piece. -/
theorem cut_ne_nil (cs : List Char) : cut cs ≠ [] := by
  cases cs with
  | nil => simp [cut]
  | cons c cs =>
    rw [cut]
    split
    · simp
    · split <;> simp

/-- A slash in front makes one more piece, which is empty. -/
theorem cut_slash (cs : List Char) : cut ('/' :: cs) = [] :: cut cs := by
  rw [cut, if_pos rfl]

/-- A character that is no slash belongs to the first piece. -/
theorem cut_cons {c : Char} (hc : c ≠ '/') {cs piece : List Char} {rest : List (List Char)}
    (h : cut cs = piece :: rest) : cut (c :: cs) = (c :: piece) :: rest := by
  rw [cut, if_neg hc, h]

/-- Cutting at slashes is what the library calls splitting. -/
theorem cut_eq_splitOn (cs : List Char) : cut cs = cs.splitOn '/' := by
  induction cs with
  | nil => rfl
  | cons c cs ih =>
    rw [List.splitOn_cons_eq_if_modifyHead, ← ih]
    by_cases hc : c = '/'
    · rw [hc, cut_slash]
      rfl
    · obtain ⟨piece, rest, h⟩ := List.exists_cons_of_ne_nil (cut_ne_nil cs)
      rw [cut_cons hc h, h, if_neg (by simpa using hc)]
      rfl

/-- The pieces of a path that are not empty. -/
def pieces (cs : List Char) : List (List Char) := (cut cs).filter fun piece => !piece.isEmpty

/-- None of the pieces that are kept is empty. -/
theorem ne_nil_of_mem_pieces {cs piece : List Char} (h : piece ∈ pieces cs) : piece ≠ [] := by
  have := (List.mem_filter.1 h).2
  simpa using this

/-- A slash in front makes no piece that is kept. -/
theorem pieces_slash (cs : List Char) : pieces ('/' :: cs) = pieces cs := by
  rw [pieces, cut_slash]
  rfl

/-- The pieces that are not empty with a slash between neighbours. -/
def joined (cs : List Char) : List Char := ['/'].intercalate (pieces cs)

/-- Nothing is left exactly if there is no piece. -/
theorem joined_eq_nil_iff {cs : List Char} : joined cs = [] ↔ pieces cs = [] := by
  constructor
  · intro h
    rcases hp : pieces cs with _ | ⟨piece, rest⟩
    · rfl
    · have hne : piece ≠ [] := ne_nil_of_mem_pieces (hp ▸ List.mem_cons_self)
      rw [joined, hp] at h
      cases rest with
      | nil => exact absurd (by simpa using h) hne
      | cons piece' rest => simp [List.intercalate_cons_cons] at h
  · intro h
    rw [joined, h, List.intercalate_nil]

/-- One more character in the first piece stands in front of all. -/
theorem intercalate_cons_head (c : Char) (piece : List Char) (rest : List (List Char)) :
    ['/'].intercalate ((c :: piece) :: rest) = c :: ['/'].intercalate (piece :: rest) := by
  cases rest with
  | nil => simp
  | cons piece' rest => simp [List.intercalate_cons_cons]

/-! ## Needless slashes -/

/-- The characters without slashes at both ends, and with one slash in place of several in a row. -/
def tidy (cs : List Char) : List Char :=
  ((cs.rdropWhile (· == '/')).dropWhile (· == '/')).destutter fun a b => a ≠ '/' ∨ b ≠ '/'

/-- What follows a character that is no slash in a tidy path. -/
def behind : List Char → List Char
  | [] => []
  | c :: cs => if c = '/' then (if joined cs = [] then [] else '/' :: joined cs) else c :: behind cs

/-- A character that is no slash stays, in front of what follows it in a tidy path. -/
theorem joined_cons {c : Char} (hc : c ≠ '/') (cs : List Char) :
    joined (c :: cs) = c :: behind cs := by
  induction cs generalizing c with
  | nil => simp [joined, pieces, cut, hc, behind]
  | cons d cs ih =>
    rw [behind]
    split
    · rename_i hd
      subst hd
      have hp : pieces (c :: '/' :: cs) = [c] :: pieces cs := by
        rw [pieces, cut_cons hc (cut_slash cs)]
        rfl
      rw [joined, hp]
      split
      · rename_i hn
        rw [joined_eq_nil_iff.1 hn, List.intercalate_singleton]
      · rename_i hn
        rw [List.intercalate_cons_of_ne_nil (mt joined_eq_nil_iff.2 hn)]
        rfl
    · rename_i hd
      obtain ⟨piece, rest, h⟩ := List.exists_cons_of_ne_nil (cut_ne_nil cs)
      have hcut := cut_cons hd h
      rw [← ih hd, joined, joined, pieces, pieces, cut_cons hc hcut, hcut]
      exact intercalate_cons_head c (d :: piece) _

/-- Dropping from the end reaches the first element only if it drops all others. -/
theorem rdropWhile_cons {α : Type} (p : α → Bool) (a : α) (l : List α) :
    (a :: l).rdropWhile p =
      if l.rdropWhile p = [] then (if p a then [] else [a]) else a :: l.rdropWhile p := by
  simp only [List.rdropWhile, List.reverse_cons, List.dropWhile_append, List.isEmpty_iff,
    List.reverse_eq_nil_iff]
  split
  · by_cases hp : p a <;> simp [hp]
  · simp

/-- Once the slashes at the end are gone there is something left behind those at the beginning. -/
theorem dropWhile_rdropWhile_ne_nil {cs : List Char} (h : cs.rdropWhile (· == '/') ≠ []) :
    (cs.rdropWhile (· == '/')).dropWhile (· == '/') ≠ [] := by
  intro hn
  have hall := List.dropWhile_eq_nil_iff.1 hn _ (List.getLast_mem h)
  exact List.rdropWhile_last_not (· == '/') cs h hall

/-- Of slashes in a row the first one is kept. -/
theorem destutter'_slash (cs : List Char) :
    cs.destutter' (fun a b => a ≠ '/' ∨ b ≠ '/') '/' =
      '/' :: (cs.dropWhile (· == '/')).destutter fun a b => a ≠ '/' ∨ b ≠ '/' := by
  induction cs with
  | nil => rfl
  | cons c cs ih =>
    rw [List.destutter'_cons, List.dropWhile_cons]
    by_cases hc : c = '/'
    · rw [if_neg (by simp [hc]), if_pos (by simp [hc]), ih]
    · rw [if_pos (.inr hc), if_neg (by simpa using hc), List.destutter_cons']

/-- A slash in front leaves no trace in a tidy path. -/
theorem tidy_slash (cs : List Char) : tidy ('/' :: cs) = tidy cs := by
  rw [tidy, tidy, rdropWhile_cons]
  split
  · rename_i h
    rw [h]
    rfl
  · rw [List.dropWhile_cons, if_pos (by simp)]

/-- Dropping slashes from the end stops at a character that is none. -/
theorem rdropWhile_cons_of_ne {c : Char} (hc : c ≠ '/') (cs : List Char) :
    (c :: cs).rdropWhile (· == '/') = c :: cs.rdropWhile (· == '/') := by
  rw [rdropWhile_cons]
  split
  · rename_i h
    rw [h, if_neg (by simpa using hc)]
  · rfl

/-- **A path that is taken apart and put together is tidy.**

**Proof sketch.** By induction on the path, together with the same statement for what follows a
character that is no slash: a slash there is kept exactly if something follows it. -/
theorem tidy_eq_joined (cs : List Char) :
    tidy cs = joined cs ∧ ∀ c, c ≠ '/' →
      (cs.rdropWhile (· == '/')).destutter' (fun a b => a ≠ '/' ∨ b ≠ '/') c = c :: behind cs := by
  induction cs with
  | nil => exact ⟨rfl, fun c _ => rfl⟩
  | cons d cs ih =>
    obtain ⟨htidy, hbehind⟩ := ih
    by_cases hd : d = '/'
    · subst hd
      refine ⟨by rw [tidy_slash, htidy, joined, joined, pieces_slash], fun c hc => ?_⟩
      rw [rdropWhile_cons, behind, if_pos rfl]
      by_cases hn : cs.rdropWhile (· == '/') = []
      · have hj : joined cs = [] := by rw [← htidy, tidy, hn]; rfl
        rw [if_pos hn, if_pos hj]
        rfl
      · have hj : joined cs ≠ [] := by
          rw [← htidy, tidy]
          obtain ⟨e, rest, he⟩ := List.exists_cons_of_ne_nil (dropWhile_rdropWhile_ne_nil hn)
          rw [he, List.destutter_cons']
          exact List.destutter'_ne_nil rest _
        rw [if_neg hn, if_neg hj, List.destutter'_cons_pos (h := .inl hc), destutter'_slash,
          ← htidy, tidy]
    · refine ⟨?_, fun c hc => ?_⟩
      · rw [tidy, rdropWhile_cons_of_ne hd, List.dropWhile_cons, if_neg (by simpa using hd),
          List.destutter_cons', hbehind d hd, joined_cons hd]
      · rw [rdropWhile_cons_of_ne hd, List.destutter'_cons_pos (h := .inl hc), hbehind d hd,
          behind, if_neg hd]

/-- The segments of a path with one slash between neighbours are the path made tidy. -/
theorem toList_join_segments (path : String) :
    (join (segments path)).toList = tidy path.toList := by
  rw [(tidy_eq_joined path.toList).1, join, String.toList_intercalate]
  simp [segments, joined, pieces, Function.comp_def]

/-! ## Segments come back -/

/-- No piece holds a slash. -/
theorem slash_notMem_of_mem_cut {cs piece : List Char} (h : piece ∈ cut cs) : '/' ∉ piece := by
  induction cs generalizing piece with
  | nil =>
    obtain rfl := List.mem_singleton.1 h
    exact List.not_mem_nil
  | cons c cs ih =>
    by_cases hc : c = '/'
    · rw [hc, cut_slash] at h
      rcases List.mem_cons.1 h with rfl | h
      · exact List.not_mem_nil
      · exact ih h
    · obtain ⟨first, rest, hcut⟩ := List.exists_cons_of_ne_nil (cut_ne_nil cs)
      rw [cut_cons hc hcut] at h
      rw [hcut] at ih
      rcases List.mem_cons.1 h with rfl | h
      · rw [List.mem_cons, not_or]
        exact ⟨Ne.symm hc, ih List.mem_cons_self⟩
      · exact ih (List.mem_cons_of_mem _ h)

/-- A segment is not empty and holds no slash. -/
def IsSegment (s : String) : Prop := s ≠ "" ∧ '/' ∉ s.toList

/-- The segments of a path are segments. -/
theorem isSegment_of_mem_segments {path s : String} (h : s ∈ segments path) : IsSegment s := by
  rw [segments, List.mem_map] at h
  obtain ⟨piece, hp, rfl⟩ := h
  refine ⟨?_, ?_⟩
  · intro he
    have : piece = [] := by simpa using congrArg String.toList he
    exact ne_nil_of_mem_pieces hp this
  · rw [String.toList_ofList]
    exact slash_notMem_of_mem_cut (List.mem_of_mem_filter hp)

/-- **Segments that are put together are found again.** -/
theorem segments_join {segs : List String} (h : ∀ s ∈ segs, IsSegment s) :
    segments (join segs) = segs := by
  by_cases hn : segs = []
  · subst hn
    rfl
  · have hcut : cut (join segs).toList = segs.map String.toList := by
      rw [cut_eq_splitOn, join, String.toList_intercalate]
      apply List.splitOn_intercalate
      · intro l hl
        obtain ⟨s, hs, rfl⟩ := List.mem_map.1 hl
        exact (h s hs).2
      · simpa using hn
    have hall : ∀ piece ∈ segs.map String.toList, (!piece.isEmpty) = true := by
      intro piece hp
      obtain ⟨s, hs, rfl⟩ := List.mem_map.1 hp
      have hne := (h s hs).1
      simpa using hne
    rw [segments, hcut, List.filter_eq_self.2 hall, List.map_map]
    simp [Function.comp_def]

/-- A path that was put together is not changed by doing so again. -/
theorem join_segments_join {segs : List String} (h : ∀ s ∈ segs, IsSegment s) :
    join (segments (join segs)) = join segs := by
  rw [segments_join h]

/-! ## One segment after the other -/

/-- A path with one more segment behind it, whatever the room. -/
def attach (path segment : String) : String := path ++ slash path ++ segment

/-- A path with more segments behind it, whatever the room. -/
def attachAll (path : String) (segs : List String) : String := segs.foldl attach path

/-- Behind a path that is not empty a segment follows after a slash. -/
theorem attach_of_ne {path : String} (h : path ≠ "") (segment : String) :
    attach path segment = path ++ "/" ++ segment := by
  rw [attach, slash, if_neg h]

/-- The first segment is the whole path. -/
theorem attach_empty (segment : String) : attach "" segment = segment := by
  rw [attach, slash, if_pos rfl, String.append_empty, String.empty_append]

/-- A longer first segment stands in front of all. -/
theorem join_append_head (a b : String) (segs : List String) :
    join ((a ++ b) :: segs) = a ++ join (b :: segs) := by
  cases segs with
  | nil => simp [join]
  | cons s segs => simp [join, String.append_assoc]

/-- Segments behind a path that is not empty are joined to it as to a first segment. -/
theorem attachAll_of_ne {path : String} (h : path ≠ "") (segs : List String) :
    attachAll path segs = join (path :: segs) := by
  induction segs generalizing path with
  | nil => exact String.intercalate_singleton.symm
  | cons s segs ih =>
    have hne : attach path s ≠ "" := by
      rw [attach_of_ne h]
      simp
    rw [attachAll, List.foldl_cons, ← attachAll, ih hne, attach_of_ne h, join_append_head, join,
      join, String.intercalate_cons_cons]

/-- **Segments attached to nothing are joined**, apart from empty ones in front. -/
theorem attachAll_empty (segs : List String) :
    attachAll "" segs = join (segs.dropWhile (· == "")) := by
  induction segs with
  | nil => rfl
  | cons s segs ih =>
    rw [attachAll, List.foldl_cons, attach_empty, ← attachAll, List.dropWhile_cons]
    by_cases hs : s = ""
    · rw [hs, ih, if_pos (by simp)]
    · rw [attachAll_of_ne hs, if_neg (by simpa using hs)]

/-- Segments put one behind the other make the path that joins them. -/
theorem attachAll_empty_of_isSegment {segs : List String} (h : ∀ s ∈ segs, IsSegment s) :
    attachAll "" segs = join segs := by
  rw [attachAll_empty]
  cases segs with
  | nil => rfl
  | cons s segs =>
    have hs := (h s List.mem_cons_self).1
    rw [List.dropWhile_cons, if_neg (by simpa using hs)]

/-- A path does not get shorter by more segments. -/
theorem size_le_attachAll (path : String) (segs : List String) :
    path.utf8ByteSize ≤ (attachAll path segs).utf8ByteSize := by
  induction segs generalizing path with
  | nil => exact Nat.le_refl _
  | cons s segs ih =>
    have hle : path.utf8ByteSize ≤ (attach path s).utf8ByteSize := by
      simp only [attach, String.utf8ByteSize_append]
      omega
    exact Nat.le_trans hle (ih (attach path s))

variable {capacity : Nat}

/-- There is room for one more segment exactly if the longer path fits. -/
theorem extend?_eq (path : Text capacity) (segment : String) :
    extend? path segment = Text.ofString? (attach path.string segment) := by
  rw [extend?, Text.append?, attach]
  by_cases h : (path.string ++ slash path.string).utf8ByteSize ≤ capacity
  · rw [Text.ofString?_of_le h]
    rfl
  · have hall : capacity < (path.string ++ slash path.string ++ segment).utf8ByteSize := by
      rw [String.utf8ByteSize_append]
      omega
    rw [Text.ofString?_eq_none_iff.2 (by omega), Text.ofString?_eq_none_iff.2 hall]
    rfl

/-- If there was room for all segments, there was room for the first one. -/
theorem extendAll_cons (path : Text capacity) (s : String) (segs : List String) :
    (extendAll path (s :: segs)).2 = true →
      ∃ longer, extend? path s = some longer ∧
        extendAll path (s :: segs) = extendAll longer segs := by
  intro h
  rw [extendAll] at h ⊢
  rcases ho : path.append? (slash path.string) with _ | opened
  · simp [ho] at h
  · rcases hl : opened.append? s with _ | longer
    · simp [ho, hl] at h
    · exact ⟨longer, by simp [extend?, ho, hl], by simp [hl]⟩

/-- When there is room for all segments, all of them are there. -/
theorem string_extendAll {path : Text capacity} {segs : List String}
    (h : (extendAll path segs).2 = true) :
    (extendAll path segs).1.string = attachAll path.string segs := by
  induction segs generalizing path with
  | nil => rfl
  | cons s segs ih =>
    obtain ⟨longer, hl, he⟩ := extendAll_cons path s segs h
    rw [he] at h ⊢
    have hs : longer.string = attach path.string s := by
      rw [extend?_eq, Text.ofString?] at hl
      split at hl
      · obtain rfl := Option.some.inj hl
        rfl
      · cases hl
    rw [ih h, hs]
    rfl

/-! ## Sizes -/

/-- Each piece takes its size and a slash, of which there is one less than there are pieces. -/
theorem size_cut (cs : List Char) :
    ((cut cs).map fun piece => (String.ofList piece).utf8ByteSize + 1).sum =
      (String.ofList cs).utf8ByteSize + 1 := by
  induction cs with
  | nil => rfl
  | cons c cs ih =>
    rw [String.ofList_cons, String.utf8ByteSize_append]
    by_cases hc : c = '/'
    · rw [hc, cut_slash, List.map_cons, List.sum_cons, ih, String.utf8ByteSize_singleton]
      have : Char.utf8Size '/' = 1 := rfl
      simp [this]
      omega
    · obtain ⟨first, rest, hcut⟩ := List.exists_cons_of_ne_nil (cut_ne_nil cs)
      rw [hcut, List.map_cons, List.sum_cons] at ih
      rw [cut_cons hc hcut, List.map_cons, List.sum_cons, String.ofList_cons,
        String.utf8ByteSize_append]
      omega

/-- The segments of a path, each with one byte more for a slash, are not longer than the path with
one byte more. -/
theorem size_segments_le (path : String) :
    ((segments path).map fun s => s.utf8ByteSize + 1).sum ≤ path.utf8ByteSize + 1 := by
  have hcut := size_cut path.toList
  rw [String.ofList_toList] at hcut
  rw [segments, List.map_map, ← hcut]
  exact (List.filter_sublist.map _).sum_le_sum fun _ _ => Nat.zero_le _

/-- Each segment takes its size and a slash, of which there is one less than there are segments. -/
theorem size_join {segs : List String} (h : segs ≠ []) :
    (join segs).utf8ByteSize + 1 = (segs.map fun s => s.utf8ByteSize + 1).sum := by
  induction segs with
  | nil => exact absurd rfl h
  | cons s segs ih =>
    rcases hs : segs with _ | ⟨s', segs'⟩
    · simp [join]
    · have hrest := ih (by simp [hs])
      have hslash : ("/" : String).utf8ByteSize = 1 := rfl
      rw [hs] at hrest
      rw [join, String.intercalate_cons_cons, String.utf8ByteSize_append,
        String.utf8ByteSize_append, ← join, List.map_cons, List.sum_cons, ← hrest, hslash]
      omega

/-- A path does not get longer when it is taken apart and put together. -/
theorem size_join_segments_le (path : String) :
    (join (segments path)).utf8ByteSize ≤ path.utf8ByteSize := by
  by_cases h : segments path = []
  · rw [h]
    exact Nat.zero_le _
  · have hjoin := size_join h
    have hsegments := size_segments_le path
    omega

end EdgeDevice.Coap.Path
