import EdgeDevice.Coap.Message
import EdgeDevice.Proofs.Coap.Path

set_option autoImplicit false
set_option relaxedAutoImplicit false

/-!
# Setting the fields of a message

Token, path and payload of a message are set if what is given fits. A token or a payload that does
not fit leaves the message as it was. A path is different: it is put together in place, segment by
segment, so when the room runs out the beginning of the new path stands where the old one was.

## Main definitions

* `EdgeDevice.Coap.Path.normal` — the segments of a path with a slash between neighbours.
* `EdgeDevice.Coap.Path.kept` — what is left of a path that does not fit.
* `EdgeDevice.Coap.Setting`, `EdgeDevice.Coap.Message.set` — a field is set to something.
* `EdgeDevice.Coap.Message.SetsWhole` — a field is set to all that was given, or nothing happens.

## Main results

* `EdgeDevice.Coap.Path.extendAll_eq` — segments put together where the room is limited.
* `EdgeDevice.Coap.Message.set_of_le`, `EdgeDevice.Coap.Message.setPath_of_lt` — what fits is set,
  and a path that does not fit is cut off.
* `EdgeDevice.Coap.Message.setsWhole_iff` — when a message is all that was given or as it was.
-/

namespace EdgeDevice.Coap

/-! ## Where the room ends -/

namespace Path

/-- The segments of a path with a slash between neighbours. -/
def normal (path : String) : String := join (segments path)

/-- What further segments add to a path: each of them, and a slash in front of it. -/
def sequel (segs : List String) : List String := segs.flatMap fun s => ["/", s]

/-- Segments and the slashes between them. -/
def parts : List String → List String
  | [] => []
  | s :: segs => s :: sequel segs

/-- The parts from the first one on that there is room for. -/
def fitting (room : Nat) : List String → List String
  | [] => []
  | p :: ps => if p.utf8ByteSize ≤ room then p :: fitting (room - p.utf8ByteSize) ps else []

/-- What is left of a path where there may be no room for all of it. -/
def kept (room : Nat) (path : String) : String := String.join (fitting room (parts (segments path)))

/-- A part for which there is room is kept, and the rest has so much less room. -/
theorem fitting_cons_of_le {room : Nat} {p : String} (h : p.utf8ByteSize ≤ room)
    (ps : List String) : fitting room (p :: ps) = p :: fitting (room - p.utf8ByteSize) ps :=
  if_pos h

/-- From a part on for which there is no room nothing is kept. -/
theorem fitting_cons_of_lt {room : Nat} {p : String} (h : room < p.utf8ByteSize)
    (ps : List String) : fitting room (p :: ps) = [] := if_neg (Nat.not_le_of_lt h)

variable {capacity : Nat}

/-- There is room for segments exactly if the path with all of them fits. -/
theorem extendAll_snd_iff (path : Text capacity) (segs : List String) :
    (extendAll path segs).2 = true ↔ (attachAll path.string segs).utf8ByteSize ≤ capacity := by
  constructor
  · intro h
    rw [← string_extendAll h]
    exact (extendAll path segs).1.size_le
  · intro h
    induction segs generalizing path with
    | nil => rfl
    | cons s segs ih =>
      have hs : (attach path.string s).utf8ByteSize ≤ capacity :=
        Nat.le_trans (size_le_attachAll _ segs) h
      have ho : (path.string ++ slash path.string).utf8ByteSize ≤ capacity := by
        rw [attach, String.utf8ByteSize_append] at hs
        omega
      rw [extendAll, Text.append?, Text.ofString?_of_le ho]
      dsimp only
      rw [Text.append?, Text.ofString?_of_le (s := path.string ++ slash path.string ++ s) hs]
      exact ih ⟨attach path.string s, hs⟩ h

/-- **Further segments are put together as far as there is room.** -/
theorem extendAll_of_ne {path : Text capacity} (hp : path.string ≠ "") (segs : List String) :
    (extendAll path segs).1.string = path.string ++
      String.join (fitting (capacity - path.string.utf8ByteSize) (sequel segs)) := by
  induction segs generalizing path with
  | nil => exact (String.append_empty).symm
  | cons s segs ih =>
    have hparts : sequel (s :: segs) = "/" :: s :: sequel segs := rfl
    have hslash : slash path.string = "/" := if_neg hp
    have hone : "/".utf8ByteSize = 1 := rfl
    have hsize := path.size_le
    rw [extendAll, hslash, hparts, Text.append?]
    -- Slash and segment fit, or the slash alone, or not even that.
    by_cases ho : (path.string ++ "/").utf8ByteSize ≤ capacity
    · have hroom : "/".utf8ByteSize ≤ capacity - path.string.utf8ByteSize := by
        rw [String.utf8ByteSize_append] at ho
        omega
      rw [Text.ofString?_of_le ho, fitting_cons_of_le hroom]
      dsimp only
      rw [Text.append?]
      by_cases hs : (path.string ++ "/" ++ s).utf8ByteSize ≤ capacity
      · have hne : path.string ++ "/" ++ s ≠ "" := by simp
        have hroom' : s.utf8ByteSize ≤ capacity - path.string.utf8ByteSize - "/".utf8ByteSize := by
          rw [String.utf8ByteSize_append, String.utf8ByteSize_append] at hs
          omega
        have hleft : capacity - (path.string ++ "/" ++ s).utf8ByteSize =
            capacity - path.string.utf8ByteSize - "/".utf8ByteSize - s.utf8ByteSize := by
          rw [String.utf8ByteSize_append, String.utf8ByteSize_append]
          omega
        rw [Text.ofString?_of_le hs, fitting_cons_of_le hroom', ih hne, hleft]
        simp [String.append_assoc]
      · have hroom' : capacity - path.string.utf8ByteSize - "/".utf8ByteSize < s.utf8ByteSize := by
          rw [String.utf8ByteSize_append, String.utf8ByteSize_append] at hs
          omega
        rw [Text.ofString?_eq_none_iff.2 (Nat.lt_of_not_le hs), fitting_cons_of_lt hroom']
        simp
    · have hroom : capacity - path.string.utf8ByteSize < "/".utf8ByteSize := by
        rw [String.utf8ByteSize_append] at ho
        omega
      rw [Text.ofString?_eq_none_iff.2 (Nat.lt_of_not_le ho), fitting_cons_of_lt hroom]
      exact (String.append_empty).symm

/-- **Segments are put together from the beginning as far as there is room.** -/
theorem extendAll_eq {segs : List String} (h : ∀ s ∈ segs, IsSegment s) :
    (extendAll (.empty : Text capacity) segs).1.string =
      String.join (fitting capacity (parts segs)) := by
  cases segs with
  | nil => rfl
  | cons s segs =>
    have hempty : (Text.empty : Text capacity).append? (slash (Text.empty : Text capacity).string) =
        some .empty := Text.ofString?_of_le (Nat.zero_le capacity)
    have hs : (Text.empty : Text capacity).append? s = Text.ofString? s := by
      rw [Text.append?, Text.empty, String.empty_append]
    rw [extendAll, hempty]
    dsimp only
    rw [hs]
    by_cases hfit : s.utf8ByteSize ≤ capacity
    · have hne : s ≠ "" := (h s List.mem_cons_self).1
      rw [Text.ofString?_of_le hfit, parts, fitting_cons_of_le hfit]
      dsimp only
      rw [extendAll_of_ne hne]
      simp
    · rw [Text.ofString?_eq_none_iff.2 (Nat.lt_of_not_le hfit), parts,
        fitting_cons_of_lt (Nat.lt_of_not_le hfit)]
      rfl

end Path

/-! ## Setting a field -/

/-- A field of a message and what it is to be set to. -/
inductive Setting where
  | path (p : String)
  | token (bs : Bytes)
  | payload (bs : Bytes)
  deriving DecidableEq

namespace Setting

/-- The bytes that belong into the field. -/
def content : Setting → Bytes
  | path p => Bytes.ofText (Path.normal p)
  | token bs => bs
  | payload bs => bs

/-- How many bytes the field has room for. -/
def capacity : Setting → Nat
  | path _ => maxPath
  | token _ => maxToken
  | payload _ => maxPayload

/-- The bytes that a message has in the field. -/
def field (m : Message) : Setting → Bytes
  | path _ => m.path.bytes
  | token _ => m.token.bytes
  | payload _ => m.payload.bytes

/-- Two messages are the same but for the field. -/
def Elsewhere (m m' : Message) : Setting → Prop
  | path _ => m' = { m with path := m'.path }
  | token _ => m' = { m with token := m'.token }
  | payload _ => m' = { m with payload := m'.payload }

end Setting

namespace Message

/-- Sets a field. -/
def set (m : Message) : Setting → Except NetError Unit × Message
  | .path p => m.setPath p
  | .token bs => m.setToken bs
  | .payload bs => m.setPayload bs

/-- **A field is set to all that was given, or nothing happens**: what fits is stored, and what does
not fit is reported and leaves the whole message as it was. -/
structure SetsWhole (m : Message) (s : Setting) : Prop where
  stores : s.content.length ≤ s.capacity →
    (m.set s).1 = .ok () ∧ s.field (m.set s).2 = s.content ∧ s.Elsewhere m (m.set s).2
  refuses : s.capacity < s.content.length → m.set s = (.error .bufferOverflow, m)

/-- A token of at most eight bytes is set. -/
theorem setToken_of_le {m : Message} {bs : Bytes} (h : bs.length ≤ maxToken) :
    m.setToken bs = (.ok (), { m with token := ⟨bs, h⟩ }) := by
  rw [setToken, Buffer.ofBytes?_of_le h]

/-- A token of more than eight bytes is refused, and the message stays as it was. -/
theorem setToken_of_lt {m : Message} {bs : Bytes} (h : maxToken < bs.length) :
    m.setToken bs = (.error .bufferOverflow, m) := by
  rw [setToken, Buffer.ofBytes?_eq_none_iff.2 h]

/-- A payload for which there is room is set. -/
theorem setPayload_of_le {m : Message} {bs : Bytes} (h : bs.length ≤ maxPayload) :
    m.setPayload bs = (.ok (), { m with payload := ⟨bs, h⟩ }) := by
  rw [setPayload, Buffer.ofBytes?_of_le h]

/-- A payload for which there is no room is refused, and the message stays as it was. -/
theorem setPayload_of_lt {m : Message} {bs : Bytes} (h : maxPayload < bs.length) :
    m.setPayload bs = (.error .bufferOverflow, m) := by
  rw [setPayload, Buffer.ofBytes?_eq_none_iff.2 h]

/-- There is room for the segments of a path exactly if it fits when they are put together. -/
theorem fits_iff (path : String) :
    (Path.extendAll (.empty : Text maxPath) (Path.segments path)).2 = true ↔
      (Path.normal path).utf8ByteSize ≤ maxPath := by
  rw [Path.extendAll_snd_iff, Path.normal,
    ← Path.attachAll_empty_of_isSegment fun _ => Path.isSegment_of_mem_segments]
  rfl

/-- **A path that fits is set** in its normal form. -/
theorem setPath_of_le {m : Message} {path : String}
    (h : (Path.normal path).utf8ByteSize ≤ maxPath) :
    m.setPath path = (.ok (), { m with path := ⟨Path.normal path, h⟩ }) := by
  have hroom := (fits_iff path).2 h
  have hstring : (Path.extendAll (.empty : Text maxPath) (Path.segments path)).1.string =
      Path.normal path := by
    rw [Path.string_extendAll hroom]
    exact Path.attachAll_empty_of_isSegment fun _ => Path.isSegment_of_mem_segments
  rw [setPath]
  rcases hall : Path.extendAll (.empty : Text maxPath) (Path.segments path) with ⟨⟨all, _⟩, fits⟩
  rw [hall] at hroom hstring
  obtain rfl : fits = true := hroom
  obtain rfl : all = Path.normal path := hstring
  rfl

/-- **A path that does not fit is cut off** where the room ends, in place of the old path. -/
theorem setPath_of_lt {m : Message} {path : String}
    (h : maxPath < (Path.normal path).utf8ByteSize) :
    ∃ left : Text maxPath, left.string = Path.kept maxPath path ∧
      m.setPath path = (.error .bufferOverflow, { m with path := left }) := by
  have hroom : (Path.extendAll (.empty : Text maxPath) (Path.segments path)).2 = false := by
    rw [← Bool.not_eq_true, fits_iff]
    exact Nat.not_le_of_lt h
  refine ⟨_, Path.extendAll_eq fun _ => Path.isSegment_of_mem_segments, ?_⟩
  simp [setPath, hroom]

/-- **What fits is set**, and nothing else changes. -/
theorem set_of_le {m : Message} {s : Setting} (h : s.content.length ≤ s.capacity) :
    (m.set s).1 = .ok () ∧ s.field (m.set s).2 = s.content ∧ s.Elsewhere m (m.set s).2 := by
  cases s with
  | path p =>
    rw [set, setPath_of_le h]
    exact ⟨rfl, rfl, rfl⟩
  | token bs =>
    have hle : bs.length ≤ maxToken := h
    rw [set, setToken_of_le hle]
    exact ⟨rfl, rfl, rfl⟩
  | payload bs =>
    have hle : bs.length ≤ maxPayload := h
    rw [set, setPayload_of_le hle]
    exact ⟨rfl, rfl, rfl⟩

/-- **When a message is all that was given or as it was.** Only a path that does not fit is an
exception, unless the old path happens to be what is left of the new one. -/
theorem setsWhole_iff (m : Message) (s : Setting) :
    m.SetsWhole s ↔ ∀ path, s = .path path → maxPath < (Path.normal path).utf8ByteSize →
      m.path.string = Path.kept maxPath path := by
  constructor
  · rintro hwhole path rfl hlt
    obtain ⟨left, hleft, hset⟩ := setPath_of_lt (m := m) hlt
    have hsame : ({ m with path := left } : Message) = m :=
      (Prod.mk.inj (hset.symm.trans (hwhole.refuses hlt))).2
    rw [← hleft, ← congrArg Message.path hsame]
  · intro hkept
    refine ⟨set_of_le, fun hlt => ?_⟩
    cases s with
    | path p =>
      obtain ⟨left, hleft, hset⟩ := setPath_of_lt (m := m) hlt
      have hstring : left.string = m.path.string := hleft.trans (hkept p rfl hlt).symm
      have hsame : left = m.path := by
        cases left
        cases hm : m.path
        simp_all
      rw [set, hset, hsame]
    | token bs => exact setToken_of_lt hlt
    | payload bs => exact setPayload_of_lt hlt

/-- A request with a path of its own. -/
def keepingAlive : Message :=
  { type := .confirmable, code := .post, id := 1, path := ⟨"keepalive", by decide⟩ }

/-- A path of 73 bytes in two segments. -/
def tooLong : String := "/registration/" ++ String.ofList (List.replicate 60 'x')

/-- A path that does not fit wipes out the path from before, and leaves its own first segment and a
slash. -/
theorem not_setsWhole_tooLong :
    (keepingAlive.set (.path tooLong)).1 = .error .bufferOverflow ∧
      (keepingAlive.set (.path tooLong)).2.path.string = "registration/" ∧
      ¬ keepingAlive.SetsWhole (.path tooLong) := by
  have hlt : maxPath < (Path.normal tooLong).utf8ByteSize := by decide +kernel
  have hpath : (keepingAlive.set (.path tooLong)).2.path.string = "registration/" := by
    decide +kernel
  refine ⟨by decide +kernel, hpath, fun h => ?_⟩
  rw [h.refuses hlt] at hpath
  revert hpath
  decide

end Message

end EdgeDevice.Coap
