import EdgeDevice.Proofs.Coap.Datagram

set_option autoImplicit false
set_option relaxedAutoImplicit false

/-!
# When the format of a datagram is read for what it says

The format of a payload is the number that the last format option spells, and a number of more than
16 bits is a violation of the protocol. But the number is kept in 32 bits while it is read. So there
are datagrams whose format is refused by its low 32 bits only, and understood where these are a
number of 16 bits; they are told apart here from those which are read for what they say.

A violation that comes first is reported in place of a later one. The path stands in front of the
format, so a path without room hides whatever is wrong with the format.

## Main definitions

* `EdgeDevice.Coap.Message.opening?` — what header and token come to.
* `EdgeDevice.Coap.Message.Legible`, `EdgeDevice.Coap.Message.InShape` — options, and a datagram,
  without a violation of the protocol as far as 32 bits of the format go.
* `EdgeDevice.Coap.Message.Roomy`, `EdgeDevice.Coap.Message.Crowded` — there is room for the path,
  or there is none.
* `EdgeDevice.Coap.Message.ReadsFormat` — the format is read for what it says, or refused.
* `EdgeDevice.Coap.Message.Exceeds` — the format is no number of 16 bits.

## Main results

* `EdgeDevice.Coap.Message.foldlM_overflow_iff` — what a row of options has no room for.
* `EdgeDevice.Coap.Message.decode_protocolError_iff` — what is a violation of the protocol.
* `EdgeDevice.Coap.Message.lt_length_of_inShape` — what it takes for a format to be overlooked.
* `EdgeDevice.Coap.Message.readsFormat_iff` — when the format is read for what it says.
-/

namespace EdgeDevice.Coap

open OptionField

/-! ## The order of options -/

/-- Options that are read are in the order of their numbers, whatever is wrong behind them. -/
theorem Tail.ascending_read (last : Nat) (bs : Bytes) : Ascending last (read last bs).options := by
  fun_induction read last bs with
  | case1 last => exact ascending_nil last
  | case2 last => exact ascending_nil last
  | case3 last => exact ascending_nil last
  | case4 last first bs _ o rest hr _ _ ih =>
    obtain ⟨hl, ho, -⟩ := write_of_read? hr
    exact ascending_cons.2 ⟨hl, ho, ih⟩

/-- Behind a format there is no path. -/
theorem OptionField.valuesOf_path_of_ascending {os : List OptionField}
    (h : Ascending contentFormat os) : valuesOf uriPath os = [] := by
  have hnone : os.filter (fun o => o.number == uriPath) = [] := by
    rw [List.filter_eq_nil_iff]
    intro o ho hp
    have hle := h.above o ho
    rw [eq_of_beq hp] at hle
    exact absurd hle (by decide)
  rw [valuesOf, hnone, List.map_nil]

namespace Message

/-! ## Header and token -/

/-- The message that header and token begin, and what stands behind them, if they are in shape. -/
def opening? (data : Bytes) : Option (Message × Tail) :=
  match data with
  | first :: code :: high :: low :: rest =>
    let length := first.toNat % 16
    if first.toNat / 64 = version ∧ length ≤ rest.length then
      (Buffer.ofBytes? (rest.take length)).map fun token =>
        ({ type := .ofBits (first.toNat / 16), code := ⟨code⟩,
           id := UInt16.ofNat (Bytes.word high low), token := token },
          Tail.read 0 (rest.drop length))
    else none
  | _ => none

/-- Without header and token nothing is understood, and otherwise what stands behind them counts. -/
theorem decode_eq (data : Bytes) :
    decode data = match opening? data with
      | none => .error .protocolError
      | some (m, tail) => applyTail m tail := by
  unfold decode
  split
  · rename_i first code high low rest
    rw [opening?]
    dsimp only
    split
    · rcases (Buffer.ofBytes? (rest.take (first.toNat % 16)) : Option (Buffer maxToken)) <;> rfl
    · rfl
  · rename_i hshort
    rw [opening?]
    exact hshort

/-- Header and token say nothing about path and format. -/
theorem of_opening {data : Bytes} {m : Message} {tail : Tail}
    (h : opening? data = some (m, tail)) :
    m.path.string = "" ∧ m.format = none ∧ Ascending 0 tail.options := by
  unfold opening? at h
  split at h
  · dsimp only at h
    split at h
    · obtain ⟨token, -, h⟩ := Option.map_eq_some_iff.1 h
      obtain ⟨rfl, rfl⟩ := Prod.mk.inj h
      exact ⟨rfl, rfl, Tail.ascending_read 0 _⟩
    · cases h
  · cases h

/-- The values of the format options of a datagram, as far as it has options that can be read. -/
def formats (data : Bytes) : List Bytes :=
  match opening? data with
  | none => []
  | some (_, tail) => valuesOf contentFormat tail.options

/-! ## Room for the path -/

/-- There is room for a path with some options behind it, up to the first value that is no text. -/
def Roomy (path : String) (os : List OptionField) : Prop :=
  ∀ segs : List String, segs.map Bytes.ofText <+: valuesOf uriPath os →
    (Path.attachAll path segs).utf8ByteSize ≤ maxPath

section

variable {path : String} {o : OptionField} {os : List OptionField}

/-- Without path options only the path itself has to fit. -/
theorem roomy_of_nil (h : valuesOf uriPath os = []) :
    Roomy path os ↔ path.utf8ByteSize ≤ maxPath := by
  constructor
  · exact fun hr => hr [] List.nil_prefix
  · intro hp segs hsegs
    rw [h, List.prefix_nil, List.map_eq_nil_iff] at hsegs
    rw [hsegs]
    exact hp

/-- An option that is no path option takes no room. -/
theorem roomy_cons_of_ne (h : o.number ≠ uriPath) : Roomy path (o :: os) ↔ Roomy path os := by
  rw [Roomy, valuesOf_cons_of_ne h]
  rfl

/-- With one more segment. -/
theorem roomy_cons_of_text {s : String} (hn : o.number = uriPath) (hv : o.value = Bytes.ofText s) :
    Roomy path (o :: os) ↔
      (Path.attach path s).utf8ByteSize ≤ maxPath ∧ Roomy (Path.attach path s) os := by
  rw [Roomy, valuesOf_cons_of_eq hn, hv]
  constructor
  · intro h
    refine ⟨h [s] (List.cons_prefix_cons.2 ⟨rfl, List.nil_prefix⟩), fun segs hsegs => ?_⟩
    exact h (s :: segs) (List.cons_prefix_cons.2 ⟨rfl, hsegs⟩)
  · rintro ⟨hfit, h⟩ segs hsegs
    cases segs with
    | nil =>
      have hle := Path.size_le_attachAll path [s]
      exact Nat.le_trans hle hfit
    | cons s' segs =>
      obtain ⟨hs, hsegs⟩ := List.cons_prefix_cons.1 hsegs
      rw [Bytes.eq_of_ofText_eq hs]
      exact h segs hsegs

/-- A value that is no text ends the path. -/
theorem roomy_cons_of_no_text (hn : o.number = uriPath) (hv : Bytes.text? o.value = none) :
    Roomy path (o :: os) ↔ path.utf8ByteSize ≤ maxPath := by
  rw [Roomy, valuesOf_cons_of_eq hn]
  constructor
  · exact fun h => h [] List.nil_prefix
  · intro hp segs hsegs
    cases segs with
    | nil => exact hp
    | cons s segs =>
      have hs := (List.cons_prefix_cons.1 hsegs).1
      rw [← hs, Bytes.text?_ofText] at hv
      cases hv

end

/-! ## What can be wrong with options -/

/-- The first option that is refused decides about all options. -/
theorem foldlM_applyOption_cons_error {m : Message} {o : OptionField} {e : NetError}
    (h : applyOption m o = .error e) (os : List OptionField) :
    (o :: os).foldlM applyOption m = .error e := by
  rw [List.foldlM_cons, h]
  rfl

/-- A path option that is no text is refused as a violation of the protocol. -/
theorem applyOption_no_text {m : Message} {o : OptionField} (hn : o.number = uriPath)
    (hv : Bytes.text? o.value = none) : applyOption m o = .error .protocolError := by
  rw [applyOption, if_pos hn, hv]

/-- A path option for which there is no room is refused for that. -/
theorem applyOption_no_room {m : Message} {o : OptionField} {s : String} (hn : o.number = uriPath)
    (hv : o.value = Bytes.ofText s)
    (hfit : ¬ (Path.attach m.path.string s).utf8ByteSize ≤ maxPath) :
    applyOption m o = .error .bufferOverflow := by
  rw [applyOption, if_pos hn, hv, Bytes.text?_ofText]
  simp only [Path.extend?_eq, Text.ofString?_eq_none_iff.2 (Nat.lt_of_not_le hfit)]

/-- A format option beyond 16 bits, as far as 32 bits go, is refused as a violation of the
protocol. -/
theorem applyOption_no_format {m : Message} {o : OptionField} (hn : o.number = contentFormat)
    (hv : ¬ bigEndian o.value % 2 ^ 32 < 65536) : applyOption m o = .error .protocolError := by
  have hne : o.number ≠ uriPath := by
    rw [hn]
    decide
  rw [applyOption, if_neg hne, if_pos hn]
  simp only [toNat_formatNumber, if_neg hv]

/-- **What a row of options has no room for** is its path.

**Proof sketch.** By induction on the options. A format that is refused is no counterexample: as the
options are in order, there is no path behind it. -/
theorem foldlM_overflow_iff {m : Message} {last : Nat} {os : List OptionField}
    (h : Ascending last os) :
    os.foldlM applyOption m = .error .bufferOverflow ↔ ¬ Roomy m.path.string os := by
  induction os generalizing m last with
  | nil =>
    rw [roomy_of_nil rfl]
    exact iff_of_false nofun (not_not_intro m.path.size_le)
  | cons o os ih =>
    obtain ⟨-, -, hos⟩ := ascending_cons.1 h
    by_cases hp : o.number = uriPath
    · rcases ht : Bytes.text? o.value with _ | s
      · rw [foldlM_applyOption_cons_error (applyOption_no_text hp ht), roomy_cons_of_no_text hp ht]
        exact iff_of_false nofun (not_not_intro m.path.size_le)
      · have hv := (Bytes.ofText_of_text? ht).symm
        rw [roomy_cons_of_text hp hv]
        by_cases hfit : (Path.attach m.path.string s).utf8ByteSize ≤ maxPath
        · rw [foldlM_applyOption_cons (applyOption_path hp hv hfit), ih hos]
          exact not_congr (and_iff_right hfit).symm
        · rw [foldlM_applyOption_cons_error (applyOption_no_room hp hv hfit)]
          exact iff_of_true rfl fun hr => hfit hr.1
    · rw [roomy_cons_of_ne hp]
      by_cases hf : o.number = contentFormat
      · by_cases hv : bigEndian o.value % 2 ^ 32 < 65536
        · rw [foldlM_applyOption_cons (applyOption_format hf hv), ih hos]
        · rw [foldlM_applyOption_cons_error (applyOption_no_format hf hv),
            roomy_of_nil (valuesOf_path_of_ascending (hf ▸ hos))]
          exact iff_of_false nofun (not_not_intro m.path.size_le)
      · have hother : o.isKnown = false := by simp [isKnown, hp, hf]
        rw [foldlM_applyOption_cons (applyOption_other m hother), ih hos]

/-- An option is refused for no other reason than these two. -/
theorem error_of_applyOption {m : Message} {o : OptionField} {e : NetError}
    (h : applyOption m o = .error e) : e = .protocolError ∨ e = .bufferOverflow := by
  unfold applyOption at h
  dsimp only at h
  split at h
  · split at h
    · exact .inl (Except.error.inj h).symm
    · split at h
      · exact .inr (Except.error.inj h).symm
      · cases h
  · split at h
    · split at h
      · cases h
      · exact .inl (Except.error.inj h).symm
    · cases h

/-- Nothing else is reported than a violation of the protocol and a lack of room. -/
theorem error_of_foldlM {m : Message} {os : List OptionField} {e : NetError}
    (h : os.foldlM applyOption m = .error e) : e = .protocolError ∨ e = .bufferOverflow := by
  induction os generalizing m with
  | nil => cases h
  | cons o os ih =>
    rcases ho : applyOption m o with e' | m'
    · rw [foldlM_applyOption_cons_error ho] at h
      exact Except.error.inj h ▸ error_of_applyOption ho
    · rw [foldlM_applyOption_cons ho] at h
      exact ih h

/-- Formats that are accepted are numbers of 16 bits as far as 32 bits go. -/
theorem low_of_foldlM {m m' : Message} {os : List OptionField}
    (h : os.foldlM applyOption m = .ok m') :
    ∀ v ∈ valuesOf contentFormat os, bigEndian v % 2 ^ 32 < 65536 := by
  induction os generalizing m with
  | nil => exact fun v hv => absurd hv List.not_mem_nil
  | cons o os ih =>
    rcases ho : applyOption m o with e | n
    · rw [foldlM_applyOption_cons_error ho] at h
      cases h
    · rw [foldlM_applyOption_cons ho] at h
      by_cases hf : o.number = contentFormat
      · rw [valuesOf_cons_of_eq hf]
        refine List.forall_mem_cons.2 ⟨?_, ih h⟩
        by_contra hv
        rw [applyOption_no_format hf hv] at ho
        cases ho
      · rw [valuesOf_cons_of_ne hf]
        exact ih h

/-- **Options without a violation**: the path is text and there is room for it, and formats are
numbers of 16 bits as far as 32 bits go. -/
structure Legible (os : List OptionField) : Prop where
  path : ∃ segs : List String, valuesOf uriPath os = segs.map Bytes.ofText ∧
    (Path.attachAll "" segs).utf8ByteSize ≤ maxPath
  formats : ∀ v ∈ valuesOf contentFormat os, bigEndian v % 2 ^ 32 < 65536

/-- **What a row of options is accepted for.** -/
theorem foldlM_ok_iff {m : Message} {os : List OptionField} (hpath : m.path.string = "") :
    (∃ m', os.foldlM applyOption m = .ok m') ↔ Legible os := by
  constructor
  · rintro ⟨m', h⟩
    obtain ⟨segs, hsegs, hfit, -⟩ := of_foldlM_applyOption h
    rw [hpath] at hfit
    exact ⟨⟨segs, hsegs, hfit⟩, low_of_foldlM h⟩
  · rintro ⟨⟨segs, hsegs, hfit⟩, hformats⟩
    rw [← hpath] at hfit
    exact ⟨_, foldlM_applyOption hsegs hfit hformats⟩

/-! ## What can be wrong with a datagram -/

/-- A datagram is in shape: header and token, the options as far as 32 bits of the format go, and
what stands in front of the payload. -/
def InShape (data : Bytes) : Prop :=
  ∃ o, opening? data = some o ∧ Legible o.2.options ∧ o.2.payload? ≠ none

/-- There is no room for the path of a datagram. -/
def Crowded (data : Bytes) : Prop := ∃ o, opening? data = some o ∧ ¬ Roomy "" o.2.options

/-- What stands behind the token is refused if one of its options is. -/
theorem applyTail_of_error {m : Message} {tail : Tail} {e : NetError}
    (h : tail.options.foldlM applyOption m = .error e) : applyTail m tail = .error e := by
  rw [applyTail, h]
  rfl

/-- Once the options are accepted, only what stands behind them can be a violation. -/
theorem applyTail_of_ok {m n : Message} {tail : Tail}
    (h : tail.options.foldlM applyOption m = .ok n) :
    applyTail m tail = .error .protocolError ↔ tail.payload? = none := by
  rw [applyTail, h]
  rcases tail.payload? with _ | payload
  · exact iff_of_true rfl rfl
  · simp only [reduceCtorEq, iff_false]
    rcases Nat.lt_or_ge maxPayload payload.length with hlt | hsize
    · rw [Buffer.ofBytes?_eq_none_iff.2 hlt]
      rintro ⟨⟩
    · rw [Buffer.ofBytes?_of_le hsize]
      rintro ⟨⟩

/-- **What is a violation of the protocol**: a datagram that is not in shape, unless it has a path
without room first. -/
theorem decode_protocolError_iff (data : Bytes) :
    decode data = .error .protocolError ↔ ¬ InShape data ∧ ¬ Crowded data := by
  rw [decode_eq, InShape, Crowded]
  rcases ho : opening? data with _ | ⟨m, tail⟩
  · simp
  · obtain ⟨hpath, -, hascending⟩ := of_opening ho
    have hoverflow := foldlM_overflow_iff (m := m) hascending
    have hok : (∃ m', tail.options.foldlM applyOption m = .ok m') ↔ Legible tail.options :=
      foldlM_ok_iff hpath
    rw [hpath] at hoverflow
    simp only [Option.some.injEq, exists_eq_left']
    rcases hfold : tail.options.foldlM applyOption m with e | n
    · have hlegible : ¬ Legible tail.options := by
        rw [← hok, hfold]
        rintro ⟨m', ⟨⟩⟩
      rw [applyTail_of_error hfold, ← hoverflow, hfold]
      rcases error_of_foldlM hfold with rfl | rfl <;> simp [hlegible]
    · have hlegible : Legible tail.options := hok.1 ⟨n, hfold⟩
      rw [applyTail_of_ok hfold, ← hoverflow, hfold]
      simp [hlegible]

/-! ## The format -/

/-- **The format is read for what it says**: if a format is understood it is the number that the
last format option spells, and if that is no number of 16 bits the datagram is a violation of the
protocol. -/
def ReadsFormat (data : Bytes) : Prop :=
  (∀ m v, decode data = .ok m → m.format = some v →
    ∃ bs, (formats data).getLast? = some bs ∧ v.toNat = bigEndian bs) ∧
  ∀ bs, (formats data).getLast? = some bs → 65535 < bigEndian bs →
    decode data = .error .protocolError

/-- The last format option spells no number of 16 bits. -/
def Exceeds (data : Bytes) : Prop :=
  ∃ bs, (formats data).getLast? = some bs ∧ 65535 < bigEndian bs

/-- The format that is understood is that of the last format option, as far as 16 bits go. -/
theorem format_of_decode {data : Bytes} {m : Message} (h : decode data = .ok m) :
    m.format = lastFormat (formats data) := by
  rw [decode_eq] at h
  rw [formats]
  rcases ho : opening? data with _ | ⟨n, tail⟩
  · rw [ho] at h
    cases h
  · obtain ⟨-, hnone, -⟩ := of_opening ho
    rw [ho] at h
    obtain ⟨_, payload, hfold, -, hsize, rfl⟩ := of_applyTail h
    obtain ⟨segs, -, hfit, rfl⟩ := of_foldlM_applyOption hfold
    rw [hnone]
    exact Option.or_none

/-- It takes a value of five bytes for a format to be overlooked. -/
theorem lt_length_of_inShape {data bs : Bytes} (hs : InShape data)
    (hbs : (formats data).getLast? = some bs) (hlarge : 65535 < bigEndian bs) :
    4 < bs.length := by
  obtain ⟨⟨m, tail⟩, ho, hlegible, -⟩ := hs
  rw [formats, ho] at hbs
  have hlow := hlegible.formats bs (List.mem_of_getLast? hbs)
  by_contra hshort
  have hpow : 256 ^ bs.length ≤ 256 ^ 4 := Nat.pow_le_pow_right (by decide) (by omega)
  have hlt := bigEndian_lt bs
  omega

/-- **When the format is read for what it says**: whenever it is a number of 16 bits, and if it is
none, whenever the datagram has a violation that 32 bits of the format are enough to see, and has
room for its path. -/
theorem readsFormat_iff (data : Bytes) :
    ReadsFormat data ↔ (Exceeds data → ¬ InShape data ∧ ¬ Crowded data) := by
  rw [← decode_protocolError_iff]
  constructor
  · rintro ⟨-, h⟩ ⟨bs, hbs, hlarge⟩
    exact h bs hbs hlarge
  · intro h
    refine ⟨fun m v hm hv => ?_, fun bs hbs hlarge => h ⟨bs, hbs, hlarge⟩⟩
    rw [format_of_decode hm, lastFormat, Option.map_eq_some_iff] at hv
    obtain ⟨bs, hbs, rfl⟩ := hv
    have hsmall : bigEndian bs < 65536 := by
      by_contra hlarge
      rw [h ⟨bs, hbs, by omega⟩] at hm
      cases hm
    exact ⟨bs, hbs, by rw [UInt16.toNat_ofNat', Nat.mod_eq_of_lt hsmall]⟩

/-- A request without path whose format option has five bytes. -/
def fiveBytes : Bytes := [0x40, 0x01, 0x00, 0x01, 0xC5, 0x01, 0x00, 0x00, 0x00, 0x32]

/-- The format that is understood is 50, although the option spells 4294967346. -/
theorem not_readsFormat_fiveBytes :
    (∃ m, decode fiveBytes = .ok m ∧ m.format = some 50) ∧
      (formats fiveBytes).getLast? = some [0x01, 0x00, 0x00, 0x00, 0x32] ∧
      bigEndian [0x01, 0x00, 0x00, 0x00, 0x32] = 4294967346 ∧ ¬ ReadsFormat fiveBytes := by
  have hdecode : decode fiveBytes =
      .ok { type := .confirmable, code := .get, id := 1, format := some 50 } := by decide +kernel
  have hlast : (formats fiveBytes).getLast? = some [0x01, 0x00, 0x00, 0x00, 0x32] := by
    decide +kernel
  refine ⟨⟨_, hdecode, rfl⟩, hlast, by decide, fun h => ?_⟩
  have hrefused := h.2 _ hlast (by decide)
  rw [hdecode] at hrefused
  cases hrefused

end Message

end EdgeDevice.Coap
