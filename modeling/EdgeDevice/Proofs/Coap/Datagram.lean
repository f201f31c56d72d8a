import EdgeDevice.Coap.Message
import EdgeDevice.Proofs.Coap.Option
import EdgeDevice.Proofs.Coap.Path

set_option autoImplicit false
set_option relaxedAutoImplicit false

/-!
# The datagrams that are understood

A datagram says four things: a header, a token, a row of options and a payload. Whatever is within
the limits of the format has one written form, and nothing but written forms is understood. Of the
options only those of the path and of the format of the payload matter; all others can be put in or
left out.

A format is a number of 16 bits, but the number that is read is kept in 32 bits, and what rises
above them is lost. So there are values of more than two bytes that are understood as well, and they
stand for the low 16 bits of the number they spell.

## Main definitions

* `EdgeDevice.Coap.Datagram` — what a datagram says, with its written form `Datagram.bytes`.
* `EdgeDevice.Coap.Datagram.WellFormed` — the limits of the format.
* `EdgeDevice.Coap.Datagram.Spells` — a message is what a datagram says.

## Main results

* `EdgeDevice.Coap.Message.foldlM_applyOption` — what a row of options makes of a message.
* `EdgeDevice.Coap.Datagram.decode_bytes` — what is read from a written form.
* `EdgeDevice.Coap.Datagram.eq_of_bytes_eq` — no two datagrams have the same written form.
* `EdgeDevice.Coap.Datagram.exists_of_decode` — what is understood is a written form.
* `EdgeDevice.Coap.Datagram.decode_grammar` — the datagrams that are understood, and as what.
-/

namespace EdgeDevice.Coap

/-! ## Numbers in a row of bytes -/

/-- The number that bytes spell, the high ones first. -/
def bigEndian (bs : Bytes) : Nat := bs.foldl (fun n b => 256 * n + b.toNat) 0

/-- One more byte behind a number makes it 256 times as large and adds the byte. -/
theorem bigEndian_concat (bs : Bytes) (b : UInt8) :
    bigEndian (bs ++ [b]) = 256 * bigEndian bs + b.toNat := by
  rw [bigEndian, List.foldl_append]
  rfl

/-- The number that bytes spell is below the first one that takes a further byte. -/
theorem bigEndian_lt (bs : Bytes) : bigEndian bs < 256 ^ bs.length := by
  induction bs using List.reverseRecOn with
  | nil => decide
  | append_singleton bs b ih =>
    have hb := b.toNat_lt
    rw [bigEndian_concat, List.length_append, List.length_singleton, Nat.pow_succ]
    omega

/-- Two bytes spell a number of 16 bits. -/
theorem bigEndian_mod_lt {v : Bytes} (h : v.length ≤ 2) : bigEndian v % 2 ^ 32 < 65536 := by
  have hpow : 256 ^ v.length ≤ 256 ^ 2 := Nat.pow_le_pow_right (by decide) h
  have hlt := bigEndian_lt v
  exact Nat.lt_of_le_of_lt (Nat.mod_le _ _) (Nat.lt_of_lt_of_le hlt hpow)

namespace Message

/-- One more byte of a format. What rises above 32 bits is lost. -/
theorem toNat_shift_or (n : UInt32) (b : UInt8) :
    ((n <<< 8) ||| b.toUInt32).toNat = (256 * n.toNat + b.toNat) % 2 ^ 32 := by
  have hb : b.toNat < 2 ^ 8 := b.toNat_lt
  have hn : n.toNat <<< ((8 : UInt32).toNat % 32) % 2 ^ 32 = 2 ^ 8 * (n.toNat % 2 ^ 24) := by
    show n.toNat <<< 8 % 2 ^ 32 = 2 ^ 8 * (n.toNat % 2 ^ 24)
    rw [Nat.shiftLeft_eq]
    omega
  rw [UInt32.toNat_or, UInt32.toNat_shiftLeft, UInt8.toNat_toUInt32, hn,
    ← Nat.two_pow_add_eq_or_of_lt hb]
  omega

/-- Of the number that a format option spells the last 32 bits are kept. -/
theorem toNat_formatNumber (v : Bytes) : (formatNumber v).toNat = bigEndian v % 2 ^ 32 := by
  induction v using List.reverseRecOn with
  | nil => rfl
  | append_singleton v b ih =>
    have hstep : formatNumber (v ++ [b]) = (formatNumber v <<< 8) ||| b.toUInt32 := by
      rw [formatNumber, List.foldl_append]
      rfl
    rw [hstep, toNat_shift_or, ih, bigEndian_concat]
    omega

end Message

/-! ## One option -/

namespace OptionField

/-- The values of the options with a number. -/
def valuesOf (number : Nat) (os : List OptionField) : List Bytes :=
  (os.filter fun o => o.number == number).map value

/-- The options that mean something to a device. -/
def isKnown (o : OptionField) : Bool := o.number == uriPath || o.number == contentFormat

/-- The value of an option with the number counts. -/
theorem valuesOf_cons_of_eq {number : Nat} {o : OptionField} (h : o.number = number)
    (os : List OptionField) : valuesOf number (o :: os) = o.value :: valuesOf number os := by
  simp [valuesOf, h]

/-- The value of an option with another number does not count. -/
theorem valuesOf_cons_of_ne {number : Nat} {o : OptionField} (h : o.number ≠ number)
    (os : List OptionField) : valuesOf number (o :: os) = valuesOf number os := by
  simp [valuesOf, h]

end OptionField

namespace Message

open OptionField

/-- A path option puts one more segment behind the path if there is room. -/
theorem applyOption_path {m : Message} {o : OptionField} {s : String} (hn : o.number = uriPath)
    (hv : o.value = Bytes.ofText s)
    (hfit : (Path.attach m.path.string s).utf8ByteSize ≤ maxPath) :
    applyOption m o = .ok { m with path := ⟨Path.attach m.path.string s, hfit⟩ } := by
  rw [applyOption, if_pos hn, hv, Bytes.text?_ofText]
  simp only [Path.extend?_eq, Text.ofString?_of_le hfit]

/-- A format option sets the format if its number has 16 bits as far as 32 bits go. -/
theorem applyOption_format {m : Message} {o : OptionField} (hn : o.number = contentFormat)
    (hv : bigEndian o.value % 2 ^ 32 < 65536) :
    applyOption m o = .ok { m with format := some (UInt16.ofNat (bigEndian o.value)) } := by
  have hne : o.number ≠ uriPath := by
    rw [hn]
    decide
  rw [applyOption, if_neg hne, if_pos hn]
  simp only [toNat_formatNumber, if_pos hv]
  congr 3
  apply UInt16.toNat_inj.1
  simp only [UInt16.toNat_ofNat']
  omega

/-- An option that means nothing to a device leaves the message as it is. -/
theorem applyOption_other (m : Message) {o : OptionField} (h : o.isKnown = false) :
    applyOption m o = .ok m := by
  rw [isKnown, Bool.or_eq_false_iff] at h
  rw [applyOption, if_neg (by simpa using h.1), if_neg (by simpa using h.2)]

/-- What an option that is accepted does to a message. -/
inductive Accepts (m : Message) (o : OptionField) : Message → Prop
  /-- One more segment of the path. -/
  | path {s : String} (hn : o.number = uriPath) (hv : o.value = Bytes.ofText s)
      (hfit : (Path.attach m.path.string s).utf8ByteSize ≤ maxPath) :
      Accepts m o { m with path := ⟨Path.attach m.path.string s, hfit⟩ }
  /-- The format of the payload, in place of an earlier one. -/
  | format (hn : o.number = contentFormat) :
      Accepts m o { m with format := some (UInt16.ofNat (bigEndian o.value)) }
  /-- Nothing at all. -/
  | other (h : o.isKnown = false) : Accepts m o m

/-- An option that is accepted does to a message what it should do. -/
theorem accepts_of_applyOption {m m' : Message} {o : OptionField} (h : applyOption m o = .ok m') :
    Accepts m o m' := by
  by_cases hp : o.number = uriPath
  · rcases ht : Bytes.text? o.value with _ | s
    · rw [applyOption, if_pos hp, ht] at h
      cases h
    · have hv := (Bytes.ofText_of_text? ht).symm
      by_cases hfit : (Path.attach m.path.string s).utf8ByteSize ≤ maxPath
      · rw [applyOption_path hp hv hfit] at h
        cases h
        exact .path hp hv hfit
      · rw [applyOption, if_pos hp, ht] at h
        simp only [Path.extend?_eq, Text.ofString?_eq_none_iff.2 (Nat.lt_of_not_le hfit)] at h
        cases h
  · by_cases hf : o.number = contentFormat
    · by_cases hv : bigEndian o.value % 2 ^ 32 < 65536
      · rw [applyOption_format hf hv] at h
        cases h
        exact .format hf
      · rw [applyOption, if_neg hp, if_pos hf] at h
        simp only [toNat_formatNumber, if_neg hv] at h
        cases h
    · have hother : o.isKnown = false := by simp [isKnown, hp, hf]
      rw [applyOption_other m hother] at h
      cases h
      exact .other hother

/-! ## Options one after the other -/

/-- The format that the last of some values spells. -/
def lastFormat (values : List Bytes) : Option UInt16 :=
  values.getLast?.map fun v => UInt16.ofNat (bigEndian v)

/-- The first of several format options matters only if there is no later one. -/
theorem lastFormat_cons_or (v : Bytes) (vs : List Bytes) (format : Option UInt16) :
    (lastFormat (v :: vs)).or format =
      (lastFormat vs).or (some (UInt16.ofNat (bigEndian v))) := by
  rw [lastFormat, lastFormat, List.getLast?_cons]
  cases vs.getLast? <;> rfl

/-- An option that is accepted leaves the others to the message that it has made. -/
theorem foldlM_applyOption_cons {m m' : Message} {o : OptionField} (h : applyOption m o = .ok m')
    (os : List OptionField) : (o :: os).foldlM applyOption m = os.foldlM applyOption m' := by
  rw [List.foldlM_cons, h]
  rfl

/-- **What a row of options makes of a message**, if the path they spell fits and their formats are
numbers of 16 bits. -/
theorem foldlM_applyOption {m : Message} {os : List OptionField} {segs : List String}
    (hsegs : valuesOf uriPath os = segs.map Bytes.ofText)
    (hfit : (Path.attachAll m.path.string segs).utf8ByteSize ≤ maxPath)
    (hformat : ∀ v ∈ valuesOf contentFormat os, bigEndian v % 2 ^ 32 < 65536) :
    os.foldlM applyOption m =
      .ok { m with path := ⟨Path.attachAll m.path.string segs, hfit⟩,
                   format := (lastFormat (valuesOf contentFormat os)).or m.format } := by
  induction os generalizing m segs with
  | nil =>
    obtain rfl : segs = [] := by simpa [valuesOf] using hsegs.symm
    rfl
  | cons o os ih =>
    by_cases hp : o.number = uriPath
    · have hf : o.number ≠ contentFormat := by
        rw [hp]
        decide
      rw [valuesOf_cons_of_eq hp] at hsegs
      obtain ⟨s, segs, rfl, hv, hsegs⟩ := List.map_eq_cons_iff.1 hsegs.symm
      rw [valuesOf_cons_of_ne hf] at hformat ⊢
      have hfit' : (Path.attach m.path.string s).utf8ByteSize ≤ maxPath :=
        Nat.le_trans (Path.size_le_attachAll _ segs) hfit
      rw [foldlM_applyOption_cons (applyOption_path hp hv.symm hfit')]
      exact ih hsegs.symm hfit hformat
    · rw [valuesOf_cons_of_ne hp] at hsegs
      by_cases hf : o.number = contentFormat
      · rw [valuesOf_cons_of_eq hf] at hformat ⊢
        obtain ⟨hv, hformat⟩ := List.forall_mem_cons.1 hformat
        let n : Message := { m with format := some (UInt16.ofNat (bigEndian o.value)) }
        rw [foldlM_applyOption_cons (applyOption_format hf hv), lastFormat_cons_or]
        exact ih (m := n) hsegs hfit hformat
      · rw [valuesOf_cons_of_ne hf] at hformat ⊢
        have hother : o.isKnown = false := by simp [isKnown, hp, hf]
        rw [foldlM_applyOption_cons (applyOption_other m hother)]
        exact ih hsegs hfit hformat

/-- What is accepted of a row of options is what they spell. -/
theorem of_foldlM_applyOption {m m' : Message} {os : List OptionField}
    (h : os.foldlM applyOption m = .ok m') :
    ∃ segs : List String, valuesOf uriPath os = segs.map Bytes.ofText ∧
      ∃ hfit, m' = { m with path := ⟨Path.attachAll m.path.string segs, hfit⟩,
                            format := (lastFormat (valuesOf contentFormat os)).or m.format } := by
  induction os generalizing m with
  | nil =>
    obtain rfl : m = m' := by
      cases h
      rfl
    exact ⟨[], rfl, m.path.size_le, rfl⟩
  | cons o os ih =>
    rcases ho : applyOption m o with e | m₁
    · rw [List.foldlM_cons, ho] at h
      cases h
    · rw [foldlM_applyOption_cons ho] at h
      obtain ⟨segs, hsegs, hfit, rfl⟩ := ih h
      cases accepts_of_applyOption ho with
      | @path s hn hv hfit' =>
        have hf : o.number ≠ contentFormat := by
          rw [hn]
          decide
        refine ⟨s :: segs, ?_, hfit, ?_⟩
        · rw [valuesOf_cons_of_eq hn, hsegs, hv, List.map_cons]
        · rw [valuesOf_cons_of_ne hf]
          rfl
      | format hn =>
        have hp : o.number ≠ uriPath := by
          rw [hn]
          decide
        refine ⟨segs, ?_, hfit, ?_⟩
        · rw [valuesOf_cons_of_ne hp, hsegs]
        · rw [valuesOf_cons_of_eq hn, lastFormat_cons_or]
      | other hn =>
        obtain ⟨hp, hf⟩ := Bool.or_eq_false_iff.1 hn
        refine ⟨segs, ?_, hfit, ?_⟩
        · rw [valuesOf_cons_of_ne (by simpa using hp), hsegs]
        · rw [valuesOf_cons_of_ne (by simpa using hf)]

/-- Only the options that mean something to a device matter. -/
theorem foldlM_applyOption_filter (m : Message) (os : List OptionField) :
    (os.filter isKnown).foldlM applyOption m = os.foldlM applyOption m := by
  induction os generalizing m with
  | nil => rfl
  | cons o os ih =>
    by_cases hk : o.isKnown = true
    · rw [List.filter_cons_of_pos hk, List.foldlM_cons, List.foldlM_cons]
      simp only [ih]
    · rw [List.filter_cons_of_neg hk, ih,
        foldlM_applyOption_cons (applyOption_other m (by simpa using hk))]

/-- What is accepted behind the token are options that are accepted, and a payload that fits. -/
theorem of_applyTail {m m' : Message} {tail : Tail} (h : applyTail m tail = .ok m') :
    ∃ n payload, tail.options.foldlM applyOption m = .ok n ∧ tail.payload? = some payload ∧
      ∃ hsize, m' = { n with payload := ⟨payload, hsize⟩ } := by
  rw [applyTail] at h
  rcases hfold : tail.options.foldlM applyOption m with e | n
  · rw [hfold] at h
    cases h
  · rw [hfold] at h
    rcases hp : tail.payload? with _ | payload
    · simp only [hp] at h
      cases h
    · simp only [hp] at h
      rcases Nat.lt_or_ge maxPayload payload.length with hlt | hsize
      · rw [Buffer.ofBytes?_eq_none_iff.2 hlt] at h
        cases h
      · rw [Buffer.ofBytes?_of_le hsize] at h
        exact ⟨n, payload, rfl, rfl, hsize, (Except.ok.inj h).symm⟩

/-! ## Headers -/

/-- The first byte holds the version, the type and the length of the token. -/
theorem toNat_first {n : Nat} (hn : n < 16) (type : MessageType) :
    (UInt8.ofNat (version * 64 + type.bits * 16 + n)).toNat = 64 + type.bits * 16 + n := by
  have hb := type.bits_lt
  rw [UInt8.toNat_ofNat', version]
  omega

/-- The first byte tells the type again. -/
theorem ofBits_first {n : Nat} (hn : n < 16) (type : MessageType) :
    MessageType.ofBits ((64 + type.bits * 16 + n) / 16) = type := by
  have hbits : (64 + type.bits * 16 + n) / 16 = 4 + type.bits := by omega
  rw [hbits, ← MessageType.ofBits_mod, Nat.add_mod_left, MessageType.ofBits_mod,
    MessageType.ofBits_bits]

/-- The two bytes of an id tell the id again. -/
theorem ofNat_word (id : UInt16) :
    UInt16.ofNat (Bytes.word (UInt8.ofNat (id.toNat / 256)) (UInt8.ofNat id.toNat)) = id := by
  rw [Bytes.word_ofNat id.toNat_lt, UInt16.ofNat_toNat]

/-- No two headers have the same written form. -/
theorem header_inj {type type' : MessageType} {n n' : Nat} {code code' : Code} {id id' : UInt16}
    (hn : n < 16) (hn' : n' < 16) (h : header type n code id = header type' n' code' id') :
    type = type' ∧ n = n' ∧ code = code' ∧ id = id' := by
  simp only [header, Bytes.ofWord, List.cons.injEq, and_true] at h
  obtain ⟨hfirst, hcode, hhigh, hlow⟩ := h
  have hnat := congrArg UInt8.toNat hfirst
  rw [toNat_first hn, toNat_first hn'] at hnat
  have hbits : type.bits = type'.bits := by omega
  refine ⟨?_, by omega, ?_, ?_⟩
  · rw [← MessageType.ofBits_bits type, hbits, MessageType.ofBits_bits]
  · cases code
    cases code'
    exact congrArg Code.mk hcode
  · rw [← ofNat_word id, hhigh, hlow, ofNat_word]

/-- The header that four bytes are. -/
theorem header_of_version {first : UInt8} (h : first.toNat / 64 = version)
    (code high low : UInt8) :
    header (.ofBits (first.toNat / 16)) (first.toNat % 16) ⟨code⟩
      (UInt16.ofNat (Bytes.word high low)) = [first, code, high, low] := by
  have hfirst : version * 64 + (first.toNat / 16 % 4) * 16 + first.toNat % 16 = first.toNat := by
    unfold version at h ⊢
    omega
  have hid : (UInt16.ofNat (Bytes.word high low)).toNat = Bytes.word high low := by
    rw [UInt16.toNat_ofNat', Nat.mod_eq_of_lt (Bytes.word_lt high low)]
  rw [header, MessageType.bits_ofBits, hfirst, UInt8.ofNat_toNat, hid, Bytes.ofWord_word]

end Message

/-! ## Datagrams -/

/-- What a datagram says. -/
structure Datagram where
  type : MessageType
  code : Code
  id : UInt16
  token : Bytes
  options : List OptionField
  payload : Bytes

namespace Datagram

open OptionField

/-- The written form. -/
def bytes (d : Datagram) : Bytes :=
  Message.serialize d.type d.code d.id d.token d.options d.payload

/-- The limits of the format: a token of at most eight bytes, options in the order of their numbers
with values that can be written, and a payload that a device has room for. -/
structure WellFormed (d : Datagram) : Prop where
  token : d.token.length ≤ maxToken
  options : Ascending 0 d.options
  payload : d.payload.length ≤ maxPayload

/-- A message is what a datagram says: the path is that of the path options, of which empty ones in
front leave no trace, and the format is that of the last format option. -/
structure Spells (d : Datagram) (m : Message) : Prop where
  type : m.type = d.type
  code : m.code = d.code
  id : m.id = d.id
  token : m.token.bytes = d.token
  path : ∃ segs : List String, valuesOf uriPath d.options = segs.map Bytes.ofText ∧
    m.path.string = Path.join (segs.dropWhile (· == ""))
  format : m.format = Message.lastFormat (valuesOf contentFormat d.options)
  payload : m.payload.bytes = d.payload

/-- What is known of the message once header and token are read. -/
def start (d : Datagram) (h : d.token.length ≤ maxToken) : Message :=
  { type := d.type, code := d.code, id := d.id, token := ⟨d.token, h⟩ }

/-- The length of a token fits its four bits. -/
theorem length_token_lt {d : Datagram} (h : d.WellFormed) : d.token.length < 16 :=
  Nat.lt_of_le_of_lt h.token (by decide)

/-- **What is read from a written form**: header and token, then one option after the other, and the
payload. -/
theorem decode_bytes {d : Datagram} (h : d.WellFormed) :
    Message.decode d.bytes =
      (d.options.foldlM Message.applyOption (d.start h.token)).map
        fun m => { m with payload := ⟨d.payload, h.payload⟩ } := by
  have hn := length_token_lt h
  have hlen : (64 + d.type.bits * 16 + d.token.length) % 16 = d.token.length := by omega
  have hversion : (64 + d.type.bits * 16 + d.token.length) / 64 = Message.version := by
    have hb := d.type.bits_lt
    show _ = 1
    omega
  simp only [bytes, Message.serialize, Message.header, Bytes.ofWord, List.cons_append,
    List.nil_append, List.append_assoc, Message.decode, Message.toNat_first hn, hlen, hversion,
    Message.ofBits_first hn, Message.ofNat_word, List.take_left, List.drop_left,
    Buffer.ofBytes?_of_le h.token, Tail.read_writeAll h.options]
  rw [if_pos ⟨trivial, by simp⟩, Message.applyTail]
  simp only [Buffer.ofBytes?_of_le h.payload]
  rfl

/-- Options that mean nothing to a device can be put in and left out. -/
theorem decode_bytes_congr {d : Datagram} {os : List OptionField} (h : d.WellFormed)
    (h' : { d with options := os }.WellFormed)
    (hknown : os.filter isKnown = d.options.filter isKnown) :
    Message.decode { d with options := os }.bytes = Message.decode d.bytes := by
  rw [decode_bytes h, decode_bytes h', ← Message.foldlM_applyOption_filter _ d.options, ← hknown,
    Message.foldlM_applyOption_filter]
  rfl

/-- **No two datagrams have the same written form.** -/
theorem eq_of_bytes_eq {d d' : Datagram} (h : d.WellFormed) (h' : d'.WellFormed)
    (hb : d.bytes = d'.bytes) : d = d' := by
  simp only [bytes, Message.serialize, List.append_assoc] at hb
  obtain ⟨hheader, hb⟩ := List.append_inj hb rfl
  obtain ⟨htype, hlen, hcode, hid⟩ :=
    Message.header_inj (length_token_lt h) (length_token_lt h') hheader
  obtain ⟨htoken, hb⟩ := List.append_inj hb hlen
  have htail := congrArg (Tail.read 0) hb
  rw [Tail.read_writeAll h.options, Tail.read_writeAll h'.options, Tail.mk.injEq,
    Option.some.injEq] at htail
  cases d
  cases d'
  simp only at htype hcode hid htoken htail
  rw [htype, hcode, hid, htoken, htail.1, htail.2]

/-- **What is understood is a written form.** -/
theorem exists_of_decode {data : Bytes} {m : Message} (h : Message.decode data = .ok m) :
    ∃ d : Datagram, d.WellFormed ∧ d.bytes = data := by
  unfold Message.decode at h
  split at h
  · rename_i first code high low rest
    dsimp only at h
    split at h
    · rename_i hfirst
      obtain ⟨hversion, hlen⟩ := hfirst
      rcases htoken : (Buffer.ofBytes? (rest.take (first.toNat % 16)) : Option (Buffer maxToken))
        with _ | token
      · rw [htoken] at h
        cases h
      · rw [htoken] at h
        obtain ⟨_, payload, -, hp, hsize, -⟩ := Message.of_applyTail h
        obtain ⟨hoptions, hwritten⟩ := Tail.writeAll_of_read hp
        refine ⟨⟨.ofBits (first.toNat / 16), ⟨code⟩, UInt16.ofNat (Bytes.word high low),
          rest.take (first.toNat % 16), _, payload⟩, ⟨?_, hoptions, hsize⟩, ?_⟩
        · exact Buffer.length_of_ofBytes? htoken
        · rw [bytes, Message.serialize, List.length_take_of_le hlen,
            Message.header_of_version hversion, List.append_assoc, ← hwritten, List.append_assoc,
            List.take_append_drop]
          rfl
    · cases h
  · cases h

/-- What is read from a written form is what it says. -/
theorem spells_of_decode {d : Datagram} {m : Message} (h : d.WellFormed)
    (hm : Message.decode d.bytes = .ok m) : d.Spells m := by
  rw [decode_bytes h] at hm
  rcases hfold : d.options.foldlM Message.applyOption (d.start h.token) with e | n
  · rw [hfold] at hm
    cases hm
  · rw [hfold] at hm
    cases hm
    obtain ⟨segs, hsegs, hfit, rfl⟩ := Message.of_foldlM_applyOption hfold
    refine ⟨rfl, rfl, rfl, rfl, ⟨segs, hsegs, Path.attachAll_empty segs⟩, ?_, rfl⟩
    exact Option.or_none

/-- **The datagrams that are understood, and as what.** A datagram whose path fits and whose formats
have at most two bytes is understood as what it says. Options other than those of the path and the
format never change the outcome. And what is understood is the written form of just one datagram. -/
theorem decode_grammar :
    (∀ (d : Datagram) (segs : List String), d.WellFormed →
      valuesOf uriPath d.options = segs.map Bytes.ofText →
      (Path.join (segs.dropWhile (· == ""))).utf8ByteSize ≤ maxPath →
      (∀ v ∈ valuesOf contentFormat d.options, v.length ≤ 2) →
      ∃ m, Message.decode d.bytes = .ok m ∧ d.Spells m) ∧
    (∀ (d : Datagram) (os : List OptionField), d.WellFormed →
      { d with options := os }.WellFormed →
      os.filter isKnown = d.options.filter isKnown →
      Message.decode { d with options := os }.bytes = Message.decode d.bytes) ∧
    ∀ (data : Bytes) (m : Message), Message.decode data = .ok m →
      ∃ d : Datagram, d.WellFormed ∧ d.bytes = data ∧ d.Spells m ∧
        ∀ d' : Datagram, d'.WellFormed → d'.bytes = data → d' = d := by
  refine ⟨?_, fun d os => decode_bytes_congr, ?_⟩
  · intro d segs h hsegs hfit hformat
    rw [← Path.attachAll_empty] at hfit
    have hfold := Message.foldlM_applyOption (m := d.start h.token) hsegs hfit fun v hv =>
      bigEndian_mod_lt (hformat v hv)
    have hdecode := decode_bytes h
    rw [hfold] at hdecode
    exact ⟨_, hdecode, spells_of_decode h hdecode⟩
  · intro data m hm
    obtain ⟨d, h, rfl⟩ := exists_of_decode hm
    exact ⟨d, h, rfl, spells_of_decode h hm, fun d' h' hb => eq_of_bytes_eq h' h hb⟩

/-- A request whose options are an empty segment, two segments, a format and two options that mean
nothing to a device, one of them with the largest number. -/
def crowded : Datagram where
  type := .confirmable
  code := .post
  id := 0x1234
  token := [0xAB, 0xFF]
  options := [⟨uriPath, []⟩, ⟨uriPath, Bytes.ofText "lamp"⟩, ⟨uriPath, Bytes.ofText "bé"⟩,
    ⟨contentFormat, [1, 0]⟩, ⟨14, [60]⟩, ⟨largest, List.replicate 20 7⟩]
  payload := [0xFF, 0x7D]

/-- The same request without the options that mean nothing to a device. -/
def plain : Datagram := { crowded with options := crowded.options.filter isKnown }

/-- The crowded datagram keeps to the limits of the format. -/
theorem wellFormed_crowded : crowded.WellFormed where
  token := by decide
  options :=
    ascending_cons.2 ⟨by decide, ⟨by decide, by decide⟩,
    ascending_cons.2 ⟨by decide, ⟨by decide, by decide⟩,
    ascending_cons.2 ⟨by decide, ⟨by decide, by decide⟩,
    ascending_cons.2 ⟨by decide, ⟨by decide, by decide⟩,
    ascending_cons.2 ⟨by decide, ⟨by decide, by decide⟩,
    ascending_cons.2 ⟨by decide, ⟨by decide, by decide⟩, ascending_nil _⟩⟩⟩⟩⟩⟩
  payload := by decide

/-- Without the options that mean nothing to a device it does so as well. -/
theorem wellFormed_plain : plain.WellFormed :=
  ⟨wellFormed_crowded.token, wellFormed_crowded.options.filter isKnown, wellFormed_crowded.payload⟩

/-- The request is understood with the path `lamp/bé` and the format 256, the same way without the
options that mean nothing, and no other datagram is written like it. -/
theorem decode_grammar_crowded :
    (∃ m, Message.decode crowded.bytes = .ok m ∧ m.path.string = "lamp/bé" ∧
      m.format = some 256) ∧
    Message.decode plain.bytes = Message.decode crowded.bytes ∧
    ∀ d : Datagram, d.WellFormed → d.bytes = crowded.bytes → d = crowded := by
  obtain ⟨m, hm, hspells⟩ := decode_grammar.1 crowded ["", "lamp", "bé"] wellFormed_crowded
    (by decide) (by decide) (by decide)
  refine ⟨⟨m, hm, ?_, hspells.format⟩, ?_, ?_⟩
  · obtain ⟨segs, hsegs, hpath⟩ := hspells.path
    have hcrowded : valuesOf uriPath crowded.options =
      ["", "lamp", "bé"].map Bytes.ofText := by decide
    obtain rfl := List.map_injective_iff.2 (fun _ _ => Bytes.eq_of_ofText_eq)
      (hcrowded.symm.trans hsegs)
    rw [hpath]
    decide
  · exact decode_grammar.2.1 crowded plain.options wellFormed_crowded wellFormed_plain (by decide)
  · obtain ⟨d, hd, hb, -, hunique⟩ := decode_grammar.2.2 crowded.bytes m hm
    intro d' hd' hb'
    rw [hunique d' hd' hb', ← hunique crowded wellFormed_crowded rfl]

end Datagram

end EdgeDevice.Coap
