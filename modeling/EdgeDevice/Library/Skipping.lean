import EdgeDevice.Json.Settings
import EdgeDevice.Text.Blank
import EdgeDevice.Text.Quoted

set_option autoImplicit false
set_option relaxedAutoImplicit false

/-!
# A reader of settings documents

A known field may be there once or not at all. Other fields are skipped with whatever value they
have, which is checked only roughly. Strings are not unescaped: what stands between the quotes is
the key or the value. The document must end behind the object, blanks left out.

## Main definitions

* `EdgeDevice.Settings.Skipping.skipValue?` — leaves out the value of a field that is not known.
* `EdgeDevice.Settings.Skipping.read?` — the values of the known fields of a document, with the
  instance of `Reader` that comes of it.

## Main results

* `EdgeDevice.Settings.Skipping.admits_of_read?` — a value that is found has the shape of its field,
  so that the reader is lawful.
-/

namespace EdgeDevice.Settings.Skipping

open Ascii

/-- The bytes that follow a part of a document, which is not empty. -/
abbrev After (bs : Bytes) := { rest : Bytes // rest.length < bs.length }

/-- Leaves out the blanks in front. -/
def skipBlanks (bs : Bytes) : Bytes := bs.dropWhile Blank.isSettings

/-- Skipping blanks makes no bytes. -/
theorem length_skipBlanks_le (bs : Bytes) : (skipBlanks bs).length ≤ bs.length :=
  (List.dropWhile_suffix _).length_le

/-- Behind the first byte that is no blank there is less than there was. -/
theorem length_lt_of_skipBlanks {bs rest : Bytes} {b : UInt8} (h : skipBlanks bs = b :: rest) :
    rest.length < bs.length := by
  have := length_skipBlanks_le bs
  rw [h, List.length_cons] at this
  omega

/-! ## Strings and numbers -/

/-- Reads a string from behind its opening quote on. -/
def quoted? (bs : Bytes) : Option (String × After bs) :=
  match h : Quoted.split? bs with
  | none => none
  | some (raw, rest) => (Bytes.text? raw).map fun s => (s, ⟨rest, Quoted.length_lt_of_split? h⟩)

/-- The number that digits spell. -/
def number (digits : Bytes) : Nat := digits.foldl (fun n b => 10 * n + (b.toNat - 48)) 0

/-- Reads a number: a zero alone, or digits of which the first is no zero. -/
def natural? (bound : Nat) (bs : Bytes) : Option (Nat × After bs) :=
  match bs with
  | [] => none
  | b :: rest =>
    if b = zero then some (0, ⟨rest, Nat.lt_succ_self _⟩)
    else if isDigit b then
      let n := number (b :: rest.takeWhile isDigit)
      if n ≤ bound then
        some (n, ⟨rest.dropWhile isDigit,
          Nat.lt_succ_of_le (List.dropWhile_suffix _).length_le⟩)
      else none
    else none

/-- Reads the value of a known field. -/
def datum? (shape : Shape) (bs : Bytes) : Option (Datum × After bs) :=
  match h : skipBlanks bs with
  | [] => none
  | b :: rest =>
    match shape with
    | .text capacity =>
      if b = quote then
        (quoted? rest).bind fun (s, after) =>
          if s.utf8ByteSize ≤ capacity then
            some (.text s, ⟨after.1, Nat.lt_trans after.2 (length_lt_of_skipBlanks h)⟩)
          else none
      else none
    | .natural bound =>
      (natural? bound (b :: rest)).map fun (n, after) =>
        (.natural n, ⟨after.1, Nat.lt_of_lt_of_le after.2 (h ▸ length_skipBlanks_le bs)⟩)

/-! ## Members of an object -/

/-- Finds the next member: the bytes from behind the opening quote of its key on, or those behind
the brace that closes the object. Between two members there is one comma; in front of the first one
and behind the last one there is none. -/
def member? (first : Bool) (bs : Bytes) : Option (Bool × After bs) :=
  match h : skipBlanks bs with
  | [] => none
  | b :: rest =>
    have hlt := length_lt_of_skipBlanks h
    if b = closeBrace then some (false, ⟨rest, hlt⟩)
    else if first then
      if b = quote then some (true, ⟨rest, hlt⟩) else none
    else if b = comma then
      match h' : skipBlanks rest with
      | [] => none
      | b' :: rest' =>
        if b' = quote then some (true, ⟨rest', Nat.lt_trans (length_lt_of_skipBlanks h') hlt⟩)
        else none
    else none

/-- Reads a key from behind its opening quote on, and the colon behind it. -/
def key? (bs : Bytes) : Option (String × After bs) :=
  (quoted? bs).bind fun (s, after) =>
    match h : skipBlanks after.1 with
    | [] => none
    | b :: rest =>
      if b = colon then some (s, ⟨rest, Nat.lt_trans (length_lt_of_skipBlanks h) after.2⟩)
      else none

/-- Whether a byte ends a value that is neither string nor object nor array. -/
def endsValue (b : UInt8) : Bool := b == comma || b == closeBrace || b == closeBracket

mutual

/-- Leaves out a value. What is neither string nor object nor array goes up to the next comma or
closing bracket of either shape, whatever it is. -/
def skipValue? (bs : Bytes) : Option (After bs) :=
  match h : skipBlanks bs with
  | [] => none
  | b :: rest =>
    have hlt := length_lt_of_skipBlanks h
    if b = quote then (quoted? rest).map fun (_, after) => ⟨after.1, Nat.lt_trans after.2 hlt⟩
    else if b = openBracket then
      (skipElements? true rest).map fun after => ⟨after.1, Nat.lt_trans after.2 hlt⟩
    else if b = openBrace then
      (skipMembers? true rest).map fun after => ⟨after.1, Nat.lt_trans after.2 hlt⟩
    else if endsValue b then none
    else
      match h' : rest.dropWhile (fun b => !endsValue b) with
      | [] => none
      | b' :: rest' =>
        some ⟨b' :: rest', Nat.lt_of_le_of_lt (h' ▸ (List.dropWhile_suffix _).length_le) hlt⟩
termination_by 2 * bs.length

/-- Leaves out the rest of an array. In front of each element stands a comma, except that one
element may do without: the first one that has none. -/
def skipElements? (bare : Bool) (bs : Bytes) : Option (After bs) :=
  match h : skipBlanks bs with
  | [] => none
  | b :: rest =>
    have hlt := length_lt_of_skipBlanks h
    if b = closeBracket then some ⟨rest, hlt⟩
    else if b = comma then
      match skipBlanks rest with
      | [] => none
      | b' :: _ =>
        if b' = closeBracket then none
        else
          match skipValue? rest with
          | none => none
          | some after =>
            have := after.2
            (skipElements? bare after.1).map fun last =>
              ⟨last.1, Nat.lt_trans last.2 (Nat.lt_trans after.2 hlt)⟩
    else if bare then
      match skipValue? bs with
      | none => none
      | some after =>
        have := after.2
        (skipElements? false after.1).map fun last => ⟨last.1, Nat.lt_trans last.2 after.2⟩
    else none
termination_by 2 * bs.length + 1

/-- Leaves out the rest of an object. -/
def skipMembers? (first : Bool) (bs : Bytes) : Option (After bs) :=
  match member? first bs with
  | none => none
  | some (false, after) => some after
  | some (true, after) =>
    match key? after.1 with
    | none => none
    | some (_, behind) =>
      have := after.2
      have := behind.2
      match skipValue? behind.1 with
      | none => none
      | some value =>
        have := value.2
        (skipMembers? false value.1).map fun last =>
          ⟨last.1, Nat.lt_trans last.2 (Nat.lt_trans value.2 (Nat.lt_trans behind.2 after.2))⟩
termination_by 2 * bs.length + 1

end

/-! ## Documents -/

/-- Reads the rest of an object with known fields, given those that were read before. -/
def readMembers? (schema : Schema) (first : Bool) (found : List (String × Datum)) (bs : Bytes) :
    Option (List (String × Datum) × Bytes) :=
  match member? first bs with
  | none => none
  | some (false, after) => some (found, after.1)
  | some (true, after) =>
    match key? after.1 with
    | none => none
    | some (key, behind) =>
      have := after.2
      have := behind.2
      match schema.lookup key with
      | none =>
        match skipValue? behind.1 with
        | none => none
        | some value =>
          have := value.2
          readMembers? schema false found value.1
      | some shape =>
        if (found.lookup key).isSome then none
        else
          match datum? shape behind.1 with
          | none => none
          | some (d, value) =>
            have := value.2
            readMembers? schema false (found ++ [(key, d)]) value.1
termination_by bs.length

/-- The values of the known fields of a document, in the order in which they stand there. -/
def read? (schema : Schema) (bs : Bytes) : Option (List (String × Datum)) :=
  match skipBlanks bs with
  | [] => none
  | b :: rest =>
    if b = openBrace then
      match readMembers? schema true [] rest with
      | some (found, rest) => if (skipBlanks rest).isEmpty then some found else none
      | none => none
    else none

instance : Reader := ⟨read?⟩

/-! ## The shapes of values -/

/-- A number that is read is not larger than the bound. -/
theorem natural?_le {bound n : Nat} {bs : Bytes} {after : After bs}
    (h : natural? bound bs = some (n, after)) : n ≤ bound := by
  unfold natural? at h
  split at h
  · contradiction
  · split at h
    · obtain ⟨rfl, -⟩ := Prod.mk.injEq .. ▸ Option.some.inj h
      exact Nat.zero_le _
    · split at h
      · dsimp only at h
        split at h
        · rename_i hle
          obtain ⟨rfl, -⟩ := Prod.mk.injEq .. ▸ Option.some.inj h
          exact hle
        · contradiction
      · contradiction

/-- A value that is read has the shape that was asked for. -/
theorem admits_of_datum? {shape : Shape} {bs : Bytes} {d : Datum} {after : After bs}
    (h : datum? shape bs = some (d, after)) : shape.Admits d := by
  unfold datum? at h
  split at h
  · contradiction
  · cases shape with
    | text capacity =>
      dsimp only at h
      split at h
      · obtain ⟨p, -, hp⟩ := Option.bind_eq_some_iff.1 h
        split at hp
        · rename_i hle
          obtain ⟨rfl, -⟩ := Prod.mk.injEq .. ▸ Option.some.inj hp
          exact hle
        · contradiction
      · contradiction
    | natural bound =>
      obtain ⟨p, hp, he⟩ := Option.map_eq_some_iff.1 h
      obtain ⟨rfl, -⟩ := Prod.mk.injEq .. ▸ he
      exact natural?_le hp

/-- If the schema admits all values that were found, it admits those that are found in the rest. -/
theorem admits_of_readMembers? {schema : Schema} {first : Bool} {found all : List (String × Datum)}
    {bs rest : Bytes} (hfound : ∀ e ∈ found, schema.Admits e)
    (h : readMembers? schema first found bs = some (all, rest)) : ∀ e ∈ all, schema.Admits e := by
  fun_induction readMembers? schema first found bs with
  | case2 first found bs after hm =>
    obtain ⟨rfl, -⟩ := Prod.mk.injEq .. ▸ Option.some.inj h
    exact hfound
  | case5 first found bs after hm key behind hk _ _ hlookup value hv _ ih => exact ih hfound h
  | case8 first found bs after hm key behind hk _ _ shape hlookup hnew d value hd _ ih =>
    have hone : schema.Admits (key, d) := ⟨shape, hlookup, admits_of_datum? hd⟩
    exact ih (List.forall_mem_append.2 ⟨hfound, List.forall_mem_singleton.2 hone⟩) h
  | case1 | case3 | case4 | case6 | case7 => contradiction

/-- A value that is found in a document has the shape of its field. -/
theorem admits_of_read? {schema : Schema} {bs : Bytes} {found : List (String × Datum)}
    (h : read? schema bs = some found) : ∀ e ∈ found, schema.Admits e := by
  unfold read? at h
  split at h
  · contradiction
  · split at h
    · split at h
      · rename_i hread
        split at h
        · obtain rfl := Option.some.inj h
          exact admits_of_readMembers? (List.forall_mem_nil _) hread
        · contradiction
      · contradiction
    · contradiction

instance : Reader.Lawful := ⟨admits_of_read?⟩

end EdgeDevice.Settings.Skipping
