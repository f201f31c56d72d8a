import EdgeDevice.Proofs.Net.Timekeeping

set_option autoImplicit false
set_option relaxedAutoImplicit false

/-!
# Changing the script of a wire

What a simulated wire does depends on its script and not on its records. More datagrams in front of
what comes in do not matter to what is written, and bounds that were recorded before do not matter
to anything.

## Main definitions

* `EdgeDevice.Wire.behind` — a wire on which some datagrams come in first.
* `EdgeDevice.Wire.since` — a wire with more bounds on reads in the record.

## Main results

* `EdgeDevice.Wire.writeFaithful_behind` — what comes in does not matter to what is written.
* `EdgeDevice.Wire.faithful_since` — what was recorded does not matter to what happens.
* `EdgeDevice.Wire.read_behind` — the datagram in front is read.
-/

namespace EdgeDevice.Wire

/-! ## Writing -/

/-- A wire after something was written. -/
def wrote (bs : Bytes) (w : Wire) : Wire :=
  { w with writes := w.writes ++ [bs], writesLeft := w.writesLeft.map (· - 1) }

/-- A write fails on a wire that is closed or has no writes left, and is recorded otherwise. -/
theorem write_eq (w : Wire) (bs : Bytes) :
    w.write bs =
      if w.closed = true ∨ w.writesLeft = some 0 then (false, w) else (true, w.wrote bs) := by
  unfold write wrote
  by_cases hc : w.closed = true
  · rw [if_pos hc, if_pos (.inl hc)]
  · rw [if_neg hc]
    rcases hl : w.writesLeft with _ | _ | n <;> simp [hc]

/-- Writing is the same over a view that shows whether a write works and what was written. -/
theorem write_map {f : Wire → Wire} (hclosed : ∀ w, (f w).closed = w.closed)
    (hleft : ∀ w, (f w).writesLeft = w.writesLeft)
    (hwrote : ∀ (w : Wire) (bs : Bytes), (f w).wrote bs = f (w.wrote bs)) (w : Wire) (bs : Bytes) :
    Link.write (f w) bs = (Link.write w bs).map id f := by
  show (f w).write bs = (w.write bs).map id f
  rw [write_eq, write_eq, hclosed, hleft, hwrote]
  split <;> rfl

/-- What neither a write nor a flush changes stays while pieces are written. -/
theorem writeAll_frame {α : Type} {g : Wire → α} (hg : ∀ (w : Wire) (bs : Bytes),
    g (w.wrote bs) = g w) (w : Wire) (pieces : List Bytes) :
    g (Link.writeAll w pieces).2 = g w := by
  induction pieces generalizing w with
  | nil => rfl
  | cons piece pieces ih =>
    rw [Link.writeAll, show Link.write w piece = w.write piece from rfl, write_eq]
    by_cases h : w.closed = true ∨ w.writesLeft = some 0
    · rw [if_pos h]
    · rw [if_neg h]
      exact (ih _).trans (hg w piece)

/-! ## Reading -/

/-- A wire on which some datagrams come in first. -/
def behind (strays : List Bytes) (w : Wire) : Wire :=
  { w with inbound := strays.map .chunk ++ w.inbound }

/-- What comes in does not matter to what is written. -/
theorem writeFaithful_behind (strays : List Bytes) : Link.WriteFaithful (behind strays) where
  write := write_map (fun _ => rfl) (fun _ => rfl) fun _ _ => rfl
  flush _ := rfl

/-- A datagram that fits the reader is read as a whole; without delay that takes no time. -/
theorem read_behind {w : Wire} {data : Bytes} {n : Nat} (hdelay : w.delay = 0)
    (hnow : w.now ≤ Duration.longest) (hlen : data.length ≤ n) :
    Link.read (w.behind [data]) n = (.ok data, w) := by
  have htime : (w.behind [data]).chunkTime = 0 := by
    have hdelay' : (w.behind [data]).delay = 0 := hdelay
    unfold chunkTime
    rw [hdelay']
    split
    · exact Nat.zero_min _
    · rfl
  have hnow' : w.now.plus 0 = w.now := Nat.min_eq_left hnow
  show (Except.ok (data.take n), { (w.behind [data]).elapse (w.behind [data]).chunkTime with
    inbound := remainder n data w.inbound }) = (Except.ok data, w)
  rw [htime, List.take_of_length_le hlen, remainder, if_pos hlen]
  show (Except.ok data, { w with now := w.now.plus 0 }) = _
  rw [hnow']

/-- A wire after a bound on reads was set. -/
def bounded (d : Duration) (w : Wire) : Wire :=
  { w with patience := some d, limits := w.limits ++ [d] }

/-- Setting a bound fails if the script says so, and changes nothing then. -/
theorem limit_of_some (w : Wire) {e : NetError} (h : w.limitFailure = some e) (d : Duration) :
    TimedLink.limit w d = (some e, w) := by
  show w.limit d = _
  rw [limit, h]

/-- A bound that is set is recorded. -/
theorem limit_of_none (w : Wire) (h : w.limitFailure = none) (d : Duration) :
    TimedLink.limit w d = (none, w.bounded d) := by
  show w.limit d = _
  unfold limit
  split
  · rename_i he
    cases h.symm.trans he
  · rfl

/-! ## Records -/

/-- A wire with more bounds on reads in the record. -/
def since (limits : List Duration) (w : Wire) : Wire := { w with limits := limits ++ w.limits }

/-- A wire without the record of the bounds on reads. -/
def unrecorded (w : Wire) : Wire := { w with limits := [] }

/-- Leaving out a record and putting it back changes nothing. -/
theorem since_unrecorded (w : Wire) : w.unrecorded.since w.limits = w := by
  rw [since, unrecorded, List.append_nil]

/-- What was recorded does not matter to what happens. -/
theorem faithful_since (limits : List Duration) : TimedLink.Faithful (since limits) where
  write := write_map (fun _ => rfl) (fun _ => rfl) fun _ _ => rfl
  flush _ := rfl
  now _ := rfl
  read w n := by
    show (w.since limits).read n = (w.read n).map id (since limits)
    have hinbound : (w.since limits).inbound = w.inbound := rfl
    unfold read
    rw [hinbound]
    rcases w.inbound with _ | ⟨_ | _, rest⟩ <;> rfl
  limit w d := by
    show (w.since limits).limit d = (w.limit d).map id (since limits)
    have hfailure : (w.since limits).limitFailure = w.limitFailure := rfl
    have hlimits : (w.since limits).limits ++ [d] = limits ++ (w.limits ++ [d]) :=
      List.append_assoc ..
    unfold limit
    rw [hfailure, hlimits]
    cases w.limitFailure <;> rfl

end EdgeDevice.Wire
