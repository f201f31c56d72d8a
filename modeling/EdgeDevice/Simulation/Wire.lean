import EdgeDevice.Net.Link

set_option autoImplicit false
set_option relaxedAutoImplicit false

/-!
# A simulated wire

A wire plays a script: what comes in is a row of deliveries, each a chunk of bytes or a failure, and
every operation can be made to fail. What the device does to the wire is recorded. A wire carries
datagrams as well as a stream, keeps a clock of its own, and is opened and closed.

Each read takes one delivery. A chunk takes the delay of the wire, though never longer than a read
may; what does not fit the reader stays in front. With nothing to deliver a read takes all the time
it may and ends with a timeout.

## Main definitions

* `EdgeDevice.Wire` — a wire with its script and its records.
* `EdgeDevice.Wire.read`, `EdgeDevice.Wire.write` and the other operations, with the instances of
  `TimedLink` and `DialLink`.
-/

namespace EdgeDevice

/-- What one read finds. -/
inductive Delivery where
  | chunk (bs : Bytes)
  | failure (e : NetError)
  deriving DecidableEq

/-- How much a delivery adds to what can still come in. -/
def Delivery.weight : Delivery → Nat
  | chunk bs => bs.length + 1
  | failure _ => 1

/-- How much a row of deliveries adds. -/
def Delivery.total : List Delivery → Nat
  | [] => 0
  | d :: ds => d.weight + total ds

/-- A wire with its script and its records. -/
structure Wire where
  /-- What comes in, the next delivery in front. -/
  inbound : List Delivery := []
  /-- How long a chunk takes. -/
  delay : Duration := 0
  /-- The time passed so far. -/
  now : Duration := 0
  /-- How long a read may take, if that is bounded. -/
  patience : Option Duration := none
  closed : Bool := false
  /-- How many more writes work, if not all do. -/
  writesLeft : Option Nat := none
  flushFails : Bool := false
  /-- The failure of every bound on reads, if there is one. -/
  limitFailure : Option NetError := none
  /-- Whether connections are refused. -/
  refuses : Bool := false
  /-- What was written, the first write in front. -/
  writes : List Bytes := []
  /-- The bounds on reads that were set, the first one in front. -/
  limits : List Duration := []
  /-- The addresses that were dialled, the first one in front. -/
  remotes : List String := []
  deriving DecidableEq

namespace Wire

/-- Lets time pass, as far as durations reach. -/
def elapse (w : Wire) (d : Duration) : Wire := { w with now := w.now.plus d }

/-- The time that a chunk takes. -/
def chunkTime (w : Wire) : Duration :=
  match w.patience with
  | some p => min w.delay p
  | none => w.delay

/-- The deliveries that stay when a reader takes up to `n` bytes of a chunk. -/
def remainder (n : Nat) (bs : Bytes) (rest : List Delivery) : List Delivery :=
  if bs.length ≤ n then rest else .chunk (bs.drop n) :: rest

/-- Reads up to `n` bytes. -/
def read (w : Wire) (n : Nat) : Except NetError Bytes × Wire :=
  match w.inbound with
  | [] => (.error .timeout, w.elapse (w.patience.getD 0))
  | .failure e :: rest => (.error e, { w with inbound := rest })
  | .chunk bs :: rest =>
    (.ok (bs.take n), { w.elapse w.chunkTime with inbound := remainder n bs rest })

/-- Writes bytes. -/
def write (w : Wire) (bs : Bytes) : Bool × Wire :=
  if w.closed then (false, w)
  else
    match w.writesLeft with
    | some 0 => (false, w)
    | left => (true, { w with writes := w.writes ++ [bs], writesLeft := left.map (· - 1) })

/-- Flushes. -/
def flush (w : Wire) : Bool × Wire := (!w.flushFails, w)

/-- Bounds the time that later reads may take. -/
def limit (w : Wire) (d : Duration) : Option NetError × Wire :=
  match w.limitFailure with
  | some e => (some e, w)
  | none => (none, { w with patience := some d, limits := w.limits ++ [d] })

/-- Opens a connection. -/
def dial (w : Wire) (address : String) : Bool × Wire :=
  let w := { w with remotes := w.remotes ++ [address] }
  if w.refuses then (false, w) else (true, { w with closed := false })

/-- Closes the connection. -/
def close (w : Wire) : Wire := { w with closed := true }

/-- Forgets what was recorded. -/
def clearRecords (w : Wire) : Wire := { w with writes := [], limits := [], remotes := [] }

/-- How much can still come in. -/
def backlog (w : Wire) : Nat := Delivery.total w.inbound

/-- What is left of a delivery weighs no more than the delivery. -/
theorem weight_remainder_le (n : Nat) (bs : Bytes) (rest : List Delivery) :
    Delivery.total (remainder n bs rest) ≤
      bs.length + 1 + Delivery.total rest := by
  unfold remainder
  split
  · omega
  · simp only [Delivery.total, Delivery.weight, List.length_drop]
    omega

/-- What is left of a delivery weighs less if something was read of it. -/
theorem weight_remainder_lt {n : Nat} {bs : Bytes} (h : bs.take n ≠ []) (rest : List Delivery) :
    Delivery.total (remainder n bs rest) <
      bs.length + 1 + Delivery.total rest := by
  unfold remainder
  split
  · omega
  · have hn : n ≠ 0 := fun hn => by simp [hn] at h
    simp only [Delivery.total, Delivery.weight, List.length_drop]
    omega

instance : Link Wire where
  read := read
  write := write
  flush := flush
  backlog := backlog
  length_read_le {t t' n bs} h := by
    unfold read at h
    split at h <;> simp only [Prod.mk.injEq, Except.ok.injEq, reduceCtorEq, false_and] at h
    rw [← h.1]
    exact List.length_take_le ..
  backlog_read_le t n := by
    unfold read backlog
    split
    · exact Nat.le_refl _
    · rename_i h
      simp only [h]
      exact Nat.le_add_left ..
    · rename_i h
      simp only [h, Delivery.total, Delivery.weight]
      exact weight_remainder_le ..
  backlog_read_lt {t t' n bs} h hbs := by
    unfold read at h
    split at h <;> simp only [Prod.mk.injEq, Except.ok.injEq, reduceCtorEq, false_and] at h
    rename_i he
    obtain ⟨rfl, rfl⟩ := h
    simp only [backlog, he, Delivery.total, Delivery.weight]
    exact weight_remainder_lt hbs _
  backlog_fail_lt {t t' n e} h he := by
    unfold read at h
    split at h <;> simp only [Prod.mk.injEq, Except.error.injEq, reduceCtorEq, false_and] at h
    · exact absurd h.1.symm he
    · rename_i hi
      obtain ⟨rfl, rfl⟩ := h
      simp only [backlog, hi, Delivery.total, Delivery.weight]
      omega
  backlog_write_le t bs := by
    unfold write
    split
    · exact Nat.le_refl _
    · split <;> exact Nat.le_refl _
  backlog_flush_le t := Nat.le_refl _

instance : TimedLink Wire where
  now := now
  limit := limit
  backlog_limit_le t d := by
    show backlog (limit t d).2 ≤ backlog t
    unfold limit
    split <;> exact Nat.le_refl _

instance : DialLink Wire where
  dial := dial
  close := close
  backlog_dial_le t address := by
    show backlog (dial t address).2 ≤ backlog t
    unfold dial
    dsimp only
    split <;> exact Nat.le_refl _
  backlog_close_le t := Nat.le_refl _

end Wire

end EdgeDevice
