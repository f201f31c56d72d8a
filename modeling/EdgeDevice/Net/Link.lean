import EdgeDevice.Bytes
import EdgeDevice.Clock
import EdgeDevice.Net.Error

set_option autoImplicit false
set_option relaxedAutoImplicit false

/-!
# Links

A link carries bytes between the device and the other side. It is a state with operations on it,
and how it answers is entirely its own affair, apart from three laws: a read never delivers more
than was asked for; the traffic that can still come in is finite, its amount being the `backlog`;
and only reads use it up, each that delivers bytes or a failure other than a timeout at least by
one.

## Main definitions

* `EdgeDevice.Link` — reading, writing and flushing.
* `EdgeDevice.TimedLink` — a link with a clock and a bound on how long a read may take.
* `EdgeDevice.DialLink` — a link that is opened to an address and closed again.
* `EdgeDevice.Link.readExact` — reads until a number of bytes is there.
* `EdgeDevice.Link.writeAll` — writes several pieces and flushes.

## Main results

* `EdgeDevice.Link.length_readExact` — all the bytes asked for are there.
* `EdgeDevice.Link.backlog_readExact_le` — reading never adds to the backlog.
-/

namespace EdgeDevice

/-- Something that carries bytes. -/
class Link (τ : Type) where
  /-- Delivers up to a number of bytes; no bytes means that the other side is gone. -/
  read : τ → Nat → Except NetError Bytes × τ
  /-- Hands over bytes; the answer says whether they were taken. -/
  write : τ → Bytes → Bool × τ
  /-- Makes sure that what was handed over is under way; the answer says whether that worked. -/
  flush : τ → Bool × τ
  /-- How much can still come in. -/
  backlog : τ → Nat
  length_read_le : ∀ {t t' : τ} {n : Nat} {bs : Bytes}, read t n = (.ok bs, t') → bs.length ≤ n
  backlog_read_le : ∀ (t : τ) (n : Nat), backlog (read t n).2 ≤ backlog t
  backlog_read_lt : ∀ {t t' : τ} {n : Nat} {bs : Bytes},
    read t n = (.ok bs, t') → bs ≠ [] → backlog t' < backlog t
  backlog_fail_lt : ∀ {t t' : τ} {n : Nat} {e : NetError},
    read t n = (.error e, t') → e ≠ .timeout → backlog t' < backlog t
  backlog_write_le : ∀ (t : τ) (bs : Bytes), backlog (write t bs).2 ≤ backlog t
  backlog_flush_le : ∀ t : τ, backlog (flush t).2 ≤ backlog t

/-- A link whose reads can be bounded in time. -/
class TimedLink (τ : Type) extends Link τ where
  /-- The time passed since some fixed moment. -/
  now : τ → Duration
  /-- Bounds the time that later reads may take; the answer is the failure, if it fails. -/
  limit : τ → Duration → Option NetError × τ
  backlog_limit_le : ∀ (t : τ) (d : Duration), backlog (limit t d).2 ≤ backlog t

/-- A link that is opened and closed. -/
class DialLink (τ : Type) extends Link τ where
  /-- Opens a connection to an address; the answer says whether that worked. -/
  dial : τ → String → Bool × τ
  /-- Closes the connection. -/
  close : τ → τ
  backlog_dial_le : ∀ (t : τ) (address : String), backlog (dial t address).2 ≤ backlog t
  backlog_close_le : ∀ t : τ, backlog (close t) ≤ backlog t

/-- Setting a limit adds nothing to what the link holds. -/
theorem TimedLink.backlog_le_of_limit {τ : Type} [TimedLink τ] {t t' : τ} {d : Duration}
    {e : Option NetError} (h : limit t d = (e, t')) : Link.backlog t' ≤ Link.backlog t := by
  have := backlog_limit_le t d
  rwa [h] at this

namespace Link

variable {τ : Type} [Link τ]

/-- Reads until `n` bytes are there. -/
def readExact (t : τ) (n : Nat) : Except NetError Bytes × τ :=
  if n = 0 then (.ok [], t)
  else
    match read t n with
    | (.error e, t) => (.error e, t)
    | (.ok [], t) => (.error .connectionClosed, t)
    | (.ok (b :: bs), t) =>
      match readExact t (n - (bs.length + 1)) with
      | (.error e, t) => (.error e, t)
      | (.ok rest, t) => (.ok (b :: bs ++ rest), t)
termination_by n

/-- Writes the pieces one after the other and flushes; the answer says whether all of it worked.
After a failure nothing further is tried. -/
def writeAll (t : τ) : List Bytes → Bool × τ
  | [] => flush t
  | piece :: pieces =>
    match write t piece with
    | (true, t) => writeAll t pieces
    | (false, t) => (false, t)

/-- A read adds nothing to what the link holds. -/
theorem backlog_le_of_read {t t' : τ} {n : Nat} {r : Except NetError Bytes}
    (h : read t n = (r, t')) : backlog t' ≤ backlog t := by
  have := backlog_read_le t n
  rwa [h] at this

/-- An exact read that succeeds has as many bytes as were asked for. -/
theorem length_readExact {t t' : τ} {n : Nat} {bs : Bytes} (h : readExact t n = (.ok bs, t')) :
    bs.length = n := by
  fun_induction readExact t n generalizing bs t' with
  | case1 => simp_all
  | case2 => simp at h
  | case3 => simp at h
  | case4 => simp at h
  | case5 t n hn b bs₁ t₁ hr rest t₂ he ih =>
    have hl := length_read_le hr
    have := ih he
    simp only [Prod.mk.injEq, Except.ok.injEq] at h
    rw [← h.1]
    simp only [List.length_append, List.length_cons] at hl ⊢
    omega

/-- An exact read adds nothing to what the link holds. -/
theorem backlog_readExact_le (t : τ) (n : Nat) : backlog (readExact t n).2 ≤ backlog t := by
  fun_induction readExact t n with
  | case1 => exact Nat.le_refl _
  | case2 t n hn e t₁ hr => exact backlog_le_of_read hr
  | case3 t n hn t₁ hr => exact backlog_le_of_read hr
  | case4 t n hn b bs t₁ hr e t₂ he ih =>
    rw [he] at ih
    exact Nat.le_trans ih (backlog_le_of_read hr)
  | case5 t n hn b bs t₁ hr rest t₂ he ih =>
    rw [he] at ih
    exact Nat.le_trans ih (backlog_le_of_read hr)

/-- Writing adds nothing to what the link holds. -/
theorem backlog_writeAll_le (t : τ) (pieces : List Bytes) :
    backlog (writeAll t pieces).2 ≤ backlog t := by
  induction pieces generalizing t with
  | nil => exact backlog_flush_le t
  | cons piece pieces ih =>
    have hw := backlog_write_le t piece
    unfold writeAll
    split <;> rename_i h <;> rw [h] at hw
    · exact Nat.le_trans (ih _) hw
    · exact hw

end Link

end EdgeDevice
