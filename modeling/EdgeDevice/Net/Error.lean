set_option autoImplicit false
set_option relaxedAutoImplicit false

/-!
# Why a network operation failed

## Main definitions

* `EdgeDevice.NetError` — the causes, with their wording in `NetError.message`.
-/

namespace EdgeDevice

/-- Why a network operation failed. -/
inductive NetError where
  /-- There is no connection, or no session on it. -/
  | notOpen
  /-- The link took no data. -/
  | writeError
  /-- The link failed to deliver data. -/
  | readError
  /-- The other side refused. -/
  | connectionRefused
  /-- Nothing came in time. -/
  | timeout
  /-- The other side closed the link. -/
  | connectionClosed
  /-- The address cannot be used. -/
  | invalidAddress
  /-- What came does not follow the protocol. -/
  | protocolError
  /-- Something is too large for its space. -/
  | bufferOverflow
  deriving DecidableEq, Repr

namespace NetError

/-- Every cause. -/
def all : List NetError :=
  [notOpen, writeError, readError, connectionRefused, timeout, connectionClosed, invalidAddress,
    protocolError, bufferOverflow]

/-- A cause in words. -/
def message : NetError → String
  | notOpen => "not open"
  | writeError => "write failed"
  | readError => "read failed"
  | connectionRefused => "refused by peer"
  | timeout => "timed out"
  | connectionClosed => "closed by peer"
  | invalidAddress => "invalid address"
  | protocolError => "protocol error"
  | bufferOverflow => "buffer overflow"

/-- Every error is in the list of all errors. -/
theorem mem_all (e : NetError) : e ∈ all := by cases e <;> decide

end NetError

end EdgeDevice
