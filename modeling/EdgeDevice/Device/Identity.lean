import EdgeDevice.Device.Kind
import EdgeDevice.Text.Number

set_option autoImplicit false
set_option relaxedAutoImplicit false

/-!
# Who a device is

The link-layer address of eight bytes, fixed for the life of the device, together with its kind.

## Main definitions

* `EdgeDevice.Identity` — link address and kind.
* `EdgeDevice.Identity.nodeId` — the address as one number of 64 bits.
* `EdgeDevice.Identity.hexId`, `EdgeDevice.Identity.clientId` — the names a server and a broker know
  the device by.
-/

namespace EdgeDevice

/-- Who a device is. -/
structure Identity where
  /-- The link-layer address, first byte first. -/
  link : Vector UInt8 8
  kind : Kind
  deriving DecidableEq

namespace Identity

/-- The link address read as one number, first byte highest. -/
def nodeId (d : Identity) : UInt64 :=
  d.link.foldl (fun acc b => acc * 256 + b.toUInt64) 0

/-- The tag of the kind. -/
def tag (d : Identity) : String := d.kind.tag

/-- The node id in hexadecimal without leading zeros. -/
def hexId (d : Identity) : String := hexadecimal d.nodeId.toNat

/-- A byte as two hexadecimal digits. -/
def hexByte (b : UInt8) : String :=
  String.ofList [Nat.digitChar (b.toNat / 16), Nat.digitChar (b.toNat % 16)]

/-- The name under which a broker knows the device: the bytes 0, 1, 2, 5, 6 and 7 of the address,
two hexadecimal digits each. -/
def clientId (d : Identity) : String :=
  String.join ([d.link[0], d.link[1], d.link[2], d.link[5], d.link[6], d.link[7]].map hexByte)

end Identity

end EdgeDevice
