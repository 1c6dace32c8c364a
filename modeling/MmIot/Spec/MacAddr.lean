import MmIot.Lib.Tlv
import Mathlib.Data.Vector.Basic

/-! `mmhal_wlan.c`: the MAC address for a chip without one, from a CRC of the device's
identity. The identity is read into a buffer on the stack. -/

namespace MmIot

/-- What `hwinfo_get_device_id` writes and counts. -/
structure DeviceId where
  bytes : List UInt8
  pos : 0 < bytes.length
  le : bytes.length ≤ 8
  deriving DecidableEq

/-- What the `hwinfo` functions deliver; none is an error code. -/
structure HwInfo where
  eui64 : Option (List.Vector UInt8 8)
  deviceId : Option DeviceId

/-- A call finds leftovers on the stack where its buffer lies, and a random number. -/
structure MacCall where
  stack : List.Vector UInt8 8
  rand : BitVec 32
  macAddr : List.Vector UInt8 6

/-- How the host keeps a `uint32_t` in memory. -/
inductive ByteOrder where
  | little | big
  deriving DecidableEq

def ByteOrder.bytes (order : ByteOrder) (n : BitVec 32) : List UInt8 :=
  match order with
  | .little => LittleEndian.encode 4 n.toNat
  | .big => (LittleEndian.encode 4 n.toNat).reverse

/-- `crc32_ieee` and `net_eth_is_addr_valid`, with the host's byte order. -/
structure MacEnv where
  crc32Ieee : List UInt8 → BitVec 32
  isAddrValid : List UInt8 → Bool
  order : ByteOrder

section MacAddr

variable (env : MacEnv) (hw : HwInfo)

/-- The number that the sources give: all eight bytes of the buffer are counted. -/
def newUid (c : MacCall) : BitVec 32 :=
  match hw.eui64 with
  | some eui64 => env.crc32Ieee eui64.toList
  | none =>
    match hw.deviceId with
    | some id => env.crc32Ieee (id.bytes ++ c.stack.toList.drop id.bytes.length)
    | none => c.rand

/-- `uid` is the static variable, which is also what is returned. -/
def mmhalReadDeviceUid (c : MacCall) (uid : BitVec 32) : BitVec 32 :=
  if uid ≠ 0 then uid else newUid env hw c

/-- The buffer and the static variable. The number is read for a valid address as well. -/
def mmhalReadMacAddr (c : MacCall) (uid : BitVec 32) : List UInt8 × BitVec 32 :=
  let uid := mmhalReadDeviceUid env hw c uid
  if env.isAddrValid c.macAddr.toList then (c.macAddr.toList, uid)
  else ([0x02, 0x00] ++ env.order.bytes uid, uid)

/-- The addresses that a boot's calls fill in, from a static variable of `uid` on. -/
def filled : List MacCall → BitVec 32 → List (List UInt8)
  | [], _ => []
  | c :: cs, uid =>
    let r := mmhalReadMacAddr env hw c uid
    if env.isAddrValid c.macAddr.toList then filled cs r.2 else r.1 :: filled cs r.2

end MacAddr

end MmIot
