import MmIot.Spec.Channel
import MmIot.Lib.Transition

/-! The data of the Wi-Fi driver (`morsemicro_common.h`), the part of mmwlan and
of the network stack it drives, and a record of the radio requests it forwards. -/

namespace MmIot

/-- `enum mmwlan_status` -/
inductive MmwlanStatus where
  | success | error | invalidArgument | unavailable | channelListNotSet | noMem | timedOut
  | shutdownBlocked | channelInvalid | notFound | notRunning
  deriving DecidableEq, Repr

def mmwlanErrToErrno : MmwlanStatus → Except Errno Unit
  | .success => .ok ()
  | .invalidArgument => .error .einval
  | .unavailable => .error .eagain
  | .channelListNotSet | .channelInvalid => .error .echrng
  | .noMem => .error .enomem
  | .timedOut => .error .etimedout
  | .notFound | .notRunning => .error .enodev
  | .error | .shutdownBlocked => .error .eio

@[simp] theorem mmwlanErrToErrno_ok {status : MmwlanStatus} :
    mmwlanErrToErrno status = .ok () ↔ status = .success := by
  cases status <;> simp [mmwlanErrToErrno]

theorem mmwlanErrToErrno_error {status : MmwlanStatus} {e : Errno}
    (h : mmwlanErrToErrno status = .error e) : status ≠ .success := by
  rintro rfl
  cases h

inductive MmwlanState where
  | uninitialized | initialized
  deriving DecidableEq, Repr

/-- The values of `enum wifi_iface_state` the driver uses. -/
inductive WifiIfaceState where
  | disconnected | interfaceDisabled | inactive | scanning | completed
  deriving DecidableEq, Repr

inductive Vif where
  | sta | ap
  deriving DecidableEq, Repr

inductive LinkState where
  | down | up
  deriving DecidableEq, Repr

/-- `security_type` of the mmwlan arguments. -/
inductive MmwlanSecurity where
  | open | owe | sae
  deriving DecidableEq, Repr

inductive PmfMode where
  | disabled | required
  deriving DecidableEq, Repr

/-- The fields that `mmwlan_sta_args` and `mmwlan_ap_args` share. The byte lists
are the whole buffers, stale bytes included. -/
structure Credentials where
  ssid : List UInt8
  ssidLen : ℕ
  passphrase : List UInt8
  passphraseLen : ℕ
  securityType : MmwlanSecurity
  pmfMode : PmfMode

/-- `struct mmwlan_ap_args` -/
structure ApArgs extends Credentials where
  opClass : UInt16
  s1gChanNum : UInt16
  priBwMhz : UInt8
  pri1mhzChanIdx : UInt8
  maxStas : ℕ
  staStatusCb : Bool

/-- `struct morsemicro_vif_data`; a callback is known by a number. -/
structure VifData where
  status : WifiIfaceState
  macAddr : List UInt8
  scanPrevState : WifiIfaceState
  scanCb : Option ℕ
  staArgs : Credentials
  apArgs : ApArgs
  s1gBwMhz : UInt8

/-- `struct mmwlan_version` -/
structure Version where
  morselibVersion : String
  morseFwVersion : String

/-- `struct morsemicro_data` -/
structure MorsemicroData where
  channelList : Option ChannelList
  mmwlanState : MmwlanState
  version : Version
  sta : VifData
  ap : VifData

/-- The flags `net_if_is_up` reads. -/
structure NetIf where
  adminUp : Bool
  carrier : Bool
  dormant : Bool

def NetIf.isUp (i : NetIf) : Bool := i.adminUp && i.carrier && !i.dormant

/-- What mmwlan holds: whether the chip runs, the list last passed to
`mmwlan_set_channel_list`, and the callbacks registered for each vif. -/
structure Mmwlan where
  booted : Bool
  channelList : Option ChannelList
  rxCb : Vif → Bool
  stateCb : Vif → Bool

/-- A radio request forwarded to mmwlan. An AP request also keeps the primary
channel and the operating bandwidth it was made for. -/
inductive RadioRequest where
  | scanRequest
  | staEnable (args : Credentials)
  | staDisable
  | apEnable (args : ApArgs) (primaryChan bwMhz : UInt8)
  | apDisable
  | tx (vif : Vif)

/-- A forwarded request with what held when it was made. -/
structure RadioCall where
  request : RadioRequest
  booted : Bool
  driverList : Option ChannelList
  mmwlanList : Option ChannelList

/-- The management events the driver raises. -/
inductive WifiEvent where
  | connectResult
  | disconnectResult (userRequest : Bool)
  | scanDone (cb : Option ℕ) (success : Bool)
  | apEnableResult (success : Bool)
  | apDisableResult (success : Bool)
  deriving DecidableEq

/-- The driver and what it drives. Requests and events are newest first. -/
structure State where
  data : MorsemicroData
  mmwlan : Mmwlan
  staIf : NetIf
  apIf : NetIf
  calls : List RadioCall
  events : List WifiEvent

def State.forward (s : State) (request : RadioRequest) : State :=
  { s with calls := ⟨request, s.mmwlan.booted, s.data.channelList, s.mmwlan.channelList⟩ :: s.calls }

def State.raise (s : State) (event : WifiEvent) : State := { s with events := event :: s.events }

/-- Where an AP's operating bandwidth comes from, by build. -/
inductive BandwidthSource where
  | patched | unpatchedWorkarounds | neither
  deriving DecidableEq

/-- The build configuration, the generated tables and the sizes and initial
values that mmwlan's and Zephyr's headers fix. -/
structure Config where
  apMode : Bool
  powersave : Bool
  bandwidthSource : BandwidthSource
  region : Country
  bcfRegions : List UInt8
  ssidSize : ℕ
  passphraseSize : ℕ
  staArgsInit : Credentials
  apArgsInit : ApArgs
  ethMaxFrameSize : ℕ
  maxRegChanNum : ℕ

end MmIot
