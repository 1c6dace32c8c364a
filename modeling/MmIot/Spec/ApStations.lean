import MmIot.Spec.ScanResult
import Mathlib.Data.Fintype.Card
import Mathlib.Logic.Function.Basic

/-! `morsemicro_ap_sta_status_cb` of `wifi_mgmt.c`, and the stations of an access point, whose
status callbacks interleave. -/

namespace MmIot

/-- The states of `struct mmwlan_ap_sta_status`, lowest first. -/
inductive ApStaState where
  | unknown | authenticated | associated | authorized
  deriving DecidableEq

abbrev MacAddr := Fin WIFI_MAC_ADDR_LEN → UInt8

/-- `struct mmwlan_ap_sta_status` -/
structure ApStaStatus where
  macAddr : MacAddr
  state : ApStaState

/-- The one value of `enum wifi_link_mode` that the driver reports. -/
inductive WifiLinkMode where
  | unknown
  deriving DecidableEq

/-- `struct wifi_ap_sta_info` -/
structure WifiApStaInfo where
  mac : List UInt8
  macLength : ℕ
  linkMode : WifiLinkMode

inductive ApStaEvent where
  | connected | disconnected
  deriving DecidableEq

/-- The event that the callback raises, if any. -/
def morsemicroApStaStatusCb (staStatus : ApStaStatus) : Option (ApStaEvent × WifiApStaInfo) :=
  let staInfo := {
    mac := memcpy (List.replicate WIFI_MAC_ADDR_LEN 0) (List.ofFn staStatus.macAddr)
      WIFI_MAC_ADDR_LEN
    macLength := WIFI_MAC_ADDR_LEN
    linkMode := .unknown }
  if staStatus.state = .authorized then some (.connected, staInfo)
  else if staStatus.state = .unknown then some (.disconnected, staInfo)
  else none

/-! ### The stations -/

def ApStaState.rank : ApStaState → ℕ
  | .unknown => 0
  | .authenticated => 1
  | .associated => 2
  | .authorized => 3

/-- Up one state, or down to any lower one. -/
def ApStaState.MovesTo (s s' : ApStaState) : Prop := s'.rank = s.rank + 1 ∨ s'.rank < s.rank

instance (s s' : ApStaState) : Decidable (s.MovesTo s') := by
  unfold ApStaState.MovesTo
  infer_instance

/-- Every station's state, and the events raised, oldest first. -/
structure StationRun where
  state : MacAddr → ApStaState
  events : List (ApStaEvent × WifiApStaInfo)

def StationRun.start : StationRun := ⟨fun _ => .unknown, []⟩

/-- A station moves, and mmwlan calls back. -/
def stationStep (run : StationRun) (st : ApStaStatus) : Option StationRun :=
  if (run.state st.macAddr).MovesTo st.state then some {
    state := Function.update run.state st.macAddr st.state
    events := run.events ++ (morsemicroApStaStatusCb st).toList }
  else none

/-- The events of one station. -/
def StationRun.eventsOf (run : StationRun) (mac : MacAddr) : List ApStaEvent :=
  (run.events.filter fun e => e.2.mac = List.ofFn mac).map Prod.fst

/-- What an application makes of the events. -/
def StationRun.stations (run : StationRun) : ℤ :=
  run.events.countP (fun e => e.1 = .connected) - run.events.countP (fun e => e.1 = .disconnected)

end MmIot
