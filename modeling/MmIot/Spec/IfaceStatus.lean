import MmIot.Spec.ApStations

/-! `morsemicro_mgmt_iface_status` of `wifi_mgmt.c`. -/

namespace MmIot

inductive WifiIfaceMode where
  | infra | ap
  deriving DecidableEq

/-- The security types that a status reports. -/
inductive IfaceSecurity where
  | none | sae | unknown
  deriving DecidableEq

/-- The fields of `struct wifi_iface_status` that the driver sets. The SSID is the whole
buffer, of `WIFI_SSID_MAX_LEN + 1` bytes. -/
structure WifiIfaceStatus where
  state : WifiIfaceState
  ssid : List UInt8
  ssidLen : ℕ
  bssid : List UInt8
  band : WifiFreqBand
  channel : ℕ
  ifaceMode : WifiIfaceMode
  linkMode : WifiLinkMode
  security : IfaceSecurity
  mfp : WifiMfp
  rssi : ℤ
  beaconInterval : ℕ

/-- What mmwlan answers; an address query is known by what it leaves in the buffer it is
given, its failure is only logged. -/
structure IfaceStatusEnv where
  getRssi : ℤ
  getBssid : List UInt8 → List UInt8
  getVifMacAddr : List UInt8 → List UInt8

/-- `strncpy`: up to the first NUL of `src`, and NULs up to `n` bytes. -/
def strncpy (dst src : List UInt8) (n : ℕ) : List UInt8 :=
  let s := (src.take n).takeWhile (· ≠ 0)
  memcpy dst (s ++ List.replicate (n - s.length) 0) n

def MmwlanSecurity.report : MmwlanSecurity → IfaceSecurity
  | .open => .none
  | .sae => .sae
  | .owe => .unknown

/-- What is reported of the status and the stored arguments of either vif. -/
def WifiIfaceStatus.setArgs (cfg : Config) (status : WifiIfaceStatus) (state : WifiIfaceState)
    (args : Credentials) (ifaceMode : WifiIfaceMode) : WifiIfaceStatus :=
  { status with
    state
    ssid := strncpy status.ssid args.ssid WIFI_SSID_MAX_LEN
    ssidLen := args.ssidLen
    ifaceMode
    band := if cfg.bandwidthSource = .patched then .sub1Ghz else .unknown
    linkMode := .unknown
    mfp := if args.pmfMode = .disabled then .disable else .required
    security := args.securityType.report }

def morsemicroMgmtIfaceStatus (cfg : Config) (env : IfaceStatusEnv) (vif : Vif) (s : State)
    (status : WifiIfaceStatus) : WifiIfaceStatus :=
  if cfg.apMode ∧ vif = .ap then
    let status := status.setArgs cfg s.data.ap.status s.data.ap.apArgs.toCredentials .ap
    if s.data.ap.status = .completed then
      { status with bssid := env.getVifMacAddr status.bssid, channel := 0, beaconInterval := 0 }
    else status
  else
    let status := status.setArgs cfg s.data.sta.status s.data.sta.staArgs .infra
    if s.data.sta.status = .completed then
      { status with rssi := env.getRssi, bssid := env.getBssid status.bssid, linkMode := .unknown,
                    channel := 0, beaconInterval := 0 }
    else status

end MmIot
