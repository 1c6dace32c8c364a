import MmIot.Spec.DriverData

/-! `net_mgmt.c`: bringing mmwlan up, the link-state callback and transmission.
A function returns its errno result and the state it leaves, on failure as well. -/

namespace MmIot

/-- The BCF region check. An odd table's last byte has no partner in the table. -/
def bcfRegDne (countryCode : Country) : List UInt8 → Except Errno Unit
  | a :: b :: rest =>
    if countryCode.fst = a ∧ countryCode.snd = b then .ok () else bcfRegDne countryCode rest
  | _ => .error .einval

/-- What each step of `morsemicro_wlan_start` meets outside the driver. -/
structure StartEnv where
  lookup : Country → Option ChannelList
  boot : MmwlanStatus
  setPowerSaveMode : MmwlanStatus
  getVifMacAddr : MmwlanStatus
  macAddr : List UInt8
  registerStaRx : MmwlanStatus
  registerStaState : MmwlanStatus
  registerApRx : MmwlanStatus
  registerApState : MmwlanStatus
  getVersion : MmwlanStatus
  version : Version

/-- `mmwlan_set_channel_list` with the assignment of the list that follows it. -/
def State.setChannelList (s : State) (l : ChannelList) : State :=
  { s with mmwlan.channelList := some l, data.channelList := some l }

/-- A successful `mmwlan_boot` with the assignment that follows it. -/
def State.booted (s : State) : State :=
  { s with mmwlan.booted := true, data.mmwlanState := .initialized }

/-- The MAC address is stored and the interface bounced, dormant, to take it. -/
def State.setMacAddr (s : State) (mac : List UInt8) : State :=
  { s with data.sta.macAddr := mac, staIf := { s.staIf with dormant := true, adminUp := true } }

def State.registerRxCb (s : State) (vif : Vif) : State :=
  { s with mmwlan.rxCb := fun v => if v = vif then true else s.mmwlan.rxCb v }

def State.registerStateCb (s : State) (vif : Vif) : State :=
  { s with mmwlan.stateCb := fun v => if v = vif then true else s.mmwlan.stateCb v }

/-- `morsemicro_wlan_start` up to `mmwlan_boot`. -/
def wlanStartBoot (cfg : Config) (env : StartEnv) (cc : Country) (s : State) :
    Except Errno Unit × State :=
  match bcfRegDne cc cfg.bcfRegions with
  | .error _ => (.error .einval, { s with data.channelList := none })
  | .ok _ =>
    match env.lookup cc with
    | none => (.error .enoent, s)
    | some l =>
      let s := s.setChannelList l
      match mmwlanErrToErrno env.boot with
      | .error e => (.error e, s)
      | .ok _ => (.ok (), s.booted)

/-- The AP part of `morsemicro_wlan_start`, compiled in AP builds only. -/
def wlanStartAp (cfg : Config) (env : StartEnv) (s : State) : Except Errno Unit × State :=
  if cfg.apMode then
    let s := { s with data.ap.apArgs := cfg.apArgsInit }
    match mmwlanErrToErrno env.registerApRx with
    | .error e => (.error e, s)
    | .ok _ =>
      let s := s.registerRxCb .ap
      match mmwlanErrToErrno env.registerApState with
      | .error e => (.error e, s)
      | .ok _ => (.ok (), s.registerStateCb .ap)
  else (.ok (), s)

/-- `morsemicro_wlan_start` from the version query on. -/
def wlanStartFinish (cfg : Config) (env : StartEnv) (s : State) : Except Errno Unit × State :=
  match mmwlanErrToErrno env.getVersion with
  | .error e => (.error e, s)
  | .ok _ =>
    (.ok (), { s with data.version := env.version, staIf.carrier := true,
                      data.sta.status := .inactive, data.sta.staArgs := cfg.staArgsInit })

/-- `morsemicro_wlan_start` after `mmwlan_boot`. -/
def wlanStartConfigure (cfg : Config) (env : StartEnv) (s : State) : Except Errno Unit × State :=
  match if cfg.powersave then .ok () else mmwlanErrToErrno env.setPowerSaveMode with
  | .error e => (.error e, s)
  | .ok _ =>
    match mmwlanErrToErrno env.getVifMacAddr with
    | .error e => (.error e, s)
    | .ok _ =>
      let s := s.setMacAddr env.macAddr
      match mmwlanErrToErrno env.registerStaRx with
      | .error e => (.error e, s)
      | .ok _ =>
        let s := s.registerRxCb .sta
        match mmwlanErrToErrno env.registerStaState with
        | .error e => (.error e, s)
        | .ok _ =>
          match wlanStartAp cfg env (s.registerStateCb .sta) with
          | (.error e, s) => (.error e, s)
          | (.ok _, s) => wlanStartFinish cfg env s

def morsemicroWlanStart (cfg : Config) (env : StartEnv) (cc : Country) (s : State) :
    Except Errno Unit × State :=
  match wlanStartBoot cfg env cc s with
  | (.error e, s) => (.error e, s)
  | (.ok _, s) => wlanStartConfigure cfg env s

/-- The interface is left down when the start fails; the result is dropped. -/
def morsemicroIfaceInit (cfg : Config) (env : StartEnv) (s : State) : State :=
  (morsemicroWlanStart cfg env cfg.region
    { s with data.sta.status := .interfaceDisabled, data.mmwlanState := .uninitialized }).2

def morsemicroApIfaceInit (s : State) : State :=
  { s with data.ap.status := .interfaceDisabled }

/-- The network core initialises the STA interface, then the AP interface. -/
def boot (cfg : Config) (env : StartEnv) (s : State) : State :=
  if cfg.apMode then morsemicroApIfaceInit (morsemicroIfaceInit cfg env s)
  else morsemicroIfaceInit cfg env s

/-- The status that the link-state callback leaves behind. -/
def LinkState.status : LinkState → WifiIfaceState
  | .down => .inactive
  | .up => .completed

def mmnetifVifState (vif : Vif) (link : LinkState) (s : State) : State :=
  match vif, link with
  | .sta, .down =>
    let s := { s with staIf.dormant := true }
    let s := if s.data.sta.status = .inactive then s.raise (.disconnectResult false) else s
    { s with data.sta.status := link.status }
  | .sta, .up =>
    let s := { s with staIf.dormant := false }
    let s := s.raise .connectResult
    { s with data.sta.status := link.status }
  | .ap, _ => { s with apIf.dormant := link = .down, data.ap.status := link.status }

/-- A packet and the outcomes of sending it. -/
structure TxEnv where
  pktLen : ℕ
  waitUntilReady : MmwlanStatus
  alloc : Bool
  read : Except Errno Unit
  txPkt : MmwlanStatus

/-- The transmit path, from waiting for the transmitter on. -/
def mmnetifVifTx (vif : Vif) (env : TxEnv) (s : State) : Except Errno Unit × State :=
  let s := s.forward (.tx vif)
  match mmwlanErrToErrno env.waitUntilReady with
  | .error e => (.error e, s)
  | .ok _ =>
    if ¬ env.alloc then (.error .enomem, s)
    else match env.read with
      | .error e => (.error e, s)
      | .ok _ => (mmwlanErrToErrno env.txPkt, s)

def mmnetifTxOn (vif : Vif) (cfg : Config) (env : TxEnv) (s : State) : Except Errno Unit × State :=
  if s.data.mmwlanState = .uninitialized then (.error .enodev, s)
  else if cfg.ethMaxFrameSize < env.pktLen then (.error .enomem, s)
  else mmnetifVifTx vif env s

def mmnetifTx : Config → TxEnv → State → Except Errno Unit × State := mmnetifTxOn .sta

def mmnetifTxAp : Config → TxEnv → State → Except Errno Unit × State := mmnetifTxOn .ap

end MmIot
