import MmIot.Spec.NetMgmt

/-! `wifi_mgmt.c`: the management operations, and the runs of a driver that
serves them one after the other. -/

namespace MmIot

/-! ### Scanning -/

/-- `scan_prev_state = status` -/
def VifData.saveStatus (v : VifData) : VifData := { v with scanPrevState := v.status }

/-- `status = WIFI_STATE_SCANNING` -/
def VifData.markScanning (v : VifData) : VifData := { v with status := .scanning }

def scanCompleteCallback (success : Bool) (s : State) : State :=
  { s with data.sta.status := s.data.sta.scanPrevState }.raise (.scanDone s.data.sta.scanCb success)

def morsemicroMgmtScan (cb : ℕ) (status : MmwlanStatus) (s : State) : Except Errno Unit × State :=
  if s.data.mmwlanState = .uninitialized then (.error .enodev, s)
  else
    let s := { s with data.sta.scanCb := some cb }.forward .scanRequest
    match mmwlanErrToErrno status with
    | .error e => (.error e, s)
    | .ok _ => (.ok (), { s with data.sta := s.data.sta.saveStatus.markScanning })

/-! ### Connecting -/

/-- The request's security types that are told apart. -/
inductive WifiSecurity where
  | none | sae | unsupported
  deriving DecidableEq

inductive WifiMfp where
  | disable | optional | required | invalid
  deriving DecidableEq

inductive WifiBandwidth where
  | mhz1 | mhz2 | mhz4 | mhz8 | unsupported
  deriving DecidableEq

/-- `struct wifi_connect_req_params`; a byte list carries its length. -/
structure ConnectReqParams where
  ssid : List UInt8
  security : WifiSecurity
  saePassword : Option (List UInt8)
  psk : List UInt8
  mfp : WifiMfp
  channel : UInt8
  bandwidth : WifiBandwidth

/-- `memcpy` of the first `n` bytes of `src` over a buffer. -/
def memcpy (dst src : List UInt8) (n : ℕ) : List UInt8 := src.take n ++ dst.drop n

theorem take_memcpy (dst src : List UInt8) {n : ℕ} (h : n ≤ src.length) :
    (memcpy dst src n).take n = src.take n := by
  rw [memcpy, List.take_left' (by rw [List.length_take, Nat.min_eq_left h])]

def storeSsid (cfg : Config) (p : ConnectReqParams) (c : Credentials) : Credentials :=
  let ssidLen := min cfg.ssidSize p.ssid.length
  { c with ssid := memcpy c.ssid p.ssid ssidLen, ssidLen }

/-- The security type, or the failure that leaves it and the PMF mode alone. -/
def storeSecurity (cfg : Config) (p : ConnectReqParams) (c : Credentials) :
    Except Errno Unit × Credentials :=
  match p.security with
  | .sae =>
    let psk := p.saePassword.getD p.psk
    let pskLen := min cfg.passphraseSize psk.length
    (.ok (), { c with passphrase := memcpy c.passphrase psk pskLen, passphraseLen := pskLen,
                      securityType := .sae })
  | .none => (.ok (), { c with securityType := .open })
  | .unsupported => (.error .einval, c)

/-- An MFP value that is none of the three known ones is only warned about. -/
def storePmf (p : ConnectReqParams) (c : Credentials) : Credentials :=
  match p.mfp with
  | .disable => { c with pmfMode := .disabled }
  | .optional | .required => { c with pmfMode := .required }
  | .invalid => c

/-- The argument building that connect and AP enable share, in place. -/
def storeCredentials (cfg : Config) (p : ConnectReqParams) (c : Credentials) :
    Except Errno Unit × Credentials :=
  match storeSecurity cfg p (storeSsid cfg p c) with
  | (.error e, c) => (.error e, c)
  | (.ok _, c) => (.ok (), storePmf p c)

def morsemicroMgmtConnect (cfg : Config) (p : ConnectReqParams) (status : MmwlanStatus)
    (s : State) : Except Errno Unit × State :=
  if s.data.mmwlanState = .uninitialized then (.error .enodev, s)
  else
    match storeCredentials cfg p s.data.sta.staArgs with
    | (.error e, args) => (.error e, { s with data.sta.staArgs := args })
    | (.ok _, args) =>
      (mmwlanErrToErrno status, { s with data.sta.staArgs := args }.forward (.staEnable args))

/-- A blocked shutdown counts as done when a vif is disabled. -/
def disableErrno (status : MmwlanStatus) : Except Errno Unit :=
  if status = .shutdownBlocked then .ok () else mmwlanErrToErrno status

def morsemicroMgmtDisconnect (status : MmwlanStatus) (s : State) : Except Errno Unit × State :=
  if s.data.mmwlanState = .uninitialized then (.error .enodev, s)
  else
    let s := s.forward .staDisable
    match disableErrno status with
    | .error e => (.error e, s)
    | .ok _ => (.ok (), s.raise (.disconnectResult true))

/-! ### The regulatory domain -/

/-- Country code `00`. -/
def worldDomain : Country := ⟨0x30, 0x30⟩

/-- A request to set the region, with the outcome of each step it may take. -/
structure RegDomainSet where
  countryCode : Country
  shutdown : MmwlanStatus
  env : StartEnv

/-- The `00` request on a started driver. -/
def State.deinit (cfg : Config) (s : State) : State :=
  { s with mmwlan.booted := false, data.mmwlanState := .uninitialized,
           data.sta.status := .interfaceDisabled,
           data.ap.status := if cfg.apMode then .interfaceDisabled else s.data.ap.status }

/-- The part of a region switch between the shutdown and the interface check. -/
def switchRegion (cfg : Config) (r : RegDomainSet) (s : State) : Except Errno Unit × State :=
  let s := { s with mmwlan.booted := false, data.channelList := none }
  if r.countryCode = worldDomain then
    (.ok (), if s.data.mmwlanState = .initialized then s.deinit cfg else s)
  else morsemicroWlanStart cfg r.env r.countryCode s

def morsemicroMgmtRegDomainSet (cfg : Config) (r : RegDomainSet) (s : State) :
    Except Errno Unit × State :=
  match mmwlanErrToErrno r.shutdown with
  | .error e => (.error e, s)
  | .ok _ =>
    let (ret, s) := switchRegion cfg r s
    if s.data.channelList = none ∧ s.staIf.isUp then
      (ret, { s with staIf.adminUp := false })
    else (ret, s)

/-- `struct wifi_reg_chan_info` -/
structure RegChanInfo where
  centerFrequency : ℕ
  maxPower : Int8
  supported : Bool
  passiveOnly : Bool
  dfs : Bool
  deriving DecidableEq

/-- What a GET fills in; `num_channels` is the length of the list. -/
structure RegDomainReport where
  countryCode : Country
  chanInfo : List RegChanInfo
  deriving DecidableEq

def morsemicroMgmtRegDomainGet (cfg : Config) (wantChanInfo : Bool) (s : State) : RegDomainReport :=
  match s.data.channelList with
  | none => ⟨worldDomain, []⟩
  | some l =>
    if ¬ wantChanInfo then ⟨l.countryCode, []⟩
    else ⟨l.countryCode, (l.channels.take cfg.maxRegChanNum).map fun chan =>
      ⟨chan.centreFreqHz.toNat / 1000000, chan.maxTxEirpDbm, true, false, false⟩⟩

/-! ### The access point -/

def apBandwidth (cfg : Config) (d : MorsemicroData) (p : ConnectReqParams) : Except Errno UInt8 :=
  match cfg.bandwidthSource with
  | .patched =>
    match p.bandwidth with
    | .mhz1 => .ok 1
    | .mhz2 => .ok 2
    | .mhz4 => .ok 4
    | .mhz8 => .ok 8
    | .unsupported => .error .einval
  | .unpatchedWorkarounds => if d.ap.s1gBwMhz = 0 then .error .einval else .ok d.ap.s1gBwMhz
  | .neither => .ok 1

/-- The operating bandwidth and channel of an AP request, validated. -/
def apChannel (cfg : Config) (d : MorsemicroData) (p : ConnectReqParams) :
    Except Errno (UInt8 × OperatingChannel) :=
  match apBandwidth cfg d p with
  | .error e => .error e
  | .ok bwMhz =>
    match deriveOperatingChannelWrap d.channelList p.channel bwMhz with
    | .error _ => .error .einval
    | .ok c =>
      if morsemicroApChannelIsValid d.channelList c.opClass c.s1gChanNum bwMhz c.pri1mhzChanIdx then
        .ok (bwMhz, c)
      else .error .einval

/-- An AP request with the outcomes of `mmwlan_ap_enable` and of the MAC query. -/
structure ApEnable where
  params : ConnectReqParams
  status : MmwlanStatus
  getVifMacAddr : MmwlanStatus
  macAddr : List UInt8

def ApArgs.setChannel (a : ApArgs) (c : OperatingChannel) : ApArgs :=
  { a with opClass := c.opClass, s1gChanNum := c.s1gChanNum, priBwMhz := c.priBwMhz,
           pri1mhzChanIdx := c.pri1mhzChanIdx, staStatusCb := true }

def morsemicroMgmtApEnable (cfg : Config) (r : ApEnable) (s : State) : Except Errno Unit × State :=
  let (ret, cred) := storeCredentials cfg r.params s.data.ap.apArgs.toCredentials
  let s := { s with data.ap.apArgs.toCredentials := cred }
  match ret with
  | .error e => (.error e, s)
  | .ok _ =>
    match apChannel cfg s.data r.params with
    | .error e => (.error e, s)
    | .ok (bwMhz, c) =>
      let args := s.data.ap.apArgs.setChannel c
      let s := { s with data.ap.apArgs := args }.forward (.apEnable args r.params.channel bwMhz)
      match mmwlanErrToErrno r.status with
      | .error e => (.error e, s.raise (.apEnableResult false))
      | .ok _ =>
        -- the interface is taken down and up again around the new link address
        let s := if r.getVifMacAddr = .success then { s with data.ap.macAddr := r.macAddr } else s
        (.ok (), s.raise (.apEnableResult true))

def morsemicroMgmtApDisable (status : MmwlanStatus) (s : State) : Except Errno Unit × State :=
  if s.data.mmwlanState = .uninitialized then (.error .enodev, s)
  else
    let s := s.forward .apDisable
    match disableErrno status with
    | .error e => (.error e, s.raise (.apDisableResult false))
    | .ok _ => (.ok (), s.raise (.apDisableResult true))

/-- `max_num_sta` when the request carries it; the rest is only warned about. -/
def morsemicroMgmtApConfigParams (maxNumSta : Option ℕ) (s : State) : Except Errno Unit × State :=
  match maxNumSta with
  | some n => (.ok (), { s with data.ap.apArgs.maxStas := n })
  | none => (.ok (), s)

/-- The request is one byte, or it is refused. -/
def morsemicroMgmtS1gBandwidth (request : List UInt8) (s : State) : Except Errno Unit × State :=
  match request with
  | [bwMhz] =>
    if bwMhz ≠ 1 ∧ bwMhz ≠ 2 ∧ bwMhz ≠ 4 ∧ bwMhz ≠ 8 then (.error .einval, s)
    else (.ok (), { s with data.ap.s1gBwMhz := bwMhz })
  | _ => (.error .einval, s)

/-! ### Runs -/

/-- A management operation, a packet to send or a callback of mmwlan. -/
inductive Op where
  | regDomainSet (r : RegDomainSet)
  | scan (cb : ℕ) (status : MmwlanStatus)
  | scanComplete (success : Bool)
  | connect (p : ConnectReqParams) (status : MmwlanStatus)
  | disconnect (status : MmwlanStatus)
  | vifState (vif : Vif) (link : LinkState)
  | apEnable (r : ApEnable)
  | apDisable (status : MmwlanStatus)
  | apConfigParams (maxNumSta : Option ℕ)
  | s1gBandwidth (request : List UInt8)
  | tx (env : TxEnv)
  | txAp (env : TxEnv)

/-- An operation that the build does not register. -/
def unlessBuilt (built : Bool) (f : State → Except Errno Unit × State) (s : State) :
    Except Errno Unit × State :=
  if built then f s else (.error .enotsup, s)

def exec (cfg : Config) : Op → State → Except Errno Unit × State
  | .regDomainSet r => morsemicroMgmtRegDomainSet cfg r
  | .scan cb status => morsemicroMgmtScan cb status
  | .scanComplete success => fun s => (.ok (), scanCompleteCallback success s)
  | .connect p status => morsemicroMgmtConnect cfg p status
  | .disconnect status => morsemicroMgmtDisconnect status
  | .vifState vif link => fun s => (.ok (), mmnetifVifState vif link s)
  | .apEnable r => unlessBuilt cfg.apMode (morsemicroMgmtApEnable cfg r)
  | .apDisable status => unlessBuilt cfg.apMode (morsemicroMgmtApDisable status)
  | .apConfigParams maxNumSta => unlessBuilt cfg.apMode (morsemicroMgmtApConfigParams maxNumSta)
  | .s1gBandwidth request =>
    unlessBuilt (cfg.apMode && cfg.bandwidthSource = .unpatchedWorkarounds)
      (morsemicroMgmtS1gBandwidth request)
  | .tx env => mmnetifTx cfg env
  | .txAp env => unlessBuilt cfg.apMode (mmnetifTxAp cfg env)

/-- Every operation is enabled in every state. -/
def step (cfg : Config) (s : State) (op : Op) : Option State := some (exec cfg op s).2

/-- The driver's data before the interfaces are initialised: nothing is started
and no request was made; stored arguments are whatever they are. -/
structure Cold (s : State) : Prop where
  channelList : s.data.channelList = none
  mmwlanState : s.data.mmwlanState = .uninitialized
  booted : s.mmwlan.booted = false
  mmwlanList : s.mmwlan.channelList = none
  calls : s.calls = []

/-- The states interface initialisation can leave. -/
def Booted (cfg : Config) (s : State) : Prop := ∃ s₀ env, Cold s₀ ∧ s = boot cfg env s₀

end MmIot
