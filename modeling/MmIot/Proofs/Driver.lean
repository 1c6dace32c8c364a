import MmIot.Spec.WifiMgmt

/-! What one operation can do to the core of the driver: the region, the running
chip and the requests forwarded so far. Every invariant of a run is derived from
these cases, none of them from the bodies of the operations. -/

namespace MmIot

/-- The part of a state that the region and radio invariants speak about. -/
structure Core where
  channelList : Option ChannelList
  mmwlanState : MmwlanState
  booted : Bool
  mmwlanList : Option ChannelList
  calls : List RadioCall

@[simps] def State.core (s : State) : Core where
  channelList := s.data.channelList
  mmwlanState := s.data.mmwlanState
  booted := s.mmwlan.booted
  mmwlanList := s.mmwlan.channelList
  calls := s.calls

/-- The region request up to the shutdown: no list, nothing running. -/
def Core.shutDown (c : Core) : Core := { c with channelList := none, booted := false }

def Core.setList (c : Core) (l : ChannelList) : Core :=
  { c with channelList := some l, mmwlanList := some l }

def Core.forward (c : Core) (request : RadioRequest) : Core :=
  { c with calls := ⟨request, c.booted, c.channelList, c.mmwlanList⟩ :: c.calls }

/-! ### Starting mmwlan -/

theorem wlanStartAp_core (cfg : Config) (env : StartEnv) (s : State) :
    (wlanStartAp cfg env s).2.core = s.core := by
  unfold wlanStartAp
  split
  · cases mmwlanErrToErrno env.registerApRx
    · rfl
    · cases mmwlanErrToErrno env.registerApState <;> rfl
  · rfl

theorem wlanStartFinish_core (cfg : Config) (env : StartEnv) (s : State) :
    (wlanStartFinish cfg env s).2.core = s.core := by
  unfold wlanStartFinish
  cases mmwlanErrToErrno env.getVersion <;> rfl

/-- The station interface is configured, and the AP comes next. -/
structure StaConfigured (cfg : Config) (env : StartEnv) : Prop where
  setPowerSaveMode : cfg.powersave = false → env.setPowerSaveMode = .success
  getVifMacAddr : env.getVifMacAddr = .success
  registerStaRx : env.registerStaRx = .success
  registerStaState : env.registerStaState = .success

def State.configureSta (env : StartEnv) (s : State) : State :=
  ((s.setMacAddr env.macAddr).registerRxCb .sta).registerStateCb .sta

/-- `morsemicro_wlan_start` from the AP on. -/
def wlanStartApFinish (cfg : Config) (env : StartEnv) (s : State) : Except Errno Unit × State :=
  match wlanStartAp cfg env s with
  | (.error e, s) => (.error e, s)
  | (.ok _, s) => wlanStartFinish cfg env s

/-- What the AP part establishes and the rest keeps. -/
theorem wlanStartApFinish_snd {cfg : Config} {env : StartEnv} {s : State} (P : State → Prop)
    (hap : P (wlanStartAp cfg env s).2) (hfinish : ∀ t, P t → P (wlanStartFinish cfg env t).2) :
    P (wlanStartApFinish cfg env s).2 := by
  unfold wlanStartApFinish
  split
  · next heq =>
    rw [heq] at hap
    exact hap
  · next heq =>
    rw [heq] at hap
    exact hfinish _ hap

/-- The power-save step, which a power-save build leaves out. -/
theorem powersave_ok {cfg : Config} {env : StartEnv}
    (h : cfg.powersave = false → env.setPowerSaveMode = .success) :
    (if cfg.powersave then .ok () else mmwlanErrToErrno env.setPowerSaveMode) =
      (.ok () : Except Errno Unit) := by
  cases hps : cfg.powersave with
  | false => exact mmwlanErrToErrno_ok.mpr (h hps)
  | true => rfl

theorem wlanStartConfigure_done {cfg : Config} {env : StartEnv} (h : StaConfigured cfg env)
    (s : State) : wlanStartConfigure cfg env s = wlanStartApFinish cfg env (s.configureSta env) := by
  unfold wlanStartConfigure
  simp only [powersave_ok h.setPowerSaveMode, mmwlanErrToErrno_ok.mpr h.getVifMacAddr,
    mmwlanErrToErrno_ok.mpr h.registerStaRx, mmwlanErrToErrno_ok.mpr h.registerStaState]
  rfl

/-- An exit in front of the AP touches neither the core nor the AP. -/
theorem wlanStartConfigure_failed {cfg : Config} {env : StartEnv} (h : ¬ StaConfigured cfg env)
    (s : State) : ∃ e t, wlanStartConfigure cfg env s = (.error e, t) ∧ t.core = s.core ∧
      t.data.ap = s.data.ap := by
  unfold wlanStartConfigure
  split
  · exact ⟨_, _, rfl, rfl, rfl⟩
  next hps =>
    cases hmac : mmwlanErrToErrno env.getVifMacAddr with
    | error e => exact ⟨_, _, rfl, rfl, rfl⟩
    | ok _ =>
      cases hrx : mmwlanErrToErrno env.registerStaRx with
      | error e => exact ⟨_, _, rfl, rfl, rfl⟩
      | ok _ =>
        cases hst : mmwlanErrToErrno env.registerStaState with
        | error e => exact ⟨_, _, rfl, rfl, rfl⟩
        | ok _ =>
          refine absurd ⟨?_, mmwlanErrToErrno_ok.mp hmac, mmwlanErrToErrno_ok.mp hrx,
            mmwlanErrToErrno_ok.mp hst⟩ h
          intro hno
          exact mmwlanErrToErrno_ok.mp
            (by simpa only [hno, Bool.false_eq_true, if_false] using hps)

/-- Nothing after `mmwlan_boot` touches the core, on any exit. -/
theorem wlanStartConfigure_core (cfg : Config) (env : StartEnv) (s : State) :
    (wlanStartConfigure cfg env s).2.core = s.core := by
  by_cases h : StaConfigured cfg env
  · rw [wlanStartConfigure_done h]
    apply wlanStartApFinish_snd (fun t => t.core = s.core)
      (wlanStartAp_core cfg env (s.configureSta env))
    intro t ht
    exact (wlanStartFinish_core cfg env t).trans ht
  · obtain ⟨e, t, heq, hcore, -⟩ := wlanStartConfigure_failed h s
    rw [heq]
    exact hcore

/-- The outcomes of a start: refused before a list was stored, stopped at the
boot, or booted, whatever the steps after the boot return. -/
inductive StartCases (cfg : Config) (env : StartEnv) (cc : Country) (c : Core) : Core → Prop
  | notInBcf (h : bcfRegDne cc cfg.bcfRegions ≠ .ok ()) :
      StartCases cfg env cc c { c with channelList := none }
  | notInRegdb (h : bcfRegDne cc cfg.bcfRegions = .ok ()) (hl : env.lookup cc = none) :
      StartCases cfg env cc c c
  | bootFailed (h : bcfRegDne cc cfg.bcfRegions = .ok ()) (l : ChannelList)
      (hl : env.lookup cc = some l) (hb : env.boot ≠ .success) :
      StartCases cfg env cc c (c.setList l)
  | booted (h : bcfRegDne cc cfg.bcfRegions = .ok ()) (l : ChannelList)
      (hl : env.lookup cc = some l) (hb : env.boot = .success) :
      StartCases cfg env cc c { c.setList l with booted := true, mmwlanState := .initialized }

theorem wlanStart_cases (cfg : Config) (env : StartEnv) (cc : Country) (s : State) :
    StartCases cfg env cc s.core (morsemicroWlanStart cfg env cc s).2.core := by
  unfold morsemicroWlanStart wlanStartBoot
  cases hbcf : bcfRegDne cc cfg.bcfRegions with
  | error e => exact .notInBcf (by simp [hbcf])
  | ok _ =>
    cases hl : env.lookup cc with
    | none => exact .notInRegdb hbcf hl
    | some l =>
      cases hb : mmwlanErrToErrno env.boot with
      | error e => exact .bootFailed hbcf l hl (mmwlanErrToErrno_error hb)
      | ok _ =>
        dsimp only
        rw [wlanStartConfigure_core]
        exact .booted hbcf l hl (mmwlanErrToErrno_ok.mp hb)

/-! ### The operations -/

/-- An AP request that reaches `mmwlan_ap_enable`: known security, a bandwidth
and a valid derived channel. -/
def ApRequestAccepted (cfg : Config) (d : MorsemicroData) (p : ConnectReqParams) : Prop :=
  p.security ≠ .unsupported ∧ ∃ bwMhz c, apChannel cfg d p = .ok (bwMhz, c)

/-- A region or AP request that ends before it changes the core or forwards
anything. The other operations leave the region alone, so each of them is minor. -/
def Minor (cfg : Config) (s : State) : Op → Prop
  | .regDomainSet r => r.shutdown ≠ .success
  | .apEnable r => cfg.apMode = true → ¬ ApRequestAccepted cfg s.data r.params
  | _ => True

/-- What an operation can do to the core. -/
inductive CoreStep (cfg : Config) (s : State) (op : Op) : Core → Prop
  | quiet (hop : Minor cfg s op) : CoreStep cfg s op s.core
  | request (hop : Minor cfg s op) (r : RadioRequest) (hinit : s.data.mmwlanState = .initialized)
      (hr : ∀ args ch bw, r ≠ .apEnable args ch bw) : CoreStep cfg s op (s.core.forward r)
  | apEnable (r : ApEnable) (hop : op = .apEnable r) (hap : cfg.apMode = true)
      (hsec : r.params.security ≠ .unsupported) (bw : UInt8) (c : OperatingChannel)
      (hc : apChannel cfg s.data r.params = .ok (bw, c)) (args : ApArgs) :
      CoreStep cfg s op (s.core.forward (.apEnable (args.setChannel c) r.params.channel bw))
  | world (r : RegDomainSet) (hop : op = .regDomainSet r) (hsd : r.shutdown = .success)
      (hcc : r.countryCode = worldDomain) :
      CoreStep cfg s op { s.core.shutDown with mmwlanState := .uninitialized }
  | region (r : RegDomainSet) (hop : op = .regDomainSet r) (hsd : r.shutdown = .success)
      (hcc : r.countryCode ≠ worldDomain) (c : Core)
      (hc : StartCases cfg r.env r.countryCode s.core.shutDown c) : CoreStep cfg s op c

theorem CoreStep.of_core {cfg : Config} {s t : State} {op : Op} (hop : Minor cfg s op)
    (h : t.core = s.core) : CoreStep cfg s op t.core := by
  rw [h]
  exact .quiet hop

/-- The guard of the requests that check `mmwlan_state`. -/
theorem CoreStep.of_request (cfg : Config) {s : State} (op : Op) (hop : Minor cfg s op)
    (r : RadioRequest) (hinit : ¬ s.data.mmwlanState = .uninitialized)
    (hr : ∀ args ch bw, r ≠ .apEnable args ch bw) : CoreStep cfg s op (s.core.forward r) := by
  refine .request hop r ?_ hr
  cases h : s.data.mmwlanState with
  | uninitialized => exact absurd h hinit
  | initialized => rfl

theorem scan_cases (cfg : Config) (cb : ℕ) (status : MmwlanStatus) (s : State) :
    CoreStep cfg s (.scan cb status) (morsemicroMgmtScan cb status s).2.core := by
  unfold morsemicroMgmtScan
  split
  · exact .quiet trivial
  next h =>
    have hstep := CoreStep.of_request cfg (.scan cb status) trivial .scanRequest h nofun
    cases mmwlanErrToErrno status <;> exact hstep

theorem connect_cases (cfg : Config) (p : ConnectReqParams) (status : MmwlanStatus) (s : State) :
    CoreStep cfg s (.connect p status) (morsemicroMgmtConnect cfg p status s).2.core := by
  unfold morsemicroMgmtConnect
  split
  · exact .quiet trivial
  next h =>
    split
    · exact .quiet trivial
    next args _ =>
      exact CoreStep.of_request cfg (.connect p status) trivial (.staEnable args) h nofun

theorem disconnect_cases (cfg : Config) (status : MmwlanStatus) (s : State) :
    CoreStep cfg s (.disconnect status) (morsemicroMgmtDisconnect status s).2.core := by
  unfold morsemicroMgmtDisconnect
  split
  · exact .quiet trivial
  next h =>
    have hstep := CoreStep.of_request cfg (.disconnect status) trivial .staDisable h nofun
    cases disableErrno status <;> exact hstep

theorem apDisable_cases (cfg : Config) (status : MmwlanStatus) (s : State) :
    CoreStep cfg s (.apDisable status) (morsemicroMgmtApDisable status s).2.core := by
  unfold morsemicroMgmtApDisable
  split
  · exact .quiet trivial
  next h =>
    have hstep := CoreStep.of_request cfg (.apDisable status) trivial .apDisable h nofun
    cases disableErrno status <;> exact hstep

theorem mmnetifTxOn_cases (cfg : Config) (op : Op) (vif : Vif) (env : TxEnv) (s : State)
    (hop : Minor cfg s op) : CoreStep cfg s op (mmnetifTxOn vif cfg env s).2.core := by
  unfold mmnetifTxOn
  split
  · exact .quiet hop
  next h =>
    split
    · exact .quiet hop
    · have hstep := CoreStep.of_request cfg op hop (.tx vif) h nofun
      unfold mmnetifVifTx
      split
      · exact hstep
      · split
        · exact hstep
        · split <;> exact hstep

theorem mmnetifVifState_core (vif : Vif) (link : LinkState) (s : State) :
    (mmnetifVifState vif link s).core = s.core := by
  cases vif <;> cases link
  · simp only [mmnetifVifState]
    split <;> rfl
  all_goals rfl

/-- A switch to `00` ends uninitialized also where it finds nothing to deinitialise. -/
theorem switchRegion_world (cfg : Config) (r : RegDomainSet) (s : State)
    (hcc : r.countryCode = worldDomain) :
    (switchRegion cfg r s).2.core = { s.core.shutDown with mmwlanState := .uninitialized } := by
  unfold switchRegion
  simp only [hcc, if_true]
  cases h : s.data.mmwlanState <;> simp [State.core, Core.shutDown, State.deinit, h]

theorem regDomainSet_cases (cfg : Config) (r : RegDomainSet) (s : State) :
    CoreStep cfg s (.regDomainSet r) (morsemicroMgmtRegDomainSet cfg r s).2.core := by
  unfold morsemicroMgmtRegDomainSet
  cases hsd : mmwlanErrToErrno r.shutdown with
  | error e => exact .quiet (mmwlanErrToErrno_error hsd)
  | ok _ =>
    have hsd : r.shutdown = .success := mmwlanErrToErrno_ok.mp hsd
    -- taking the interface down is no part of the core
    suffices h : CoreStep cfg s (.regDomainSet r) (switchRegion cfg r s).2.core by
      dsimp only
      split <;> exact h
    by_cases hcc : r.countryCode = worldDomain
    · rw [switchRegion_world cfg r s hcc]
      exact .world r rfl hsd hcc
    · refine .region r rfl hsd hcc _ ?_
      unfold switchRegion
      simp only [hcc, if_false]
      exact wlanStart_cases cfg r.env r.countryCode
        { s with mmwlan.booted := false, data.channelList := none }

theorem storeCredentials_ok (cfg : Config) (p : ConnectReqParams) (c : Credentials) :
    (storeCredentials cfg p c).1 = .ok () ↔ p.security ≠ .unsupported := by
  unfold storeCredentials storeSecurity
  cases p.security <;> simp

/-- The credentials stored first do not bear on the channel. -/
theorem apChannel_congr (cfg : Config) (d : MorsemicroData) (p : ConnectReqParams)
    (c : Credentials) :
    apChannel cfg { d with ap.apArgs.toCredentials := c } p = apChannel cfg d p := rfl

theorem apEnable_cases (cfg : Config) (hap : cfg.apMode = true) (r : ApEnable) (s : State) :
    CoreStep cfg s (.apEnable r) (morsemicroMgmtApEnable cfg r s).2.core := by
  unfold morsemicroMgmtApEnable
  have hsec := storeCredentials_ok cfg r.params s.data.ap.apArgs.toCredentials
  generalize storeCredentials cfg r.params s.data.ap.apArgs.toCredentials = stored at hsec
  obtain ⟨ret, cred⟩ := stored
  dsimp only at hsec ⊢
  rw [apChannel_congr]
  cases ret with
  | error e => exact .quiet fun _ hacc => by simpa using hsec.mpr hacc.1
  | ok _ =>
    cases hc : apChannel cfg s.data r.params with
    | error e =>
      refine .quiet fun _ ⟨_, bw, c, hok⟩ => ?_
      rw [hc] at hok
      cases hok
    | ok bc =>
      obtain ⟨bw, c⟩ := bc
      have hstep := CoreStep.apEnable r rfl hap (hsec.mp rfl) bw c hc
        { s.data.ap.apArgs with toCredentials := cred }
      dsimp only
      cases mmwlanErrToErrno r.status with
      | error e => exact hstep
      | ok _ =>
        dsimp only
        split <;> exact hstep

theorem unlessBuilt_cases (cfg : Config) (op : Op) (built : Bool) (s : State)
    (f : State → Except Errno Unit × State) (hop : built = false → Minor cfg s op)
    (h : built = true → CoreStep cfg s op (f s).2.core) :
    CoreStep cfg s op (unlessBuilt built f s).2.core := by
  unfold unlessBuilt
  cases built with
  | false => exact .quiet (hop rfl)
  | true => exact h rfl

theorem exec_cases (cfg : Config) (op : Op) (s : State) :
    CoreStep cfg s op (exec cfg op s).2.core := by
  cases op with
  | regDomainSet r => exact regDomainSet_cases cfg r s
  | scan cb status => exact scan_cases cfg cb status s
  | scanComplete success => exact .quiet trivial
  | connect p status => exact connect_cases cfg p status s
  | disconnect status => exact disconnect_cases cfg status s
  | vifState vif link => exact .of_core trivial (mmnetifVifState_core vif link s)
  | apEnable r =>
    exact unlessBuilt_cases cfg _ _ s _ (fun hno hap => by simp [hno] at hap)
      fun hap => apEnable_cases cfg hap r s
  | apDisable status =>
    exact unlessBuilt_cases cfg _ _ s _ (fun _ => trivial) fun _ => apDisable_cases cfg status s
  | apConfigParams n =>
    refine unlessBuilt_cases cfg _ _ s _ (fun _ => trivial) ?_
    intro _
    cases n <;> exact .quiet trivial
  | s1gBandwidth request =>
    refine unlessBuilt_cases cfg _ _ s _ (fun _ => trivial) fun _ => .of_core trivial ?_
    unfold morsemicroMgmtS1gBandwidth
    split
    · split <;> rfl
    · rfl
  | tx env => exact mmnetifTxOn_cases cfg _ .sta env s trivial
  | txAp env =>
    exact unlessBuilt_cases cfg _ _ s _ (fun _ => trivial)
      fun _ => mmnetifTxOn_cases cfg _ .ap env s trivial

/-! ### Interface initialisation -/

/-- Initialising the interfaces is one start on the compiled-in region. -/
theorem boot_cases (cfg : Config) (env : StartEnv) (s : State) :
    StartCases cfg env cfg.region { s.core with mmwlanState := .uninitialized }
      (boot cfg env s).core := by
  have h := wlanStart_cases cfg env cfg.region
    { s with data.sta.status := .interfaceDisabled, data.mmwlanState := .uninitialized }
  unfold boot
  split <;> exact h

/-- The core before the interfaces are initialised. -/
def Core.cold : Core := ⟨none, .uninitialized, false, none, []⟩

theorem Core.cold_calls : Core.cold.calls = [] := rfl

theorem Cold.core {s : State} (h : Cold s) : s.core = Core.cold := by
  simp only [State.core, Core.cold, h.channelList, h.mmwlanState, h.booted, h.mmwlanList, h.calls]

theorem Booted.cases {cfg : Config} {s : State} (h : Booted cfg s) :
    ∃ env, StartCases cfg env cfg.region Core.cold s.core := by
  obtain ⟨s₀, env, hcold, rfl⟩ := h
  have hstart := boot_cases cfg env s₀
  rw [hcold.core] at hstart
  exact ⟨env, hstart⟩

end MmIot
