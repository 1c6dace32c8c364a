import MmIot.Proofs.Radio

/-! What a regulatory-domain GET reports after a run. The channel list is stored
before the boot and not taken back when the boot or a later step fails, so the
report agrees with the last request exactly when no start stopped in between. -/

namespace MmIot

/-- The start gets as far as storing the region's channel list. -/
def StartStores (cfg : Config) (env : StartEnv) (cc : Country) : Prop :=
  bcfRegDne cc cfg.bcfRegions = .ok () ∧ env.lookup cc ≠ none

/-- Every step after the list was stored succeeds. -/
structure RestSucceeds (cfg : Config) (env : StartEnv) : Prop where
  boot : env.boot = .success
  setPowerSaveMode : cfg.powersave = false → env.setPowerSaveMode = .success
  getVifMacAddr : env.getVifMacAddr = .success
  registerStaRx : env.registerStaRx = .success
  registerStaState : env.registerStaState = .success
  registerApRx : cfg.apMode = true → env.registerApRx = .success
  registerApState : cfg.apMode = true → env.registerApState = .success
  getVersion : env.getVersion = .success

theorem wlanStartAp_ok (cfg : Config) (env : StartEnv) (s : State) :
    (wlanStartAp cfg env s).1 = .ok () ↔
      (cfg.apMode = true → env.registerApRx = .success ∧ env.registerApState = .success) := by
  unfold wlanStartAp
  cases cfg.apMode with
  | false => simp
  | true =>
    cases hrx : mmwlanErrToErrno env.registerApRx with
    | error e => simp [mmwlanErrToErrno_error hrx]
    | ok _ =>
      cases hst : mmwlanErrToErrno env.registerApState with
      | error e => simp [mmwlanErrToErrno_error hst]
      | ok _ => simp [mmwlanErrToErrno_ok.mp hrx, mmwlanErrToErrno_ok.mp hst]

theorem wlanStartFinish_ok (cfg : Config) (env : StartEnv) (s : State) :
    (wlanStartFinish cfg env s).1 = .ok () ↔ env.getVersion = .success := by
  unfold wlanStartFinish
  cases h : mmwlanErrToErrno env.getVersion with
  | error e => simp [mmwlanErrToErrno_error h]
  | ok _ => simp [mmwlanErrToErrno_ok.mp h]

theorem RestSucceeds.staConfigured {cfg : Config} {env : StartEnv} (h : RestSucceeds cfg env) :
    StaConfigured cfg env :=
  ⟨h.setPowerSaveMode, h.getVifMacAddr, h.registerStaRx, h.registerStaState⟩

theorem wlanStartApFinish_ok (cfg : Config) (env : StartEnv) (s : State) :
    (wlanStartApFinish cfg env s).1 = .ok () ↔
      (cfg.apMode = true → env.registerApRx = .success ∧ env.registerApState = .success) ∧
        env.getVersion = .success := by
  have hap := wlanStartAp_ok cfg env s
  unfold wlanStartApFinish
  split
  · next heq =>
    rw [heq] at hap
    simp [← hap]
  · next heq =>
    rw [heq] at hap
    rw [wlanStartFinish_ok, and_iff_right (hap.mp rfl)]

theorem wlanStartConfigure_ok (cfg : Config) (env : StartEnv) (s : State) :
    (wlanStartConfigure cfg env s).1 = .ok () ∧ env.boot = .success ↔ RestSucceeds cfg env := by
  by_cases hsta : StaConfigured cfg env
  · rw [wlanStartConfigure_done hsta, wlanStartApFinish_ok]
    refine ⟨?_, ?_⟩
    · rintro ⟨⟨hap, hversion⟩, hboot⟩
      exact ⟨hboot, hsta.setPowerSaveMode, hsta.getVifMacAddr, hsta.registerStaRx,
        hsta.registerStaState, fun h => (hap h).1, fun h => (hap h).2, hversion⟩
    · intro h
      exact ⟨⟨fun hap => ⟨h.registerApRx hap, h.registerApState hap⟩, h.getVersion⟩, h.boot⟩
  · obtain ⟨e, t, heq, -, -⟩ := wlanStartConfigure_failed hsta s
    rw [heq]
    exact iff_of_false (by simp) fun h => hsta h.staConfigured

/-- When a start returns 0. -/
theorem wlanStart_ok (cfg : Config) (env : StartEnv) (cc : Country) (s : State) :
    (morsemicroWlanStart cfg env cc s).1 = .ok () ↔
      StartStores cfg env cc ∧ RestSucceeds cfg env := by
  unfold morsemicroWlanStart wlanStartBoot StartStores
  cases hbcf : bcfRegDne cc cfg.bcfRegions with
  | error e => simp
  | ok _ =>
    cases hl : env.lookup cc with
    | none => simp
    | some l =>
      have hrest := wlanStartConfigure_ok cfg env ((s.setChannelList l).booted)
      cases hb : mmwlanErrToErrno env.boot with
      | error e =>
        have hno : ¬ RestSucceeds cfg env := fun h => mmwlanErrToErrno_error hb h.boot
        simp [hno]
      | ok _ =>
        rw [mmwlanErrToErrno_ok] at hb
        simpa [hb, mmwlanErrToErrno] using hrest

/-! ### The last request of a run -/

/-- A run with the last request whose shutdown succeeded, and what it returned.
The start that interface initialisation makes stands for the first request. -/
structure RegionRun where
  state : State
  code : Country
  env : StartEnv
  ret : Except Errno Unit

def RegionRun.start (cfg : Config) (env : StartEnv) (s : State) : RegionRun where
  state := boot cfg env s
  code := cfg.region
  env := env
  ret := (morsemicroWlanStart cfg env cfg.region
    { s with data.sta.status := .interfaceDisabled, data.mmwlanState := .uninitialized }).1

def RegionRun.exec (cfg : Config) (run : RegionRun) (op : Op) : RegionRun :=
  let (ret, state) := MmIot.exec cfg op run.state
  match op with
  | .regDomainSet r =>
    if r.shutdown = .success then ⟨state, r.countryCode, r.env, ret⟩ else { run with state }
  | _ => { run with state }

def regionRun (cfg : Config) (env : StartEnv) (s : State) (ops : List Op) : RegionRun :=
  ops.foldl (RegionRun.exec cfg) (.start cfg env s)

/-- A GET names region `c` exactly when the last request asked for `c` and
returned 0, and reports `00` with no channels when there is no such `c`. -/
def ReportsLast (cfg : Config) (run : RegionRun) : Prop :=
  ∀ wantChanInfo,
    (∀ c ≠ worldDomain, (morsemicroMgmtRegDomainGet cfg wantChanInfo run.state).countryCode = c ↔
      run.code = c ∧ run.ret = .ok ()) ∧
    (¬ (run.code ≠ worldDomain ∧ run.ret = .ok ()) →
      morsemicroMgmtRegDomainGet cfg wantChanInfo run.state = ⟨worldDomain, []⟩)

/-- Once the last request stored its region's list, nothing failed after that. -/
def RegionRun.NotStopped (cfg : Config) (run : RegionRun) : Prop :=
  run.code ≠ worldDomain → StartStores cfg run.env run.code → RestSucceeds cfg run.env

/-- What the driver relies on of the regulatory database: a list carries the
code it was looked up under, and `00` has none. -/
structure RegdbFaithful (lookup : Country → Option ChannelList) : Prop where
  countryCode : ∀ c l, lookup c = some l → l.countryCode = c
  worldDomain : lookup worldDomain = none

structure RegionInv (cfg : Config) (run : RegionRun) : Prop where
  faithful : RegdbFaithful run.env.lookup
  stored : run.code ≠ worldDomain → StartStores cfg run.env run.code →
    run.state.data.channelList = run.env.lookup run.code
  notStored : ¬ (run.code ≠ worldDomain ∧ StartStores cfg run.env run.code) →
    run.state.data.channelList = none
  ret : run.code ≠ worldDomain →
    (run.ret = .ok () ↔ StartStores cfg run.env run.code ∧ RestSucceeds cfg run.env)

/-- From a state without a list, a start stores its region's list or none. -/
theorem StartCases.channelList {cfg : Config} {env : StartEnv} {cc : Country} {c c' : Core}
    (h : StartCases cfg env cc c c') (hnone : c.channelList = none) :
    (StartStores cfg env cc → c'.channelList = env.lookup cc) ∧
      (¬ StartStores cfg env cc → c'.channelList = none) := by
  cases h with
  | notInBcf hbcf => exact ⟨fun hs => absurd hs.1 hbcf, fun _ => rfl⟩
  | notInRegdb _ hl => exact ⟨fun hs => absurd hl hs.2, fun _ => hnone⟩
  | bootFailed hbcf l hl _ => exact ⟨fun _ => hl.symm, fun hs => absurd ⟨hbcf, by simp [hl]⟩ hs⟩
  | booted hbcf l hl _ => exact ⟨fun _ => hl.symm, fun hs => absurd ⟨hbcf, by simp [hl]⟩ hs⟩

theorem regionInv_start {cfg : Config} {env : StartEnv} {s : State} (hcold : Cold s)
    (hdb : RegdbFaithful env.lookup) : RegionInv cfg (.start cfg env s) := by
  have hstart := boot_cases cfg env s
  obtain ⟨hstores, hnone⟩ := hstart.channelList hcold.channelList
  refine ⟨hdb, fun _ => hstores, fun hno => ?_, fun _ => wlanStart_ok cfg env cfg.region _⟩
  by_cases hs : StartStores cfg env cfg.region
  · have hw : cfg.region = worldDomain := not_not.mp fun hne => hno ⟨hne, hs⟩
    exact absurd (hw ▸ hdb.worldDomain) hs.2
  · exact hnone hs

/-- Only a region request whose shutdown succeeds touches the list. -/
theorem CoreStep.channelList {cfg : Config} {s : State} {op : Op} {c : Core}
    (h : CoreStep cfg s op c) (hno : ∀ r, op = .regDomainSet r → r.shutdown ≠ .success) :
    c.channelList = s.data.channelList := by
  cases h with
  | quiet | request | apEnable => rfl
  | world r hop hsd => exact absurd hsd (hno r hop)
  | region r hop hsd => exact absurd hsd (hno r hop)

/-- Past the shutdown the result is the start's own. -/
theorem regDomainSet_ret (cfg : Config) (r : RegDomainSet) (s : State) (hsd : r.shutdown = .success)
    (hcc : r.countryCode ≠ worldDomain) :
    (morsemicroMgmtRegDomainSet cfg r s).1 = .ok () ↔
      StartStores cfg r.env r.countryCode ∧ RestSucceeds cfg r.env := by
  rw [← wlanStart_ok cfg r.env r.countryCode
    { s with mmwlan.booted := false, data.channelList := none }]
  simp only [morsemicroMgmtRegDomainSet, hsd, mmwlanErrToErrno, switchRegion, hcc, if_false]
  split <;> rfl

/-- The list a region request leaves, whatever the state it found. -/
theorem regDomainSet_channelList (cfg : Config) (r : RegDomainSet) (s : State)
    (hsd : r.shutdown = .success) :
    (r.countryCode ≠ worldDomain → StartStores cfg r.env r.countryCode →
      (morsemicroMgmtRegDomainSet cfg r s).2.data.channelList = r.env.lookup r.countryCode) ∧
    (¬ (r.countryCode ≠ worldDomain ∧ StartStores cfg r.env r.countryCode) →
      (morsemicroMgmtRegDomainSet cfg r s).2.data.channelList = none) := by
  have hstep := regDomainSet_cases cfg r s
  generalize hcore : (morsemicroMgmtRegDomainSet cfg r s).2.core = c at hstep
  rw [show (morsemicroMgmtRegDomainSet cfg r s).2.data.channelList = c.channelList from
    congrArg Core.channelList hcore]
  cases hstep with
  | quiet hop | request hop => exact absurd hsd hop
  | apEnable r' hop => cases hop
  | world r' hop _ hcc =>
    cases hop
    exact ⟨fun hne => absurd hcc hne, fun _ => rfl⟩
  | region r' hop _ hcc _ hc =>
    cases hop
    obtain ⟨hstores, hnone⟩ := hc.channelList rfl
    exact ⟨fun _ => hstores, fun hno => hnone fun hs => hno ⟨hcc, hs⟩⟩

theorem regionInv_regDomainSet {cfg : Config} {r : RegDomainSet} {s : State}
    (hsd : r.shutdown = .success) (hdb : RegdbFaithful r.env.lookup) :
    RegionInv cfg ⟨(morsemicroMgmtRegDomainSet cfg r s).2, r.countryCode, r.env,
      (morsemicroMgmtRegDomainSet cfg r s).1⟩ := by
  obtain ⟨hstored, hnone⟩ := regDomainSet_channelList cfg r s hsd
  exact ⟨hdb, hstored, hnone, regDomainSet_ret cfg r s hsd⟩

theorem regionInv_exec {cfg : Config} {run : RegionRun} (hinv : RegionInv cfg run) (op : Op)
    (hdb : ∀ r, op = .regDomainSet r → RegdbFaithful r.env.lookup) :
    RegionInv cfg (run.exec cfg op) := by
  by_cases hset : ∃ r, op = .regDomainSet r ∧ r.shutdown = .success
  · obtain ⟨r, rfl, hsd⟩ := hset
    simp only [RegionRun.exec, hsd, if_true]
    exact regionInv_regDomainSet hsd (hdb r rfl)
  · have hno : ∀ r, op = .regDomainSet r → r.shutdown ≠ .success :=
      fun r hop hsd => hset ⟨r, hop, hsd⟩
    have hrun : run.exec cfg op = { run with state := (exec cfg op run.state).2 } := by
      cases op with
      | regDomainSet r => simp only [RegionRun.exec, hno r rfl, if_false]
      | _ => rfl
    have hlist : (exec cfg op run.state).2.data.channelList = run.state.data.channelList :=
      (exec_cases cfg op run.state).channelList hno
    rw [hrun]
    exact ⟨hinv.faithful, fun hne hs => hlist.trans (hinv.stored hne hs),
      fun h => hlist.trans (hinv.notStored h), hinv.ret⟩

theorem regionInv_foldl {cfg : Config} (ops : List Op) {run : RegionRun} (hinv : RegionInv cfg run)
    (hdb : ∀ r, .regDomainSet r ∈ ops → RegdbFaithful r.env.lookup) :
    RegionInv cfg (ops.foldl (RegionRun.exec cfg) run) := by
  induction ops generalizing run with
  | nil => exact hinv
  | cons op ops ih =>
    refine ih (regionInv_exec hinv op fun r hop => ?_) fun r hr => hdb r (List.mem_cons_of_mem _ hr)
    exact hdb r (hop ▸ List.mem_cons_self)

/-! ### The report -/

theorem regDomainGet_none (cfg : Config) (wantChanInfo : Bool) (s : State)
    (h : s.data.channelList = none) :
    morsemicroMgmtRegDomainGet cfg wantChanInfo s = ⟨worldDomain, []⟩ := by
  simp only [morsemicroMgmtRegDomainGet, h]

theorem regDomainGet_some (cfg : Config) (wantChanInfo : Bool) (s : State) (l : ChannelList)
    (h : s.data.channelList = some l) :
    (morsemicroMgmtRegDomainGet cfg wantChanInfo s).countryCode = l.countryCode := by
  simp only [morsemicroMgmtRegDomainGet, h]
  split <;> rfl

theorem RegionInv.reportsLast_iff {cfg : Config} {run : RegionRun} (hinv : RegionInv cfg run) :
    ReportsLast cfg run ↔ run.NotStopped cfg := by
  by_cases hs : run.code ≠ worldDomain ∧ StartStores cfg run.env run.code
  · obtain ⟨hne, hs⟩ := hs
    obtain ⟨l, hl⟩ := Option.ne_none_iff_exists'.mp hs.2
    have hlist := (hinv.stored hne hs).trans hl
    have hcode := hinv.faithful.countryCode _ _ hl
    have hget := fun want => (regDomainGet_some cfg want run.state l hlist).trans hcode
    have hret := hinv.ret hne
    constructor
    · intro hrep _ _
      have hok := ((hrep true).1 run.code hne).mp (hget true)
      exact (hret.mp hok.2).2
    · intro hrest
      have hok : run.ret = .ok () := hret.mpr ⟨hs, hrest hne hs⟩
      refine fun want => ⟨fun c _ => ?_, fun hno => absurd ⟨hne, hok⟩ hno⟩
      simp [hget want, hok]
  · have hnone := hinv.notStored hs
    have hfail : ¬ (run.code ≠ worldDomain ∧ run.ret = .ok ()) := fun ⟨hne, hok⟩ =>
      hs ⟨hne, ((hinv.ret hne).mp hok).1⟩
    refine ⟨fun _ hne hst => absurd ⟨hne, hst⟩ hs, fun _ want => ⟨fun c hc => ?_, fun _ => ?_⟩⟩
    · rw [regDomainGet_none cfg want run.state hnone]
      constructor
      · exact fun h => absurd h.symm hc
      · rintro ⟨rfl, hok⟩
        exact absurd ⟨hc, hok⟩ hfail
    · exact regDomainGet_none cfg want run.state hnone

/-- After every run from interface initialisation on, GET agrees with the last
request if and only if its start did not stop after storing the channel list. -/
theorem reportsLast_iff_notStopped (cfg : Config) (env : StartEnv) (s : State) (ops : List Op)
    (hcold : Cold s) (hdb : RegdbFaithful env.lookup)
    (hdbs : ∀ r, .regDomainSet r ∈ ops → RegdbFaithful r.env.lookup) :
    ReportsLast cfg (regionRun cfg env s ops) ↔ (regionRun cfg env s ops).NotStopped cfg :=
  (regionInv_foldl ops (regionInv_start hcold hdb) hdbs).reportsLast_iff

theorem usEnv_faithful (boot getVersion : MmwlanStatus) :
    RegdbFaithful (usEnv boot getVersion).lookup := by
  refine ⟨fun c l h => ?_, rfl⟩
  simp only [usEnv] at h
  split at h
  · next hc =>
    cases h
    exact hc.symm
  · cases h

theorem reportsLast_iff_notStopped_us :
    ReportsLast usConfig (regionRun usConfig (usEnv .success .success) usCold [setUs]) ∧
      ¬ ReportsLast usConfig (regionRun usConfig (usEnv .success .success) usCold
        [setUs, setRegion usChannels.countryCode .success .timedOut]) := by
  have hfaithful : ∀ ops : List Op, ops ⊆ [setUs, setRegion usChannels.countryCode .success .timedOut] →
      ∀ r, .regDomainSet r ∈ ops → RegdbFaithful r.env.lookup := by
    intro ops hsub r hr
    rcases List.mem_cons.mp (hsub hr) with h | h
    · cases h
      exact usEnv_faithful _ _
    · cases List.mem_singleton.mp h
      exact usEnv_faithful _ _
  constructor
  · refine (reportsLast_iff_notStopped usConfig _ usCold [setUs] ⟨rfl, rfl, rfl, rfl, rfl⟩
      (usEnv_faithful _ _) (hfaithful _ (by simp))).mpr fun _ _ => ?_
    exact ⟨rfl, fun _ => rfl, rfl, rfl, rfl, fun _ => rfl, fun _ => rfl, rfl⟩
  · intro hrep
    have hrest := (reportsLast_iff_notStopped usConfig _ usCold _ ⟨rfl, rfl, rfl, rfl, rfl⟩
      (usEnv_faithful _ _) (hfaithful _ (by simp))).mp hrep (by decide) ⟨rfl, nofun⟩
    cases hrest.getVersion

/-- The US is set and the version query times out: the request fails, and GET
names the US all the same. -/
theorem failedSet_reported :
    ∃ ops, ops = [setRegion usChannels.countryCode .success .timedOut] ∧
      (regionRun usConfig (usEnv .success .success) usCold ops).ret = .error .etimedout ∧
      morsemicroMgmtRegDomainGet usConfig false
        (regionRun usConfig (usEnv .success .success) usCold ops).state =
          ⟨usChannels.countryCode, []⟩ ∧
      ¬ ReportsLast usConfig (regionRun usConfig (usEnv .success .success) usCold ops) := by
  refine ⟨_, rfl, rfl, rfl, ?_⟩
  intro hrep
  have hok := (((hrep false).1 usChannels.countryCode (by decide)).mp rfl).2
  cases hok

end MmIot
