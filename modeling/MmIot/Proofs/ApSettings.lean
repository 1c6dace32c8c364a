import MmIot.Lib.LastWrite
import MmIot.Proofs.Refused
import MmIot.Proofs.RegDomain

/-! The settings that an AP request uses. The station limit is staged inside the AP arguments,
which a start of the driver initialises anew; the bandwidth stands beside them and is kept. -/

namespace MmIot

/-- What is staged for the next AP request. -/
structure ApSettings where
  maxStas : ℕ
  s1gBwMhz : UInt8

@[simps] def State.apSettings (s : State) : ApSettings where
  maxStas := s.data.ap.apArgs.maxStas
  s1gBwMhz := s.data.ap.s1gBwMhz

/-- The station limit that an operation carries. -/
def Op.maxNumSta : Op → Option ℕ
  | .apConfigParams maxNumSta => maxNumSta
  | _ => none

/-- The bandwidth that an operation sets. -/
def Op.acceptedBandwidth : Op → Option UInt8
  | .s1gBandwidth [bwMhz] =>
    if bwMhz ≠ 1 ∧ bwMhz ≠ 2 ∧ bwMhz ≠ 4 ∧ bwMhz ≠ 8 then none else some bwMhz
  | _ => none

/-- The start gets as far as the AP arguments. -/
structure ReachesApArgs (cfg : Config) (env : StartEnv) (cc : Country) : Prop where
  stores : StartStores cfg env cc
  boot : env.boot = .success
  configured : StaConfigured cfg env

/-- A region request whose start gets as far as the AP arguments. -/
def ResetsApArgs (cfg : Config) : Op → Prop
  | .regDomainSet r =>
    r.shutdown = .success ∧ r.countryCode ≠ worldDomain ∧ ReachesApArgs cfg r.env r.countryCode
  | _ => False

/-- The state after the operations `ops`, in order. -/
def State.after (cfg : Config) (s : State) (ops : List Op) : State :=
  ops.foldl (fun s op => (exec cfg op s).2) s

/-- An AP request that reaches `mmwlan_ap_enable` uses the arguments `args`, at bandwidth `bw`. -/
def ApUses (cfg : Config) (r : ApEnable) (s : State) (args : ApArgs) (bw : UInt8) : Prop :=
  ∃ call, (exec cfg (.apEnable r) s).2.calls = call :: s.calls ∧
    call.request = .apEnable args r.params.channel bw

/-- What is used is what was set last. -/
structure SetLast (cfg : Config) (ops : List Op) (args : ApArgs) (bw : UInt8) : Prop where
  maxStas : args.maxStas = (LastWrite.last Op.maxNumSta ops).getD cfg.apArgsInit.maxStas
  bandwidth : cfg.bandwidthSource = .unpatchedWorkarounds →
    LastWrite.last Op.acceptedBandwidth ops = some bw

/-- No start gets as far as the AP arguments after a limit was set last, unless that is the
default; and where none was set, one does, unless they hold the default from the first. -/
structure LimitKept (cfg : Config) (env : StartEnv) (s : State) (ops : List Op) : Prop where
  set : ∀ n, LastWrite.last Op.maxNumSta ops = some n →
    (∃ op ∈ LastWrite.since Op.maxNumSta ops, ResetsApArgs cfg op) → n = cfg.apArgsInit.maxStas
  unset : LastWrite.last Op.maxNumSta ops = none →
    (∃ op ∈ ops, ResetsApArgs cfg op) ∨ ReachesApArgs cfg env cfg.region ∨
      s.data.ap.apArgs.maxStas = cfg.apArgsInit.maxStas

/-! ### A start -/

theorem wlanStartAp_ap (cfg : Config) (env : StartEnv) (s : State) :
    (wlanStartAp cfg env s).2.data.ap =
      if cfg.apMode then { s.data.ap with apArgs := cfg.apArgsInit } else s.data.ap := by
  unfold wlanStartAp
  split
  · cases mmwlanErrToErrno env.registerApRx with
    | error e => rfl
    | ok _ => cases mmwlanErrToErrno env.registerApState <;> rfl
  · rfl

theorem wlanStartFinish_ap (cfg : Config) (env : StartEnv) (s : State) :
    (wlanStartFinish cfg env s).2.data.ap = s.data.ap := by
  unfold wlanStartFinish
  cases mmwlanErrToErrno env.getVersion <;> rfl

theorem wlanStartConfigure_ap {cfg : Config} (hap : cfg.apMode = true) (env : StartEnv) (s : State) :
    (StaConfigured cfg env →
      (wlanStartConfigure cfg env s).2.data.ap = { s.data.ap with apArgs := cfg.apArgsInit }) ∧
    (¬ StaConfigured cfg env → (wlanStartConfigure cfg env s).2.data.ap = s.data.ap) := by
  refine ⟨?_, ?_⟩
  · intro h
    have hargs := wlanStartAp_ap cfg env (s.configureSta env)
    rw [if_pos hap] at hargs
    rw [wlanStartConfigure_done h]
    apply wlanStartApFinish_snd (fun t => t.data.ap = _) hargs
    intro t ht
    exact (wlanStartFinish_ap cfg env t).trans ht
  · intro h
    obtain ⟨e, t, heq, -, hkept⟩ := wlanStartConfigure_failed h s
    rw [heq]
    exact hkept

/-- In an AP build a start initialises the AP arguments, or leaves the AP alone. -/
theorem wlanStart_ap {cfg : Config} (hap : cfg.apMode = true) (env : StartEnv) (cc : Country)
    (s : State) :
    (ReachesApArgs cfg env cc →
      (morsemicroWlanStart cfg env cc s).2.data.ap = { s.data.ap with apArgs := cfg.apArgsInit }) ∧
    (¬ ReachesApArgs cfg env cc → (morsemicroWlanStart cfg env cc s).2.data.ap = s.data.ap) := by
  unfold morsemicroWlanStart wlanStartBoot
  cases hbcf : bcfRegDne cc cfg.bcfRegions with
  | error e =>
    refine ⟨fun h => ?_, fun _ => rfl⟩
    cases hbcf.symm.trans h.stores.1
  | ok _ =>
    cases hl : env.lookup cc with
    | none => exact ⟨fun h => absurd hl h.stores.2, fun _ => rfl⟩
    | some l =>
      cases hb : mmwlanErrToErrno env.boot with
      | error e => exact ⟨fun h => absurd h.boot (mmwlanErrToErrno_error hb), fun _ => rfl⟩
      | ok _ =>
        obtain ⟨hreset, hkept⟩ := wlanStartConfigure_ap hap env ((s.setChannelList l).booted)
        refine ⟨fun h => hreset h.configured, fun hno => hkept fun hcfg => hno ?_⟩
        exact ⟨⟨hbcf, by simp [hl]⟩, mmwlanErrToErrno_ok.mp hb, hcfg⟩

/-! ### One operation -/

/-- What an operation can do to the settings of an AP build. -/
inductive SettingsCases (cfg : Config) (op : Op) (a a' : ApSettings) : Prop
  | kept (hmax : op.maxNumSta = none)
      (hbw : cfg.bandwidthSource = .unpatchedWorkarounds → op.acceptedBandwidth = none)
      (hreset : ¬ ResetsApArgs cfg op) (h : a' = a)
  | configured (n : ℕ) (hop : op = .apConfigParams (some n)) (h : a' = { a with maxStas := n })
  | bandwidth (bwMhz : UInt8) (request : List UInt8) (hop : op = .s1gBandwidth request)
      (hbw : op.acceptedBandwidth = some bwMhz) (h : a' = { a with s1gBwMhz := bwMhz })
  | reset (hreset : ResetsApArgs cfg op) (h : a' = { a with maxStas := cfg.apArgsInit.maxStas })

theorem apSettings_congr {s t : State} (h : t.data = s.data) : t.apSettings = s.apSettings := by
  rw [State.apSettings, State.apSettings, h]

theorem scan_apSettings (cb : ℕ) (status : MmwlanStatus) (s : State) :
    (morsemicroMgmtScan cb status s).2.apSettings = s.apSettings := by
  unfold morsemicroMgmtScan
  split
  · rfl
  · cases mmwlanErrToErrno status <;> rfl

theorem connect_apSettings (cfg : Config) (p : ConnectReqParams) (status : MmwlanStatus)
    (s : State) : (morsemicroMgmtConnect cfg p status s).2.apSettings = s.apSettings := by
  unfold State.apSettings
  rw [connect_data]
  split <;> rfl

theorem vifState_apSettings (vif : Vif) (link : LinkState) (s : State) :
    (mmnetifVifState vif link s).apSettings = s.apSettings := by
  cases vif with
  | ap => rfl
  | sta =>
    cases link with
    | down =>
      simp only [mmnetifVifState]
      split <;> rfl
    | up => rfl

theorem storedAp_maxStas (cfg : Config) (p : ConnectReqParams) (d : MorsemicroData) :
    (p.storedAp cfg d).maxStas = d.ap.apArgs.maxStas := by
  unfold ConnectReqParams.storedAp
  split
  · rfl
  · split <;> rfl

theorem apEnable_apSettings (cfg : Config) (r : ApEnable) (s : State) :
    (morsemicroMgmtApEnable cfg r s).2.apSettings = s.apSettings := by
  obtain ⟨macAddr, hdata, -⟩ := apEnable_data cfg r s
  unfold State.apSettings
  rw [hdata]
  dsimp only
  rw [storedAp_maxStas]

theorem regDomainSet_settings {cfg : Config} (hap : cfg.apMode = true) (r : RegDomainSet)
    (s : State) :
    SettingsCases cfg (.regDomainSet r) s.apSettings
      (morsemicroMgmtRegDomainSet cfg r s).2.apSettings := by
  unfold morsemicroMgmtRegDomainSet
  cases hsd : mmwlanErrToErrno r.shutdown with
  | error e => exact .kept rfl (fun _ => rfl) (fun h => mmwlanErrToErrno_error hsd h.1) rfl
  | ok _ =>
    have hsd : r.shutdown = .success := mmwlanErrToErrno_ok.mp hsd
    -- taking the interface down is no part of the settings
    suffices h : SettingsCases cfg (.regDomainSet r) s.apSettings
        (switchRegion cfg r s).2.apSettings by
      dsimp only
      split <;> exact h
    unfold switchRegion
    by_cases hcc : r.countryCode = worldDomain
    · simp only [hcc, if_true]
      refine .kept rfl (fun _ => rfl) (fun h => h.2.1 hcc) ?_
      split <;> rfl
    · simp only [hcc, if_false]
      obtain ⟨hreset, hkept⟩ := wlanStart_ap hap r.env r.countryCode
        { s with mmwlan.booted := false, data.channelList := none }
      by_cases hr : ReachesApArgs cfg r.env r.countryCode
      · refine .reset ⟨hsd, hcc, hr⟩ ?_
        unfold State.apSettings
        rw [hreset hr]
      · refine .kept rfl (fun _ => rfl) (fun h => hr h.2.2) ?_
        unfold State.apSettings
        rw [hkept hr]

theorem s1gBandwidth_settings {cfg : Config} (hap : cfg.apMode = true) (request : List UInt8)
    (s : State) :
    SettingsCases cfg (.s1gBandwidth request) s.apSettings
      (exec cfg (.s1gBandwidth request) s).2.apSettings := by
  simp only [exec, unlessBuilt, hap, Bool.true_and, decide_eq_true_eq]
  by_cases hsource : cfg.bandwidthSource = .unpatchedWorkarounds
  · rw [if_pos hsource]
    unfold morsemicroMgmtS1gBandwidth
    split
    next bwMhz =>
      by_cases hbad : bwMhz ≠ 1 ∧ bwMhz ≠ 2 ∧ bwMhz ≠ 4 ∧ bwMhz ≠ 8
      · rw [if_pos hbad]
        exact .kept rfl (fun _ => if_pos hbad) id rfl
      · rw [if_neg hbad]
        exact .bandwidth bwMhz _ rfl (if_neg hbad) rfl
    next hno =>
      refine .kept rfl (fun _ => ?_) id rfl
      unfold Op.acceptedBandwidth
      split
      next bwMhz heq =>
        cases heq
        exact absurd rfl (hno bwMhz)
      next => rfl
  · rw [if_neg hsource]
    exact .kept rfl (fun h => absurd h hsource) id rfl

theorem exec_settings {cfg : Config} (hap : cfg.apMode = true) (op : Op) (s : State) :
    SettingsCases cfg op s.apSettings (exec cfg op s).2.apSettings := by
  cases op with
  | regDomainSet r => exact regDomainSet_settings hap r s
  | scan cb status => exact .kept rfl (fun _ => rfl) id (scan_apSettings cb status s)
  | scanComplete success => exact .kept rfl (fun _ => rfl) id rfl
  | connect p status => exact .kept rfl (fun _ => rfl) id (connect_apSettings cfg p status s)
  | disconnect status => exact .kept rfl (fun _ => rfl) id (apSettings_congr (disconnect_data status s))
  | vifState vif link => exact .kept rfl (fun _ => rfl) id (vifState_apSettings vif link s)
  | apEnable r =>
    simp only [exec, unlessBuilt, hap, if_true]
    exact .kept rfl (fun _ => rfl) id (apEnable_apSettings cfg r s)
  | apDisable status =>
    simp only [exec, unlessBuilt, hap, if_true]
    exact .kept rfl (fun _ => rfl) id (apSettings_congr (apDisable_data status s))
  | apConfigParams maxNumSta =>
    simp only [exec, unlessBuilt, hap, if_true]
    cases maxNumSta with
    | none => exact .kept rfl (fun _ => rfl) id rfl
    | some n => exact .configured n rfl rfl
  | s1gBandwidth request => exact s1gBandwidth_settings hap request s
  | tx env => exact .kept rfl (fun _ => rfl) id (apSettings_congr (mmnetifTxOn_data .sta cfg env s))
  | txAp env =>
    simp only [exec, unlessBuilt, hap, if_true]
    exact .kept rfl (fun _ => rfl) id (apSettings_congr (mmnetifTxOn_data .ap cfg env s))

/-! ### Runs -/

theorem boot_ap {cfg : Config} (hap : cfg.apMode = true) (env : StartEnv) (s : State) :
    (ReachesApArgs cfg env cfg.region → (boot cfg env s).apSettings =
      { s.apSettings with maxStas := cfg.apArgsInit.maxStas }) ∧
    (¬ ReachesApArgs cfg env cfg.region → (boot cfg env s).apSettings = s.apSettings) := by
  obtain ⟨hreset, hkept⟩ := wlanStart_ap hap env cfg.region
    { s with data.sta.status := .interfaceDisabled, data.mmwlanState := .uninitialized }
  unfold boot morsemicroApIfaceInit morsemicroIfaceInit State.apSettings
  rw [if_pos hap]
  dsimp only
  refine ⟨?_, ?_⟩
  · intro h
    rw [hreset h]
  · intro h
    rw [hkept h]

theorem apChannel_bandwidth {cfg : Config} {d : MorsemicroData} {p : ConnectReqParams}
    {bw : UInt8} {c : OperatingChannel} (h : apChannel cfg d p = .ok (bw, c)) :
    apBandwidth cfg d p = .ok bw := by
  unfold apChannel at h
  split at h
  · cases h
  next bw' hbw =>
    split at h
    · cases h
    · split at h
      · cases h
        exact hbw
      · cases h

theorem apUses_settings {cfg : Config} {r : ApEnable} {s : State} {args : ApArgs} {bw : UInt8}
    (h : ApUses cfg r s args bw) :
    cfg.apMode = true ∧ args.maxStas = s.apSettings.maxStas ∧
      (cfg.bandwidthSource = .unpatchedWorkarounds →
        bw = s.apSettings.s1gBwMhz ∧ s.apSettings.s1gBwMhz ≠ 0) := by
  obtain ⟨call, hcalls, hreq⟩ := h
  by_cases hap : cfg.apMode = true
  · rw [show exec cfg (.apEnable r) s = morsemicroMgmtApEnable cfg r s by
      simp [exec, unlessBuilt, hap]] at hcalls
    rcases apEnable_calls cfg r s with hnone | ⟨hsec, bw', c, hc, hcall⟩
    · exact absurd (hcalls.symm.trans hnone) (List.cons_ne_self _ _)
    · rw [hcall] at hcalls
      obtain ⟨rfl, -⟩ := List.cons.inj hcalls
      cases hreq
      refine ⟨hap, storedAp_maxStas cfg r.params s.data, ?_⟩
      intro hsource
      have hbw := apChannel_bandwidth hc
      simp only [apBandwidth, hsource] at hbw
      split at hbw
      · cases hbw
      next hne =>
        cases hbw
        exact ⟨rfl, hne⟩
  · rw [show exec cfg (.apEnable r) s = (.error .enotsup, s) by
      simp [exec, unlessBuilt, hap]] at hcalls
    exact absurd hcalls.symm (List.cons_ne_self _ _)

theorem ResetsApArgs.sets_none {cfg : Config} {op : Op} (h : ResetsApArgs cfg op) :
    op.maxNumSta = none ∧ op.acceptedBandwidth = none := by
  cases op with
  | regDomainSet r => exact ⟨rfl, rfl⟩
  | _ => cases h

theorem exec_maxStas_set {cfg : Config} (hap : cfg.apMode = true) (s : State) (op : Op) (n : ℕ)
    (hn : op.maxNumSta = some n) : (exec cfg op s).2.apSettings.maxStas = n := by
  rcases exec_settings hap op s with
    ⟨hmax, -, -, -⟩ | ⟨n', rfl, h⟩ | ⟨bw, request, rfl, -, -⟩ | ⟨hreset, -⟩
  · cases hmax.symm.trans hn
  · cases hn
    rw [h]
  · cases hn
  · cases hreset.sets_none.1.symm.trans hn

theorem exec_maxStas_reset {cfg : Config} (hap : cfg.apMode = true) (s : State) (op : Op)
    (_ : op.maxNumSta = none) (hr : ResetsApArgs cfg op) :
    (exec cfg op s).2.apSettings.maxStas = cfg.apArgsInit.maxStas := by
  rcases exec_settings hap op s with
    ⟨-, -, hno, -⟩ | ⟨n, rfl, -⟩ | ⟨bw, request, rfl, -, -⟩ | ⟨-, h⟩
  · exact absurd hr hno
  · cases hr
  · cases hr
  · rw [h]

theorem exec_maxStas_kept {cfg : Config} (hap : cfg.apMode = true) (s : State) (op : Op)
    (hnone : op.maxNumSta = none) (hr : ¬ ResetsApArgs cfg op) :
    (exec cfg op s).2.apSettings.maxStas = s.apSettings.maxStas := by
  rcases exec_settings hap op s with
    ⟨-, -, -, h⟩ | ⟨n, rfl, -⟩ | ⟨bw, request, rfl, -, h⟩ | ⟨hreset, -⟩
  · rw [h]
  · cases hnone
  · rw [h]
  · exact absurd hreset hr

theorem after_maxStas {cfg : Config} (hap : cfg.apMode = true) (env : StartEnv) (s : State)
    (ops : List Op) :
    ((boot cfg env s).after cfg ops).apSettings.maxStas =
        (LastWrite.last Op.maxNumSta ops).getD cfg.apArgsInit.maxStas ↔
      LimitKept cfg env s ops := by
  have hboot : (boot cfg env s).apSettings.maxStas = cfg.apArgsInit.maxStas ↔
      ReachesApArgs cfg env cfg.region ∨ s.data.ap.apArgs.maxStas = cfg.apArgsInit.maxStas := by
    obtain ⟨hreset, hkept⟩ := boot_ap hap env s
    by_cases hr : ReachesApArgs cfg env cfg.region
    · simp [hreset hr, hr]
    · simp [hkept hr, hr]
  have hrun := LastWrite.read_foldl_iff Op.maxNumSta (fun s op => (exec cfg op s).2)
    (fun s => s.apSettings.maxStas) (exec_maxStas_set hap) (exec_maxStas_reset hap)
    (exec_maxStas_kept hap) (boot cfg env s) ops
  unfold State.after
  rw [hrun, hboot]
  exact ⟨fun h => ⟨h.1, h.2⟩, fun h => ⟨h.set, h.unset⟩⟩

theorem after_s1gBwMhz {cfg : Config} (hap : cfg.apMode = true)
    (hsource : cfg.bandwidthSource = .unpatchedWorkarounds) (s : State) (ops : List Op) :
    (s.after cfg ops).apSettings.s1gBwMhz =
      (LastWrite.last Op.acceptedBandwidth ops).getD s.apSettings.s1gBwMhz := by
  refine LastWrite.read_foldl Op.acceptedBandwidth (fun s op => (exec cfg op s).2)
    (fun s => s.apSettings.s1gBwMhz) ?_ s ops
  intro s op
  rcases exec_settings hap op s with
    ⟨-, hbw, -, h⟩ | ⟨n, rfl, h⟩ | ⟨bw, request, -, hbw, h⟩ | ⟨hreset, h⟩
  · rw [h, hbw hsource]
    rfl
  · rw [h]
    rfl
  · rw [h, hbw]
    rfl
  · rw [h, hreset.sets_none.2]
    rfl

/-- After any run from interface initialisation on, an AP request uses the station limit and
the bandwidth set last if and only if no start came between that limit and the request. -/
theorem setLast_iff_limitKept (cfg : Config) (env : StartEnv) (s : State)
    (hbw : s.data.ap.s1gBwMhz = 0) (ops : List Op) (r : ApEnable) (args : ApArgs) (bw : UInt8)
    (h : ApUses cfg r ((boot cfg env s).after cfg ops) args bw) :
    SetLast cfg ops args bw ↔ LimitKept cfg env s ops := by
  obtain ⟨hap, hmax, hbandwidth⟩ := apUses_settings h
  rw [← after_maxStas hap env s ops, ← hmax]
  refine ⟨?_, ?_⟩
  · intro hset
    exact hset.maxStas
  · intro hmaxStas
    refine ⟨hmaxStas, ?_⟩
    intro hsource
    obtain ⟨hused, hne⟩ := hbandwidth hsource
    have hboot : (boot cfg env s).apSettings.s1gBwMhz = 0 := by
      obtain ⟨hreset, hkept⟩ := boot_ap hap env s
      by_cases hr : ReachesApArgs cfg env cfg.region
      · rw [hreset hr]
        exact hbw
      · rw [hkept hr]
        exact hbw
    rw [after_s1gBwMhz hap hsource, hboot] at hused hne
    cases hlast : LastWrite.last Op.acceptedBandwidth ops with
    | none => simp [hlast] at hne
    | some b => rw [hused, hlast, Option.getD_some]

/-! ### Configured before and after the region is chosen -/

/-- The US driver in a build where the bandwidth is a request of its own. -/
def usUnpatched : Config := { usConfig with bandwidthSource := .unpatchedWorkarounds }

def homeAp : ApEnable := ⟨homeParams, .success, .success, []⟩

theorem setLast_iff_limitKept_after :
    ∃ args, ApUses usUnpatched homeAp ((boot usUnpatched (usEnv .success .success) usCold).after
        usUnpatched [setUs, .apConfigParams (some 4), .s1gBandwidth [2]]) args 2 ∧
      args.maxStas = 4 ∧
      SetLast usUnpatched [setUs, .apConfigParams (some 4), .s1gBandwidth [2]] args 2 := by
  have huses : ApUses usUnpatched homeAp ((boot usUnpatched (usEnv .success .success) usCold).after
      usUnpatched [setUs, .apConfigParams (some 4), .s1gBandwidth [2]]) _ 2 := ⟨_, rfl, rfl⟩
  refine ⟨_, huses, rfl, ?_⟩
  refine (setLast_iff_limitKept usUnpatched _ usCold rfl _ homeAp _ 2 huses).mpr ⟨?_, ?_⟩
  · rintro n - ⟨op, hop, hreset⟩
    cases List.mem_singleton.mp hop
    cases hreset
  · intro hnone
    cases hnone

/-- Configure, choose the region, enable: the limit of 4 is gone. -/
theorem configuredFirst_not_setLast :
    ∃ args, ApUses usUnpatched homeAp ((boot usUnpatched (usEnv .success .success) usCold).after
        usUnpatched [.apConfigParams (some 4), .s1gBandwidth [2], setUs]) args 2 ∧
      args.maxStas = usUnpatched.apArgsInit.maxStas ∧
      ¬ SetLast usUnpatched [.apConfigParams (some 4), .s1gBandwidth [2], setUs] args 2 := by
  refine ⟨_, ⟨_, rfl, rfl⟩, rfl, ?_⟩
  intro h
  cases h.maxStas

end MmIot
