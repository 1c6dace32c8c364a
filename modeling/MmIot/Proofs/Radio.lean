import MmIot.Proofs.Driver
import MmIot.Proofs.Channel

/-! Whether the chip runs when a request is forwarded to it. A region switch that
fails after the shutdown keeps `mmwlan_state` initialized, and an AP request does
not look at it; a run that meets neither never addresses a stopped chip. -/

namespace MmIot

def StartBoots (cfg : Config) (env : StartEnv) (cc : Country) : Prop :=
  bcfRegDne cc cfg.bcfRegions = .ok () ∧ env.lookup cc ≠ none ∧ env.boot = .success

/-- The driver's own flag can be trusted, and so could it at every request so far. -/
def RadioSafe (s : State) : Prop :=
  (s.data.mmwlanState = .initialized → s.mmwlan.booted = true ∧ s.data.channelList ≠ none) ∧
    ∀ call ∈ s.calls, call.booted = true

/-- A region switch on a started driver boots the new region, and an AP request
that would be accepted finds the driver started. -/
def RadioGuard (cfg : Config) (s : State) : Op → Prop
  | .regDomainSet r => s.data.mmwlanState = .initialized → r.shutdown = .success →
      r.countryCode ≠ worldDomain → StartBoots cfg r.env r.countryCode
  | .apEnable r => cfg.apMode = true → ApRequestAccepted cfg s.data r.params →
      s.data.mmwlanState = .initialized
  | _ => True

structure RadioInv (c : Core) : Prop where
  booted : c.booted = true ↔ c.mmwlanState = .initialized
  channelList : c.mmwlanState = .initialized → c.channelList ≠ none
  calls : ∀ call ∈ c.calls, call.booted = true

theorem RadioInv.radioSafe {s : State} (h : RadioInv s.core) : RadioSafe s :=
  ⟨fun hinit => ⟨h.booted.mpr hinit, h.channelList hinit⟩, h.calls⟩

theorem RadioInv.forward {c : Core} (h : RadioInv c) (request : RadioRequest)
    (hinit : c.mmwlanState = .initialized) : RadioInv (c.forward request) := by
  refine ⟨h.booted, h.channelList, ?_⟩
  intro call hcall
  rcases List.mem_cons.mp hcall with rfl | hcall
  · exact h.booted.mpr hinit
  · exact h.calls call hcall

theorem StartCases.calls {cfg : Config} {env : StartEnv} {cc : Country} {c c' : Core}
    (h : StartCases cfg env cc c c') : c'.calls = c.calls := by
  cases h <;> rfl

theorem StartCases.boots {cfg : Config} {env : StartEnv} {cc : Country} {c c' : Core}
    (h : StartCases cfg env cc c c') (hboots : StartBoots cfg env cc) :
    c'.booted = true ∧ c'.mmwlanState = .initialized ∧ c'.channelList ≠ none := by
  obtain ⟨hbcf, hl, hb⟩ := hboots
  cases h with
  | notInBcf hno => exact absurd hbcf hno
  | notInRegdb _ hno => exact absurd hno hl
  | bootFailed _ _ _ hno => exact absurd hb hno
  | booted => exact ⟨rfl, rfl, nofun⟩

/-- Short of a boot a start changes neither the flag nor the chip. -/
theorem StartCases.kept {cfg : Config} {env : StartEnv} {cc : Country} {c c' : Core}
    (h : StartCases cfg env cc c c') (hno : ¬ StartBoots cfg env cc) :
    c'.booted = c.booted ∧ c'.mmwlanState = c.mmwlanState := by
  cases h with
  | notInBcf => exact ⟨rfl, rfl⟩
  | notInRegdb => exact ⟨rfl, rfl⟩
  | bootFailed => exact ⟨rfl, rfl⟩
  | booted hbcf l hl hb => exact absurd ⟨hbcf, by simp [hl], hb⟩ hno

/-- A start on a stopped chip either boots it or must find the flag down. -/
theorem StartCases.radioInv {cfg : Config} {env : StartEnv} {cc : Country} {c c' : Core}
    (h : StartCases cfg env cc c c') (hstopped : c.booted = false)
    (hcalls : ∀ call ∈ c.calls, call.booted = true)
    (hboots : c.mmwlanState = .initialized → StartBoots cfg env cc) : RadioInv c' := by
  have hcalls' : ∀ call ∈ c'.calls, call.booted = true := by
    rw [h.calls]
    exact hcalls
  by_cases hb : StartBoots cfg env cc
  · obtain ⟨hbooted, hstate, hlist⟩ := h.boots hb
    exact ⟨⟨fun _ => hstate, fun _ => hbooted⟩, fun _ => hlist, hcalls'⟩
  · obtain ⟨hbooted, hstate⟩ := h.kept hb
    have hdown : c'.mmwlanState ≠ .initialized := by
      intro hinit
      exact hb (hboots (hstate ▸ hinit))
    refine ⟨⟨fun hrun => ?_, fun hinit => absurd hinit hdown⟩, fun hinit => absurd hinit hdown, hcalls'⟩
    rw [hbooted, hstopped] at hrun
    cases hrun

theorem CoreStep.radioInv {cfg : Config} {s : State} {op : Op} {c : Core}
    (h : CoreStep cfg s op c) (hinv : RadioInv s.core) (hg : RadioGuard cfg s op) :
    RadioInv c := by
  cases h with
  | quiet => exact hinv
  | request _ r hinit _ => exact hinv.forward r hinit
  | apEnable r hop hap hsec bw c hc args =>
    subst hop
    exact hinv.forward _ (hg hap ⟨hsec, bw, c, hc⟩)
  | world => exact ⟨⟨nofun, nofun⟩, nofun, hinv.calls⟩
  | region r hop hsd hcc c hc =>
    subst hop
    exact hc.radioInv rfl hinv.calls fun hinit => hg hinit hsd hcc

/-- A step outside the guard leaves a state that is not safe. -/
theorem CoreStep.radioGuard {cfg : Config} {s t : State} {op : Op}
    (h : CoreStep cfg s op t.core) (hinv : RadioInv s.core) (hsafe : RadioSafe t) :
    RadioGuard cfg s op := by
  generalize hcore : t.core = c at h
  cases h with
  | quiet hop | request hop =>
    cases op with
    | regDomainSet r => exact fun _ hsd => absurd hsd hop
    | apEnable r => exact fun hap hacc => absurd hacc (hop hap)
    | _ => trivial
  | apEnable r hop hap hsec bw c hc args =>
    subst hop
    intro _ _
    have hcalls := hsafe.2
    rw [show t.calls = _ from congrArg Core.calls hcore] at hcalls
    exact hinv.booted.mp (hcalls _ List.mem_cons_self)
  | world r hop hsd hcc =>
    subst hop
    exact fun _ _ hne => absurd hcc hne
  | region r hop hsd hcc c hc =>
    subst hop
    intro hinit _ _
    by_contra hno
    obtain ⟨hbooted, hstate⟩ := hc.kept hno
    have hrunning := (hsafe.1 ((congrArg Core.mmwlanState hcore).trans (hstate.trans hinit))).1
    have hstopped : t.mmwlan.booted = false := (congrArg Core.booted hcore).trans hbooted
    simp [hstopped] at hrunning

theorem Booted.radioInv {cfg : Config} {s : State} (h : Booted cfg s) : RadioInv s.core := by
  obtain ⟨env, hstart⟩ := h.cases
  apply hstart.radioInv rfl
  · rw [Core.cold_calls]
    simp
  · intro hinit
    cases hinit

theorem radioInv_of_reach {cfg : Config} {s : State}
    (h : Transition.Reach (Booted cfg) (RadioGuard cfg) (step cfg) s) : RadioInv s.core := by
  apply h.invariant (fun _ hb => hb.radioInv)
  intro s op s' hinv hg hstep
  cases hstep
  exact (exec_cases cfg op s).radioInv hinv hg

/-- A run within the guard is safe throughout, and the guard is exact: the first
step outside it is the first that is not safe. -/
theorem radioSafe_iff_radioGuard (cfg : Config) (s : State)
    (h : Transition.Reach (Booted cfg) (RadioGuard cfg) (step cfg) s) :
    RadioSafe s ∧ ∀ op, RadioSafe (exec cfg op s).2 ↔ RadioGuard cfg s op := by
  have hinv := radioInv_of_reach h
  refine ⟨hinv.radioSafe, ?_⟩
  intro op
  have hstep := exec_cases cfg op s
  exact ⟨hstep.radioGuard hinv, fun hg => (hstep.radioInv hinv hg).radioSafe⟩

/-! ### A driver with one region -/

def usCredentials : Credentials where
  ssid := []
  ssidLen := 0
  passphrase := []
  passphraseLen := 0
  securityType := .open
  pmfMode := .disabled

def usApArgs : ApArgs where
  toCredentials := usCredentials
  opClass := 0
  s1gChanNum := 0
  priBwMhz := 0
  pri1mhzChanIdx := 0
  maxStas := 0
  staStatusCb := false

/-- An AP build with no region compiled in and the US in its BCF. -/
def usConfig : Config where
  apMode := true
  powersave := false
  bandwidthSource := .patched
  region := worldDomain
  bcfRegions := [0x55, 0x53]
  ssidSize := 32
  passphraseSize := 100
  staArgsInit := usCredentials
  apArgsInit := usApArgs
  ethMaxFrameSize := 1514
  maxRegChanNum := 42

def usVifData : VifData where
  status := .disconnected
  macAddr := []
  scanPrevState := .disconnected
  scanCb := none
  staArgs := usCredentials
  apArgs := usApArgs
  s1gBwMhz := 0

def usCold : State where
  data := { channelList := none, mmwlanState := .uninitialized,
            version := ⟨"", ""⟩, sta := usVifData, ap := usVifData }
  mmwlan := { booted := false, channelList := none, rxCb := fun _ => false,
              stateCb := fun _ => false }
  staIf := ⟨false, false, false⟩
  apIf := ⟨false, false, false⟩
  calls := []
  events := []

/-- A start whose boot and version query end as given. -/
def usEnv (boot getVersion : MmwlanStatus) : StartEnv where
  lookup := fun cc => if cc = usChannels.countryCode then some usChannels else none
  boot := boot
  setPowerSaveMode := .success
  getVifMacAddr := .success
  macAddr := [0x0C, 0xBF, 0x74, 0, 0, 1]
  registerStaRx := .success
  registerStaState := .success
  registerApRx := .success
  registerApState := .success
  getVersion := getVersion
  version := ⟨"2.9.3", "1.15.3"⟩

def usBoot : State := boot usConfig (usEnv .success .success) usCold

theorem usBoot_booted : Booted usConfig usBoot :=
  ⟨usCold, usEnv .success .success, ⟨rfl, rfl, rfl, rfl, rfl⟩, rfl⟩

/-- A region request whose start ends as given. -/
def setRegion (countryCode : Country) (boot getVersion : MmwlanStatus) : Op :=
  .regDomainSet ⟨countryCode, .success, usEnv boot getVersion⟩

def setUs : Op := setRegion usChannels.countryCode .success .success

theorem radioSafe_iff_radioGuard_us :
    RadioSafe (exec usConfig setUs usBoot).2 ∧
      ¬ RadioSafe (exec usConfig (setRegion ⟨0x4A, 0x50⟩ .success .success)
        (exec usConfig setUs usBoot).2).2 := by
  have hreach : Transition.Reach (Booted usConfig) (RadioGuard usConfig) (step usConfig)
      (exec usConfig setUs usBoot).2 := by
    refine .next (.start usBoot_booted) ?_ rfl
    intro hinit
    cases hinit
  obtain ⟨hsafe, hiff⟩ := radioSafe_iff_radioGuard usConfig _ hreach
  refine ⟨hsafe, ?_⟩
  intro hsafe'
  have hboots := (hiff _).mp hsafe' rfl rfl (by decide)
  simp [StartBoots, bcfRegDne, usConfig] at hboots

/-- Switching from the US to a region that the BCF lacks fails after the chip
was shut down, and leaves the driver initialized; the scan that follows is
forwarded to the stopped chip. -/
theorem failedSwitch_scan_not_radioSafe :
    ∃ s, Transition.Reach (Booted usConfig) Transition.anyStep (step usConfig) s ∧
      s.data.mmwlanState = .initialized ∧ s.data.channelList = none ∧
      s.mmwlan.booted = false ∧ (∃ call ∈ s.calls, call.booted = false) ∧ ¬ RadioSafe s := by
  refine ⟨_, .of_schedule (.start usBoot_booted)
    [setUs, setRegion ⟨0x4A, 0x50⟩ .success .success, .scan 0 .success]
    (Transition.anyStep_all _) rfl, rfl, rfl, rfl, ?_, ?_⟩
  · exact ⟨_, List.mem_cons_self, rfl⟩
  · intro hsafe
    have hrunning := (hsafe.1 rfl).1
    cases hrunning

end MmIot
