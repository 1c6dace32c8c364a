import MmIot.Proofs.Radio

/-! What connect and AP requests hand to mmwlan, in two runs. The arguments are built over
those of the request before: an open network keeps its passphrase, a shorter passphrase or SSID
the end of a longer one, and an unknown MFP value its PMF mode. -/

namespace MmIot

/-- A connect request that reaches `mmwlan_sta_enable` hands over `args`. -/
def StaHanded (cfg : Config) (p : ConnectReqParams) (s : State) (args : Credentials) : Prop :=
  ∃ status call, (morsemicroMgmtConnect cfg p status s).2.calls = call :: s.calls ∧
    call.request = .staEnable args

/-- An AP request that reaches `mmwlan_ap_enable` hands over `args`. -/
def ApHanded (cfg : Config) (p : ConnectReqParams) (s : State) (args : ApArgs) : Prop :=
  ∃ r call n bw, r.params = p ∧ (morsemicroMgmtApEnable cfg r s).2.calls = call :: s.calls ∧
    call.request = .apEnable args n bw

/-- Two AP requests hand over the same, given one region and one bandwidth setting;
`max_stas` is set on its own. -/
structure SameApArgs (s₁ s₂ : State) (a₁ a₂ : ApArgs) : Prop where
  credentials : a₁.toCredentials = a₂.toCredentials
  staStatusCb : a₁.staStatusCb = a₂.staStatusCb
  channel : s₁.data.channelList = s₂.data.channelList → s₁.data.ap.s1gBwMhz = s₂.data.ap.s1gBwMhz →
    (a₁.opClass, a₁.s1gChanNum, a₁.priBwMhz, a₁.pri1mhzChanIdx) =
      (a₂.opClass, a₂.s1gChanNum, a₂.priBwMhz, a₂.pri1mhzChanIdx)

/-- The passphrase of an SAE request. -/
def ConnectReqParams.pskOf (p : ConnectReqParams) : List UInt8 := p.saePassword.getD p.psk

/-- What earlier requests left agrees wherever this request does not say it anew: behind the
SSID and behind the passphrase of an SAE network, in the whole passphrase for an open one, and
in the PMF mode for an unknown MFP value. -/
@[mk_iff]
structure SameLeftovers (cfg : Config) (p : ConnectReqParams) (c₁ c₂ : Credentials) : Prop where
  ssid : c₁.ssid.drop (min cfg.ssidSize p.ssid.length) =
    c₂.ssid.drop (min cfg.ssidSize p.ssid.length)
  psk : p.security = .sae → c₁.passphrase.drop (min cfg.passphraseSize p.pskOf.length) =
    c₂.passphrase.drop (min cfg.passphraseSize p.pskOf.length)
  passphrase : p.security = .none →
    c₁.passphrase = c₂.passphrase ∧ c₁.passphraseLen = c₂.passphraseLen
  pmfMode : p.mfp = .invalid → c₁.pmfMode = c₂.pmfMode

/-! ### Building the arguments -/

theorem memcpy_eq_iff (d₁ d₂ src : List UInt8) (n : ℕ) :
    memcpy d₁ src n = memcpy d₂ src n ↔ d₁.drop n = d₂.drop n :=
  List.append_right_inj (src.take n)

/-- What two requests with one set of parameters store differs only by what they keep. -/
theorem storeCredentials_eq_iff (cfg : Config) {p : ConnectReqParams}
    (hsec : p.security ≠ .unsupported) (c₁ c₂ : Credentials) :
    (storeCredentials cfg p c₁).2 = (storeCredentials cfg p c₂).2 ↔
      SameLeftovers cfg p c₁ c₂ := by
  rw [sameLeftovers_iff]
  cases hs : p.security with
  | unsupported => exact absurd hs hsec
  | none =>
    cases hm : p.mfp <;>
      simp [storeCredentials, storeSecurity, storePmf, storeSsid, hs, hm, memcpy_eq_iff, and_assoc]
  | sae =>
    cases hm : p.mfp <;>
      simp [storeCredentials, storeSecurity, storePmf, storeSsid, hs, hm, memcpy_eq_iff,
        ConnectReqParams.pskOf]

/-! ### Handing them over -/

theorem staHanded_stored {cfg : Config} {p : ConnectReqParams} {s : State} {args : Credentials}
    (h : StaHanded cfg p s args) :
    p.security ≠ .unsupported ∧ args = (storeCredentials cfg p s.data.sta.staArgs).2 := by
  obtain ⟨status, call, hcalls, hreq⟩ := h
  have hsec := storeCredentials_ok cfg p s.data.sta.staArgs
  unfold morsemicroMgmtConnect at hcalls
  split at hcalls
  · exact absurd hcalls.symm (List.cons_ne_self _ _)
  split at hcalls
  · exact absurd hcalls.symm (List.cons_ne_self _ _)
  next stored hstored =>
    rw [hstored] at hsec ⊢
    cases hcalls
    cases hreq
    exact ⟨hsec.mp rfl, rfl⟩

/-- The arguments after an AP request, whatever it returns. -/
def ConnectReqParams.storedAp (cfg : Config) (p : ConnectReqParams) (d : MorsemicroData) : ApArgs :=
  let args := { d.ap.apArgs with
    toCredentials := (storeCredentials cfg p d.ap.apArgs.toCredentials).2 }
  if p.security = .unsupported then args
  else match apChannel cfg d p with
    | .error _ => args
    | .ok (_, c) => args.setChannel c

theorem storedAp_eq {cfg : Config} {p : ConnectReqParams} {d : MorsemicroData} {bw : UInt8}
    {c : OperatingChannel} (hsec : p.security ≠ .unsupported)
    (hc : apChannel cfg d p = .ok (bw, c)) :
    p.storedAp cfg d = { d.ap.apArgs with
      toCredentials := (storeCredentials cfg p d.ap.apArgs.toCredentials).2 }.setChannel c := by
  simp only [ConnectReqParams.storedAp, if_neg hsec, hc]

/-- An AP request ends before `mmwlan_ap_enable`, or hands over what it stored. -/
theorem apEnable_calls (cfg : Config) (r : ApEnable) (s : State) :
    (morsemicroMgmtApEnable cfg r s).2.calls = s.calls ∨
      r.params.security ≠ .unsupported ∧ ∃ bw c, apChannel cfg s.data r.params = .ok (bw, c) ∧
        (morsemicroMgmtApEnable cfg r s).2.calls =
          ⟨.apEnable (r.params.storedAp cfg s.data) r.params.channel bw, s.mmwlan.booted,
            s.data.channelList, s.mmwlan.channelList⟩ :: s.calls := by
  have hsec := storeCredentials_ok cfg r.params s.data.ap.apArgs.toCredentials
  unfold morsemicroMgmtApEnable ConnectReqParams.storedAp
  generalize storeCredentials cfg r.params s.data.ap.apArgs.toCredentials = stored at hsec ⊢
  obtain ⟨ret, cred⟩ := stored
  cases ret with
  | error e => exact .inl rfl
  | ok _ =>
    have hknown : r.params.security ≠ .unsupported := hsec.mp rfl
    rw [if_neg hknown]
    dsimp only
    rw [apChannel_congr]
    cases hc : apChannel cfg s.data r.params with
    | error e => exact .inl rfl
    | ok bc =>
      obtain ⟨bw, c⟩ := bc
      refine .inr ⟨hknown, bw, c, rfl, ?_⟩
      dsimp only
      cases mmwlanErrToErrno r.status with
      | error e => rfl
      | ok _ =>
        dsimp only
        split <;> rfl

/-- What an AP request hands over besides the credentials. -/
structure ApSent (cfg : Config) (p : ConnectReqParams) (s : State) (args : ApArgs) : Prop where
  security : p.security ≠ .unsupported
  credentials : args.toCredentials = (storeCredentials cfg p s.data.ap.apArgs.toCredentials).2
  staStatusCb : args.staStatusCb = true
  channel : ∃ bw, apChannel cfg s.data p =
    .ok (bw, ⟨args.opClass, args.s1gChanNum, args.pri1mhzChanIdx, args.priBwMhz⟩)

theorem apHanded_sent {cfg : Config} {p : ConnectReqParams} {s : State} {args : ApArgs}
    (h : ApHanded cfg p s args) : ApSent cfg p s args := by
  obtain ⟨r, call, n, bw, rfl, hcalls, hreq⟩ := h
  rcases apEnable_calls cfg r s with hnone | ⟨hsec, bw', c, hc, hcall⟩
  · exact absurd (hcalls.symm.trans hnone) (List.cons_ne_self _ _)
  · rw [hcall] at hcalls
    obtain ⟨rfl, -⟩ := List.cons.inj hcalls
    cases hreq
    rw [storedAp_eq hsec hc]
    exact ⟨hsec, rfl, rfl, _, hc⟩

/-- The channel of an AP request depends on the region and the bandwidth setting only. -/
theorem apChannel_eq {cfg : Config} {d₁ d₂ : MorsemicroData} (p : ConnectReqParams)
    (hlist : d₁.channelList = d₂.channelList) (hbw : d₁.ap.s1gBwMhz = d₂.ap.s1gBwMhz) :
    apChannel cfg d₁ p = apChannel cfg d₂ p := by
  simp only [apChannel, apBandwidth, hlist, hbw]

theorem ApSent.same_iff {cfg : Config} {p : ConnectReqParams} {s₁ s₂ : State} {a₁ a₂ : ApArgs}
    (h₁ : ApSent cfg p s₁ a₁) (h₂ : ApSent cfg p s₂ a₂) :
    SameApArgs s₁ s₂ a₁ a₂ ↔
      SameLeftovers cfg p s₁.data.ap.apArgs.toCredentials s₂.data.ap.apArgs.toCredentials := by
  rw [← storeCredentials_eq_iff cfg h₁.security, ← h₁.credentials, ← h₂.credentials]
  refine ⟨?_, ?_⟩
  · intro h
    exact h.credentials
  · intro h
    refine ⟨h, h₁.staStatusCb.trans h₂.staStatusCb.symm, ?_⟩
    intro hlist hbw
    obtain ⟨bw₁, hc₁⟩ := h₁.channel
    obtain ⟨bw₂, hc₂⟩ := h₂.channel
    rw [apChannel_eq p hlist hbw, hc₂] at hc₁
    simp_all

/-- In any two states, what a connect request hands over is the same, whole buffers included, if
and only if what earlier requests left agrees where it is kept; and so for an AP request. -/
theorem handed_same_iff_sameLeftovers (cfg : Config) (p : ConnectReqParams) (s₁ s₂ : State) :
    (∀ a₁ a₂, StaHanded cfg p s₁ a₁ → StaHanded cfg p s₂ a₂ →
      (a₁ = a₂ ↔ SameLeftovers cfg p s₁.data.sta.staArgs s₂.data.sta.staArgs)) ∧
    ∀ a₁ a₂, ApHanded cfg p s₁ a₁ → ApHanded cfg p s₂ a₂ →
      (SameApArgs s₁ s₂ a₁ a₂ ↔
        SameLeftovers cfg p s₁.data.ap.apArgs.toCredentials
          s₂.data.ap.apArgs.toCredentials) := by
  refine ⟨?_, ?_⟩
  · intro a₁ a₂ h₁ h₂
    obtain ⟨hsec, rfl⟩ := staHanded_stored h₁
    obtain ⟨-, rfl⟩ := staHanded_stored h₂
    exact storeCredentials_eq_iff cfg hsec _ _
  · intro a₁ a₂ h₁ h₂
    exact (apHanded_sent h₁).same_iff (apHanded_sent h₂)

/-! ### A home network, then an open one -/

def usStarted : State := (exec usConfig setUs usBoot).2

theorem usStarted_reach :
    Transition.Reach (Booted usConfig) Transition.anyStep (step usConfig) usStarted :=
  .of_schedule (.start usBoot_booted) [setUs] (Transition.anyStep_all _) rfl

def homeParams : ConnectReqParams where
  ssid := [0x61]
  security := .sae
  saePassword := some [0x70, 0x77]
  psk := []
  mfp := .required
  channel := 1
  bandwidth := .mhz2

def openParams : ConnectReqParams where
  ssid := [0x62]
  security := .none
  saePassword := none
  psk := []
  mfp := .invalid
  channel := 1
  bandwidth := .mhz2

/-- After a connection to the home network. -/
def usAfterHome : State := (exec usConfig (.connect homeParams .success) usStarted).2

theorem usAfterHome_reach :
    Transition.Reach (Booted usConfig) Transition.anyStep (step usConfig) usAfterHome :=
  .next usStarted_reach (a := .connect homeParams .success) trivial rfl

/-- Coming back home hands over the same, and so does an AP with the home credentials. -/
theorem handed_same_iff_sameLeftovers_home :
    (∃ a₁ a₂, StaHanded usConfig homeParams usStarted a₁ ∧
      StaHanded usConfig homeParams usAfterHome a₂ ∧ a₁ = a₂) ∧
    ∃ a₁ a₂, ApHanded usConfig homeParams usStarted a₁ ∧
      ApHanded usConfig homeParams usAfterHome a₂ ∧ SameApArgs usStarted usAfterHome a₁ a₂ := by
  obtain ⟨hsta, hap⟩ :=
    handed_same_iff_sameLeftovers usConfig homeParams usStarted usAfterHome
  refine ⟨?_, ?_⟩
  · have h₁ : StaHanded usConfig homeParams usStarted _ := ⟨.success, _, rfl, rfl⟩
    have h₂ : StaHanded usConfig homeParams usAfterHome _ := ⟨.success, _, rfl, rfl⟩
    exact ⟨_, _, h₁, h₂, (hsta _ _ h₁ h₂).mpr ⟨rfl, fun _ => rfl, nofun, nofun⟩⟩
  · have h₁ : ApHanded usConfig homeParams usStarted _ :=
      ⟨⟨homeParams, .success, .success, []⟩, _, 1, 2, rfl, rfl, rfl⟩
    have h₂ : ApHanded usConfig homeParams usAfterHome _ :=
      ⟨⟨homeParams, .success, .success, []⟩, _, 1, 2, rfl, rfl, rfl⟩
    exact ⟨_, _, h₁, h₂, (hap _ _ h₁ h₂).mpr ⟨rfl, fun _ => rfl, nofun, nofun⟩⟩

/-! ### Buffers that were zero -/

def zeroedConfig : Config :=
  { usConfig with staArgsInit := { usCredentials with
      ssid := List.replicate 32 0
      passphrase := List.replicate 100 0 } }

def zeroedBoot : State := boot zeroedConfig (usEnv .success .success) usCold

def zeroedStarted : State := (exec zeroedConfig setUs zeroedBoot).2

theorem zeroedStarted_reach :
    Transition.Reach (Booted zeroedConfig) Transition.anyStep (step zeroedConfig) zeroedStarted :=
  .of_schedule (.start ⟨usCold, usEnv .success .success, ⟨rfl, rfl, rfl, rfl, rfl⟩, rfl⟩) [setUs]
    (Transition.anyStep_all _) rfl

/-- The home network under a passphrase of eight bytes. -/
def longParams : ConnectReqParams :=
  { homeParams with saePassword := some [0x73, 0x65, 0x63, 0x72, 0x65, 0x74, 0x31, 0x32] }

def zeroedAfter (p : ConnectReqParams) : State :=
  (exec zeroedConfig (.connect p .success) zeroedStarted).2

theorem zeroedAfter_reach (p : ConnectReqParams) :
    Transition.Reach (Booted zeroedConfig) Transition.anyStep (step zeroedConfig)
      (zeroedAfter p) :=
  .next zeroedStarted_reach (a := .connect p .success) trivial rfl

/-- The open network is handed the passphrase and the PMF mode of the home network, and the
home network the end of its longer passphrase of before. -/
theorem leftovers_not_same :
    (∃ a₁ a₂, StaHanded zeroedConfig openParams zeroedStarted a₁ ∧
      StaHanded zeroedConfig openParams (zeroedAfter homeParams) a₂ ∧
      (a₁.passphraseLen, a₁.pmfMode) = (0, .disabled) ∧
      (a₂.passphrase.take 2, a₂.passphraseLen, a₂.pmfMode) = ([0x70, 0x77], 2, .required) ∧
      a₁ ≠ a₂) ∧
    (∃ a₁ a₂, StaHanded zeroedConfig homeParams zeroedStarted a₁ ∧
      StaHanded zeroedConfig homeParams (zeroedAfter longParams) a₂ ∧
      (a₁.passphrase.take 8, a₁.passphraseLen) = ([0x70, 0x77, 0, 0, 0, 0, 0, 0], 2) ∧
      (a₂.passphrase.take 8, a₂.passphraseLen) =
        ([0x70, 0x77, 0x63, 0x72, 0x65, 0x74, 0x31, 0x32], 2) ∧ a₁ ≠ a₂) ∧
    Transition.Reach (Booted zeroedConfig) Transition.anyStep (step zeroedConfig) zeroedStarted ∧
    ∀ p, Transition.Reach (Booted zeroedConfig) Transition.anyStep (step zeroedConfig)
      (zeroedAfter p) := by
  refine ⟨⟨_, _, ⟨.success, _, rfl, rfl⟩, ⟨.success, _, rfl, rfl⟩, rfl, rfl, ?_⟩,
    ⟨_, _, ⟨.success, _, rfl, rfl⟩, ⟨.success, _, rfl, rfl⟩, rfl, rfl, ?_⟩,
    zeroedStarted_reach, zeroedAfter_reach⟩
  · intro h
    exact absurd (congrArg Credentials.passphraseLen h) (by decide)
  · intro h
    exact absurd (congrArg (fun c => c.passphrase.take 8) h) (by decide)

end MmIot
