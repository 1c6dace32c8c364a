import MmIot.Proofs.RegDomain

/-! What a start leaves behind. The list is stored before the boot and the driver marked
initialized right after it, and no exit takes either back, so a start that fails leaves the
driver as it was exactly when it fails before the list. -/

namespace MmIot

/-- The driver as interface initialisation or a `00` request leaves it. -/
structure Unstarted (s : State) : Prop where
  mmwlanState : s.data.mmwlanState = .uninitialized
  channelList : s.data.channelList = none
  status : s.data.sta.status = .interfaceDisabled
  isUp : s.staIf.isUp = false

/-- The driver after a start on the list `l`. -/
structure Started (cfg : Config) (l : ChannelList) (s : State) : Prop where
  mmwlanState : s.data.mmwlanState = .initialized
  channelList : s.data.channelList = some l
  status : s.data.sta.status = .inactive
  staCbs : s.mmwlan.rxCb .sta = true ∧ s.mmwlan.stateCb .sta = true
  apCbs : cfg.apMode = true → s.mmwlan.rxCb .ap = true ∧ s.mmwlan.stateCb .ap = true

/-- A start either leaves the driver started or leaves it not started. -/
structure StartAtomic (cfg : Config) (env : StartEnv) (cc : Country) (s : State) : Prop where
  failed : (morsemicroWlanStart cfg env cc s).1 ≠ .ok () →
    Unstarted (morsemicroWlanStart cfg env cc s).2
  succeeded : (morsemicroWlanStart cfg env cc s).1 = .ok () →
    ∃ l, env.lookup cc = some l ∧ Started cfg l (morsemicroWlanStart cfg env cc s).2

/-! ### The exits -/

theorem wlanStart_notStored {cfg : Config} {env : StartEnv} {cc : Country} {s : State}
    (h : Unstarted s) (hno : ¬ StartStores cfg env cc) :
    Unstarted (morsemicroWlanStart cfg env cc s).2 := by
  unfold StartStores at hno
  unfold morsemicroWlanStart wlanStartBoot
  cases hbcf : bcfRegDne cc cfg.bcfRegions with
  | error e => exact ⟨h.mmwlanState, rfl, h.status, h.isUp⟩
  | ok _ =>
    cases hl : env.lookup cc with
    | none => exact h
    | some l => exact absurd ⟨hbcf, by simp [hl]⟩ hno

theorem wlanStart_started {cfg : Config} {env : StartEnv} {cc : Country} {l : ChannelList}
    (hbcf : bcfRegDne cc cfg.bcfRegions = .ok ()) (hl : env.lookup cc = some l)
    (h : RestSucceeds cfg env) (s : State) :
    Started cfg l (morsemicroWlanStart cfg env cc s).2 := by
  unfold morsemicroWlanStart wlanStartBoot
  simp only [hbcf, hl, mmwlanErrToErrno_ok.mpr h.boot, wlanStartConfigure_done h.staConfigured]
  unfold wlanStartApFinish wlanStartFinish wlanStartAp
  simp only [mmwlanErrToErrno_ok.mpr h.getVersion]
  cases hap : cfg.apMode with
  | false => exact ⟨rfl, rfl, rfl, ⟨rfl, rfl⟩, by simp [hap]⟩
  | true =>
    simp only [if_true, mmwlanErrToErrno_ok.mpr (h.registerApRx hap),
      mmwlanErrToErrno_ok.mpr (h.registerApState hap)]
    exact ⟨rfl, rfl, rfl, ⟨rfl, rfl⟩, fun _ => ⟨rfl, rfl⟩⟩

/-- A start that stored a list leaves it, wherever it ends. -/
theorem wlanStart_stored {cfg : Config} {env : StartEnv} {cc : Country} {s : State}
    (h : Unstarted s) (hstores : StartStores cfg env cc) :
    ¬ Unstarted (morsemicroWlanStart cfg env cc s).2 := by
  have hlist := (wlanStart_cases cfg env cc s).channelList h.channelList
  intro hun
  exact hstores.2 ((hlist.1 hstores).symm.trans hun.channelList)

/-- From a driver that is not started, a start leaves it started or not started, as its result
says, if and only if no step fails once the list of the region was found. -/
theorem startAtomic_iff_restSucceeds (cfg : Config) (env : StartEnv) (cc : Country) (s : State)
    (h : Unstarted s) :
    StartAtomic cfg env cc s ↔ (StartStores cfg env cc → RestSucceeds cfg env) := by
  have hok := wlanStart_ok cfg env cc s
  refine ⟨?_, ?_⟩
  · intro hatomic hstores
    by_contra hrest
    have hfailed : (morsemicroWlanStart cfg env cc s).1 ≠ .ok () := fun h => hrest (hok.mp h).2
    exact wlanStart_stored h hstores (hatomic.failed hfailed)
  · intro hcond
    refine ⟨?_, ?_⟩
    · intro hfailed
      apply wlanStart_notStored h
      intro hstores
      exact hfailed (hok.mpr ⟨hstores, hcond hstores⟩)
    · intro hsucceeded
      obtain ⟨⟨hbcf, hlookup⟩, hrest⟩ := hok.mp hsucceeded
      obtain ⟨l, hl⟩ := Option.ne_none_iff_exists'.mp hlookup
      exact ⟨l, hl, wlanStart_started hbcf hl hrest s⟩

/-- The US driver with nothing started, after interface initialisation. -/
theorem usBoot_unstarted : Unstarted usBoot := ⟨rfl, rfl, rfl, rfl⟩

theorem startAtomic_iff_restSucceeds_us :
    Unstarted usBoot ∧
      StartAtomic usConfig (usEnv .success .success) usChannels.countryCode usBoot ∧
      ¬ StartAtomic usConfig (usEnv .success .timedOut) usChannels.countryCode usBoot := by
  refine ⟨usBoot_unstarted, ?_, ?_⟩
  · refine (startAtomic_iff_restSucceeds usConfig _ _ usBoot usBoot_unstarted).mpr fun _ => ?_
    exact ⟨rfl, fun _ => rfl, rfl, rfl, rfl, fun _ => rfl, fun _ => rfl, rfl⟩
  · intro h
    have hrest := (startAtomic_iff_restSucceeds usConfig _ _ usBoot usBoot_unstarted).mp h
      ⟨rfl, nofun⟩
    cases hrest.getVersion

/-- The boot fails: the list stays. The version query fails: the driver stays initialized as
well, with the interface still disabled. -/
theorem failedStart_not_startAtomic :
    (∃ s, morsemicroWlanStart usConfig (usEnv .timedOut .success) usChannels.countryCode usBoot =
        (.error .etimedout, s) ∧
      s.data.channelList = some usChannels ∧ ¬ Unstarted s) ∧
    ∃ s, morsemicroWlanStart usConfig (usEnv .success .timedOut) usChannels.countryCode usBoot =
        (.error .etimedout, s) ∧
      s.data.mmwlanState = .initialized ∧ s.data.channelList = some usChannels ∧
      s.data.sta.status = .interfaceDisabled ∧ ¬ Unstarted s := by
  refine ⟨⟨_, rfl, rfl, ?_⟩, ⟨_, rfl, rfl, rfl, rfl, ?_⟩⟩
  · intro h
    cases h.channelList
  · intro h
    cases h.mmwlanState

end MmIot
