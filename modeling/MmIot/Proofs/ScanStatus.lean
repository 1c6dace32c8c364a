import MmIot.Spec.ScanStatus
import MmIot.Proofs.Radio

/-! Scanning and the station status. The save comes after mmwlan has accepted the
scan, so a completion, a second scan or a change of the link can come in between or
be overwritten later; without these the status is what it is without scans. -/

namespace MmIot

/-- Saving does not see the mark of another scan; a mark has a completion to come that
takes it back; nothing else is written between a save and its mark; and a completion
finds the mark, or changes nothing. -/
def ScanGuard (s : ScanState) : ScanAction → Prop
  | .accept _ => True
  | .save => s.driver.data.sta.status ≠ .scanning
  | .mark => 0 < s.outstanding
  | .link l => 0 < s.toMark → l.status = s.driver.data.sta.scanPrevState
  | .disable r => 0 < s.toMark → Disables r s.driver →
      .interfaceDisabled = s.driver.data.sta.scanPrevState
  | .complete _ => 0 < s.toMark ∨ s.driver.data.sta.status = .scanning ∨
      s.driver.data.sta.scanPrevState = s.driver.data.sta.status

/-- The status that a write leaves, if it is known. -/
def StatusWrite.status : StatusWrite → Option WifiIfaceState
  | .start => none
  | .link l => some l.status
  | .disable => some .interfaceDisabled

structure ScanInv (s : ScanState) : Prop where
  mmwlanState : s.quiet.data.mmwlanState = s.driver.data.mmwlanState
  status : s.driver.data.sta.status = s.quiet.data.sta.status ∨
    s.driver.data.sta.status = .scanning ∧ 0 < s.outstanding
  quiet : s.quiet.data.sta.status = .inactive ∨ s.quiet.data.sta.status = .interfaceDisabled ∨
    s.quiet.data.sta.status = .completed
  saved : 0 < s.toMark ∨ s.driver.data.sta.status = .scanning →
    s.driver.data.sta.scanPrevState = s.quiet.data.sta.status
  lastWrite : ∀ w, s.lastWrite.status = some w → s.quiet.data.sta.status = w
  completed : s.quiet.data.sta.status = .completed → s.lastWrite = .link .up

/-! ### What the steps write -/

theorem vifState_sta (link : LinkState) (s : State) :
    (mmnetifVifState .sta link s).data = { s.data with sta.status := link.status } := by
  cases link with
  | down =>
    simp only [mmnetifVifState]
    split <;> rfl
  | up => rfl

theorem regDomainSet_toWorld (cfg : Config) (r : RegDomainSet) (s : State) :
    (morsemicroMgmtRegDomainSet cfg r.toWorld s).2.data.sta =
        (if Disables r s then { s.data.sta with status := .interfaceDisabled } else s.data.sta) ∧
      (morsemicroMgmtRegDomainSet cfg r.toWorld s).2.data.mmwlanState =
        (if r.shutdown = .success then .uninitialized else s.data.mmwlanState) := by
  unfold morsemicroMgmtRegDomainSet
  cases hsd : mmwlanErrToErrno r.toWorld.shutdown with
  | error e =>
    have hne : r.shutdown ≠ .success := mmwlanErrToErrno_error hsd
    simp [Disables, hne]
  | ok _ =>
    have hsd : r.shutdown = .success := mmwlanErrToErrno_ok.mp hsd
    have hcc : r.toWorld.countryCode = worldDomain := rfl
    dsimp only
    by_cases hinit : s.data.mmwlanState = .initialized
    · split <;> simp [switchRegion, hcc, hinit, Disables, hsd, State.deinit]
    · have hinit' : s.data.mmwlanState = .uninitialized := by
        cases h : s.data.mmwlanState <;> simp_all
      split <;> simp [switchRegion, hcc, hinit', Disables, hsd]

/-- One undisturbed scan is the three steps in a row. -/
theorem morsemicroMgmtScan_eq_steps (cfg : Config) (cb : ℕ) (s : ScanState)
    (hinit : s.driver.data.mmwlanState ≠ .uninitialized) :
    Transition.schedule (scanStep cfg) s [.accept cb, .save, .mark] =
      some { s with
        driver := (morsemicroMgmtScan cb .success s.driver).2
        outstanding := s.outstanding + 1 } := by
  unfold morsemicroMgmtScan
  simp only [Transition.schedule, List.foldlM, scanStep, if_neg hinit, if_neg (Nat.succ_ne_zero _),
    Option.bind_eq_bind, Option.bind_some, Option.pure_def, mmwlanErrToErrno]
  rfl

/-! ### The invariant -/

theorem ScanInv.quiet_ne_scanning {s : ScanState} (h : ScanInv s) :
    s.quiet.data.sta.status ≠ .scanning := by
  rcases h.quiet with hq | hq | hq <;> simp [hq]

theorem ScanInv.accept {s : ScanState} (h : ScanInv s) (cb : ℕ) :
    ScanInv { s with
      driver := { s.driver with data.sta.scanCb := some cb }.forward .scanRequest
      toSave := s.toSave + 1
      outstanding := s.outstanding + 1 } :=
  ⟨h.mmwlanState, h.status.imp_right fun hs => ⟨hs.1, Nat.succ_pos _⟩, h.quiet, h.saved,
    h.lastWrite, h.completed⟩

theorem ScanInv.save {s : ScanState} (h : ScanInv s)
    (hg : s.driver.data.sta.status ≠ .scanning) :
    ScanInv { s with
      driver.data.sta := s.driver.data.sta.saveStatus
      toSave := s.toSave - 1
      toMark := s.toMark + 1 } := by
  have hs : s.driver.data.sta.status = s.quiet.data.sta.status :=
    h.status.resolve_right fun hs => hg hs.1
  exact ⟨h.mmwlanState, .inl hs, h.quiet, fun _ => hs, h.lastWrite, h.completed⟩

theorem ScanInv.mark {s : ScanState} (h : ScanInv s) (hmark : s.toMark ≠ 0)
    (hg : 0 < s.outstanding) :
    ScanInv { s with
      driver.data.sta := s.driver.data.sta.markScanning
      toMark := s.toMark - 1 } :=
  ⟨h.mmwlanState, .inr ⟨rfl, hg⟩, h.quiet, fun _ => h.saved (.inl (Nat.pos_of_ne_zero hmark)),
    h.lastWrite, h.completed⟩

theorem ScanInv.complete {s : ScanState} (h : ScanInv s) (success : Bool)
    (hg : ScanGuard s (.complete success)) :
    ScanInv { s with
      driver := scanCompleteCallback success s.driver
      outstanding := s.outstanding - 1 } := by
  have hrestored : s.driver.data.sta.scanPrevState = s.quiet.data.sta.status := by
    rcases hg with hmark | hscan | hsame
    · exact h.saved (.inl hmark)
    · exact h.saved (.inr hscan)
    · rcases h.status with hs | ⟨hscan, -⟩
      · exact hsame.trans hs
      · exact h.saved (.inr hscan)
  exact ⟨h.mmwlanState, .inl hrestored, h.quiet, fun _ => hrestored, h.lastWrite, h.completed⟩

/-- A write to both sides that no save in progress contradicts. -/
theorem ScanInv.of_write (s : ScanState) {s' : ScanState} {w : WifiIfaceState}
    (hw : w = .inactive ∨ w = .interfaceDisabled ∨ w = .completed)
    (hdriver : s'.driver.data.sta = { s.driver.data.sta with status := w })
    (hquiet : s'.quiet.data.sta = { s.quiet.data.sta with status := w })
    (hstate : s'.quiet.data.mmwlanState = s'.driver.data.mmwlanState)
    (hmark : s'.toMark = s.toMark) (hg : 0 < s.toMark → w = s.driver.data.sta.scanPrevState)
    (hlast : s'.lastWrite.status = some w) (hup : w = .completed → s'.lastWrite = .link .up) :
    ScanInv s' := by
  refine ⟨hstate, .inl ?_, ?_, fun hsaved => ?_, fun v hv => ?_, fun hc => ?_⟩
  · rw [hdriver, hquiet]
  · rw [hquiet]
    exact hw
  · rw [hdriver, hquiet]
    rcases hsaved with hpos | hscan
    · exact (hg (hmark ▸ hpos)).symm
    · rw [hdriver] at hscan
      rcases hw with rfl | rfl | rfl <;> cases hscan
  · rw [hlast] at hv
    cases hv
    rw [hquiet]
  · rw [hquiet] at hc
    exact hup hc

theorem ScanInv.link {s : ScanState} (h : ScanInv s) (l : LinkState) (hg : ScanGuard s (.link l)) :
    ScanInv { s with
      driver := mmnetifVifState .sta l s.driver
      quiet := mmnetifVifState .sta l s.quiet
      lastWrite := .link l } := by
  refine .of_write s (w := l.status) ?_ ?_ ?_ ?_ rfl hg rfl ?_
  · cases l <;> simp [LinkState.status]
  · dsimp only
    rw [vifState_sta]
  · dsimp only
    rw [vifState_sta]
  · simp only [vifState_sta, h.mmwlanState]
  · cases l <;> simp [LinkState.status]

theorem ScanInv.disable {cfg : Config} {s : ScanState} (h : ScanInv s) (r : RegDomainSet)
    (hg : ScanGuard s (.disable r)) :
    ScanInv { s with
      driver := (morsemicroMgmtRegDomainSet cfg r.toWorld s.driver).2
      quiet := (morsemicroMgmtRegDomainSet cfg r.toWorld s.quiet).2
      lastWrite := if Disables r s.driver then .disable else s.lastWrite } := by
  obtain ⟨hdriver, hdriver'⟩ := regDomainSet_toWorld cfg r s.driver
  obtain ⟨hquiet, hquiet'⟩ := regDomainSet_toWorld cfg r s.quiet
  have hiff : Disables r s.quiet ↔ Disables r s.driver := by rw [Disables, Disables, h.mmwlanState]
  have hstate := hquiet'.trans ((congrArg _ h.mmwlanState).trans hdriver'.symm)
  by_cases hd : Disables r s.driver
  · rw [if_pos hd] at hdriver ⊢
    rw [if_pos (hiff.mpr hd)] at hquiet
    exact .of_write s (.inr (.inl rfl)) hdriver hquiet hstate rfl (fun hpos => hg hpos hd) rfl nofun
  · rw [if_neg hd] at hdriver ⊢
    rw [if_neg (mt hiff.mp hd)] at hquiet
    refine ⟨hstate, ?_, ?_, ?_, ?_, ?_⟩ <;> dsimp only <;> rw [hquiet]
    · rw [hdriver]
      exact h.status
    · exact h.quiet
    · rw [hdriver]
      exact h.saved
    · exact h.lastWrite
    · exact h.completed

theorem ScanStart.inv {s : ScanState} (h : ScanStart s) : ScanInv s := by
  have hidle : ¬ (0 < s.toMark ∨ s.driver.data.sta.status = .scanning) := by
    rw [h.toMark]
    rcases h.status with hs | hs <;> simp [hs]
  refine ⟨by rw [h.quiet], .inl (by rw [h.quiet]), ?_, fun hs => absurd hs hidle, ?_, ?_⟩
  · rw [h.quiet]
    exact h.status.imp_right .inl
  · simp [h.lastWrite, StatusWrite.status]
  · rw [h.quiet]
    rcases h.status with hs | hs <;> simp [hs]

theorem ScanInv.step {cfg : Config} {s s' : ScanState} {a : ScanAction} (h : ScanInv s)
    (hg : ScanGuard s a) (hstep : scanStep cfg s a = some s') : ScanInv s' := by
  cases a with
  | accept cb =>
    obtain ⟨-, ⟨⟩⟩ := Option.ite_none_left_eq_some.mp hstep
    exact h.accept cb
  | save =>
    obtain ⟨-, ⟨⟩⟩ := Option.ite_none_left_eq_some.mp hstep
    exact h.save hg
  | mark =>
    obtain ⟨hmark, ⟨⟩⟩ := Option.ite_none_left_eq_some.mp hstep
    exact h.mark hmark hg
  | complete success =>
    obtain ⟨-, ⟨⟩⟩ := Option.ite_none_left_eq_some.mp hstep
    exact h.complete success hg
  | link l =>
    cases hstep
    exact h.link l hg
  | disable r =>
    cases hstep
    exact h.disable r hg

/-- Without these disturbances a quiescent driver has the status that the run without
scans gives it: never scanning, completed only after a link that came up last, and
disabled after a `00` request that came last. -/
theorem scanStatus_of_scanGuard (cfg : Config) (s : ScanState)
    (h : Transition.Reach ScanStart ScanGuard (scanStep cfg) s) (hq : Quiescent s) :
    s.driver.data.sta.status = s.quiet.data.sta.status ∧
      s.driver.data.sta.status ≠ .scanning ∧
      (s.driver.data.sta.status = .completed → s.lastWrite = .link .up) ∧
      (s.lastWrite = .disable → s.driver.data.sta.status = .interfaceDisabled) := by
  have hinv : ScanInv s :=
    h.invariant (fun _ hs => hs.inv) fun _ _ _ hinv hg hstep => hinv.step hg hstep
  have hs : s.driver.data.sta.status = s.quiet.data.sta.status :=
    hinv.status.resolve_right fun hs => by simp [hq.outstanding] at hs
  refine ⟨hs, hs ▸ hinv.quiet_ne_scanning, fun hc => hinv.completed (hs ▸ hc), ?_⟩
  intro hd
  exact hs.trans (hinv.lastWrite _ (by rw [hd]; rfl))

/-- The US driver after its start, with nothing scanned yet. -/
def usScan : ScanState where
  driver := (exec usConfig setUs usBoot).2
  quiet := (exec usConfig setUs usBoot).2
  toSave := 0
  toMark := 0
  outstanding := 0
  lastWrite := .start

theorem usScan_start : ScanStart usScan := ⟨rfl, .inl rfl, rfl, rfl, rfl, rfl⟩

theorem scanStatus_of_scanGuard_us :
    ∃ s, Transition.schedule (scanStep usConfig) usScan
        [.link .up, .accept 0, .save, .mark, .complete true] = some s ∧
      s.driver.data.sta.status = .completed ∧
      s.driver.data.sta.status = s.quiet.data.sta.status ∧ s.lastWrite = .link .up := by
  have hup : Transition.Reach ScanStart ScanGuard (scanStep usConfig) _ :=
    .next (a := .link .up) (.start usScan_start) nofun rfl
  have hmarked : Transition.Reach ScanStart ScanGuard (scanStep usConfig) _ :=
    .next (a := .mark) (.next (a := .save) (.next (a := .accept 0) hup trivial rfl)
      (by simp [ScanGuard]; decide) rfl) Nat.one_pos rfl
  have hdone : Transition.Reach ScanStart ScanGuard (scanStep usConfig) _ :=
    .next (a := .complete true) hmarked (.inr (.inl rfl)) rfl
  have hstatus := scanStatus_of_scanGuard usConfig _ hdone ⟨rfl, rfl, rfl⟩
  exact ⟨_, rfl, rfl, hstatus.1, hstatus.2.2.1 rfl⟩

/-- The link comes up during a scan, and its completion restores the status from
before: inactive, where the last link callback was up. -/
theorem linkUpDuringScan_lost :
    ∃ s, Transition.Reach ScanStart Transition.anyStep (scanStep usConfig) s ∧ Quiescent s ∧
      s.driver.data.sta.status = .inactive ∧ s.quiet.data.sta.status = .completed ∧
      s.lastWrite = .link .up :=
  ⟨_, .of_schedule (.start usScan_start) [.accept 0, .save, .mark, .link .up, .complete true]
    (Transition.anyStep_all _) rfl, ⟨rfl, rfl, rfl⟩, rfl, rfl, rfl⟩

end MmIot
