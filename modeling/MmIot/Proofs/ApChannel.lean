import MmIot.Proofs.RegDomain

/-! The channel an access point is started on. Both copies of the channel list are
written together and the driver's only ever drops to NULL, so an accepted request
was checked against the list that mmwlan holds. -/

namespace MmIot

/-- An AP request for primary channel `n` and bandwidth `bw` stays within list `l`. -/
structure ApArgs.WithinList (args : ApArgs) (n bw : UInt8) (l : ChannelList) : Prop where
  operating : ∃ o ∈ l.channels, o.s1gChanNum = args.s1gChanNum ∧ o.bwMhz = bw ∧
    (o.s1gOperatingClass = args.opClass.toInt16 ∨ o.globalOperatingClass = args.opClass.toInt16 ∨
      o.s1gOperatingClass = SKIP_OP_CLASS_CHECK ∨ o.globalOperatingClass = SKIP_OP_CLASS_CHECK)
  idx : args.pri1mhzChanIdx < bw
  primary : ∃ p ∈ l.channels, p.s1gChanNum = n.toUInt16 ∧ p.bwMhz = args.priBwMhz
  priBw : args.priBwMhz ≤ 2 ∧ args.priBwMhz ≤ bw

/-- An AP request is within the active list, the same on both sides. -/
def ApCallLegal (call : RadioCall) : Prop :=
  ∀ args n bw, call.request = .apEnable args n bw →
    ∃ l, call.driverList = some l ∧ call.mmwlanList = some l ∧ args.WithinList n bw l

/-- The primary channel of a derived operating channel is in the list. -/
theorem deriveOperatingChannelWrap_primary {l : ChannelList} {n bw : UInt8} {c : OperatingChannel}
    (h : deriveOperatingChannelWrap (some l) n bw = .ok c) :
    (∃ p ∈ l.channels, p.s1gChanNum = n.toUInt16 ∧ p.bwMhz = c.priBwMhz) ∧
      c.priBwMhz ≤ 2 ∧ c.priBwMhz ≤ bw := by
  unfold deriveOperatingChannelWrap deriveOperatingChannel at h
  dsimp only at h
  cases hp : l.channels.find? fun chan => chan.s1gChanNum = n.toUInt16 with
  | none =>
    rw [hp] at h
    cases h
  | some p =>
    simp only [hp] at h
    split at h
    · cases h
    next hbw =>
      have hnum : p.s1gChanNum = n.toUInt16 := by simpa using List.find?_some hp
      have hc : c.priBwMhz = p.bwMhz := by
        simp only [Id.run, bind, pure] at h
        split at h
        · cases h
        next opChan _ =>
          generalize (if opChan.s1gOperatingClass ≠ SKIP_OP_CLASS_CHECK then
            opChan.s1gOperatingClass.toUInt16 else opChan.globalOperatingClass.toUInt16) = opClass at h
          split at h
          · cases h
          · cases h
            rfl
      rw [not_or, UInt8.not_lt, UInt8.not_lt] at hbw
      rw [hc]
      exact ⟨⟨p, List.mem_of_find?_eq_some hp, hnum, rfl⟩, hbw⟩

/-- What the validity check establishes. -/
theorem morsemicroApChannelIsValid_spec {l : ChannelList} {opClass chanNum : UInt16}
    {bw idx : UInt8} (h : morsemicroApChannelIsValid (some l) opClass chanNum bw idx = true) :
    idx < bw ∧ ∃ o ∈ l.channels, o.s1gChanNum = chanNum ∧ o.bwMhz = bw ∧
      opClassMatches o opClass = true := by
  unfold morsemicroApChannelIsValid at h
  dsimp only at h
  split at h
  · cases h
  next hidx =>
    rw [not_or, UInt8.not_le] at hidx
    obtain ⟨o, ho, hmatch⟩ := List.any_eq_true.mp h
    exact ⟨hidx.2, o, ho, by simpa using hmatch⟩

theorem apChannel_withinList {cfg : Config} {d : MorsemicroData} {p : ConnectReqParams}
    {bw : UInt8} {c : OperatingChannel} (h : apChannel cfg d p = .ok (bw, c)) (args : ApArgs) :
    ∃ l, d.channelList = some l ∧ (args.setChannel c).WithinList p.channel bw l := by
  unfold apChannel at h
  split at h
  · cases h
  next bwMhz _ =>
    split at h
    · cases h
    next c' hderive =>
      split at h
      · next hvalid =>
        cases h
        cases hl : d.channelList with
        | none =>
          rw [hl] at hderive
          cases hderive
        | some l =>
          rw [hl] at hderive hvalid
          obtain ⟨hidx, o, ho, hnum, hbw, hclass⟩ := morsemicroApChannelIsValid_spec hvalid
          obtain ⟨hprimary, hpri⟩ := deriveOperatingChannelWrap_primary hderive
          refine ⟨l, rfl, ⟨⟨o, ho, hnum, hbw, ?_⟩, hidx, hprimary, hpri⟩⟩
          simp only [opClassMatches, decide_eq_true_eq] at hclass
          tauto
      · cases h

/-- The driver's list is mmwlan's or none, and every AP request so far was legal. -/
structure ApInv (c : Core) : Prop where
  agree : c.channelList = none ∨ c.channelList = c.mmwlanList
  calls : ∀ call ∈ c.calls, ApCallLegal call

theorem ApInv.forward {c : Core} (h : ApInv c) (request : RadioRequest)
    (hlegal : ApCallLegal ⟨request, c.booted, c.channelList, c.mmwlanList⟩) :
    ApInv (c.forward request) := by
  refine ⟨h.agree, ?_⟩
  intro call hcall
  rcases List.mem_cons.mp hcall with rfl | hcall
  · exact hlegal
  · exact h.calls call hcall

theorem StartCases.apInv {cfg : Config} {env : StartEnv} {cc : Country} {c c' : Core}
    (h : StartCases cfg env cc c c') (hinv : ApInv c) : ApInv c' := by
  cases h with
  | notInBcf => exact ⟨.inl rfl, hinv.calls⟩
  | notInRegdb => exact hinv
  | bootFailed | booted => exact ⟨.inr rfl, hinv.calls⟩

theorem CoreStep.apInv {cfg : Config} {s : State} {op : Op} {c : Core}
    (h : CoreStep cfg s op c) (hinv : ApInv s.core) : ApInv c := by
  have hshut : ApInv s.core.shutDown := ⟨.inl rfl, hinv.calls⟩
  cases h with
  | quiet => exact hinv
  | request _ r _ hr => exact hinv.forward r fun args n bw h => absurd h (hr args n bw)
  | apEnable r _ _ _ bw c hc args =>
    apply hinv.forward
    intro args' n bw' heq
    cases heq
    obtain ⟨l, hl, hwithin⟩ := apChannel_withinList hc args
    have hagree : s.data.channelList = s.mmwlan.channelList :=
      hinv.agree.resolve_left fun hnone => by simp [hl] at hnone
    exact ⟨l, hl, hagree.symm.trans hl, hwithin⟩
  | world => exact ⟨.inl rfl, hinv.calls⟩
  | region _ _ _ _ _ hc => exact hc.apInv hshut

theorem Booted.apInv {cfg : Config} {s : State} (h : Booted cfg s) : ApInv s.core := by
  obtain ⟨env, hstart⟩ := h.cases
  apply hstart.apInv
  refine ⟨.inl rfl, ?_⟩
  rw [Core.cold_calls]
  simp

/-- In every run an access point is only started within the active list. -/
theorem apCallLegal_of_reach (cfg : Config) (s : State)
    (h : Transition.Reach (Booted cfg) Transition.anyStep (step cfg) s) :
    ∀ call ∈ s.calls, ApCallLegal call := by
  have hinv : ApInv s.core := by
    apply h.invariant (fun _ hb => hb.apInv)
    intro s op s' hinv _ hstep
    cases hstep
    exact (exec_cases cfg op s).apInv hinv
  exact hinv.calls

/-- An open AP on primary channel 1 at 2 MHz. -/
def usApEnable : Op :=
  .apEnable
    { params := { ssid := [0x61], security := .none, saePassword := none, psk := [],
                  mfp := .disable, channel := 1, bandwidth := .mhz2 }
      status := .success
      getVifMacAddr := .success
      macAddr := [0x0C, 0xBF, 0x74, 0, 0, 2] }

theorem apCallLegal_of_reach_us :
    ∃ call ∈ (exec usConfig usApEnable (exec usConfig setUs usBoot).2).2.calls,
      (∃ args, call.request = .apEnable args 1 2 ∧ args.s1gChanNum = 2) ∧ ApCallLegal call := by
  have hreach : Transition.Reach (Booted usConfig) Transition.anyStep (step usConfig)
      (exec usConfig usApEnable (exec usConfig setUs usBoot).2).2 :=
    .of_schedule (.start usBoot_booted) [setUs, usApEnable] (Transition.anyStep_all _) rfl
  refine ⟨_, List.mem_cons_self, ⟨_, rfl, rfl⟩, ?_⟩
  exact apCallLegal_of_reach usConfig _ hreach _ List.mem_cons_self

end MmIot
