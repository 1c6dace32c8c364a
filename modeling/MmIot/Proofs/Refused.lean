import MmIot.Spec.IfaceStatus
import MmIot.Proofs.Credentials

/-! What a refused scan, connect or AP request leaves behind. The three store what they are
given before they know whether it will be taken, so a refusal is without trace exactly when
there was nothing new to store. -/

namespace MmIot

/-- The driver's own state, and what it reports of the network in use. -/
structure Unchanged (cfg : Config) (s s' : State) : Prop where
  scanCb : s'.data.sta.scanCb = s.data.sta.scanCb
  scanPrevState : s'.data.sta.scanPrevState = s.data.sta.scanPrevState
  status : s'.data.sta.status = s.data.sta.status
  apStatus : s'.data.ap.status = s.data.ap.status
  staArgs : s'.data.sta.staArgs = s.data.sta.staArgs
  apArgs : s'.data.ap.apArgs = s.data.ap.apArgs
  ifaceStatus : ∀ env vif status, morsemicroMgmtIfaceStatus cfg env vif s' status =
    morsemicroMgmtIfaceStatus cfg env vif s status

/-- The arguments hold already what the request stores in them. -/
structure AlreadyStored (cfg : Config) (p : ConnectReqParams) (c : Credentials) : Prop where
  ssidLen : c.ssidLen = min cfg.ssidSize p.ssid.length
  ssid : c.ssid.take (min cfg.ssidSize p.ssid.length) = p.ssid.take (min cfg.ssidSize p.ssid.length)
  passphraseLen : p.security = .sae →
    c.passphraseLen = min cfg.passphraseSize (p.saePassword.getD p.psk).length
  passphrase : p.security = .sae →
    c.passphrase.take (min cfg.passphraseSize (p.saePassword.getD p.psk).length) =
      (p.saePassword.getD p.psk).take (min cfg.passphraseSize (p.saePassword.getD p.psk).length)
  securityType : p.security ≠ .unsupported →
    c.securityType = if p.security = .sae then .sae else .open
  pmfMode : p.security ≠ .unsupported → p.mfp ≠ .invalid →
    c.pmfMode = if p.mfp = .disable then .disabled else .required

/-- The AP arguments hold the derived channel already, and the callback. -/
structure ChannelStored (c : OperatingChannel) (a : ApArgs) : Prop where
  opClass : a.opClass = c.opClass
  s1gChanNum : a.s1gChanNum = c.s1gChanNum
  priBwMhz : a.priBwMhz = c.priBwMhz
  pri1mhzChanIdx : a.pri1mhzChanIdx = c.pri1mhzChanIdx
  staStatusCb : a.staStatusCb = true

structure ApAlreadyStored (cfg : Config) (p : ConnectReqParams) (d : MorsemicroData) : Prop where
  credentials : AlreadyStored cfg p d.ap.apArgs.toCredentials
  channel : p.security ≠ .unsupported → ∀ bw c, apChannel cfg d p = .ok (bw, c) →
    ChannelStored c d.ap.apArgs

theorem Unchanged.of_data (cfg : Config) {s s' : State} (h : s'.data = s.data) :
    Unchanged cfg s s' := by
  have hstatus : ∀ env vif status, morsemicroMgmtIfaceStatus cfg env vif s' status =
      morsemicroMgmtIfaceStatus cfg env vif s status := by
    intro env vif status
    simp only [morsemicroMgmtIfaceStatus, h]
  exact ⟨by rw [h], by rw [h], by rw [h], by rw [h], by rw [h], by rw [h], hstatus⟩

/-! ### The credentials -/

theorem memcpy_eq_self_iff (dst src : List UInt8) (n : ℕ) :
    memcpy dst src n = dst ↔ dst.take n = src.take n := by
  rw [memcpy]
  refine ⟨?_, ?_⟩
  · intro h
    exact ((List.append_left_inj _).mp (h.trans (List.take_append_drop n dst).symm)).symm
  · intro h
    rw [← h, List.take_append_drop]

/-- What the arguments are after a request, field by field, whatever it returns. -/
theorem storeCredentials_snd (cfg : Config) (p : ConnectReqParams) (c : Credentials) :
    (storeCredentials cfg p c).2 = {
      ssid := memcpy c.ssid p.ssid (min cfg.ssidSize p.ssid.length)
      ssidLen := min cfg.ssidSize p.ssid.length
      passphrase := if p.security = .sae then
        memcpy c.passphrase (p.saePassword.getD p.psk)
          (min cfg.passphraseSize (p.saePassword.getD p.psk).length) else c.passphrase
      passphraseLen := if p.security = .sae then
        min cfg.passphraseSize (p.saePassword.getD p.psk).length else c.passphraseLen
      securityType := if p.security = .unsupported then c.securityType
        else if p.security = .sae then .sae else .open
      pmfMode := if p.security = .unsupported ∨ p.mfp = .invalid then c.pmfMode
        else if p.mfp = .disable then .disabled else .required } := by
  unfold storeCredentials storeSecurity
  cases p.security <;> cases hmfp : p.mfp <;> simp [storeSsid, storePmf, hmfp]

theorem storeCredentials_eq_self_iff (cfg : Config) (p : ConnectReqParams) (c : Credentials) :
    (storeCredentials cfg p c).2 = c ↔ AlreadyStored cfg p c := by
  obtain ⟨ssid, ssidLen, passphrase, passphraseLen, securityType, pmfMode⟩ := c
  rw [storeCredentials_snd, Credentials.mk.injEq]
  refine ⟨?_, ?_⟩
  · rintro ⟨hssid, hlen, hpass, hpassLen, hsec, hpmf⟩
    refine ⟨hlen.symm, (memcpy_eq_self_iff _ _ _).mp hssid, ?_, ?_, ?_, ?_⟩
    · intro hsae
      rw [if_pos hsae] at hpassLen
      exact hpassLen.symm
    · intro hsae
      rw [if_pos hsae] at hpass
      exact (memcpy_eq_self_iff _ _ _).mp hpass
    · intro hknown
      rw [if_neg hknown] at hsec
      exact hsec.symm
    · intro hknown hvalid
      rw [if_neg (not_or.mpr ⟨hknown, hvalid⟩)] at hpmf
      exact hpmf.symm
  · rintro ⟨hlen, hssid, hpassLen, hpass, hsec, hpmf⟩
    refine ⟨(memcpy_eq_self_iff _ _ _).mpr hssid, hlen.symm, ?_, ?_, ?_, ?_⟩
    · exact ite_eq_right_iff.mpr fun hsae => (memcpy_eq_self_iff _ _ _).mpr (hpass hsae)
    · exact ite_eq_right_iff.mpr fun hsae => (hpassLen hsae).symm
    · exact ite_eq_left_iff.mpr fun hknown => (hsec hknown).symm
    · refine ite_eq_left_iff.mpr ?_
      intro hno
      rw [not_or] at hno
      exact (hpmf hno.1 hno.2).symm

/-! ### The requests -/

theorem scan_refused (cb : ℕ) (status : MmwlanStatus) (s : State)
    (h : (morsemicroMgmtScan cb status s).1 ≠ .ok ()) :
    (morsemicroMgmtScan cb status s).2.data =
      if s.data.mmwlanState = .uninitialized then s.data
      else { s.data with sta.scanCb := some cb } := by
  unfold morsemicroMgmtScan at h ⊢
  split
  · rfl
  next hinit =>
    rw [if_neg hinit] at h
    dsimp only at h ⊢
    split
    · rfl
    next hok =>
      rw [hok] at h
      exact absurd rfl h

theorem connect_data (cfg : Config) (p : ConnectReqParams) (status : MmwlanStatus) (s : State) :
    (morsemicroMgmtConnect cfg p status s).2.data =
      if s.data.mmwlanState = .uninitialized then s.data
      else { s.data with sta.staArgs := (storeCredentials cfg p s.data.sta.staArgs).2 } := by
  unfold morsemicroMgmtConnect
  split
  · rfl
  · split
    · next h => rw [h]
    · next h =>
      rw [h]
      rfl

theorem disconnect_data (status : MmwlanStatus) (s : State) :
    (morsemicroMgmtDisconnect status s).2.data = s.data := by
  unfold morsemicroMgmtDisconnect
  split
  · rfl
  · cases disableErrno status <;> rfl

theorem apDisable_data (status : MmwlanStatus) (s : State) :
    (morsemicroMgmtApDisable status s).2.data = s.data := by
  unfold morsemicroMgmtApDisable
  split
  · rfl
  · cases disableErrno status <;> rfl

theorem mmnetifTxOn_data (vif : Vif) (cfg : Config) (env : TxEnv) (s : State) :
    (mmnetifTxOn vif cfg env s).2.data = s.data := by
  unfold mmnetifTxOn mmnetifVifTx
  split
  · rfl
  split
  · rfl
  split
  · rfl
  split
  · rfl
  split <;> rfl

/-- Only a request that is taken may store a link address as well. -/
theorem apEnable_data (cfg : Config) (r : ApEnable) (s : State) :
    ∃ macAddr, (morsemicroMgmtApEnable cfg r s).2.data =
        { s.data with ap := { s.data.ap with apArgs := r.params.storedAp cfg s.data, macAddr } } ∧
      ((morsemicroMgmtApEnable cfg r s).1 ≠ .ok () → macAddr = s.data.ap.macAddr) := by
  have hsec := storeCredentials_ok cfg r.params s.data.ap.apArgs.toCredentials
  unfold morsemicroMgmtApEnable ConnectReqParams.storedAp
  generalize storeCredentials cfg r.params s.data.ap.apArgs.toCredentials = stored at hsec ⊢
  obtain ⟨ret, cred⟩ := stored
  cases ret with
  | error e =>
    have hunsupported : r.params.security = .unsupported := by simpa using hsec
    rw [if_pos hunsupported]
    exact ⟨_, rfl, fun _ => rfl⟩
  | ok _ =>
    have hknown : r.params.security ≠ .unsupported := hsec.mp rfl
    rw [if_neg hknown]
    dsimp only
    rw [apChannel_congr]
    cases hc : apChannel cfg s.data r.params with
    | error e => exact ⟨_, rfl, fun _ => rfl⟩
    | ok bc =>
      obtain ⟨bw, c⟩ := bc
      dsimp only
      cases hstatus : mmwlanErrToErrno r.status with
      | error e => exact ⟨_, rfl, fun _ => rfl⟩
      | ok _ =>
        dsimp only
        split
        · exact ⟨_, rfl, fun hrefused => absurd rfl hrefused⟩
        · exact ⟨_, rfl, fun _ => rfl⟩

/-! ### When a refusal is without trace -/

theorem channelStored_iff (c : OperatingChannel) (a : ApArgs) :
    a.setChannel c = a ↔ ChannelStored c a := by
  obtain ⟨cred, opClass, chanNum, priBw, idx, maxStas, cb⟩ := a
  simp only [ApArgs.setChannel, ApArgs.mk.injEq, true_and]
  refine ⟨?_, ?_⟩
  · rintro ⟨hclass, hnum, hbw, hidx, hcb⟩
    exact ⟨hclass.symm, hnum.symm, hbw.symm, hidx.symm, hcb.symm⟩
  · rintro ⟨hclass, hnum, hbw, hidx, hcb⟩
    exact ⟨hclass.symm, hnum.symm, hbw.symm, hidx.symm, hcb.symm⟩

theorem storedAp_toCredentials (cfg : Config) (p : ConnectReqParams) (d : MorsemicroData) :
    (p.storedAp cfg d).toCredentials =
      (storeCredentials cfg p d.ap.apArgs.toCredentials).2 := by
  unfold ConnectReqParams.storedAp
  split
  · rfl
  · split <;> rfl

theorem storedAp_eq_self_iff (cfg : Config) (p : ConnectReqParams) (d : MorsemicroData) :
    p.storedAp cfg d = d.ap.apArgs ↔ ApAlreadyStored cfg p d := by
  by_cases hcred : AlreadyStored cfg p d.ap.apArgs.toCredentials
  · have hself := (storeCredentials_eq_self_iff cfg p _).mpr hcred
    unfold ConnectReqParams.storedAp
    rw [hself]
    split
    next hunsupported => exact iff_of_true rfl ⟨hcred, fun hknown => absurd hunsupported hknown⟩
    next hknown =>
      split
      next e hc =>
        refine iff_of_true rfl ⟨hcred, ?_⟩
        intro _ bw c hok
        cases hc.symm.trans hok
      next bw c hc =>
        rw [channelStored_iff]
        refine ⟨?_, ?_⟩
        · intro hstored
          refine ⟨hcred, ?_⟩
          intro _ bw' c' hok
          cases hc.symm.trans hok
          exact hstored
        · intro hstored
          exact hstored.channel hknown bw c hc
  · refine iff_of_false ?_ fun hstored => hcred hstored.credentials
    intro h
    apply hcred
    rw [← storeCredentials_eq_self_iff, ← storedAp_toCredentials, h]

/-- A refused request is without trace if and only if it has nothing new to store: a scan if
the driver is not initialized or has the callback already, a connect request if the driver is
not initialized or has the arguments already, an AP request if it has the arguments already. -/
theorem refused_unchanged_iff (cfg : Config) (s : State) :
    (∀ cb status, (morsemicroMgmtScan cb status s).1 ≠ .ok () →
      (Unchanged cfg s (morsemicroMgmtScan cb status s).2 ↔
        s.data.mmwlanState = .uninitialized ∨ s.data.sta.scanCb = some cb)) ∧
    (∀ p status, (morsemicroMgmtConnect cfg p status s).1 ≠ .ok () →
      (Unchanged cfg s (morsemicroMgmtConnect cfg p status s).2 ↔
        s.data.mmwlanState = .uninitialized ∨ AlreadyStored cfg p s.data.sta.staArgs)) ∧
    ∀ r, (morsemicroMgmtApEnable cfg r s).1 ≠ .ok () →
      (Unchanged cfg s (morsemicroMgmtApEnable cfg r s).2 ↔
        ApAlreadyStored cfg r.params s.data) := by
  refine ⟨?_, ?_, ?_⟩
  · intro cb status hrefused
    have hdata := scan_refused cb status s hrefused
    by_cases hinit : s.data.mmwlanState = .uninitialized
    · rw [if_pos hinit] at hdata
      exact iff_of_true (.of_data cfg hdata) (.inl hinit)
    · rw [if_neg hinit] at hdata
      rw [or_iff_right hinit]
      refine ⟨?_, ?_⟩
      · intro h
        rw [← h.scanCb, hdata]
      · intro h
        refine .of_data cfg (hdata.trans ?_)
        rw [← h]
  · intro p status _
    have hdata := connect_data cfg p status s
    by_cases hinit : s.data.mmwlanState = .uninitialized
    · rw [if_pos hinit] at hdata
      exact iff_of_true (.of_data cfg hdata) (.inl hinit)
    · rw [if_neg hinit] at hdata
      rw [or_iff_right hinit, ← storeCredentials_eq_self_iff]
      refine ⟨?_, ?_⟩
      · intro h
        have hargs := h.staArgs
        rw [hdata] at hargs
        exact hargs
      · intro h
        refine .of_data cfg (hdata.trans ?_)
        rw [h]
  · intro r hrefused
    obtain ⟨macAddr, hdata, hmac⟩ := apEnable_data cfg r s
    rw [← storedAp_eq_self_iff]
    refine ⟨?_, ?_⟩
    · intro h
      have hargs := h.apArgs
      rw [hdata] at hargs
      exact hargs
    · intro h
      refine .of_data cfg (hdata.trans ?_)
      rw [h, hmac hrefused]

/-- A second request for the home network, refused by mmwlan, leaves no trace. -/
theorem refused_unchanged_iff_home :
    (morsemicroMgmtConnect usConfig homeParams .unavailable usAfterHome).1 = .error .eagain ∧
      Unchanged usConfig usAfterHome
        (morsemicroMgmtConnect usConfig homeParams .unavailable usAfterHome).2 := by
  have hstored : AlreadyStored usConfig homeParams usAfterHome.data.sta.staArgs :=
    ⟨rfl, rfl, fun _ => rfl, fun _ => rfl, fun _ => rfl, fun _ _ => rfl⟩
  have hrefused :
      (morsemicroMgmtConnect usConfig homeParams .unavailable usAfterHome).1 ≠ .ok () := by
    intro hok
    cases hok
  refine ⟨rfl, ?_⟩
  exact ((refused_unchanged_iff usConfig usAfterHome).2.1 _ _ hrefused).mpr (.inr hstored)

/-- A scan that is refused because one is on takes over the callback of that one, and a
connect request with an unsupported security type renames the network in use. -/
theorem refusedScan_not_unchanged :
    (∃ s, Transition.Reach (Booted usConfig) Transition.anyStep (step usConfig) s ∧
      s.data.sta.status = .scanning ∧ s.data.sta.scanCb = some 0 ∧
      (morsemicroMgmtScan 1 .unavailable s).1 = .error .eagain ∧
      (morsemicroMgmtScan 1 .unavailable s).2.data.sta.scanCb = some 1 ∧
      ¬ Unchanged usConfig s (morsemicroMgmtScan 1 .unavailable s).2) ∧
    Transition.Reach (Booted usConfig) Transition.anyStep (step usConfig) usAfterHome ∧
      ∃ p, (morsemicroMgmtConnect usConfig p .success usAfterHome).1 = .error .einval ∧
        usAfterHome.data.sta.staArgs.ssid = [0x61] ∧
        (morsemicroMgmtConnect usConfig p .success usAfterHome).2.data.sta.staArgs.ssid = [0x62] ∧
        ¬ Unchanged usConfig usAfterHome
          (morsemicroMgmtConnect usConfig p .success usAfterHome).2 := by
  refine ⟨⟨_, .next usStarted_reach (a := .scan 0 .success) trivial rfl, rfl, rfl, rfl, rfl, ?_⟩,
    usAfterHome_reach, { openParams with security := .unsupported }, rfl, rfl, rfl, ?_⟩
  · intro h
    cases h.scanCb
  · intro h
    have hssid := congrArg Credentials.ssid h.staArgs
    cases hssid

end MmIot
