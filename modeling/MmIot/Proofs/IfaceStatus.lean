import MmIot.Lib.Terminated
import MmIot.Proofs.Refused

/-! The SSID that an interface status names. Each request writes its SSID over the one before
and nothing past it, and the status reads on up to a NUL, so what is read is the last SSID with
the tail of the longest one before it. -/

namespace MmIot

/-- A request for a network, on the interface of either vif. -/
inductive NetworkRequest where
  | connect (p : ConnectReqParams) (status : MmwlanStatus)
  | apEnable (r : ApEnable)

def NetworkRequest.op : NetworkRequest → Op
  | .connect p status => .connect p status
  | .apEnable r => .apEnable r

def NetworkRequest.vif : NetworkRequest → Vif
  | .connect _ _ => .sta
  | .apEnable _ => .ap

def NetworkRequest.params : NetworkRequest → ConnectReqParams
  | .connect p _ => p
  | .apEnable r => r.params

/-- Runs of requests that are accepted. -/
def acceptStep (cfg : Config) (s : State) (q : NetworkRequest) : Option State :=
  match exec cfg q.op s with
  | (.error _, _) => none
  | (.ok _, s) => some s

def State.args (s : State) : Vif → Credentials
  | .sta => s.data.sta.staArgs
  | .ap => s.data.ap.apArgs.toCredentials

/-- The SSIDs of the requests on one interface, first to last. -/
def ssidsOn (vif : Vif) (qs : List NetworkRequest) : List (List UInt8) :=
  (qs.filter fun q => q.vif = vif).map fun q => q.params.ssid

structure SsidValid (ssid : List UInt8) : Prop where
  pos : 1 ≤ ssid.length
  le : ssid.length ≤ WIFI_SSID_MAX_LEN
  nonzero : ∀ b ∈ ssid, b ≠ 0

/-- A buffer read up to its NUL. -/
def cString (buf : List UInt8) : List UInt8 := buf.takeWhile (· ≠ 0)

structure NamesNetwork (status : WifiIfaceStatus) (ssid : List UInt8) : Prop where
  name : cString status.ssid = ssid
  ssidLen : status.ssidLen = ssid.length

/-! ### Strings in buffers -/

theorem cString_eq_read (buf : List UInt8) : cString buf = Terminated.read 0 buf := rfl

/-- A string shorter than the buffers is read and copied whole. -/
theorem strncpy_padded {w dst : List UInt8} {m n : ℕ} (hw : ∀ b ∈ w, b ≠ 0)
    (hlen : w.length ≤ m) (hn : m ≤ n) :
    strncpy dst (Terminated.padded 0 w n) m = Terminated.padded 0 w m ++ dst.drop m := by
  have hread : ((Terminated.padded 0 w n).take m).takeWhile (· ≠ 0) = w := by
    rw [Terminated.take_padded hlen hn]
    exact Terminated.read_append_replicate hw _
  unfold strncpy
  rw [hread]
  change memcpy dst (Terminated.padded 0 w m) m = _
  rw [memcpy, List.take_of_length_le (Terminated.padded_length hlen).le]

/-- A request's copy of its SSID leaves what it does not reach. -/
theorem memcpy_padded (w ssid : List UInt8) {n : ℕ} (hssid : ssid.length ≤ n) :
    memcpy (Terminated.padded 0 w n) ssid ssid.length =
      Terminated.padded 0 (Terminated.overlay w ssid) n := by
  rw [← Terminated.overlay_padded w ssid hssid, memcpy, List.take_length, Terminated.overlay]

/-! ### The requests -/

theorem acceptStep_ok {cfg : Config} {s s' : State} {q : NetworkRequest}
    (h : acceptStep cfg s q = some s') : exec cfg q.op s = (.ok (), s') := by
  unfold acceptStep at h
  split at h
  · cases h
  next heq =>
    cases h
    exact heq

/-- AP requests are taken in AP builds only. -/
theorem acceptStep_apMode {cfg : Config} {s s' : State} {q : NetworkRequest}
    (h : acceptStep cfg s q = some s') (hq : q.vif = .ap) : cfg.apMode = true := by
  have hexec := acceptStep_ok h
  cases q with
  | connect p status => cases hq
  | apEnable r =>
    by_contra hno
    simp [NetworkRequest.op, exec, unlessBuilt, hno] at hexec

theorem acceptStep_args {cfg : Config} {s s' : State} {q : NetworkRequest}
    (h : acceptStep cfg s q = some s') (vif : Vif) :
    s'.args vif =
      if q.vif = vif then (storeCredentials cfg q.params (s.args vif)).2 else s.args vif := by
  have hexec := acceptStep_ok h
  cases q with
  | connect p status =>
    have hdata := connect_data cfg p status s
    rw [show morsemicroMgmtConnect cfg p status s = (.ok (), s') from hexec] at hdata
    have hinit : ¬ s.data.mmwlanState = .uninitialized := by
      intro hinit
      simp [NetworkRequest.op, exec, morsemicroMgmtConnect, hinit] at hexec
    rw [if_neg hinit] at hdata
    dsimp only at hdata
    cases vif <;> simp [State.args, hdata, NetworkRequest.vif, NetworkRequest.params]
  | apEnable r =>
    obtain ⟨macAddr, hdata, -⟩ := apEnable_data cfg r s
    have hap : cfg.apMode = true := acceptStep_apMode h rfl
    rw [show morsemicroMgmtApEnable cfg r s = (.ok (), s') by
      simpa [NetworkRequest.op, exec, unlessBuilt, hap] using hexec] at hdata
    dsimp only at hdata
    cases vif <;>
      simp [State.args, hdata, NetworkRequest.vif, NetworkRequest.params, storedAp_toCredentials]

theorem ssidsOn_cons (vif : Vif) (q : NetworkRequest) (qs : List NetworkRequest) :
    ssidsOn vif (q :: qs) =
      if q.vif = vif then q.params.ssid :: ssidsOn vif qs else ssidsOn vif qs := by
  unfold ssidsOn
  by_cases h : q.vif = vif <;> simp [h]

/-- The stored SSID of either vif after a run of accepted requests. -/
theorem schedule_args {cfg : Config} (hsize : WIFI_SSID_MAX_LEN ≤ cfg.ssidSize) (vif : Vif)
    {qs : List NetworkRequest} (hqs : ∀ q ∈ qs, SsidValid q.params.ssid) {s s' : State}
    {w : List UInt8} (hw : (s.args vif).ssid = Terminated.padded 0 w cfg.ssidSize)
    (h : Transition.schedule (acceptStep cfg) s qs = some s') :
    (s'.args vif).ssid = Terminated.padded 0 (Terminated.written w (ssidsOn vif qs)) cfg.ssidSize ∧
      (s'.args vif).ssidLen =
        ((ssidsOn vif qs).getLast?.map List.length).getD (s.args vif).ssidLen := by
  induction qs generalizing s w with
  | nil =>
    cases h
    exact ⟨hw, rfl⟩
  | cons q qs ih =>
    obtain ⟨t, ht, h⟩ := Option.bind_eq_some_iff.mp h
    have hargs := acceptStep_args ht vif
    have hvalid := hqs q List.mem_cons_self
    have hlen : min cfg.ssidSize q.params.ssid.length = q.params.ssid.length :=
      Nat.min_eq_right (hvalid.le.trans hsize)
    rw [ssidsOn_cons]
    by_cases hq : q.vif = vif
    · rw [if_pos hq, storeCredentials_snd, hlen] at hargs
      have ht : (t.args vif).ssid =
          Terminated.padded 0 (Terminated.overlay w q.params.ssid) cfg.ssidSize := by
        rw [hargs, ← memcpy_padded w _ (hvalid.le.trans hsize), hw]
      obtain ⟨hssid, hlast⟩ := ih (fun q' hq' => hqs q' (List.mem_cons_of_mem _ hq')) ht h
      rw [if_pos hq]
      refine ⟨hssid, ?_⟩
      rw [hlast, hargs, List.getLast?_cons]
      cases (ssidsOn vif qs).getLast? <;> rfl
    · rw [if_neg hq] at hargs ⊢
      rw [← hargs] at hw ⊢
      exact ih (fun q' hq' => hqs q' (List.mem_cons_of_mem _ hq')) hw h

/-! ### The status -/

theorem ifaceStatus_ssid (cfg : Config) (env : IfaceStatusEnv) (vif : Vif) (s : State)
    (status : WifiIfaceStatus) (hap : vif = .ap → cfg.apMode = true) :
    (morsemicroMgmtIfaceStatus cfg env vif s status).ssid =
        strncpy status.ssid (s.args vif).ssid WIFI_SSID_MAX_LEN ∧
      (morsemicroMgmtIfaceStatus cfg env vif s status).ssidLen = (s.args vif).ssidLen := by
  unfold morsemicroMgmtIfaceStatus
  cases vif with
  | sta =>
    rw [if_neg (by simp)]
    dsimp only
    split <;> exact ⟨rfl, rfl⟩
  | ap =>
    rw [if_pos ⟨hap rfl, rfl⟩]
    dsimp only
    split <;> exact ⟨rfl, rfl⟩

/-- After a start that cleared the stored arguments and any accepted requests with valid SSIDs,
the status of an interface names the network requested last on it if and only if no SSID
requested on it before is longer. -/
theorem namesNetwork_iff_noneLonger (cfg : Config) (hsize : WIFI_SSID_MAX_LEN ≤ cfg.ssidSize)
    (s s' : State) (vif : Vif) (qs : List NetworkRequest) (ssid : List UInt8)
    (env : IfaceStatusEnv) (status : WifiIfaceStatus)
    (hclear : (s.args vif).ssid = List.replicate cfg.ssidSize 0)
    (hqs : ∀ q ∈ qs, SsidValid q.params.ssid)
    (hrun : Transition.schedule (acceptStep cfg) s qs = some s')
    (hlast : (ssidsOn vif qs).getLast? = some ssid)
    (hzero : status.ssid = List.replicate (WIFI_SSID_MAX_LEN + 1) 0) :
    NamesNetwork (morsemicroMgmtIfaceStatus cfg env vif s' status) ssid ↔
      ∀ q ∈ ssidsOn vif qs, q.length ≤ ssid.length := by
  have hvalid : ∀ q ∈ ssidsOn vif qs, SsidValid q := by
    intro q hq
    obtain ⟨r, hr, rfl⟩ := List.mem_map.mp hq
    exact hqs r (List.mem_of_mem_filter hr)
  have hap : vif = .ap → cfg.apMode = true := by
    rintro rfl
    obtain ⟨r, hr, -⟩ := List.mem_map.mp (List.mem_of_getLast? hlast)
    obtain ⟨hr, hvif⟩ := List.mem_filter.mp hr
    obtain ⟨t, t', ht⟩ := Transition.schedule_mem hrun hr
    exact acceptStep_apMode ht (by simpa using hvif)
  have hstart : (s.args vif).ssid = Terminated.padded 0 [] cfg.ssidSize := by
    rw [hclear, Terminated.padded, List.nil_append]
    rfl
  obtain ⟨hargs, hargsLen⟩ := schedule_args hsize vif hqs hstart hrun
  obtain ⟨hssid, hlen⟩ := ifaceStatus_ssid cfg env vif s' status hap
  -- the status has all of what the requests have written
  have hname : cString (morsemicroMgmtIfaceStatus cfg env vif s' status).ssid =
      Terminated.written [] (ssidsOn vif qs) := by
    have hnonzero : ∀ b ∈ Terminated.written [] (ssidsOn vif qs), b ≠ 0 :=
      Terminated.written_ne (by simp) fun q hq => (hvalid q hq).nonzero
    have hle : (Terminated.written [] (ssidsOn vif qs)).length ≤ WIFI_SSID_MAX_LEN :=
      (Terminated.written_length_le_iff _ _ _).mpr ⟨Nat.zero_le _, fun q hq => (hvalid q hq).le⟩
    rw [cString_eq_read, hssid, hargs, strncpy_padded hnonzero hle hsize, hzero,
      List.drop_replicate, Terminated.padded, List.append_assoc, List.replicate_append_replicate]
    exact Terminated.read_append_replicate hnonzero _
  rw [hlast] at hargsLen
  rw [← Terminated.written_eq_last_iff _ hlast, ← hname]
  refine ⟨?_, ?_⟩
  · intro h
    exact h.name
  · intro h
    exact ⟨h, hlen.trans hargsLen⟩

/-! ### Two networks, one after the other -/

/-- The US driver, its SSID buffers as large as mmwlan's, and cleared by a start. -/
def usZeroed : Config :=
  { usConfig with
    staArgsInit.ssid := List.replicate 32 0
    apArgsInit.ssid := List.replicate 32 0 }

def usZeroedStarted : State :=
  (exec usZeroed setUs (boot usZeroed (usEnv .success .success) usCold)).2

def zeroedStatus : WifiIfaceStatus where
  state := .disconnected
  ssid := List.replicate 33 0
  ssidLen := 0
  bssid := List.replicate 6 0
  band := .unknown
  channel := 0
  ifaceMode := .infra
  linkMode := .unknown
  security := .none
  mfp := .disable
  rssi := 0
  beaconInterval := 0

def usStatusEnv : IfaceStatusEnv := ⟨-40, id, id⟩

/-- A connect request for a network of this name, accepted. -/
def connectTo (ssid : List UInt8) : NetworkRequest :=
  .connect { homeParams with ssid } .success

theorem namesNetwork_iff_noneLonger_longer :
    ∃ s, Transition.schedule (acceptStep usZeroed) usZeroedStarted
        [connectTo [0x61, 0x70], connectTo [0x68, 0x6F, 0x6D, 0x65]] = some s ∧
      NamesNetwork (morsemicroMgmtIfaceStatus usZeroed usStatusEnv .sta s zeroedStatus)
        [0x68, 0x6F, 0x6D, 0x65] := by
  have hvalid : ∀ q ∈ [connectTo [0x61, 0x70], connectTo [0x68, 0x6F, 0x6D, 0x65]],
      SsidValid q.params.ssid := by
    intro q hq
    rcases List.mem_pair.mp hq with rfl | rfl
    · exact ⟨by decide, by decide, by simp [connectTo, NetworkRequest.params]⟩
    · exact ⟨by decide, by decide, by simp [connectTo, NetworkRequest.params]⟩
  refine ⟨_, rfl, ?_⟩
  refine (namesNetwork_iff_noneLonger usZeroed (by decide) usZeroedStarted _ .sta _ _ usStatusEnv
    zeroedStatus rfl hvalid rfl rfl rfl).mpr ?_
  intro q hq
  change q ∈ [[0x61, 0x70], [0x68, 0x6F, 0x6D, 0x65]] at hq
  rcases List.mem_pair.mp hq with rfl | rfl <;> decide

/-- A connection to `home` and then to `ap`: the status says `apme`, of length 2. -/
theorem shorterSsid_not_namesNetwork :
    ∃ s, Transition.schedule (acceptStep usZeroed) usZeroedStarted
        [connectTo [0x68, 0x6F, 0x6D, 0x65], connectTo [0x61, 0x70]] = some s ∧
      cString (morsemicroMgmtIfaceStatus usZeroed usStatusEnv .sta s zeroedStatus).ssid =
        [0x61, 0x70, 0x6D, 0x65] ∧
      (morsemicroMgmtIfaceStatus usZeroed usStatusEnv .sta s zeroedStatus).ssidLen = 2 ∧
      ¬ NamesNetwork (morsemicroMgmtIfaceStatus usZeroed usStatusEnv .sta s zeroedStatus)
        [0x61, 0x70] := by
  have hread : ∀ status : WifiIfaceStatus, cString status.ssid = [0x61, 0x70, 0x6D, 0x65] →
      ¬ NamesNetwork status [0x61, 0x70] := by
    intro status hread h
    cases hread.symm.trans h.name
  exact ⟨_, rfl, by decide, rfl, hread _ (by decide)⟩

end MmIot
