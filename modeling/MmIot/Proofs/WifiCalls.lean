import MmIot.Spec.WifiCalls

/-! When the blocking calls of the samples return for their own request: the semaphores keep an
event that nobody waited for, and the next call takes it for its answer. -/

namespace MmIot

open Transition Latch

variable (cfg : Config) {s s' : State}

/-! ### The events of an operation -/

theorem wlanStartBoot_events (env : StartEnv) (cc : Country) :
    (wlanStartBoot cfg env cc s).2.events = s.events := by
  unfold wlanStartBoot
  split
  · rfl
  · split
    · rfl
    · dsimp only
      split <;> rfl

theorem wlanStartAp_events (env : StartEnv) : (wlanStartAp cfg env s).2.events = s.events := by
  unfold wlanStartAp
  split
  · dsimp only
    split
    · rfl
    · split <;> rfl
  · rfl

theorem wlanStartFinish_events (env : StartEnv) :
    (wlanStartFinish cfg env s).2.events = s.events := by
  unfold wlanStartFinish
  split <;> rfl

theorem wlanStartConfigure_events (env : StartEnv) :
    (wlanStartConfigure cfg env s).2.events = s.events := by
  unfold wlanStartConfigure
  split
  · rfl
  split
  · rfl
  dsimp only
  split
  · rfl
  split
  · rfl
  have hap := wlanStartAp_events cfg env
    (s := ((s.setMacAddr env.macAddr).registerRxCb .sta).registerStateCb .sta)
  split
  · next _ _ hstart => exact (congrArg (fun p => p.2.events) hstart).symm.trans hap
  · next _ s₁ hstart =>
    rw [wlanStartFinish_events]
    exact (congrArg (fun p => p.2.events) hstart).symm.trans hap

theorem morsemicroWlanStart_events (env : StartEnv) (cc : Country) :
    (morsemicroWlanStart cfg env cc s).2.events = s.events := by
  have hboot := wlanStartBoot_events cfg (s := s) env cc
  unfold morsemicroWlanStart
  split
  · next _ _ h => exact (congrArg (fun p => p.2.events) h).symm.trans hboot
  · next _ s₁ h =>
    rw [wlanStartConfigure_events]
    exact (congrArg (fun p => p.2.events) h).symm.trans hboot

theorem morsemicroMgmtRegDomainSet_events (r : RegDomainSet) :
    (morsemicroMgmtRegDomainSet cfg r s).2.events = s.events := by
  have hswitch : (switchRegion cfg r s).2.events = s.events := by
    unfold switchRegion
    dsimp only
    split
    · dsimp only
      split <;> rfl
    · exact morsemicroWlanStart_events _ _ _
  unfold morsemicroMgmtRegDomainSet
  split
  · rfl
  · dsimp only
    split <;> exact hswitch

theorem morsemicroMgmtConnect_events (p : ConnectReqParams) (status : MmwlanStatus) :
    (morsemicroMgmtConnect cfg p status s).2.events = s.events := by
  unfold morsemicroMgmtConnect
  split
  · rfl
  · split <;> rfl

theorem morsemicroMgmtScan_events (cb : ℕ) (status : MmwlanStatus) :
    (morsemicroMgmtScan cb status s).2.events = s.events := by
  unfold morsemicroMgmtScan
  split
  · rfl
  · dsimp only
    split <;> rfl

/-- A request that is not refused announces that the link is down. -/
theorem morsemicroMgmtDisconnect_events (status : MmwlanStatus) :
    (morsemicroMgmtDisconnect status s).2.events =
      if (morsemicroMgmtDisconnect status s).1 = .ok () then .disconnectResult true :: s.events
      else s.events := by
  unfold morsemicroMgmtDisconnect
  split
  · rfl
  · dsimp only
    split <;> rfl

theorem mmnetifTxOn_events (vif : Vif) (env : TxEnv) :
    (mmnetifTxOn vif cfg env s).2.events = s.events := by
  unfold mmnetifTxOn mmnetifVifTx
  split
  · rfl
  split
  · rfl
  dsimp only
  split
  · rfl
  split
  · rfl
  split <;> rfl

theorem unlessBuilt_events {f : State → Except Errno Unit × State} (built : Bool)
    (h : s.events <:+ (f s).2.events) : s.events <:+ (unlessBuilt built f s).2.events := by
  unfold unlessBuilt
  split
  · exact h
  · exact List.suffix_rfl

/-- Every operation only adds events. -/
theorem exec_events (op : Op) : s.events <:+ (exec cfg op s).2.events := by
  cases op with
  | regDomainSet r => exact (morsemicroMgmtRegDomainSet_events cfg r).symm ▸ List.suffix_rfl
  | scan cb status => exact (morsemicroMgmtScan_events cb status).symm ▸ List.suffix_rfl
  | scanComplete success => exact List.suffix_cons _ _
  | connect p status => exact (morsemicroMgmtConnect_events cfg p status).symm ▸ List.suffix_rfl
  | disconnect status =>
    simp only [exec, morsemicroMgmtDisconnect_events]
    split
    · exact List.suffix_cons _ _
    · exact List.suffix_rfl
  | vifState vif link =>
    unfold exec mmnetifVifState
    dsimp only
    split
    · split
      · exact List.suffix_cons _ _
      · exact List.suffix_rfl
    · exact List.suffix_cons _ _
    · exact List.suffix_rfl
  | apEnable r =>
    refine unlessBuilt_events _ ?_
    unfold morsemicroMgmtApEnable
    dsimp only
    split
    · exact List.suffix_rfl
    split
    · exact List.suffix_rfl
    split
    · exact List.suffix_cons _ _
    · split <;> exact List.suffix_cons _ _
  | apDisable status =>
    refine unlessBuilt_events _ ?_
    unfold morsemicroMgmtApDisable
    split
    · exact List.suffix_rfl
    · dsimp only
      split <;> exact List.suffix_cons _ _
  | apConfigParams maxNumSta =>
    refine unlessBuilt_events _ ?_
    unfold morsemicroMgmtApConfigParams
    split <;> exact List.suffix_rfl
  | s1gBandwidth request =>
    refine unlessBuilt_events _ ?_
    unfold morsemicroMgmtS1gBandwidth
    split
    · split <;> exact List.suffix_rfl
    · exact List.suffix_rfl
  | tx env => exact (mmnetifTxOn_events cfg .sta env).symm ▸ List.suffix_rfl
  | txAp env =>
    exact unlessBuilt_events _ ((mmnetifTxOn_events cfg .ap env).symm ▸ List.suffix_rfl)

/-! ### What is pending -/

/-- The driver has raised the event, and in its place. -/
def State.Raised (s : State) (e : StampedEvent) : Prop := s.events.reverse[e.2]? = some e.1

theorem State.Raised.lt {e : StampedEvent} (h : s.Raised e) : e.2 < s.events.length := by
  have hlt := (List.getElem?_eq_some_iff.mp h).1
  rwa [List.length_reverse] at hlt

theorem State.Raised.mono {e : StampedEvent} (h : s.Raised e) (hle : s.events <:+ s'.events) :
    s'.Raised e := by
  obtain ⟨es, hes⟩ := List.reverse_prefix.mpr hle
  rw [State.Raised, ← hes, List.getElem?_append_left (by rw [List.length_reverse]; exact h.lt)]
  exact h

variable {k : WifiWait} {r r' t t' : WifiRun}

theorem newEvents_eq (h : s.events <:+ s'.events) :
    ∃ es, s'.events = es ++ s.events ∧
      s.newEvents s' = es.reverse.zipIdx s.events.length := by
  obtain ⟨es, hes⟩ := h
  have hlen : s'.events.length - s.events.length = es.length := by
    rw [← hes, List.length_append]
    omega
  refine ⟨es, hes.symm, ?_⟩
  rw [State.newEvents, hlen, ← hes, List.take_left]

theorem newEvents_count (h : s.events <:+ s'.events) :
    s.raised k + countOf StampedEvent.wait k (s.newEvents s') = s'.raised k := by
  obtain ⟨es, hes, hnew⟩ := newEvents_eq h
  have hfst : countOf StampedEvent.wait k (es.reverse.zipIdx s.events.length) =
      countOf WifiEvent.wait k es.reverse := by
    conv_rhs => rw [← List.zipIdx_map_fst s.events.length es.reverse]
    rw [countOf, countOf, List.countP_map]
    rfl
  rw [hnew, hfst, State.raised, State.raised, hes]
  simp only [countOf, List.countP_reverse, List.countP_append]
  omega

/-- The new events come behind those of before. -/
theorem newEvents_raised (h : s.events <:+ s'.events) {e : StampedEvent}
    (he : e ∈ s.newEvents s') : s'.Raised e ∧ s.events.length ≤ e.2 := by
  obtain ⟨es, hes, hnew⟩ := newEvents_eq h
  rw [hnew, List.mem_zipIdx_iff_le_and_getElem?_sub] at he
  refine ⟨?_, he.1⟩
  rw [State.Raised, hes, List.reverse_append,
    List.getElem?_append_right (by rw [List.length_reverse]; exact he.1), List.length_reverse]
  exact he.2

/-- An operation's events are all put in the queue. -/
theorem serve_pending (op : Op) : (r.serve cfg op).2.box.pending StampedEvent.wait k +
    r.driver.raised k =
      r.box.pending StampedEvent.wait k + (r.serve cfg op).2.driver.raised k := by
  have hcount := newEvents_count (k := k) (exec_events cfg (s := r.driver) op)
  simp only [WifiRun.serve, pending_post]
  omega

theorem serve_raised (op : Op) : r.driver.raised k ≤ (r.serve cfg op).2.driver.raised k := by
  have hcount := newEvents_count (k := k) (exec_events cfg (s := r.driver) op)
  simp only [WifiRun.serve]
  omega

/-- What is pending was raised by the driver, and what a semaphore was given for is of its
kind. -/
def WifiRun.Stamped (r : WifiRun) : Prop :=
  r.box.AllPending StampedEvent.wait r.driver.Raised

theorem WifiRun.Stamped.serve (h : r.Stamped) (op : Op) : (r.serve cfg op).2.Stamped := by
  have hle := exec_events cfg (s := r.driver) op
  exact (Box.AllPending.mono h fun _ he => he.mono hle).post fun _ he => (newEvents_raised hle he).1

/-- A call waits, and nothing of its kind from before `n` is pending. -/
structure WifiRun.Fresh (n : ℕ) (k : WifiWait) (r : WifiRun) : Prop where
  waiting : r.waiting = some k
  raised : n ≤ r.driver.events.length
  only : r.box.Only StampedEvent.wait k fun e => n ≤ e.2

theorem WifiRun.Fresh.serve {n : ℕ} (hraised : n ≤ r.driver.events.length)
    (honly : r.box.Only StampedEvent.wait k fun e => n ≤ e.2) (op : Op) :
    n ≤ (r.serve cfg op).2.driver.events.length ∧
      (r.serve cfg op).2.box.Only StampedEvent.wait k fun e => n ≤ e.2 := by
  have hle := exec_events cfg (s := r.driver) op
  exact ⟨hraised.trans hle.length_le,
    honly.post fun _ he => hraised.trans (newEvents_raised hle he).2⟩

variable {cfg}

/-- While a call waits, only newer events come. -/
theorem WifiRun.Fresh.step {n : ℕ} {a : WifiAction} (h : r.Fresh n k) (hg : StillWaiting r a)
    (hstep : wifiStep cfg r a = some r') : r'.Fresh n k := by
  cases a with
  | serve op =>
    cases hstep
    obtain ⟨hraised, honly⟩ := WifiRun.Fresh.serve cfg h.raised h.only op
    exact ⟨h.waiting, hraised, honly⟩
  | deliver lost =>
    obtain ⟨box, hbox, rfl⟩ := Option.map_eq_some_iff.mp hstep
    exact ⟨h.waiting, h.raised, h.only.deliver hbox⟩
  | call c => exact hg.elim
  | wake => exact hg.elim
  | timeout => exact hg.elim

theorem StillWaiting.waiting (h : Reach (· = r) StillWaiting (wifiStep cfg) t) :
    t.waiting = r.waiting := by
  induction h with
  | start h => rw [h]
  | @next t t' a _ hg hstep ih =>
    rw [← ih]
    cases a with
    | serve op =>
      cases hstep
      rfl
    | deliver lost =>
      obtain ⟨box, -, rfl⟩ := Option.map_eq_some_iff.mp hstep
      rfl
    | call c => exact hg.elim
    | wake => exact hg.elim
    | timeout => exact hg.elim

/-- A call returns 0 for the event its semaphore was given for. -/
theorem wake_latch (h : wifiStep cfg r .wake = some r') (hk : r.waiting = some k) :
    ∃ e, r.box.latch k = some e := by
  simp only [wifiStep, hk, Option.bind_some, Option.map_eq_some_iff, Box.take] at h
  obtain ⟨box, hbox, -⟩ := h
  exact Option.isSome_iff_exists.mp (Option.ite_none_right_eq_some.mp hbox).1

variable (cfg) in
/-- The event that is next wakes the call without anything else happening. -/
theorem exists_wake {e : StampedEvent} (hk : r.waiting = some k)
    (h : r.box.next StampedEvent.wait k = some e) :
    ∃ t t', Reach (· = r) StillWaiting (wifiStep cfg) t ∧ wifiStep cfg t .wake = some t' ∧
      t.box.latch k = some e := by
  obtain ⟨queue, hq⟩ : ∃ queue, r.box.queue = queue := ⟨_, rfl⟩
  induction queue generalizing r with
  | nil =>
    have hlatch : r.box.latch k = some e := (latch_of_next hq).trans h
    have hwake : wifiStep cfg r .wake = some
        { r with
          box := { r.box with latch := Function.update r.box.latch k none }
          waiting := none
          returned := Function.update r.returned k (r.returned k + 1) } := by
      simp [wifiStep, hk, Box.take, hlatch]
    exact ⟨r, _, .start rfl, hwake, hlatch⟩
  | cons e' es ih =>
    have hdeliver : r.box.deliver StampedEvent.wait false =
        some (Box.handle StampedEvent.wait e' { r.box with queue := es }) := by
      simp [Box.deliver, hq]
    have hstep : wifiStep cfg r (.deliver false) =
        some { r with box := Box.handle StampedEvent.wait e' { r.box with queue := es } } := by
      simp [wifiStep, hdeliver]
    obtain ⟨t, t', hreach, hwake, hlatch⟩ := ih
      (r := { r with box := Box.handle StampedEvent.wait e' { r.box with queue := es } })
      hk ((next_deliver hdeliver).trans h) (handle_queue e')
    have hstart : Reach (· = r) StillWaiting (wifiStep cfg) r := .start rfl
    have hguard : StillWaiting r (.deliver false) := trivial
    exact ⟨t, t', (hstart.next hguard hstep).trans hreach, hwake, hlatch⟩

/-! ### The calls -/

theorem call_serve {c : WifiCall} (h : wifiStep cfg r (.call c) = some r') :
    ∃ waiting, r' = { (r.serve cfg c.op).2 with waiting := waiting } := by
  simp only [wifiStep] at h
  cases hr : r.waiting with
  | some k => simp [hr] at h
  | none =>
    simp only [hr] at h
    split at h
    · next _ r₁ hserve =>
      cases h
      rw [hserve]
      exact ⟨_, rfl⟩
    · next _ r₁ hserve =>
      cases h
      rw [hserve]
      exact ⟨_, rfl⟩

/-- A call that is not refused waits after its operation. -/
theorem call_accepted {c : WifiCall} (h : wifiStep cfg r (.call c) = some r')
    (hwait : r'.waiting = some c.wait) :
    (exec cfg c.op r.driver).1 = .ok () ∧
      r' = { (r.serve cfg c.op).2 with waiting := some c.wait } := by
  simp only [wifiStep] at h
  cases hr : r.waiting with
  | some k => simp [hr] at h
  | none =>
    simp only [hr] at h
    split at h
    · next _ r₁ hserve =>
      cases h
      have hwaiting : (r.serve cfg c.op).2.waiting = none := hr
      rw [hserve] at hwaiting
      cases hwaiting.symm.trans hwait
    · next _ r₁ hserve =>
      cases h
      have hret := congrArg Prod.fst hserve
      rw [hserve]
      exact ⟨hret, rfl⟩

theorem wait_eq_disconnect {c : WifiCall} (h : c.wait = .disconnect) :
    ∃ status, c = .disconnect status := by
  cases c with
  | disconnect status => exact ⟨status, rfl⟩
  | connect | scan => cases h

/-- A disconnect that is not refused is announced. -/
theorem disconnect_raised {c : WifiCall} (hc : c.wait = .disconnect)
    (hok : (exec cfg c.op s).1 = .ok ()) :
    (exec cfg c.op s).2.raised .disconnect = s.raised .disconnect + 1 := by
  obtain ⟨status, rfl⟩ := wait_eq_disconnect hc
  have hevents := morsemicroMgmtDisconnect_events (s := s) status
  simp only [WifiCall.op, exec] at hok ⊢
  rw [if_pos hok] at hevents
  simp [State.raised, hevents, countOf, WifiEvent.wait]

/-- A call of a run whose pending events the driver has raised returns for a new one, whatever
happens, just if none is pending. -/
theorem wifiCall_fresh {c : WifiCall} (hr : r.Stamped) (h : wifiStep cfg r (.call c) = some r')
    (hwait : r'.waiting = some c.wait) :
    (∀ t t', Reach (· = r') StillWaiting (wifiStep cfg) t → wifiStep cfg t .wake = some t' →
      ∃ e, t.box.latch c.wait = some e ∧ r.driver.events.length ≤ e.2) ↔
    r.box.pending StampedEvent.wait c.wait = 0 := by
  obtain ⟨-, rfl⟩ := call_accepted h hwait
  constructor
  · intro hfresh
    by_contra hstale
    obtain ⟨e, he⟩ := Option.isSome_iff_exists.mp
      (next_isSome_iff.mpr (Nat.pos_of_ne_zero hstale))
    obtain ⟨t, t', ht, hwake, hlatch⟩ := exists_wake cfg (k := c.wait) (e := e)
      (r := { (r.serve cfg c.op).2 with waiting := some c.wait }) rfl (next_post _ he)
    obtain ⟨e', he', hle⟩ := hfresh t t' ht hwake
    cases hlatch.symm.trans he'
    exact absurd (hr.next he).lt (Nat.not_lt.mpr hle)
  · intro hnone t t' ht hwake
    have hstart : WifiRun.Fresh r.driver.events.length c.wait
        { (r.serve cfg c.op).2 with waiting := some c.wait } := by
      obtain ⟨hraised, honly⟩ := WifiRun.Fresh.serve cfg le_rfl
        (only_of_pending hnone) c.op
      exact ⟨rfl, hraised, honly⟩
    have hend := ht.invariant (fun _ hs => hs ▸ hstart) fun _ _ _ hs hg hstep => hs.step hg hstep
    obtain ⟨e, he⟩ := wake_latch hwake hend.waiting
    exact ⟨e, he, hend.only.2 e he⟩

theorem StillWaitingLossless.stillWaiting {a : WifiAction} (h : StillWaitingLossless r a) :
    StillWaiting r a := by
  cases a with
  | serve op => trivial
  | deliver lost => trivial
  | call c => exact h.elim
  | wake => exact h.elim
  | timeout => exact h.elim

/-- While it waits, the answer of a disconnect is pending unless it is lost. -/
theorem disconnect_pending {c : WifiCall} (hc : c.wait = .disconnect)
    (h : wifiStep cfg r (.call c) = some r') (hwait : r'.waiting = some c.wait)
    (ht : Reach (· = r') StillWaitingLossless (wifiStep cfg) t) :
    0 < t.box.pending StampedEvent.wait .disconnect := by
  obtain ⟨hok, rfl⟩ := call_accepted h hwait
  induction ht with
  | start ht =>
    subst ht
    have hserve := serve_pending cfg (r := r) (k := .disconnect) c.op
    have hone := disconnect_raised (s := r.driver) hc hok
    simp only [WifiRun.serve] at hserve ⊢
    omega
  | @next t t' a _ hg hstep ih =>
    cases a with
    | serve op =>
      cases hstep
      have hserve := serve_pending cfg (r := t) (k := .disconnect) op
      have hraised := serve_raised cfg (r := t) (k := .disconnect) op
      omega
    | deliver lost =>
      obtain ⟨box, hbox, rfl⟩ := Option.map_eq_some_iff.mp hstep
      cases lost with
      | false => exact (pending_deliver hbox).2 rfl ih
      | true => exact hg.elim
    | call c => exact hg.elim
    | wake => exact hg.elim
    | timeout => exact hg.elim

/-! ### All calls of a run -/

/-- Each call that returned 0 has had an event of its own, and those pending are others. -/
def WifiRun.Paid (r₀ r : WifiRun) : Prop := ∀ k, r.returned k +
  r.box.pending StampedEvent.wait k + r₀.driver.raised k ≤ r.driver.raised k

theorem WifiRun.Paid.step {r₀ : WifiRun} {a : WifiAction} (hr : r₀.Paid r)
    (h : wifiStep cfg r a = some r') : r₀.Paid r' := by
  intro k
  have hk := hr k
  cases a with
  | serve op =>
    cases h
    have hserve := serve_pending cfg (r := r) (k := k) op
    change r.returned k + _ + _ ≤ _
    omega
  | deliver lost =>
    obtain ⟨box, hbox, rfl⟩ := Option.map_eq_some_iff.mp h
    have hle := (pending_deliver (k := k) hbox).1
    dsimp only
    omega
  | call c =>
    obtain ⟨waiting, rfl⟩ := call_serve h
    have hserve := serve_pending cfg (r := r) (k := k) c.op
    change r.returned k + _ + _ ≤ _
    dsimp only
    omega
  | wake =>
    obtain ⟨k', -, h⟩ := Option.bind_eq_some_iff.mp h
    obtain ⟨box, hbox, rfl⟩ := Option.map_eq_some_iff.mp h
    obtain ⟨htaken, hothers⟩ := pending_take StampedEvent.wait hbox
    by_cases hkk : k = k'
    · subst hkk
      simp only [Function.update_self]
      omega
    · have hother := hothers k hkk
      simp only [Function.update_of_ne hkk]
      omega
  | timeout =>
    obtain ⟨k', -, h⟩ := Option.bind_eq_some_iff.mp h
    split_ifs at h
    cases h
    exact hk

theorem WifiRun.Paid.start (h : WifiStart r) : r.Paid r := by
  intro k
  simp [Box.pending, countOf, h.1, h.2.1 k, h.2.2.2 k]

theorem WifiRun.Stamped.step {a : WifiAction} (hr : r.Stamped)
    (h : wifiStep cfg r a = some r') : r'.Stamped := by
  cases a with
  | serve op =>
    cases h
    exact hr.serve cfg op
  | deliver lost =>
    obtain ⟨box, hbox, rfl⟩ := Option.map_eq_some_iff.mp h
    exact Box.AllPending.deliver hr hbox
  | call c =>
    obtain ⟨waiting, rfl⟩ := call_serve h
    exact hr.serve cfg c.op
  | wake =>
    obtain ⟨k', -, h⟩ := Option.bind_eq_some_iff.mp h
    obtain ⟨box, hbox, rfl⟩ := Option.map_eq_some_iff.mp h
    exact Box.AllPending.take hr hbox
  | timeout =>
    obtain ⟨k', -, h⟩ := Option.bind_eq_some_iff.mp h
    split_ifs at h
    cases h
    exact hr

theorem WifiRun.Stamped.start (h : WifiStart r) : r.Stamped := by
  refine ⟨fun e he => ?_, fun k e he => ?_⟩
  · rw [h.1] at he
    cases he
  · rw [h.2.1 k] at he
    cases he

/-- No event serves two calls: as many were raised as calls have returned, and a semaphore was
given for an event of its kind that the driver raised. A call returns for an event raised after
it was made, whatever happens while it waits, exactly if none of its kind is pending when it is
made. That of a disconnect cannot time out without an event being lost. -/
theorem wifiCalls_answered (cfg : Config) :
    (∀ r₀ r, WifiStart r₀ → Reach (· = r₀) anyStep (wifiStep cfg) r →
      ∀ k, r.returned k + r₀.driver.raised k ≤ r.driver.raised k ∧
        ∀ e, r.box.latch k = some e → e.wait = some k ∧ r.driver.Raised e) ∧
    (∀ r₀ r c r', WifiStart r₀ → Reach (· = r₀) anyStep (wifiStep cfg) r →
      wifiStep cfg r (.call c) = some r' → r'.waiting = some c.wait →
      ((∀ t t', Reach (· = r') StillWaiting (wifiStep cfg) t → wifiStep cfg t .wake = some t' →
        ∃ e, t.box.latch c.wait = some e ∧ r.driver.events.length ≤ e.2) ↔
      r.box.pending StampedEvent.wait c.wait = 0)) ∧
    ∀ r status r', wifiStep cfg r (.call (.disconnect status)) = some r' →
      r'.waiting = some .disconnect →
      ∀ t, Reach (· = r') StillWaitingLossless (wifiStep cfg) t → t.box.queue = [] →
        wifiStep cfg t .timeout = none := by
  have hstamped : ∀ r₀ r, WifiStart r₀ → Reach (· = r₀) anyStep (wifiStep cfg) r →
      r.Stamped := fun r₀ r hstart hr =>
    hr.invariant (fun s hs => .start (hs ▸ hstart)) fun _ _ _ hs _ hstep => hs.step hstep
  refine ⟨fun r₀ r hstart hr k => ⟨?_, fun e he => (hstamped r₀ r hstart hr).2 k e he⟩,
    fun r₀ r c r' hstart hr h hwait => wifiCall_fresh (hstamped r₀ r hstart hr) h hwait,
    fun r status r' h hwait t ht hqueue => ?_⟩
  · have hpaid : r₀.Paid r := by
      refine hr.invariant (fun s hs => ?_) fun _ _ _ hpaid _ hstep => hpaid.step hstep
      subst hs
      exact .start hstart
    have hk := hpaid k
    omega
  · have hpending := disconnect_pending rfl h hwait ht
    obtain ⟨e, he⟩ := Option.isSome_iff_exists.mp (next_isSome_iff.mpr hpending)
    have hlatch : t.box.latch .disconnect = some e := (latch_of_next hqueue).trans he
    have hstill : Reach (· = r') StillWaiting (wifiStep cfg) t :=
      ht.mono fun _ _ hg => hg.stillWaiting
    have hkept := (StillWaiting.waiting hstill).trans hwait
    simp [wifiStep, hkept, hlatch]

end MmIot
