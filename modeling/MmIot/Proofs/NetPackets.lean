import MmIot.Proofs.Radio
import MmIot.Spec.NetPackets

/-! Every packet buffer is given back or handed on once, and what goes through the driver is
what came in. -/

namespace MmIot

open Ownership Transition

/-- A call gives back all it had. -/
def EndsEmpty (result : PktResult) (own : Finset (PktMem × ℕ)) (es : List PktEvent) : Prop :=
  own = ∅ ∧ result.Emits es

@[simp] theorem endsEmpty_tx {vif : Vif} {bytes : List UInt8} {ret : Except Errno Unit}
    {own : Finset (PktMem × ℕ)} {es : List PktEvent} :
    EndsEmpty (.tx vif bytes ret) own es ↔ own = ∅ ∧ (es = [] ∨ es = [.tx vif bytes]) ∧
      (ret = .ok () → es = [.tx vif bytes]) := Iff.rfl

@[simp] theorem endsEmpty_rx {vif : Vif} {bytes : List UInt8} {delivered : Bool}
    {own : Finset (PktMem × ℕ)} {es : List PktEvent} :
    EndsEmpty (.rx vif bytes delivered) own es ↔
      own = ∅ ∧ es = if delivered then [.rx vif bytes] else [] := Iff.rfl

/-- A call keeps to the buffers it has, if copies are what was to be copied. -/
abbrev KeepsBuffers (p : PktProg) (own : Finset (PktMem × ℕ)) (mem : PktMem × ℕ → List UInt8)
    (es : List PktEvent) : Prop :=
  Meets PktCall.Copies EndsEmpty p own mem es

variable {mem : PktMem × ℕ → List UInt8}

theorem endsEmpty_failed {vif : Vif} {pkt : List UInt8} {e : Errno} :
    EndsEmpty (.tx vif pkt (.error e)) ∅ [] := by
  simp

theorem meets_mmnetifVifTx (vif : Vif) (pkt : List UInt8) :
    KeepsBuffers (mmnetifVifTxProg vif pkt) ∅ mem [] := by
  intro status _
  dsimp only
  split
  · exact endsEmpty_failed
  refine ⟨endsEmpty_failed, fun txPkt _ _ => meets_touch.mpr ⟨by simp, ?_⟩⟩
  rintro ⟨ret, filled⟩ hcopies
  refine ⟨by simp, meets_touch.mpr ⟨by simp, ?_⟩⟩
  cases ret with
  | error e => exact ⟨by simp, by simp⟩
  | ok _ =>
    have hfilled : filled = pkt := hcopies rfl
    subst hfilled
    refine meets_load.mpr ⟨by simp, by simp, fun status _ => ?_⟩
    simp

theorem meets_mmnetifTx (cfg : Config) (state : MmwlanState) (vif : Vif) (pkt : List UInt8) :
    KeepsBuffers (mmnetifTxProg cfg state vif pkt) ∅ mem [] := by
  unfold mmnetifTxProg
  split_ifs
  · exact endsEmpty_failed
  · exact endsEmpty_failed
  · exact meets_mmnetifVifTx vif pkt

theorem meets_mmnetifRxDone {mmpkt : ℕ} {result : PktResult} {es : List PktEvent}
    (hes : result.Emits es) :
    KeepsBuffers (mmnetifRxDoneProg mmpkt result) {(.mmpkt, mmpkt)} mem es := by
  simp [mmnetifRxDoneProg, EndsEmpty, hes]

/-- The network stack's buffer is given back or taken over first. -/
theorem meets_release_netPkt {mmpkt pkt : ℕ} {result : PktResult} {es : List PktEvent}
    (hes : result.Emits es) :
    KeepsBuffers (.release (.netPkt, pkt) (mmnetifRxDoneProg mmpkt result))
      (insert (.netPkt, pkt) {(.mmpkt, mmpkt)}) mem es := by
  refine ⟨Finset.mem_insert_self _ _, ?_⟩
  rw [Finset.erase_insert (by simp)]
  exact meets_mmnetifRxDone hes

/-- What is delivered is what is in the packet that mmwlan received. -/
theorem meets_mmnetifRx (vif : Vif) (iface : Bool) {data : List UInt8} {mmpkt : ℕ}
    (hdata : mem (.mmpkt, mmpkt) = data) :
    KeepsBuffers (mmnetifRxProg vif iface mmpkt (.rx vif data)) {(.mmpkt, mmpkt)} mem [] := by
  cases iface with
  | false => simp [mmnetifRxProg]
  | true =>
    refine meets_touch.mpr ⟨by simp, meets_mmnetifRxDone rfl, fun pkt hpkt _ => ?_⟩
    refine meets_load.mpr ⟨by simp, ?_⟩
    rintro ⟨ret, filled⟩ hcopies
    refine meets_store.mpr ⟨by simp, ?_⟩
    cases ret with
    | error e => exact meets_release_netPkt rfl
    | ok _ =>
      have hfilled : filled = data := by
        rw [hcopies rfl, Function.update_of_ne (by simp), hdata]
      subst hfilled
      intro ret _
      cases ret with
      | error e => exact meets_release_netPkt rfl
      | ok _ =>
        refine meets_load.mpr ⟨by simp, ?_⟩
        rw [meets_emit, Function.update_self]
        exact meets_release_netPkt rfl

theorem meets_pktStart (cfg : Config) (o : PktStart) : KeepsBuffers (o.prog cfg) ∅ mem [] := by
  cases o with
  | tx state vif pkt => exact meets_mmnetifTx cfg state vif pkt
  | rx vif iface data =>
    refine ⟨⟨rfl, rfl⟩, fun mmpkt _ _ => ⟨by simp, ?_⟩⟩
    exact meets_mmnetifRx vif iface (Function.update_self ..)

/-- However many calls are under way and whatever fails, no buffer is used or released by a call
that does not have it, none is left when the calls have returned, and each call passed on the
bytes it was called with, as they stand in its buffer then: once if it succeeded, and at most
once if not. -/
theorem netPackets_accounted (cfg : Config) {s : PktPool}
    (hs : Reach (· = Pool.empty mem) (PktGuard cfg) pktStep s) :
    s.fault = false ∧ ((∀ p ∈ s.progs, ∃ result, p = Prog.ret result) → s.live = ∅) ∧
      ∀ (i : ℕ) (result : PktResult), s.progs[i]? = some (Prog.ret result) →
        result.Emits (s.emitted i) := by
  obtain ⟨own, hown⟩ : ∃ own, s.Owned PktCall.Copies EndsEmpty own := by
    refine Pool.owned_of_reach (fun s p mem hg => ?_) (fun _ m _ _ _ _ _ _ => m.elim)
      (fun _ i q ans hg => hg.answer i q ans rfl) hs
    obtain ⟨o, rfl⟩ := hg.start p rfl
    exact meets_pktStart cfg o
  refine ⟨hown.fault, fun hrest => ?_, fun i result hi => (hown.meets i _ hi).2⟩
  rw [Finset.eq_empty_iff_forall_notMem]
  intro r hr
  obtain ⟨i, hi⟩ := (hown.live r).mp hr
  have hempty : own i = ∅ := by
    rcases Nat.lt_or_ge i s.progs.length with hlt | hge
    · obtain ⟨result, hresult⟩ := hrest _ (List.getElem_mem hlt)
      have hget : s.progs[i]? = some (Prog.ret result) := by
        rw [List.getElem?_eq_getElem hlt, hresult]
      exact (hown.meets i _ hget).1
    · exact (hown.unused i hge).1
  rw [hempty] at hi
  exact Finset.notMem_empty r hi

/-- A station's transmission, and a reception that finds no room in the network stack. -/
def txRxRun : List PktAct :=
  [.start (PktStart.prog usConfig (.tx .initialized .sta [1, 2])),
    .start (PktStart.prog usConfig (.rx .ap true [3])), .answer 0 .waitUntilReady .success,
    .acquire 1 (some 8), .acquire 0 (some 7), .run 1, .run 1, .run 0, .acquire 1 none,
    .answer 0 (.netPktRead [1, 2]) (.ok (), [1, 2]), .run 0, .run 0, .run 1, .run 0, .run 0, .run 0,
    .run 1, .answer 0 .txPkt .success]

theorem netPackets_accounted_txRxRun :
    ∃ s, schedule pktStep (Pool.empty fun _ => []) txRxRun = some s ∧ s.fault = false ∧
      s.emitted 0 = [.tx .sta [1, 2]] ∧ s.emitted 1 = [] := by
  refine ⟨_, rfl, ?_⟩
  have hguard : ∀ s, ∀ a ∈ txRxRun, PktGuard usConfig s a := by
    intro s a ha
    refine ⟨fun p hp => ?_, fun i q ans hans => ?_⟩
    · subst hp
      simp [txRxRun] at ha
      rcases ha with rfl | rfl
      · exact ⟨_, rfl⟩
      · exact ⟨_, rfl⟩
    · subst hans
      simp [txRxRun] at ha
      rcases ha with ⟨-, rfl, h⟩ | ⟨-, rfl, h⟩ | ⟨-, rfl, h⟩
      · trivial
      · cases h
        exact fun _ => rfl
      · trivial
  have hreach : Reach (· = Pool.empty fun _ => []) (PktGuard usConfig) pktStep _ :=
    .of_schedule (.start rfl) txRxRun hguard rfl
  have h := netPackets_accounted usConfig hreach
  have htx := h.2.2 0 (.tx .sta [1, 2] (.ok ())) rfl
  have hrx := h.2.2 1 (.rx .ap [3] false) rfl
  exact ⟨h.1, htx.2 rfl, hrx⟩

/-! ### One transmission -/

/-- What a transmission meets, for the calls it makes. -/
def TxEnv.ans (env : TxEnv) : ∀ q : PktCall, q.Ans
  | .waitUntilReady => env.waitUntilReady
  | .netPktRead pkt => (env.read, pkt)
  | .txPkt => env.txPkt
  | .netPktWrite data => (.ok (), data)
  | .netRecvData => .ok ()

theorem mmnetifVifTxProg_result (vif : Vif) (pkt : List UInt8) (env : TxEnv) (s : State) :
    (mmnetifVifTxProg vif pkt).result (fun _ => if env.alloc then some 0 else none) env.ans mem =
      .tx vif pkt (mmnetifVifTx vif env s).1 := by
  obtain ⟨pktLen, waitUntilReady, alloc, read, txPkt⟩ := env
  simp only [mmnetifVifTxProg, mmnetifVifTx, Prog.result, Prog.touch, TxEnv.ans]
  cases mmwlanErrToErrno waitUntilReady with
  | error e => rfl
  | ok _ =>
    cases alloc with
    | false => rfl
    | true =>
      cases read with
      | error e => rfl
      | ok _ => rfl

/-- On its own, a transmission returns what the model of the driver's state says. -/
theorem mmnetifTxProg_result (cfg : Config) (vif : Vif) (env : TxEnv) (s : State)
    {pkt : List UInt8} (hlen : pkt.length = env.pktLen) :
    (mmnetifTxProg cfg s.data.mmwlanState vif pkt).result
        (fun _ => if env.alloc then some 0 else none) env.ans mem =
      .tx vif pkt (mmnetifTxOn vif cfg env s).1 := by
  rw [mmnetifTxProg, mmnetifTxOn, hlen]
  by_cases hstate : s.data.mmwlanState = .uninitialized
  · rw [if_pos hstate, if_pos hstate]
    rfl
  rw [if_neg hstate, if_neg hstate]
  by_cases hmax : cfg.ethMaxFrameSize < env.pktLen
  · rw [if_pos hmax, if_pos hmax]
    rfl
  rw [if_neg hmax, if_neg hmax]
  exact mmnetifVifTxProg_result vif pkt env s

end MmIot
