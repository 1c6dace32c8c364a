import MmIot.Proofs.SpiFifo

/-! How the timing of the driver and of the SPI bear on a transfer: when the receive FIFO can
overrun, and that a transfer without an error can always be brought to its end. -/

namespace MmIot

open Transition

variable {α C P : Type} [Zero α] {dfs : ℕ} {ctx : SpiCursor dfs C} {port : SpiPort α P}
  {rxBufs : Option (List SpiBuf)} {s s' : SpiState α C}

/-- The driver enters a pass on a pending interrupt only, and no fault occurs. -/
def SpiGuard (port : SpiPort α P) (rxBufs : Option (List SpiBuf)) (s : SpiState α C) :
    SpiAction → Prop
  | .cpu => s.pc = .idle → port.interrupt = true → s.interruptPending port rxBufs = true
  | .fault => False
  | _ => True

/-! ### The frames on their way -/

/-- The frames written that the driver has not taken back. -/
def SpiState.outstanding (s : SpiState α C) : ℕ :=
  s.txFifo.length + s.shift.toList.length + s.rxFifo.length

/-- How many there can be besides those the transmit FIFO holds. -/
def SpiPort.slack (port : SpiPort α P) : ℕ := if port.interrupt then 1 else 2

omit [Zero α] in
theorem slack_pos : 1 ≤ port.slack ∧ port.slack ≤ 2 := by
  unfold SpiPort.slack
  split_ifs <;> simp

/-- A pass takes a frame, if there is one, before it writes one. An interrupt tells that there
is a frame or room for one, so with interrupts one frame less gets on its way. -/
structure Bounded (port : SpiPort α P) (s : SpiState α C) : Prop where
  txFifo : s.txFifo.length ≤ port.txDepth
  outstanding : s.outstanding ≤ port.txDepth + port.slack
  entered : s.pc = .rx → s.rxFifo = [] →
    s.outstanding < port.txDepth + port.slack ∨ s.left = some 0
  atTx : s.pc = .tx → s.outstanding < port.txDepth + port.slack ∨ s.left = some 0

omit [Zero α] in
theorem toList_length_le (o : Option α) : o.toList.length ≤ 1 := by
  cases o <;> simp

omit [Zero α] in
/-- A pass without a frame to take is for a frame to write, if any more are let in. -/
theorem Bounded.enter (h : Bounded port s) (hfifo : s.rxFifo = [])
    (hclean : port.interrupt = true → s.ovr = false ∧ s.fault = false)
    (hpending : port.interrupt = true → s.interruptPending port rxBufs = true) :
    s.outstanding < port.txDepth + port.slack ∨ s.left = some 0 := by
  have hshift := toList_length_le s.shift
  have htx := h.txFifo
  simp only [SpiState.outstanding, hfifo, SpiPort.slack, List.length_nil]
  by_cases hmode : port.interrupt = true
  · obtain ⟨hovr, hfault⟩ := hclean hmode
    have hroom := hpending hmode
    simp [SpiState.interruptPending, hovr, hfault, hfifo, SpiState.txIsNotFull] at hroom
    rw [if_pos hmode]
    rcases hroom with ⟨hroom, -⟩ | ⟨hzero, -⟩
    · omega
    · exact .inr hzero
  · rw [if_neg hmode]
    omega

theorem Bounded.cpu (h : Bounded port s) (hguard : SpiGuard port rxBufs s .cpu)
    (hs : CpuStep ctx port s s') : Bounded port s' := by
  have htx := h.txFifo
  have hall := h.outstanding
  cases hs with
  | enter hpc hclean =>
    exact ⟨htx, hall, fun _ hfifo => h.enter hfifo hclean (hguard hpc), by simp⟩
  | read hpc =>
    have hentered := h.entered hpc
    simp only [SpiState.outstanding] at hall hentered
    rcases hfifo : s.rxFifo with _ | ⟨f, fs⟩
    · have hat := hentered hfifo
      simp only [SpiState.readNextFrame, hfifo] at hat ⊢
      exact ⟨htx, by simpa [SpiState.outstanding, hfifo] using hall, by simp,
        fun _ => by simpa [SpiState.outstanding, hfifo] using hat⟩
    · simp only [SpiState.readNextFrame, hfifo, List.length_cons] at hall ⊢
      refine ⟨htx, ?_, by simp, fun _ => .inl ?_⟩
      all_goals
        simp only [SpiState.outstanding]
        omega
  | send hpc hroom =>
    have hat := h.atTx hpc
    simp only [SpiState.txIsNotFull, Bool.and_eq_true, decide_eq_true_eq, bne_iff_ne] at hroom
    have hlt := hat.resolve_right hroom.2
    refine ⟨?_, ?_, by simp, by simp⟩
    · simp [SpiState.sendNextFrame]
      omega
    · simp [SpiState.sendNextFrame, SpiState.outstanding] at hlt ⊢
      omega
  | drop hpc hfifo =>
    refine ⟨htx, ?_, by simp, by simp⟩
    simp [SpiState.outstanding, hfifo] at hall ⊢
    omega
  | full _ _ | again _ _ _ | flushed _ _ | done _ _ => exact ⟨htx, hall, by simp, by simp⟩
  | error _ _ | complete _ _ _ =>
    exact ⟨htx, hall, by simp [SpiState.complete], by simp [SpiState.complete]⟩

theorem Bounded.step (h : Bounded port s) {a : SpiAction} (hguard : SpiGuard port rxBufs s a)
    (hs : spiStep ctx port s a = some s') : Bounded port s' := by
  cases a with
  | cpu => exact h.cpu hguard (cpu_cases hs)
  | load =>
    obtain ⟨f, fs, hshift, hfifo, rfl, -⟩ := load_cases hs
    have hsame : SpiState.outstanding { s with shift := some f, txFifo := fs } =
        s.outstanding := by
      simp [SpiState.outstanding, hshift, hfifo]
    refine ⟨?_, hsame ▸ h.outstanding, hsame ▸ h.entered, hsame ▸ h.atTx⟩
    have htx := h.txFifo
    rw [hfifo, List.length_cons] at htx
    exact Nat.le_of_succ_le htx
  | finish keep =>
    obtain ⟨f, rxFifo, ovr, hshift, rfl, -, hcase⟩ := finish_cases hs
    have hlen : s.rxFifo.length ≤ rxFifo.length ∧ rxFifo.length ≤ s.rxFifo.length + 1 := by
      rcases hcase with ⟨-, rfl, -⟩ | ⟨-, rfl, -⟩ <;> simp
    have hless : SpiState.outstanding { s with
        shift := none, sent := s.sent ++ [f], rxFifo := rxFifo, ovr := ovr } ≤
          s.outstanding := by
      simp [SpiState.outstanding, hshift]
      omega
    refine ⟨h.txFifo, hless.trans h.outstanding, ?_, ?_⟩
    · intro hpc hnil
      have hfifo : s.rxFifo = [] := by
        change rxFifo = [] at hnil
        rw [hnil] at hlen
        exact List.length_eq_zero_iff.mp (Nat.le_zero.mp hlen.1)
      exact (h.entered hpc hfifo).imp_left hless.trans_lt
    · exact fun hpc => (h.atTx hpc).imp_left hless.trans_lt
  | fault => exact hguard.elim

/-- With room for all of them, no frame is lost. -/
theorem no_overrun_step (hroom : port.txDepth + port.slack ≤ port.rxDepth) (h : Bounded port s)
    (hovr : s.ovr = false) (a : SpiAction) (hs : spiStep ctx port s a = some s') :
    s'.ovr = false := by
  cases a with
  | cpu =>
    cases cpu_cases hs with
    | read _ => cases hfifo : s.rxFifo <;> simp [SpiState.readNextFrame, hfifo, hovr]
    | error _ _ => rfl
    | enter _ _ | send _ _ | full _ _ | again _ _ _ | complete _ _ _ | drop _ _ | flushed _ _
    | done _ _ => exact hovr
  | load =>
    obtain ⟨f, fs, -, -, rfl, -⟩ := load_cases hs
    exact hovr
  | finish keep =>
    obtain ⟨f, rxFifo, ovr, hshift, rfl, -, ⟨hlost, -⟩ | ⟨-, -, rfl⟩⟩ := finish_cases hs
    · have hall := h.outstanding
      simp [SpiState.outstanding, hshift, hovr] at hall hlost
      omega
    · exact hovr
  | fault =>
    cases hs
    exact hovr

/-! ### A pass of the driver -/

/-- From `s`, the transfer can come to `s'`. -/
abbrev Leads (ctx : SpiCursor dfs C) (port : SpiPort α P) (rxBufs : Option (List SpiBuf))
    (s s' : SpiState α C) : Prop :=
  Reach (· = s) (SpiGuard port rxBufs) (spiStep ctx port) s'

theorem Leads.refl (s : SpiState α C) : Leads ctx port rxBufs s s := .start rfl

/-- No error is flagged. -/
def SpiState.Clean (s : SpiState α C) : Prop := s.ovr = false ∧ s.fault = false

/-- Where the check at the end of a pass leads without an error. -/
def SpiState.endPass (ctx : SpiCursor dfs C) (s : SpiState α C) : SpiState α C :=
  if s.transferOngoing ctx then { s with pc := .idle } else s.complete 0

/-- What a pass writes, after what it took. -/
def SpiState.offered (ctx : SpiCursor dfs C) (port : SpiPort α P) (s : SpiState α C) :
    SpiState α C :=
  if s.txIsNotFull port then s.sendNextFrame ctx else s

def SpiState.pass (ctx : SpiCursor dfs C) (port : SpiPort α P) (s : SpiState α C) :
    SpiState α C :=
  ((s.readNextFrame ctx).offered ctx port).endPass ctx

omit [Zero α] in
theorem getErr_clean (h : s.Clean) : s.getErr = (0, s) := by
  simp [SpiState.getErr, h.1, h.2]

omit [Zero α] in
theorem Clean.read (h : s.Clean) : (s.readNextFrame ctx).Clean := by
  cases hfifo : s.rxFifo <;> simpa [SpiState.readNextFrame, hfifo, SpiState.Clean] using h

theorem Clean.offered (h : s.Clean) : (s.offered ctx port).Clean := by
  unfold SpiState.offered
  split_ifs <;> exact h

omit [Zero α] in
theorem Clean.endPass (h : s.Clean) : (s.endPass ctx).Clean := by
  unfold SpiState.endPass
  split_ifs <;> exact h

omit [Zero α] in
theorem readNextFrame_pc (s : SpiState α C) (pc : SpiPc) :
    { s with pc := pc }.readNextFrame ctx = { s.readNextFrame ctx with pc := pc } := by
  cases hfifo : s.rxFifo <;> simp [SpiState.readNextFrame, hfifo]

/-- Where the driver is does not bear on the end of the pass. -/
theorem endPass_offered_pc (s : SpiState α C) (pc : SpiPc) :
    ({ s with pc := pc }.offered ctx port).endPass ctx = (s.offered ctx port).endPass ctx := by
  have hroom : { s with pc := pc }.txIsNotFull port = s.txIsNotFull port := rfl
  simp only [SpiState.offered, hroom]
  split_ifs <;> rfl

theorem leads_cpu (hguard : s.pc ≠ .idle ∨ s.interruptPending port rxBufs = true)
    (hs : spiStep ctx port s .cpu = some s') : Leads ctx port rxBufs s s' := by
  refine (Leads.refl s).next (a := .cpu) ?_ hs
  intro hidle _
  exact hguard.resolve_left (not_not.mpr hidle)

theorem leads_check (hclean : s.Clean) (hpc : s.pc = .check) :
    Leads ctx port rxBufs s (s.endPass ctx) := by
  apply leads_cpu (.inl (by simp [hpc]))
  simp only [spiStep, SpiState.cpu, hpc, getErr_clean hclean, SpiState.endPass]
  cases s.transferOngoing ctx <;> simp

theorem leads_tx (hclean : s.Clean) (hpc : s.pc = .tx) :
    Leads ctx port rxBufs s ((s.offered ctx port).endPass ctx) := by
  have hstep : spiStep ctx port s .cpu = some { s.offered ctx port with pc := .check } := by
    simp only [spiStep, SpiState.cpu, hpc, SpiState.offered]
    split_ifs <;> rfl
  refine (leads_cpu (.inl (by simp [hpc])) hstep).trans ?_
  exact leads_check (Clean.offered hclean) rfl

theorem leads_rx (hclean : s.Clean) (hpc : s.pc = .rx) :
    Leads ctx port rxBufs s (s.pass ctx port) := by
  have hstep : spiStep ctx port s .cpu = some { s.readNextFrame ctx with pc := .tx } := by
    simp only [spiStep, SpiState.cpu, hpc]
  refine (leads_cpu (.inl (by simp [hpc])) hstep).trans ?_
  have htx : Leads ctx port rxBufs { s.readNextFrame ctx with pc := .tx } _ :=
    leads_tx (Clean.read hclean) rfl
  rwa [endPass_offered_pc] at htx

/-- A whole pass, with nothing between its steps. -/
theorem leads_pass (hclean : s.Clean) (hpc : s.pc = .idle)
    (hongoing : s.transferOngoing ctx = true)
    (hpending : s.interruptPending port rxBufs = true) :
    Leads ctx port rxBufs s (s.pass ctx port) := by
  have hstep : spiStep ctx port s .cpu = some { s with pc := .rx } := by
    simp [spiStep, SpiState.cpu, hpc, getErr_clean hclean, hongoing]
  refine (leads_cpu (.inr hpending) hstep).trans ?_
  have hrx : Leads ctx port rxBufs { s with pc := .rx } _ := leads_rx hclean rfl
  rwa [SpiState.pass, readNextFrame_pc, endPass_offered_pc] at hrx

theorem leads_load {f : α} {fs : List α} (hshift : s.shift = none) (hfifo : s.txFifo = f :: fs) :
    Leads ctx port rxBufs s { s with shift := some f, txFifo := fs } := by
  refine (Leads.refl s).next (a := .load) trivial ?_
  simp [spiStep, hshift, hfifo]

/-- A frame that ends while there is room for the answer. -/
theorem leads_finish {f : α} (hshift : s.shift = some f) (hovr : s.ovr = false)
    (hroom : s.rxFifo.length < port.rxDepth) :
    Leads ctx port rxBufs s { s with
      shift := none
      sent := s.sent ++ [f]
      rxFifo := s.rxFifo ++ [port.answer s.sent f] } := by
  refine (Leads.refl s).next (a := .finish true) trivial ?_
  simp [spiStep, SpiState.finish, hshift, hovr, Nat.not_le_of_lt hroom, SpiPort.answer]

/-! ### How far a pass gets -/

variable {txs rxs : List (Option ℕ)}

/-- The frames still to be written and to be taken. -/
def SpiState.work (txs rxs : List (Option ℕ)) (s : SpiState α C) : ℕ :=
  (txs.length - s.handed.length) + (rxs.length - s.got.length)

omit [Zero α] in
theorem FlowInv.ongoing_iff (h : FlowInv ctx port txs rxs s) :
    s.transferOngoing ctx = true ↔ 0 < s.work txs rxs := by
  simp only [SpiState.transferOngoing, Bool.or_eq_true, ctx.on_iff_frames, h.tx, h.rx, ne_eq,
    List.drop_eq_nil_iff, SpiState.work]
  omega

/-- The invariants of a run whose transfer size, if there is one, is `n`. -/
structure RunInv (ctx : SpiCursor dfs C) (port : SpiPort α P) (txs rxs : List (Option ℕ)) (n : ℕ)
    (s : SpiState α C) : Prop where
  flow : FlowInv ctx port txs rxs s
  bounded : Bounded port s
  size : s.left = none ∨ s.Limited n
  idle : s.pc = .idle → 0 < s.work txs rxs

theorem left_none_step (h : s.left = none) (a : SpiAction)
    (hs : spiStep ctx port s a = some s') : s'.left = none := by
  cases a with
  | cpu =>
    cases cpu_cases hs with
    | read _ => cases hfifo : s.rxFifo <;> simp [SpiState.readNextFrame, hfifo, h]
    | send _ _ => simp [SpiState.sendNextFrame, h]
    | enter _ _ | full _ _ | again _ _ _ | error _ _ | complete _ _ _ | drop _ _ | flushed _ _
    | done _ _ => exact h
  | load =>
    obtain ⟨f, fs, -, -, rfl, -⟩ := load_cases hs
    exact h
  | finish keep =>
    obtain ⟨f, rxFifo, ovr, -, rfl, -, -⟩ := finish_cases hs
    exact h
  | fault =>
    cases hs
    exact h

/-- Between two passes there is work left. -/
theorem idle_step (hflow : FlowInv ctx port txs rxs s) (h : s.pc = .idle → 0 < s.work txs rxs)
    (a : SpiAction) (hs : spiStep ctx port s a = some s') :
    s'.pc = .idle → 0 < s'.work txs rxs := by
  cases a with
  | cpu =>
    cases cpu_cases hs with
    | again _ _ hongoing => exact fun _ => hflow.ongoing_iff.mp hongoing
    | enter _ _ | read _ | send _ _ | full _ _ | error _ _ | complete _ _ _ | drop _ _ | flushed _ _
    | done _ _ => exact nofun
  | load =>
    obtain ⟨f, fs, -, -, rfl, hhanded⟩ := load_cases hs
    rwa [SpiState.work, hhanded]
  | finish keep =>
    obtain ⟨f, rxFifo, ovr, -, rfl, hhanded, -⟩ := finish_cases hs
    rwa [SpiState.work, hhanded]
  | fault =>
    cases hs
    exact h

theorem RunInv.step {n : ℕ} (h : RunInv ctx port txs rxs n s) (a : SpiAction)
    (hguard : SpiGuard port rxBufs s a) (hs : spiStep ctx port s a = some s') :
    RunInv ctx port txs rxs n s' := by
  refine ⟨h.flow.step a hs, h.bounded.step hguard hs, ?_, idle_step h.flow h.idle a hs⟩
  rcases h.size with hnone | hlimited
  · exact .inl (left_none_step hnone a hs)
  · exact .inr (hlimited.step a hs)

theorem RunInv.leads {n : ℕ} (h : RunInv ctx port txs rxs n s)
    (hs : Leads ctx port rxBufs s s') : RunInv ctx port txs rxs n s' := by
  induction hs with
  | start heq => exact heq ▸ h
  | next _ hguard hstep ih => exact ih.step _ hguard hstep

omit [Zero α] in
/-- There is room in the transfer size for as long as it is not reached. -/
theorem RunInv.txIsNotFull {n : ℕ} (h : RunInv ctx port txs rxs n s)
    (hroom : s.txFifo.length < port.txDepth) (hn : s.handed.length < n) :
    s.txIsNotFull port = true := by
  simp only [SpiState.txIsNotFull, hroom, decide_true, Bool.true_and, bne_iff_ne]
  rcases h.size with hnone | ⟨m, hm, hsum⟩
  · simp [hnone]
  · simp only [hm, ne_eq, Option.some.injEq]
    omega

variable (ctx port) in
/-- A pass takes a frame if there is one, and writes one if there is room. -/
theorem pass_frame (s : SpiState α C) :
    (s.pass ctx port).got = s.got ++ s.rxFifo.take 1 ∧ (s.pass ctx port).shift = s.shift ∧
      (s.pass ctx port).sent = s.sent ∧ (s.pass ctx port).rxFifo = s.rxFifo.tail ∧
      (s.pass ctx port).handed.length =
        s.handed.length + (if s.txIsNotFull port then 1 else 0) ∧
      ((s.pass ctx port).pc = .idle ∨ (s.pass ctx port).pc = .flush 0) := by
  have hread : (s.readNextFrame ctx).got = s.got ++ s.rxFifo.take 1 ∧
      (s.readNextFrame ctx).shift = s.shift ∧ (s.readNextFrame ctx).sent = s.sent ∧
      (s.readNextFrame ctx).rxFifo = s.rxFifo.tail ∧
      (s.readNextFrame ctx).handed.length = s.handed.length ∧
      (s.readNextFrame ctx).txIsNotFull port = s.txIsNotFull port := by
    cases hfifo : s.rxFifo <;>
      simp [SpiState.readNextFrame, hfifo, SpiState.handed, SpiState.txIsNotFull]
  obtain ⟨hgot, hshift, hsent, hfifo, hhanded, hroom⟩ := hread
  have hend : ∀ t : SpiState α C, (t.endPass ctx).got = t.got ∧ (t.endPass ctx).shift = t.shift ∧
      (t.endPass ctx).sent = t.sent ∧ (t.endPass ctx).rxFifo = t.rxFifo ∧
      (t.endPass ctx).handed = t.handed ∧
      ((t.endPass ctx).pc = .idle ∨ (t.endPass ctx).pc = .flush 0) := by
    intro t
    unfold SpiState.endPass
    split_ifs <;> simp [SpiState.complete, SpiState.handed]
  obtain ⟨hgot', hshift', hsent', hfifo', hhanded', hpc⟩ :=
    hend ((s.readNextFrame ctx).offered ctx port)
  rw [SpiState.pass, hgot', hshift', hsent', hfifo', hhanded', ← hgot, ← hshift, ← hsent, ← hfifo,
    ← hhanded, ← hroom]
  refine ⟨?_, ?_, ?_, ?_, ?_, hpc⟩
  all_goals
    unfold SpiState.offered
    split_ifs
    all_goals simp [SpiState.handed, SpiState.sendNextFrame, Nat.add_assoc]

theorem pass_work (s : SpiState α C) :
    (s.pass ctx port).work txs rxs =
      (txs.length - (s.handed.length + if s.txIsNotFull port then 1 else 0)) +
        (rxs.length - (s.got.length + (s.rxFifo.take 1).length)) := by
  obtain ⟨hgot, -, -, -, hhanded, -⟩ := pass_frame ctx port s
  rw [SpiState.work, hgot, hhanded, List.length_append]

/-! ### A transfer can always go on -/

/-- Between the passes, or past the last one, without an error. -/
structure SpiState.Settled (s : SpiState α C) : Prop where
  pc : s.pc = .idle ∨ s.pc = .flush 0
  clean : s.Clean

omit [Zero α] in
theorem settled_endPass (hclean : s.Clean) : (s.endPass ctx).Settled := by
  refine ⟨?_, Clean.endPass hclean⟩
  unfold SpiState.endPass
  split_ifs
  · exact .inl rfl
  · exact .inr rfl

theorem settled_pass (hclean : s.Clean) : (s.pass ctx port).Settled :=
  settled_endPass (Clean.offered (Clean.read hclean))

/-- The transfer gets on from `s`. -/
def GetsOn (ctx : SpiCursor dfs C) (port : SpiPort α P) (rxBufs : Option (List SpiBuf))
    (txs rxs : List (Option ℕ)) (s : SpiState α C) : Prop :=
  ∃ s', Leads ctx port rxBufs s s' ∧ s'.Settled ∧ s'.work txs rxs < s.work txs rxs

/-- What only moves frames on the way to getting on. -/
theorem GetsOn.of_leads (h : Leads ctx port rxBufs s s')
    (hwork : s'.work txs rxs ≤ s.work txs rxs) (hs : GetsOn ctx port rxBufs txs rxs s') :
    GetsOn ctx port rxBufs txs rxs s := by
  obtain ⟨t, ht, hsettled, hlt⟩ := hs
  exact ⟨t, h.trans ht, hsettled, hlt.trans_le hwork⟩

section Turn

variable {n : ℕ} (hinv : RunInv ctx port txs rxs n s) (hclean : s.Clean) (hpc : s.pc = .idle)

include hinv hclean hpc

/-- Frames to write, and room for one. -/
theorem getsOn_room (hroom : s.txIsNotFull port = true) (hleft : s.handed.length < txs.length) :
    GetsOn ctx port rxBufs txs rxs s := by
  have hongoing : s.transferOngoing ctx = true := by
    rw [hinv.flow.ongoing_iff, SpiState.work]
    omega
  refine ⟨_, leads_pass hclean hpc hongoing ?_, settled_pass hclean, ?_⟩
  · simp [SpiState.interruptPending, hroom]
  · rw [pass_work, if_pos hroom, SpiState.work]
    omega

/-- A frame to take. -/
theorem getsOn_frame (hbufs : rxBufs.isSome = true) (hfifo : s.rxFifo ≠ [])
    (hleft : s.got.length < rxs.length) : GetsOn ctx port rxBufs txs rxs s := by
  have hongoing : s.transferOngoing ctx = true := by
    rw [hinv.flow.ongoing_iff, SpiState.work]
    omega
  refine ⟨_, leads_pass hclean hpc hongoing ?_, settled_pass hclean, ?_⟩
  · simp [SpiState.interruptPending, hbufs, hfifo]
  · have hone : (s.rxFifo.take 1).length = 1 := by
      rw [List.length_take, Nat.min_eq_left (List.length_pos_iff.mpr hfifo)]
    rw [pass_work, hone, SpiState.work]
    omega

/-- A frame on the wire, and nothing else to take. -/
theorem getsOn_shift (hdepth : 0 < port.rxDepth) (hbufs : rxBufs.isSome = true) {f : α}
    (hshift : s.shift = some f) (hfifo : s.rxFifo = []) (hleft : s.got.length < rxs.length) :
    GetsOn ctx port rxBufs txs rxs s := by
  have hstep : Leads ctx port rxBufs s _ := leads_finish hshift hclean.1
    (by simpa [hfifo] using hdepth)
  apply GetsOn.of_leads hstep
  · simp [SpiState.work, SpiState.handed, hshift]
  · apply getsOn_frame (hinv.leads hstep) hclean hpc hbufs _ hleft
    simp

/-- A frame written, and nothing on the wire. -/
theorem getsOn_load (hdepth : 0 < port.rxDepth) (hbufs : rxBufs.isSome = true)
    (hshift : s.shift = none) (htx : s.txFifo ≠ []) (hfifo : s.rxFifo = [])
    (hleft : s.got.length < rxs.length) : GetsOn ctx port rxBufs txs rxs s := by
  obtain ⟨f, fs, htx⟩ := List.exists_cons_of_ne_nil htx
  have hstep : Leads ctx port rxBufs s _ := leads_load hshift htx
  apply GetsOn.of_leads hstep
  · simp [SpiState.work, SpiState.handed, hshift, htx]
  · exact getsOn_shift (hinv.leads hstep) hclean hpc hdepth hbufs rfl hfifo hleft

/-- Nothing on its way: a frame is written, be it one of zeros. -/
theorem getsOn_empty (htxDepth : 0 < port.txDepth) (hdepth : 0 < port.rxDepth)
    (hbufs : rxBufs.isSome = true) (hshift : s.shift = none) (htx : s.txFifo = [])
    (hfifo : s.rxFifo = []) (hleft : s.got.length < rxs.length) (hn : rxs.length ≤ n) :
    GetsOn ctx port rxBufs txs rxs s := by
  have hhanded : s.handed = s.sent := by simp [SpiState.handed, hshift, htx]
  have hgot := congrArg List.length (hinv.flow.fifo (by simp [hpc, SpiPc.InLoop]) hclean.1)
  simp only [hfifo, List.append_nil, answers_length] at hgot
  have hroom : s.txIsNotFull port = true :=
    hinv.txIsNotFull (by simpa [htx] using htxDepth) (by rw [hhanded]; omega)
  by_cases hmore : s.handed.length < txs.length
  · exact getsOn_room hinv hclean hpc hroom hmore
  · have hongoing : s.transferOngoing ctx = true := by
      rw [hinv.flow.ongoing_iff, SpiState.work]
      omega
    have hpass : Leads ctx port rxBufs s _ := leads_pass hclean hpc hongoing
      (by simp [SpiState.interruptPending, hroom])
    apply GetsOn.of_leads hpass
    · rw [pass_work, SpiState.work]
      omega
    · obtain ⟨hgot', hshift', hsent', hfifo', hhanded', hpc'⟩ := pass_frame ctx port s
      have hinv' := hinv.leads hpass
      rw [hfifo, List.take_nil, List.append_nil] at hgot'
      rcases hpc' with hidle | hend
      · apply getsOn_load hinv' (settled_pass hclean).clean hidle hdepth hbufs
        · rw [hshift', hshift]
        · intro hnil
          simp [SpiState.handed, hnil, hshift', hshift, hsent', hroom, htx] at hhanded'
        · rw [hfifo', hfifo]
          rfl
        · rw [hgot']
          exact hleft
      · -- the answer to it is not in yet
        have hrx := (hinv'.flow.succeeded (by rw [hend]; rfl)).2
        rw [hinv'.flow.rx, List.drop_eq_nil_iff, hgot'] at hrx
        omega

/-- There are answers to be taken. -/
theorem getsOn_rx (htxDepth : 0 < port.txDepth) (hdepth : 0 < port.rxDepth)
    (hbufs : rxBufs.isSome = true) (hleft : s.got.length < rxs.length) (hn : rxs.length ≤ n) :
    GetsOn ctx port rxBufs txs rxs s := by
  by_cases hfifo : s.rxFifo = []
  · rcases hshift : s.shift with _ | f
    · by_cases htx : s.txFifo = []
      · exact getsOn_empty hinv hclean hpc htxDepth hdepth hbufs hshift htx hfifo hleft hn
      · exact getsOn_load hinv hclean hpc hdepth hbufs hshift htx hfifo hleft
    · exact getsOn_shift hinv hclean hpc hdepth hbufs hshift hfifo hleft
  · exact getsOn_frame hinv hclean hpc hbufs hfifo hleft

theorem getsOn_tx_load (htxDepth : 0 < port.txDepth) (hshift : s.shift = none)
    (hleft : s.handed.length < txs.length) (hn : txs.length ≤ n) :
    GetsOn ctx port rxBufs txs rxs s := by
  by_cases hroom : s.txFifo.length < port.txDepth
  · exact getsOn_room hinv hclean hpc (hinv.txIsNotFull hroom (by omega)) hleft
  · obtain ⟨f, fs, htx⟩ := List.exists_cons_of_length_pos (show 0 < s.txFifo.length by omega)
    have hstep : Leads ctx port rxBufs s _ := leads_load hshift htx
    have hhanded : SpiState.handed { s with shift := some f, txFifo := fs } = s.handed := by
      simp [SpiState.handed, hshift, htx]
    have hinv' := hinv.leads hstep
    apply GetsOn.of_leads hstep
    · simp [SpiState.work, hhanded]
    · have hbound := hinv.bounded.txFifo
      rw [htx, List.length_cons] at hbound
      apply getsOn_room hinv' hclean hpc (hinv'.txIsNotFull hbound _)
      · rwa [hhanded]
      · rw [hhanded]
        omega

/-- There are frames to be written, with room for the answers that can be in the FIFO then. -/
theorem getsOn_tx (htxDepth : 0 < port.txDepth) (hdepth : port.slack ≤ port.rxDepth)
    (hleft : s.handed.length < txs.length) (hn : txs.length ≤ n) :
    GetsOn ctx port rxBufs txs rxs s := by
  rcases hshift : s.shift with _ | f
  · exact getsOn_tx_load hinv hclean hpc htxDepth hshift hleft hn
  · by_cases hroom : s.txFifo.length < port.txDepth
    · exact getsOn_room hinv hclean hpc (hinv.txIsNotFull hroom (by omega)) hleft
    · have hbound := hinv.bounded.outstanding
      have hstep : Leads ctx port rxBufs s _ := leads_finish hshift hclean.1 (by
        simp [SpiState.outstanding, hshift] at hbound
        omega)
      have hhanded : SpiState.handed { s with
          shift := none
          sent := s.sent ++ [f]
          rxFifo := s.rxFifo ++ [port.answer s.sent f] } = s.handed := by
        simp [SpiState.handed, hshift]
      apply GetsOn.of_leads hstep
      · simp [SpiState.work, hhanded]
      · apply getsOn_tx_load (hinv.leads hstep) hclean hpc htxDepth rfl _ hn
        rwa [hhanded]

end Turn

/-! ### To the end of a transfer -/

theorem leads_flushed (hpc : s.pc = .flush 0) :
    ∃ s', Leads ctx port rxBufs s s' ∧ s'.pc = .busy 0 := by
  induction hfifo : s.rxFifo generalizing s with
  | nil =>
    have hstep : spiStep ctx port s .cpu = some { s with pc := .busy 0 } := by
      simp [spiStep, SpiState.cpu, hpc, hfifo]
    exact ⟨_, leads_cpu (.inl (by simp [hpc])) hstep, rfl⟩
  | cons f fs ih =>
    have hstep : spiStep ctx port s .cpu = some { s with rxFifo := fs } := by
      simp [spiStep, SpiState.cpu, hpc, hfifo]
    obtain ⟨s', hs', hbusy⟩ := ih (s := { s with rxFifo := fs }) hpc rfl
    exact ⟨s', (leads_cpu (.inl (by simp [hpc])) hstep).trans hs', hbusy⟩

/-- The frames that are left go out. -/
theorem leads_done (hpc : s.pc = .busy 0) (hleft : s.left.getD 0 = 0) :
    ∃ s', Leads ctx port rxBufs s s' ∧ s'.pc = .done 0 := by
  induction hn : 2 * s.txFifo.length + s.shift.toList.length using Nat.strongRecOn
    generalizing s with
  | ind n ih =>
    rcases hshift : s.shift with _ | f
    · rcases hfifo : s.txFifo with _ | ⟨f, fs⟩
      · have hstep : spiStep ctx port s .cpu = some { s with pc := .done 0 } := by
          simp [spiStep, SpiState.cpu, hpc, isBusy_eq_false.mpr ⟨hfifo, hshift, hleft⟩]
        exact ⟨_, leads_cpu (.inl (by simp [hpc])) hstep, rfl⟩
      · have hstep : Leads ctx port rxBufs s _ := leads_load hshift hfifo
        have hless : 2 * fs.length + 1 < n := by
          rw [← hn, hfifo, hshift, List.length_cons]
          simp
          omega
        obtain ⟨s', hs', hdone⟩ :=
          ih _ hless (s := { s with shift := some f, txFifo := fs }) hpc hleft rfl
        exact ⟨s', hstep.trans hs', hdone⟩
    · obtain ⟨t, ht⟩ : ∃ t, spiStep ctx port s (.finish true) = some t := by
        simp [spiStep, SpiState.finish, hshift]
      have hstep : Leads ctx port rxBufs s t := (Leads.refl s).next (a := .finish true) trivial ht
      obtain ⟨f, rxFifo, ovr, -, heq, -, -⟩ := finish_cases ht
      have hless : 2 * t.txFifo.length + t.shift.toList.length < n := by
        rw [← hn, hshift, heq]
        simp
      obtain ⟨s', hs', hdone⟩ := ih _ hless (s := t) (heq ▸ hpc) (heq ▸ hleft) rfl
      exact ⟨s', hstep.trans hs', hdone⟩

omit [Zero α] in
/-- Past the last pass, the transfer size is used up. -/
theorem RunInv.left_zero (h : RunInv ctx port txs rxs (max txs.length rxs.length) s)
    (hsucceeded : s.pc.Succeeded) : s.left.getD 0 = 0 := by
  rcases h.size with hnone | ⟨m, hm, hsum⟩
  · simp [hnone]
  · obtain ⟨htx, hrx⟩ := h.flow.succeeded hsucceeded
    have htxlen := List.drop_eq_nil_iff.mp (h.flow.tx.symm.trans htx)
    have hrxlen := List.drop_eq_nil_iff.mp (h.flow.rx.symm.trans hrx)
    have hgot := h.flow.got.length_le
    rw [answers_length] at hgot
    have hsent : s.sent.length ≤ s.handed.length := by
      simp only [SpiState.handed, List.length_append]
      omega
    rw [hm, Option.getD_some]
    omega

theorem completes_of_flush (h : RunInv ctx port txs rxs (max txs.length rxs.length) s)
    (hpc : s.pc = .flush 0) : ∃ s', Leads ctx port rxBufs s s' ∧ s'.pc = .done 0 := by
  obtain ⟨t, ht, hbusy⟩ := leads_flushed (s := s) hpc
  obtain ⟨s', hs', hdone⟩ := leads_done hbusy ((h.leads ht).left_zero (by rw [hbusy]; rfl))
  exact ⟨s', ht.trans hs', hdone⟩

theorem completes_of_settled (htxDepth : 0 < port.txDepth) (hdepth : port.slack ≤ port.rxDepth)
    (hbufs : rxs ≠ [] → rxBufs.isSome = true)
    (hinv : RunInv ctx port txs rxs (max txs.length rxs.length) s) (hs : s.Settled) :
    ∃ s', Leads ctx port rxBufs s s' ∧ s'.pc = .done 0 := by
  induction hn : s.work txs rxs using Nat.strongRecOn generalizing s with
  | ind n ih =>
    rcases hs.pc with hidle | hflush
    · have hwork := hinv.idle hidle
      have hturn : GetsOn ctx port rxBufs txs rxs s := by
        by_cases hrx : s.got.length < rxs.length
        · exact getsOn_rx hinv hs.clean hidle htxDepth (slack_pos.1.trans hdepth)
            (hbufs (List.ne_nil_of_length_pos (by omega))) hrx (le_max_right _ _)
        · simp only [SpiState.work] at hwork
          exact getsOn_tx hinv hs.clean hidle htxDepth hdepth (by omega) (le_max_left _ _)
      obtain ⟨t, ht, hsettled, hlt⟩ := hturn
      obtain ⟨s', hs', hdone⟩ := ih _ (hn ▸ hlt) (hinv.leads ht) hsettled rfl
      exact ⟨s', ht.trans hs', hdone⟩
    · exact completes_of_flush hinv hflush

/-- The transfer was ended with an error. -/
def SpiPc.Failed : SpiPc → Prop
  | .flush status | .busy status | .done status => status ≠ 0
  | _ => False

variable {mem : ℕ → α} {txBufs : Option (List SpiBuf)} {left : Option ℕ}

theorem RunInv.reach (hsize : left = none ∨ left = some (max txs.length rxs.length))
    (htxs : txs = bufSetFrames dfs (txBufs.getD []))
    (hrxs : rxs = bufSetFrames dfs (rxBufs.getD [])) (hlong : 0 < max txs.length rxs.length)
    (hs : Leads ctx port rxBufs (transferSetup ctx txBufs rxBufs left mem) s) :
    RunInv ctx port txs rxs (max txs.length rxs.length) s := by
  refine RunInv.leads ?_ hs
  subst htxs hrxs
  refine ⟨FlowInv.start _ _ _, ⟨Nat.zero_le _, Nat.zero_le _, nofun, nofun⟩, ?_, ?_⟩
  · exact hsize.imp_right fun h => ⟨_, h, rfl⟩
  · intro _
    simp only [SpiState.work, transferSetup, SpiState.handed]
    simp at hlong ⊢
    omega

theorem no_fault (hs : Leads ctx port rxBufs (transferSetup ctx txBufs rxBufs left mem) s) :
    s.fault = false := by
  induction hs with
  | start h => exact h ▸ rfl
  | @next t t' a _ hguard hstep ih =>
    cases a with
    | cpu =>
      cases cpu_cases hstep with
      | read _ => cases hfifo : t.rxFifo <;> simp [SpiState.readNextFrame, hfifo, ih]
      | enter _ _ | send _ _ | full _ _ | again _ _ _ | error _ _ | complete _ _ _ | drop _ _
      | flushed _ _ | done _ _ => exact ih
    | load =>
      obtain ⟨f, fs, -, -, rfl, -⟩ := load_cases hstep
      exact ih
    | finish keep =>
      obtain ⟨f, rxFifo, ovr, -, rfl, -, -⟩ := finish_cases hstep
      exact ih
    | fault => exact hguard.elim

/-- No transfer gets stuck: as long as no frame is lost and nothing fails, it can always be
brought to its end with 0, although the interrupt of the receive FIFO is off without receive
buffers. -/
theorem transfer_completes (htxDepth : 0 < port.txDepth) (hdepth : port.slack ≤ port.rxDepth)
    (htxs : txs = bufSetFrames dfs (txBufs.getD []))
    (hrxs : rxs = bufSetFrames dfs (rxBufs.getD [])) (hlong : 0 < max txs.length rxs.length)
    (hsize : left = none ∨ left = some (max txs.length rxs.length))
    (hs : Leads ctx port rxBufs (transferSetup ctx txBufs rxBufs left mem) s)
    (hovr : s.ovr = false) (hok : ¬ s.pc.Failed) :
    ∃ s', Leads ctx port rxBufs s s' ∧ s'.pc = .done 0 := by
  have hinv := RunInv.reach hsize htxs hrxs hlong hs
  have hclean : s.Clean := ⟨hovr, no_fault hs⟩
  have hbufs : rxs ≠ [] → rxBufs.isSome = true := by
    rintro hne
    cases rxBufs with
    | none => exact absurd hrxs hne
    | some bufs => rfl
  have hgo : ∀ t : SpiState α C, Leads ctx port rxBufs s t → t.Settled →
      ∃ s', Leads ctx port rxBufs s s' ∧ s'.pc = .done 0 := by
    intro t ht hsettled
    obtain ⟨s', hs', hdone⟩ :=
      completes_of_settled htxDepth hdepth hbufs (hinv.leads ht) hsettled
    exact ⟨s', ht.trans hs', hdone⟩
  cases hpc : s.pc with
  | idle => exact hgo s (Leads.refl s) ⟨.inl hpc, hclean⟩
  | rx => exact hgo _ (leads_rx hclean hpc) (settled_pass hclean)
  | tx => exact hgo _ (leads_tx hclean hpc) (settled_endPass (Clean.offered hclean))
  | check => exact hgo _ (leads_check hclean hpc) (settled_endPass hclean)
  | flush status =>
    have hzero : status = 0 := by simpa [hpc, SpiPc.Failed] using hok
    exact completes_of_flush hinv (hzero ▸ hpc)
  | busy status =>
    have hzero : status = 0 := by simpa [hpc, SpiPc.Failed] using hok
    subst hzero
    exact leads_done hpc (hinv.left_zero (by rw [hpc]; rfl))
  | done status =>
    have hzero : status = 0 := by simpa [hpc, SpiPc.Failed] using hok
    exact ⟨s, Leads.refl s, hzero ▸ hpc⟩

theorem transfer_completes_twoFrames : ∃ s : SpiState ℕ BufsLeft,
    Leads (spiContext 1) (doubler 2 2) (some [⟨some 20, 2⟩]) twoFrames s ∧ s.pc = .done 0 :=
  transfer_completes (by decide) (by decide) rfl rfl (by decide) (.inr rfl) (Leads.refl twoFrames)
    rfl id

/-! ### When the receive FIFO overruns -/

variable (ctx port rxBufs) in
/-- A driver that is held up while more frames are outstanding than there is room for. -/
theorem overruns_of_outstanding (hovr : s.ovr = false) (hfits : s.rxFifo.length ≤ port.rxDepth)
    (hmany : port.rxDepth < s.outstanding) :
    ∃ s', Leads ctx port rxBufs s s' ∧ s'.ovr = true := by
  induction hn : 2 * s.txFifo.length + s.shift.toList.length using Nat.strongRecOn
    generalizing s with
  | ind n ih =>
    rcases hshift : s.shift with _ | f
    · rcases hfifo : s.txFifo with _ | ⟨f, fs⟩
      · simp [SpiState.outstanding, hshift, hfifo] at hmany
        omega
      · have hstep : Leads ctx port rxBufs s _ := leads_load hshift hfifo
        have hless : 2 * fs.length + 1 < n := by
          rw [← hn, hfifo, hshift, List.length_cons]
          simp
          omega
        have hmany' : port.rxDepth <
            SpiState.outstanding { s with shift := some f, txFifo := fs } := by
          simpa [SpiState.outstanding, hshift, hfifo, Nat.add_assoc] using hmany
        obtain ⟨s', hs', hlost⟩ :=
          ih _ hless (s := { s with shift := some f, txFifo := fs }) hovr hfits hmany' rfl
        exact ⟨s', hstep.trans hs', hlost⟩
    · by_cases hroom : s.rxFifo.length < port.rxDepth
      · have hstep : Leads ctx port rxBufs s _ := leads_finish hshift hovr hroom
        have hless : 2 * s.txFifo.length < n := by
          rw [← hn, hshift]
          simp
        obtain ⟨s', hs', hlost⟩ := ih _ hless (s := { s with
            shift := none
            sent := s.sent ++ [f]
            rxFifo := s.rxFifo ++ [port.answer s.sent f] }) hovr
          (by simpa using Nat.succ_le_of_lt hroom) (by simp [SpiState.outstanding, hshift] at hmany ⊢; omega) rfl
        exact ⟨s', hstep.trans hs', hlost⟩
      · have hstep : spiStep ctx port s (.finish true) = some
            { s with shift := none, sent := s.sent ++ [f], ovr := true } := by
          simp [spiStep, SpiState.finish, hshift, Nat.le_of_not_lt hroom]
        exact ⟨_, (Leads.refl s).next (a := .finish true) trivial hstep, rfl⟩

/-- The driver has written `k` frames, besides those on the wire, and nothing came back. -/
structure Filled (k onWire : ℕ) (s : SpiState α C) : Prop where
  pc : s.pc = .idle
  clean : s.Clean
  txFifo : s.txFifo.length = k
  shift : s.shift.toList.length = onWire
  sent : s.sent = []
  rxFifo : s.rxFifo = []
  got : s.got = []

section Fill

variable (rxBufs) {n k onWire : ℕ} (hinv : RunInv ctx port txs rxs n s) (h : Filled k onWire s)

omit [Zero α] in
include h in
theorem Filled.handed : s.handed.length = k + onWire := by
  simp only [SpiState.handed, List.length_append, h.sent, h.shift, h.txFifo, List.length_nil]
  omega

include hinv h

theorem filled_pass (hroom : k < port.txDepth) (hn : k + onWire < n)
    (hlong : k + onWire + 1 < max txs.length rxs.length) :
    ∃ s', Leads ctx port rxBufs s s' ∧ Filled (k + 1) onWire s' := by
  have hnotFull := hinv.txIsNotFull (by rw [h.txFifo]; exact hroom) (by rw [h.handed]; exact hn)
  have hongoing := hinv.flow.ongoing_iff.mpr (hinv.idle h.pc)
  have hpass : Leads ctx port rxBufs s _ := leads_pass h.clean h.pc hongoing
    (by simp [SpiState.interruptPending, hnotFull])
  obtain ⟨hgot, hshift, hsent, hfifo, hhanded, hpc⟩ := pass_frame ctx port s
  rw [h.rxFifo, h.got] at hgot
  rw [if_pos hnotFull, h.handed] at hhanded
  refine ⟨_, hpass, ?_, (settled_pass h.clean).clean, ?_, ?_, ?_, ?_, hgot⟩
  · refine hpc.resolve_right fun hend => ?_
    -- there are frames left, so the transfer is not over
    obtain ⟨htx, hrx⟩ := (hinv.leads hpass).flow.succeeded (by rw [hend]; rfl)
    rw [(hinv.leads hpass).flow.tx, List.drop_eq_nil_iff, hhanded] at htx
    rw [(hinv.leads hpass).flow.rx, List.drop_eq_nil_iff, hgot] at hrx
    change rxs.length ≤ 0 at hrx
    omega
  · simp only [SpiState.handed, List.length_append, hsent, hshift, h.sent, h.shift,
      List.length_nil] at hhanded
    omega
  · rw [hshift, h.shift]
  · rw [hsent, h.sent]
  · rw [hfifo, h.rxFifo]
    rfl

/-- The transmit FIFO can be filled before the first frame goes out. -/
theorem filled_all (hn : port.txDepth + onWire ≤ n)
    (hlong : port.txDepth + onWire < max txs.length rxs.length) {d : ℕ}
    (hd : k + d = port.txDepth) :
    ∃ s', Leads ctx port rxBufs s s' ∧ Filled port.txDepth onWire s' := by
  induction d generalizing k s with
  | zero =>
    rw [Nat.add_zero] at hd
    exact ⟨s, Leads.refl s, hd ▸ h⟩
  | succ d ih =>
    obtain ⟨t, ht, hfilled⟩ := filled_pass rxBufs hinv h (by omega) (by omega) (by omega)
    obtain ⟨s', hs', hfull⟩ := ih (hinv.leads ht) hfilled (by omega)
    exact ⟨s', ht.trans hs', hfull⟩

end Fill

variable (ctx port rxBufs) in
/-- A frame goes out and the next one is taken from the transmit FIFO. -/
theorem leads_shift {f g : α} {fs : List α} (hshift : s.shift = some f) (htx : s.txFifo = g :: fs)
    (hovr : s.ovr = false) (hroom : s.rxFifo.length < port.rxDepth) :
    ∃ t, Leads ctx port rxBufs s t ∧ t.pc = s.pc ∧ t.ovr = false ∧ t.txFifo = fs ∧
      t.shift = some g ∧ t.rxFifo.length = s.rxFifo.length + 1 ∧ t.handed = s.handed := by
  have hanswer : Leads ctx port rxBufs s _ := leads_finish hshift hovr hroom
  refine ⟨_, hanswer.trans (leads_load rfl htx), rfl, hovr, rfl, rfl, ?_, ?_⟩
  · simp
  · simp [SpiState.handed, hshift, htx]

variable (ctx rxBufs) in
theorem leads_write (hpc : s.pc = .tx) (hroom : s.txIsNotFull port = true) :
    ∃ t, Leads ctx port rxBufs s t ∧ t.ovr = s.ovr ∧ t.rxFifo = s.rxFifo ∧
      t.outstanding = s.outstanding + 1 := by
  have hstep : spiStep ctx port s .cpu = some { s.sendNextFrame ctx with pc := .check } := by
    simp [spiStep, SpiState.cpu, hpc, hroom]
  refine ⟨_, leads_cpu (.inl (by simp [hpc])) hstep, rfl, rfl, ?_⟩
  simp only [SpiState.outstanding, SpiState.sendNextFrame, List.length_append,
    List.length_singleton]
  omega

/-- The worst case for a driver that polls: the first answer comes in after it looked for one,
and it writes another frame in the place of the next one to go out. -/
theorem overruns_of_polling {n : ℕ} (hinv : RunInv ctx port txs rxs n s)
    (h : Filled port.txDepth 1 s) (hpolled : port.interrupt = false) (htxDepth : 0 < port.txDepth)
    (hn : port.txDepth + 1 < n) (hdepth : port.rxDepth = port.txDepth + 1) :
    ∃ s', Leads ctx port rxBufs s s' ∧ s'.ovr = true := by
  obtain ⟨f, hshift⟩ : ∃ f, s.shift = some f := by
    have hone := h.shift
    cases hshift : s.shift with
    | none => simp [hshift] at hone
    | some f => exact ⟨f, rfl⟩
  obtain ⟨g, fs, htx⟩ := List.exists_cons_of_length_pos (h.txFifo ▸ htxDepth)
  have hlen := h.txFifo
  rw [htx, List.length_cons] at hlen
  have hlook : Leads ctx port rxBufs s { s with pc := .tx } := by
    have henter : spiStep ctx port s .cpu = some { s with pc := .rx } := by
      simp [spiStep, SpiState.cpu, h.pc, hpolled]
    have hread : spiStep ctx port { s with pc := .rx } .cpu = some { s with pc := .tx } := by
      simp [spiStep, SpiState.cpu, SpiState.readNextFrame, h.rxFifo]
    refine ((Leads.refl s).next (a := .cpu) ?_ henter).next (a := .cpu) (by simp [SpiGuard]) hread
    intro _ hmode
    simp [hpolled] at hmode
  have hempty : s.rxFifo.length = 0 := by simp [h.rxFifo]
  obtain ⟨t, ht, hpc, hovr, htx', hshift', hfifo, hhanded⟩ :=
    leads_shift ctx port rxBufs (s := { s with pc := .tx }) hshift htx h.clean.1
      (show s.rxFifo.length < port.rxDepth by omega)
  change t.rxFifo.length = s.rxFifo.length + 1 at hfifo
  have hinv' := hinv.leads (hlook.trans ht)
  have hroom := hinv'.txIsNotFull (by rw [htx']; omega) (by
    rw [hhanded]
    exact (Filled.handed h).trans_lt hn)
  obtain ⟨u, hu, hovr', hfifo', hout⟩ := leads_write ctx rxBufs hpc hroom
  have hmany : u.outstanding = port.txDepth + 2 := by
    rw [hout, SpiState.outstanding, htx', hshift', hfifo, hempty]
    simp
    omega
  obtain ⟨s', hs', hlost⟩ := overruns_of_outstanding ctx port rxBufs (hovr'.trans hovr)
    (by rw [hfifo']; omega) (by omega)
  exact ⟨s', ((hlook.trans ht).trans hu).trans hs', hlost⟩

/-- A transfer of more frames than the transmit FIFO and the wire hold can overrun exactly when
the receive FIFO has less room than this and, if the SPI is polled, one frame more. -/
theorem overrun_iff (htxDepth : 0 < port.txDepth)
    (htxs : txs = bufSetFrames dfs (txBufs.getD []))
    (hrxs : rxs = bufSetFrames dfs (rxBufs.getD []))
    (hlong : port.txDepth + 1 < max txs.length rxs.length)
    (hsize : left = none ∨ left = some (max txs.length rxs.length)) :
    (∃ s, Leads ctx port rxBufs (transferSetup ctx txBufs rxBufs left mem) s ∧ s.ovr = true) ↔
      port.rxDepth < port.txDepth + port.slack := by
  have hinv : ∀ s, Leads ctx port rxBufs (transferSetup ctx txBufs rxBufs left mem) s →
      RunInv ctx port txs rxs (max txs.length rxs.length) s :=
    fun s => RunInv.reach hsize htxs hrxs (by omega)
  constructor
  · rintro ⟨s, hs, hlost⟩
    by_contra hroom
    have hkept : s.ovr = false := by
      clear hlost
      induction hs with
      | start h => exact h ▸ rfl
      | next hs _ hstep ih =>
        exact no_overrun_step (by omega) (hinv _ hs).bounded ih _ hstep
    rw [hkept] at hlost
    cases hlost
  · intro hfew
    have hempty : Filled 0 0 (transferSetup ctx txBufs rxBufs left mem) :=
      ⟨rfl, ⟨rfl, rfl⟩, rfl, rfl, rfl, rfl, rfl⟩
    obtain ⟨s, hs, hfull⟩ := filled_all rxBufs (hinv _ (Leads.refl _)) hempty
      (by omega) (by omega) (Nat.zero_add _)
    -- the first frame moves to the wire, and there is room for one more
    have hshift : s.shift = none := by
      have hzero := hfull.shift
      cases hshift : s.shift with
      | none => rfl
      | some f => simp [hshift] at hzero
    obtain ⟨f, fs, htx⟩ := List.exists_cons_of_length_pos (hfull.txFifo ▸ htxDepth)
    have hlen := hfull.txFifo
    rw [htx, List.length_cons] at hlen
    have hload := hs.trans (leads_load hshift htx)
    have hone : Filled fs.length 1 { s with shift := some f, txFifo := fs } :=
      ⟨hfull.pc, hfull.clean, rfl, rfl, hfull.sent, hfull.rxFifo, hfull.got⟩
    obtain ⟨t, ht, hfull'⟩ := filled_all rxBufs (hinv _ hload) hone (by omega) hlong hlen
    have hreach := hload.trans ht
    by_cases hdepth : port.rxDepth < port.txDepth + 1
    · obtain ⟨s', hs', hlost⟩ := overruns_of_outstanding ctx port rxBufs hfull'.clean.1
        (by simp [hfull'.rxFifo])
        (by simpa [SpiState.outstanding, hfull'.txFifo, hfull'.shift, hfull'.rxFifo] using hdepth)
      exact ⟨s', hreach.trans hs', hlost⟩
    · have hpolled : port.interrupt = false := by
        by_contra hmode
        rw [SpiPort.slack, if_pos (by simpa using hmode)] at hfew
        omega
      rw [SpiPort.slack, if_neg (by simp [hpolled])] at hfew
      obtain ⟨s', hs', hlost⟩ := overruns_of_polling (hinv _ hreach) hfull' hpolled htxDepth
        hlong (by omega)
      exact ⟨s', hreach.trans hs', hlost⟩

/-- FIFOs of the same depth are not safe from a late interrupt. -/
theorem overrun_iff_sameDepth : ∃ s : SpiState ℕ BufsLeft,
    Leads (spiContext 1) (doubler 2 2) none
      (transferSetup (spiContext 1) (some [⟨some 10, 4⟩]) none (some 4) id) s ∧ s.ovr = true :=
  (overrun_iff (by decide) rfl rfl (by decide) (.inr rfl)).mpr (by decide)

end MmIot
