import Mathlib.Data.Nat.ModEq
import MmIot.Lib.CInt
import MmIot.Lib.Scatter
import MmIot.Proofs.SpiContext

/-! A transfer through the FIFOs of the STM32 SPI, whatever the timing of the peripheral:
what goes over the wire, what the memory holds and when the transfer ends. -/

namespace MmIot

open Transition

variable {α C P : Type} {dfs : ℕ}

/-! ### The cursor -/

namespace SpiCursor

variable (ctx : SpiCursor dfs C)

theorem on_iff_frames (c : C) : ctx.on c = true ↔ ctx.frames c ≠ [] := by
  rw [ctx.on_iff, not_iff_not, ctx.len_eq_zero]

theorem frames_update_one (c : C) : ctx.frames (ctx.update c 1) = (ctx.frames c).drop 1 := by
  apply ctx.frames_update
  omega

theorem frames_head (c : C) :
    (ctx.frames c)[0]?.join = if ctx.bufOn c then ctx.buf c else none := by
  by_cases hlen : ctx.len c = 0
  · have hoff : ctx.bufOn c ≠ true := fun h => ((ctx.bufOn_iff c).mp h).1 hlen
    simp [(ctx.len_eq_zero c).mp hlen, hoff]
  · rw [ctx.frames_getElem c 0 (Nat.pos_of_ne_zero hlen)]
    have hon := ctx.bufOn_iff c
    cases hbuf : ctx.buf c with
    | none => simp
    | some a => simp [hon.mpr ⟨hlen, by simp [hbuf]⟩]

theorem txFrame_eq [Zero α] (c : C) (mem : ℕ → α) :
    ctx.txFrame c mem = Scatter.fetch 0 mem ((ctx.frames c)[0]?.join) := by
  rw [frames_head, txFrame]
  cases ctx.bufOn c with
  | false => rfl
  | true => cases ctx.buf c <;> rfl

theorem rxFrame_eq (c : C) (mem : ℕ → α) (f : α) :
    ctx.rxFrame c mem f = Scatter.put mem ((ctx.frames c)[0]?.join) f := by
  rw [frames_head, rxFrame]
  cases ctx.bufOn c with
  | false => rfl
  | true => cases ctx.buf c <;> rfl

end SpiCursor

variable (ctx : SpiCursor dfs C) (port : SpiPort α P)

/-- What the device answers to the frames sent to it. -/
def SpiPort.answers (sent : List α) : List α := (Transducer.run port.peer port.peerInit sent).2

/-- Its answer to `f` after these. -/
def SpiPort.answer (sent : List α) (f : α) : α :=
  (port.peer (Transducer.run port.peer port.peerInit sent).1 f).2

theorem answers_concat (sent : List α) (f : α) :
    port.answers (sent ++ [f]) = port.answers sent ++ [port.answer sent f] := by
  simp [SpiPort.answers, SpiPort.answer, Transducer.run_append, Transducer.run]

@[simp] theorem answers_length (sent : List α) : (port.answers sent).length = sent.length := by
  simp [SpiPort.answers]

/-- The frames the driver has written, in order. -/
def SpiState.handed (s : SpiState α C) : List α := s.sent ++ s.shift.toList ++ s.txFifo

/-- Between the passes, or within one up to the check that ends it. -/
def SpiPc.InLoop : SpiPc → Prop
  | .idle | .rx | .tx | .check => True
  | _ => False

/-- Where a frame may still be taken without a look at the error flags first. -/
def SpiPc.BeforeRead : SpiPc → Prop
  | .idle | .rx => True
  | _ => False

/-- The transfer was ended with 0. -/
def SpiPc.Succeeded : SpiPc → Prop
  | .flush status | .busy status | .done status => status = 0
  | _ => False

/-- How far a transfer between the frames at `txs` and `rxs` has come, at any time of it. -/
structure FlowInv (txs rxs : List (Option ℕ)) (s : SpiState α C) : Prop where
  tx : ctx.frames s.tx = txs.drop s.handed.length
  rx : ctx.frames s.rx = rxs.drop s.got.length
  got : s.got <+: port.answers s.sent
  /-- Without an overrun nothing is missing. -/
  fifo : s.pc.InLoop → s.ovr = false → s.got ++ s.rxFifo = port.answers s.sent
  /-- With one, the frame at the head of the FIFO came before it. -/
  head : s.pc.BeforeRead → s.ovr = true →
    (∀ f fs, s.rxFifo = f :: fs → s.got ++ [f] <+: port.answers s.sent) ∧
    (s.rxFifo = [] → port.rxDepth = 0)
  succeeded : s.pc.Succeeded → ctx.frames s.tx = [] ∧ ctx.frames s.rx = []
  quiet : ∀ status, s.pc = .done status → s.txFifo = [] ∧ s.shift = none ∧ s.left.getD 0 = 0

/-- What it wrote, and what it made of the memory `mem`. -/
structure DataInv [Zero α] (txs rxs : List (Option ℕ)) (mem : ℕ → α) (s : SpiState α C) :
    Prop where
  handed : s.handed = Scatter.gather 0 mem txs s.handed.length
  mem : s.mem = Scatter.scatter mem rxs s.got

variable [Zero α] {ctx port} {txs rxs : List (Option ℕ)} {mem : ℕ → α} {s s' : SpiState α C}

/-! ### The steps of the peripheral -/

/-- The frame only changes places. -/
theorem load_cases (hs : spiStep ctx port s .load = some s') :
    ∃ f fs, s.shift = none ∧ s.txFifo = f :: fs ∧
      s' = { s with shift := some f, txFifo := fs } ∧ s'.handed = s.handed := by
  simp only [spiStep] at hs
  split at hs
  case h_1 f fs hshift hfifo =>
    cases hs
    exact ⟨f, fs, hshift, hfifo, rfl, by simp [SpiState.handed, hshift, hfifo]⟩
  case h_2 => cases hs

theorem FlowInv.load (h : FlowInv ctx port txs rxs s)
    (hs : spiStep ctx port s .load = some s') : FlowInv ctx port txs rxs s' := by
  obtain ⟨f, fs, hshift, hfifo, rfl, hhanded⟩ := load_cases hs
  refine { h with tx := ?_, quiet := ?_ }
  · rw [hhanded]
    exact h.tx
  · intro status hdone
    have hempty := (h.quiet status hdone).1
    simp [hfifo] at hempty

/-- A frame that was shifted leaves its answer in the FIFO, unless an overrun loses it. -/
theorem finish_cases {keep : Bool} (hs : spiStep ctx port s (.finish keep) = some s') :
    ∃ f rxFifo ovr, s.shift = some f ∧
      s' = { s with shift := none, sent := s.sent ++ [f], rxFifo := rxFifo, ovr := ovr } ∧
      s'.handed = s.handed ∧
      ((port.rxDepth ≤ s.rxFifo.length ∨ s.ovr = true) ∧ rxFifo = s.rxFifo ∧ ovr = true ∨
        s.rxFifo.length < port.rxDepth ∧ rxFifo = s.rxFifo ++ [port.answer s.sent f] ∧
          ovr = s.ovr) := by
  simp only [spiStep, SpiState.finish] at hs
  split at hs
  case h_1 => cases hs
  case h_2 f hshift =>
    have hhanded : s'.handed = s.handed := by
      cases hs
      split_ifs <;> simp [SpiState.handed, hshift]
    simp only [Option.some.injEq] at hs
    split_ifs at hs with hfull hlost
    · exact ⟨f, _, _, hshift, hs.symm, hhanded, .inl ⟨.inl hfull, rfl, rfl⟩⟩
    · simp only [Bool.and_eq_true] at hlost
      exact ⟨f, _, _, hshift, hs.symm, hhanded, .inl ⟨.inr hlost.1, rfl, hlost.1⟩⟩
    · exact ⟨f, _, _, hshift, hs.symm, hhanded, .inr ⟨Nat.lt_of_not_le hfull, rfl, rfl⟩⟩

theorem SpiPc.BeforeRead.inLoop {pc : SpiPc} (h : pc.BeforeRead) : pc.InLoop := by
  cases pc <;> first | exact trivial | exact h.elim

theorem FlowInv.finish {keep : Bool} (h : FlowInv ctx port txs rxs s)
    (hs : spiStep ctx port s (.finish keep) = some s') : FlowInv ctx port txs rxs s' := by
  obtain ⟨f, rxFifo, ovr, hshift, rfl, hhanded, hcase⟩ := finish_cases hs
  have hgrow : port.answers s.sent <+: port.answers (s.sent ++ [f]) := by
    rw [answers_concat]
    exact List.prefix_append _ _
  refine ⟨?_, h.rx, h.got.trans hgrow, ?_, ?_, h.succeeded, ?_⟩
  · rw [hhanded]
    exact h.tx
  · intro hloop hovr
    rcases hcase with ⟨-, -, rfl⟩ | ⟨-, rfl, rfl⟩
    · cases hovr
    · rw [answers_concat, ← h.fifo hloop hovr, List.append_assoc]
  · intro hpc _
    rcases hcase with ⟨hlost, rfl, -⟩ | ⟨hroom, rfl, rfl⟩
    · cases hovr : s.ovr with
      | true =>
        obtain ⟨hhead, hempty⟩ := h.head hpc hovr
        exact ⟨fun g gs hg => (hhead g gs hg).trans hgrow, hempty⟩
      | false =>
        -- the first overrun: the FIFO is full of frames from before it
        have hall := h.fifo hpc.inLoop hovr
        have hfull : port.rxDepth ≤ s.rxFifo.length := by simpa [hovr] using hlost
        refine ⟨?_, ?_⟩
        · intro g gs hg
          rw [hg] at hall
          refine List.IsPrefix.trans ⟨gs, ?_⟩ hgrow
          rw [← hall, List.append_assoc]
          rfl
        · intro hempty
          change s.rxFifo = [] at hempty
          simpa [hempty] using hfull
    · rename_i hovr
      obtain ⟨hhead, hempty⟩ := h.head hpc hovr
      refine ⟨?_, by simp⟩
      intro g gs hg
      rcases hfifo : s.rxFifo with _ | ⟨g', gs'⟩
      · simp [hfifo, hempty hfifo] at hroom
      · rw [hfifo, List.cons_append, List.cons.injEq] at hg
        rw [← hg.1]
        exact (hhead g' gs' hfifo).trans hgrow
  · intro status hdone
    have hnone := (h.quiet status hdone).2.1
    simp [hshift] at hnone

theorem FlowInv.fault (h : FlowInv ctx port txs rxs s)
    (hs : spiStep ctx port s .fault = some s') : FlowInv ctx port txs rxs s' := by
  cases hs
  exact { h with }

/-! ### The steps of the driver -/

omit [Zero α] in
theorem transferOngoing_eq_false (h : s.transferOngoing ctx = false) :
    ctx.frames s.tx = [] ∧ ctx.frames s.rx = [] := by
  simp only [SpiState.transferOngoing, Bool.or_eq_false_iff] at h
  have htx := ctx.on_iff_frames s.tx
  have hrx := ctx.on_iff_frames s.rx
  simp_all

omit [Zero α] in
theorem isBusy_eq_false {s : SpiState α C} :
    s.isBusy = false ↔ s.txFifo = [] ∧ s.shift = none ∧ s.left.getD 0 = 0 := by
  simp [SpiState.isBusy, and_assoc]

omit [Zero α] in
/-- An error ends the transfer with it; without one no flag was set. -/
theorem getErr_cases (s : SpiState α C) :
    s.getErr = (- EIO, { s with ovr := false }) ∧ (s.ovr = true ∨ s.fault = true) ∨
      s.getErr = (0, s) ∧ s.ovr = false ∧ s.fault = false := by
  cases hovr : s.ovr <;> cases hfault : s.fault <;> simp [SpiState.getErr, hovr, hfault]

variable (ctx port) in
/-- What one step of the driver does. -/
inductive CpuStep (s : SpiState α C) : SpiState α C → Prop
  | enter : s.pc = .idle → (port.interrupt = true → s.ovr = false ∧ s.fault = false) →
      CpuStep s { s with pc := .rx }
  | read : s.pc = .rx → CpuStep s { s.readNextFrame ctx with pc := .tx }
  | send : s.pc = .tx → s.txIsNotFull port = true →
      CpuStep s { s.sendNextFrame ctx with pc := .check }
  | full : s.pc = .tx → s.txIsNotFull port = false → CpuStep s { s with pc := .check }
  | again : s.pc = .check → s.ovr = false → s.transferOngoing ctx = true →
      CpuStep s { s with pc := .idle }
  | error : s.pc = .idle ∨ s.pc = .check → (s.ovr = true ∨ s.fault = true) →
      CpuStep s ({ s with ovr := false }.complete (- EIO))
  | complete : s.pc = .idle ∨ s.pc = .check → s.ovr = false → s.transferOngoing ctx = false →
      CpuStep s (s.complete 0)
  | drop {status : ℤ} {f : α} {fs : List α} : s.pc = .flush status → s.rxFifo = f :: fs →
      CpuStep s { s with pc := .flush status, rxFifo := fs }
  | flushed {status : ℤ} : s.pc = .flush status → s.rxFifo = [] →
      CpuStep s { s with pc := .busy status }
  | done {status : ℤ} : s.pc = .busy status → s.isBusy = false →
      CpuStep s { s with pc := .done status }

theorem cpu_cases (hs : spiStep ctx port s .cpu = some s') : CpuStep ctx port s s' := by
  simp only [spiStep, SpiState.cpu] at hs
  cases hpc : s.pc with
  | idle =>
    simp only [hpc] at hs
    by_cases hmode : port.interrupt = true
    · rw [if_pos hmode] at hs
      rcases getErr_cases s with ⟨herr, hflag⟩ | ⟨herr, hovr, hfault⟩
      · simp [herr, EIO] at hs
        exact hs ▸ .error (.inl hpc) hflag
      · rw [herr] at hs
        simp only [ne_eq, not_true, if_false] at hs
        split_ifs at hs with hongoing <;> cases hs
        · exact .enter hpc fun _ => ⟨hovr, hfault⟩
        · exact .complete (.inl hpc) hovr (by simpa using hongoing)
    · rw [if_neg hmode] at hs
      cases hs
      exact .enter hpc fun h => absurd h hmode
  | rx =>
    simp only [hpc, Option.some.injEq] at hs
    exact hs ▸ .read hpc
  | tx =>
    simp only [hpc] at hs
    split_ifs at hs with hroom <;> cases hs
    · exact .send hpc hroom
    · exact .full hpc (by simpa using hroom)
  | check =>
    simp only [hpc] at hs
    rcases getErr_cases s with ⟨herr, hflag⟩ | ⟨herr, hovr, -⟩
    · simp [herr, EIO] at hs
      exact hs ▸ .error (.inr hpc) hflag
    · rw [herr] at hs
      simp only [ne_eq, not_true, false_or] at hs
      split_ifs at hs with hend <;> cases hs
      · exact .complete (.inr hpc) hovr hend
      · exact .again hpc hovr (by simpa using hend)
  | flush status =>
    simp only [hpc] at hs
    split at hs <;> cases hs
    · exact .flushed hpc ‹_›
    · exact .drop hpc ‹_›
  | busy status =>
    simp only [hpc] at hs
    split_ifs at hs with hbusy
    cases hs
    exact .done hpc (by simpa using hbusy)
  | done status => simp [hpc] at hs

omit [Zero α] in
theorem FlowInv.complete (h : FlowInv ctx port txs rxs s) (status : ℤ) (ovr : Bool)
    (hstatus : status = 0 → ctx.frames s.tx = [] ∧ ctx.frames s.rx = []) :
    FlowInv ctx port txs rxs ({ s with ovr := ovr }.complete status) :=
  { h with
    fifo := nofun
    head := nofun
    succeeded := hstatus
    quiet := nofun }

omit [Zero α] in
/-- A frame the driver takes is the next answer, also after an overrun. -/
theorem FlowInv.next_answer (h : FlowInv ctx port txs rxs s) (hpc : s.pc.BeforeRead)
    {f : α} {fs : List α} (hfifo : s.rxFifo = f :: fs) :
    s.got ++ [f] <+: port.answers s.sent := by
  cases hovr : s.ovr with
  | true => exact (h.head hpc hovr).1 f fs hfifo
  | false =>
    rw [← h.fifo hpc.inLoop hovr, hfifo]
    exact ⟨fs, by simp⟩

omit [Zero α] in
theorem FlowInv.read (h : FlowInv ctx port txs rxs s) (hpc : s.pc = .rx) :
    FlowInv ctx port txs rxs { s.readNextFrame ctx with pc := .tx } := by
  have hbefore : s.pc.BeforeRead := by simp [hpc, SpiPc.BeforeRead]
  rcases hfifo : s.rxFifo with _ | ⟨f, fs⟩
  · have hsame : s.readNextFrame ctx = s := by simp [SpiState.readNextFrame, hfifo]
    rw [hsame]
    exact { h with
      fifo := fun _ => h.fifo hbefore.inLoop
      head := nofun
      succeeded := nofun
      quiet := nofun }
  · have hnext := h.next_answer hbefore hfifo
    simp only [SpiState.readNextFrame, hfifo]
    refine ⟨h.tx, ?_, hnext, ?_, nofun, nofun, nofun⟩
    · simp [SpiCursor.frames_update_one, h.rx]
    · intro _ hovr
      have hall := h.fifo hbefore.inLoop hovr
      rw [hfifo] at hall
      simpa using hall

theorem handed_send (s : SpiState α C) :
    (s.sendNextFrame ctx).handed = s.handed ++ [ctx.txFrame s.tx s.mem] := by
  simp [SpiState.handed, SpiState.sendNextFrame]

theorem FlowInv.send (h : FlowInv ctx port txs rxs s) (hpc : s.pc = .tx) :
    FlowInv ctx port txs rxs { s.sendNextFrame ctx with pc := .check } := by
  have hloop : s.pc.InLoop := by simp [hpc, SpiPc.InLoop]
  refine ⟨?_, h.rx, h.got, fun _ => h.fifo hloop, nofun, nofun, nofun⟩
  change ctx.frames (ctx.update s.tx 1) = txs.drop (s.sendNextFrame ctx).handed.length
  simp [handed_send, SpiCursor.frames_update_one, h.tx]

theorem FlowInv.cpu (h : FlowInv ctx port txs rxs s) (hs : CpuStep ctx port s s') :
    FlowInv ctx port txs rxs s' := by
  cases hs with
  | enter hpc _ =>
    have hbefore : s.pc.BeforeRead := by simp [hpc, SpiPc.BeforeRead]
    exact { h with
      fifo := fun _ => h.fifo hbefore.inLoop
      head := fun _ => h.head hbefore
      succeeded := nofun
      quiet := nofun }
  | read hpc => exact h.read hpc
  | send hpc _ => exact h.send hpc
  | full hpc _ =>
    exact { h with
      fifo := fun _ => h.fifo (by simp [hpc, SpiPc.InLoop])
      head := nofun
      succeeded := nofun
      quiet := nofun }
  | again hpc hovr _ =>
    exact { h with
      fifo := fun _ => h.fifo (by simp [hpc, SpiPc.InLoop])
      head := fun _ htrue => by simp [hovr] at htrue
      succeeded := nofun
      quiet := nofun }
  | error _ _ => exact h.complete _ false (by simp [ EIO])
  | complete _ _ hend => exact h.complete 0 s.ovr fun _ => transferOngoing_eq_false hend
  | drop hpc _ | flushed hpc _ =>
    have hdone := h.succeeded
    rw [hpc] at hdone
    exact { h with
      fifo := nofun
      head := nofun
      succeeded := hdone
      quiet := nofun }
  | done hpc hbusy =>
    have hdone := h.succeeded
    rw [hpc] at hdone
    exact { h with
      fifo := nofun
      head := nofun
      succeeded := hdone
      quiet := fun _ _ => isBusy_eq_false.mp hbusy }

theorem FlowInv.step (h : FlowInv ctx port txs rxs s) (a : SpiAction)
    (hs : spiStep ctx port s a = some s') : FlowInv ctx port txs rxs s' := by
  cases a with
  | cpu => exact h.cpu (cpu_cases hs)
  | load => exact h.load hs
  | finish keep => exact h.finish hs
  | fault => exact h.fault hs

/-- The frame that is written next, since nothing was received in its place before. -/
theorem DataInv.next_frame (hflow : FlowInv ctx port txs rxs s) (h : DataInv txs rxs mem s)
    (hplaces : Scatter.FetchedFirst txs rxs) :
    ctx.txFrame s.tx s.mem = Scatter.fetch 0 mem (txs[s.handed.length]?.join) := by
  have hgot : s.got.length ≤ s.handed.length := by
    have hle := hflow.got.length_le
    simp only [answers_length] at hle
    simp only [SpiState.handed, List.length_append]
    omega
  rw [SpiCursor.txFrame_eq, hflow.tx, h.mem]
  simpa using Scatter.fetch_scatter hplaces 0 mem hgot

theorem DataInv.step (hplaces : Scatter.FetchedFirst txs rxs)
    (hflow : FlowInv ctx port txs rxs s) (h : DataInv txs rxs mem s) (a : SpiAction)
    (hs : spiStep ctx port s a = some s') : DataInv txs rxs mem s' := by
  cases a with
  | cpu =>
    cases cpu_cases hs with
    | read hpc =>
      rcases hfifo : s.rxFifo with _ | ⟨f, fs⟩
      · simp only [SpiState.readNextFrame, hfifo]
        exact ⟨h.handed, h.mem⟩
      · simp only [SpiState.readNextFrame, hfifo]
        refine ⟨h.handed, ?_⟩
        simp only [SpiCursor.rxFrame_eq, hflow.rx, h.mem, Scatter.scatter_concat]
        simp
    | send hpc _ =>
      refine ⟨?_, h.mem⟩
      change (s.sendNextFrame ctx).handed = Scatter.gather 0 mem txs (s.sendNextFrame ctx).handed.length
      rw [handed_send, h.next_frame hflow hplaces, List.length_append, List.length_singleton,
        Scatter.gather_succ, ← h.handed]
    | enter _ _ | full _ _ | again _ _ _ | error _ _ | complete _ _ _ | drop _ _ | flushed _ _
    | done _ _ => exact ⟨h.handed, h.mem⟩
  | load =>
    obtain ⟨f, fs, -, -, rfl, hhanded⟩ := load_cases hs
    exact ⟨hhanded ▸ h.handed, h.mem⟩
  | finish keep =>
    obtain ⟨f, rxFifo, ovr, -, rfl, hhanded, -⟩ := finish_cases hs
    exact ⟨hhanded ▸ h.handed, h.mem⟩
  | fault =>
    cases hs
    exact ⟨h.handed, h.mem⟩

omit [Zero α] in
theorem transceiveStart_cases {hasTransferSize : Bool} {txBufs rxBufs : Option (List SpiBuf)}
    (h : transceiveStart ctx hasTransferSize txBufs rxBufs mem = .ok s) :
    ∃ left, s = transferSetup ctx txBufs rxBufs left mem ∧
      ∀ n, left = some n → 0 < n ∧ (n : ℤ) = countTotalFrames dfs txBufs rxBufs := by
  simp only [transceiveStart] at h
  split_ifs at h with hnone herr hzero <;> cases h
  · exact ⟨none, rfl, by simp⟩
  · exact ⟨none, rfl, by simp⟩
  · refine ⟨_, rfl, ?_⟩
    intro n hn
    cases hn
    omega

omit [Zero α] in
theorem FlowInv.start (txBufs rxBufs : Option (List SpiBuf)) (left : Option ℕ) :
    FlowInv ctx port (bufSetFrames dfs (txBufs.getD [])) (bufSetFrames dfs (rxBufs.getD []))
      (transferSetup ctx txBufs rxBufs left mem) where
  tx := ctx.frames_setup _
  rx := ctx.frames_setup _
  got := List.nil_prefix
  fifo := fun _ _ => rfl
  head := nofun
  succeeded := nofun
  quiet := nofun

theorem DataInv.start (txBufs rxBufs : Option (List SpiBuf)) (left : Option ℕ) :
    DataInv txs rxs mem (transferSetup ctx txBufs rxBufs left mem) where
  handed := rfl
  mem := (Scatter.scatter_nil _ _).symm

theorem FlowInv.reach {guard : SpiState α C → SpiAction → Prop}
    {txBufs rxBufs : Option (List SpiBuf)} {left : Option ℕ}
    (hs : Reach (· = transferSetup ctx txBufs rxBufs left mem) guard (spiStep ctx port) s) :
    FlowInv ctx port (bufSetFrames dfs (txBufs.getD [])) (bufSetFrames dfs (rxBufs.getD [])) s := by
  induction hs with
  | start h => exact h ▸ FlowInv.start _ _ _
  | next _ _ hstep ih => exact ih.step _ hstep

theorem DataInv.reach {guard : SpiState α C → SpiAction → Prop}
    {txBufs rxBufs : Option (List SpiBuf)} {left : Option ℕ}
    (hplaces : Scatter.FetchedFirst (bufSetFrames dfs (txBufs.getD []))
      (bufSetFrames dfs (rxBufs.getD [])))
    (hs : Reach (· = transferSetup ctx txBufs rxBufs left mem) guard (spiStep ctx port) s) :
    DataInv (bufSetFrames dfs (txBufs.getD [])) (bufSetFrames dfs (rxBufs.getD [])) mem s := by
  induction hs with
  | start h => exact h ▸ DataInv.start _ _ _
  | next hs _ hstep ih => exact ih.step hplaces (FlowInv.reach hs) _ hstep

/-! ### The transfer size -/

/-- No more than `n` frames are written. -/
def SpiState.Limited (n : ℕ) (s : SpiState α C) : Prop :=
  ∃ m, s.left = some m ∧ m + s.handed.length = n

theorem SpiState.Limited.step {n : ℕ} (h : s.Limited n) (a : SpiAction)
    (hs : spiStep ctx port s a = some s') : s'.Limited n := by
  obtain ⟨m, hleft, hn⟩ := h
  cases a with
  | cpu =>
    cases cpu_cases hs with
    | send hpc hroom =>
      have hm : m ≠ 0 := by
        intro hzero
        simp [SpiState.txIsNotFull, hleft, hzero] at hroom
      refine ⟨m - 1, by simp [SpiState.sendNextFrame, hleft], ?_⟩
      simp only [SpiState.handed, SpiState.sendNextFrame, List.length_append,
        List.length_singleton] at hn ⊢
      omega
    | read hpc =>
      refine ⟨m, ?_, ?_⟩
      · simpa [SpiState.readNextFrame] using by cases s.rxFifo <;> exact hleft
      · rw [← hn]
        cases hfifo : s.rxFifo <;> simp [SpiState.readNextFrame, hfifo, SpiState.handed]
    | enter _ _ | full _ _ | again _ _ _ | error _ _ | complete _ _ _ | drop _ _ | flushed _ _
    | done _ _ => exact ⟨m, hleft, hn⟩
  | load =>
    obtain ⟨f, fs, -, -, rfl, hhanded⟩ := load_cases hs
    exact ⟨m, hleft, hhanded ▸ hn⟩
  | finish keep =>
    obtain ⟨f, rxFifo, ovr, -, rfl, hhanded, -⟩ := finish_cases hs
    exact ⟨m, hleft, hhanded ▸ hn⟩
  | fault =>
    cases hs
    exact ⟨m, hleft, hn⟩

theorem SpiState.Limited.reach {guard : SpiState α C → SpiAction → Prop}
    {txBufs rxBufs : Option (List SpiBuf)} {n : ℕ}
    (hs : Reach (· = transferSetup ctx txBufs rxBufs (some n) mem) guard (spiStep ctx port) s) :
    s.Limited n := by
  induction hs with
  | start h => exact h ▸ ⟨n, rfl, rfl⟩
  | next _ _ hstep ih => exact ih.step _ hstep

/-- Every buffer holds a whole number of frames. -/
def WholeFrames (dfs : ℕ) (bufs : List SpiBuf) : Prop := ∀ b ∈ bufs, dfs ∣ b.len

theorem bufSetFrames_length {bufs : List SpiBuf} (h : WholeFrames dfs bufs) :
    (bufSetFrames dfs bufs).length = (bufs.map SpiBuf.len).sum / dfs := by
  induction bufs with
  | nil => simp [bufSetFrames]
  | cons b bufs ih =>
    have hb : dfs ∣ b.len := h b List.mem_cons_self
    have hrest := ih fun b' hb' => h b' (List.mem_cons_of_mem _ hb')
    simp only [bufSetFrames] at hrest
    simp [bufSetFrames, SpiBuf.frames, hrest, (Nat.add_div_of_dvd_right hb).symm]

theorem numBytes_eq (bufs : List SpiBuf) (n : ℕ) (hn : n < 2 ^ 32) :
    bufs.foldl (fun n b => (n + b.len) % 2 ^ 32) n = (n + (bufs.map SpiBuf.len).sum) % 2 ^ 32 := by
  induction bufs generalizing n with
  | nil => exact (Nat.mod_eq_of_lt hn).symm
  | cons b bufs ih =>
    rw [List.foldl_cons, ih _ (Nat.mod_lt _ (by omega)), Nat.mod_add_mod, List.map_cons,
      List.sum_cons, Nat.add_assoc]

/-- The count may be less than the frames there are, but not more. -/
theorem countBufsetFrames_le {bufs : Option (List SpiBuf)} (h : WholeFrames dfs (bufs.getD [])) :
    countBufsetFrames dfs bufs ≤ (bufSetFrames dfs (bufs.getD [])).length := by
  cases bufs with
  | none => simp [countBufsetFrames]
  | some bufs =>
    rw [bufSetFrames_length h, countBufsetFrames, numBytes_eq _ _ (by omega)]
    simp only [Nat.zero_add, Option.getD_some]
    generalize (bufs.map SpiBuf.len).sum = total
    have hmod : total % 2 ^ 32 / dfs ≤ total / dfs := Nat.div_le_div_right (Nat.mod_le _ _)
    have hwrap := CInt.bmod_natCast_le (total % 2 ^ 32 / dfs)
    generalize total / dfs = frames at *
    split_ifs
    · simp only [EINVAL]
      omega
    · exact hwrap.trans (Int.ofNat_le.mpr hmod)

theorem countTotalFrames_le {txBufs rxBufs : Option (List SpiBuf)}
    (htx : WholeFrames dfs (txBufs.getD [])) (hrx : WholeFrames dfs (rxBufs.getD [])) :
    countTotalFrames dfs txBufs rxBufs ≤ max (bufSetFrames dfs (txBufs.getD [])).length
      (bufSetFrames dfs (rxBufs.getD [])).length := by
  have htx := countBufsetFrames_le htx
  have hrx := countBufsetFrames_le hrx
  simp only [countTotalFrames, EMSGSIZE]
  split_ifs <;> omega

/-! ### A whole transfer -/

/-- Whatever the timing, every frame the memory receives is the device's answer to the frame
sent at its place. A transfer that ends with 0 has sent all of its frames and then only
zeros, has stored all of the answers it has room for, and has sent no frame more than its
transfer size, which is the longer of the two buffer sets. -/
theorem fifo_transfer {hasTransferSize : Bool} {txBufs rxBufs : Option (List SpiBuf)}
    {s₀ : SpiState α C}
    (hstart : transceiveStart ctx hasTransferSize txBufs rxBufs mem = .ok s₀)
    (htxs : txs = bufSetFrames dfs (txBufs.getD []))
    (hrxs : rxs = bufSetFrames dfs (rxBufs.getD []))
    (hplaces : Scatter.FetchedFirst txs rxs)
    (hs : Reach (· = s₀) anyStep (spiStep ctx port) s) :
    s.sent = Scatter.gather 0 mem txs s.sent.length ∧
      s.mem = Scatter.scatter mem rxs s.got ∧ s.got <+: port.answers s.sent ∧
      (s.pc = .done 0 →
        s.mem = Scatter.scatter mem rxs (port.answers s.sent) ∧
        max txs.length rxs.length ≤ s.sent.length ∧
        ∀ n, s₀.left = some n → s.sent.length = n ∧
          (WholeFrames dfs (txBufs.getD []) → WholeFrames dfs (rxBufs.getD []) →
            n = max txs.length rxs.length)) := by
  subst htxs hrxs
  obtain ⟨left, rfl, hleft⟩ := transceiveStart_cases hstart
  have hinv := FlowInv.reach hs
  have hdata := DataInv.reach hplaces hs
  refine ⟨?_, hdata.mem, hinv.got, ?_⟩
  · have hsent := congrArg (List.take s.sent.length) hdata.handed
    rwa [Scatter.gather_take _ _ _ (by simp [SpiState.handed]), SpiState.handed,
      List.append_assoc, List.take_left] at hsent
  · intro hdone
    obtain ⟨htx, hrx⟩ := hinv.succeeded (by rw [hdone]; rfl)
    obtain ⟨hfifo, hshift, hzero⟩ := hinv.quiet 0 hdone
    have hhanded : s.handed = s.sent := by simp [SpiState.handed, hfifo, hshift]
    have htxlen := List.drop_eq_nil_iff.mp (hinv.tx.symm.trans htx)
    have hrxlen := List.drop_eq_nil_iff.mp (hinv.rx.symm.trans hrx)
    have hgot := hinv.got.length_le
    rw [answers_length] at hgot
    rw [hhanded] at htxlen
    refine ⟨?_, by omega, ?_⟩
    · rw [hdata.mem]
      exact Scatter.scatter_eq_of_prefix mem hinv.got hrxlen
    · intro n hn
      obtain ⟨-, hcount⟩ := hleft n hn
      change left = some n at hn
      subst hn
      obtain ⟨m, hm, hsum⟩ := SpiState.Limited.reach hs
      rw [hm, Option.getD_some] at hzero
      rw [hhanded] at hsum
      refine ⟨by omega, ?_⟩
      intro hwholeTx hwholeRx
      have htotal := countTotalFrames_le hwholeTx hwholeRx
      omega

/-- A device that answers each frame with its double. -/
def doubler (txDepth rxDepth : ℕ) : SpiPort ℕ Unit where
  txDepth := txDepth
  rxDepth := rxDepth
  peer := fun _ f => ((), 2 * f)
  peerInit := ()
  interrupt := true

/-- A transfer of two frames from address 10, with the answers put at 20. -/
def twoFrames : SpiState ℕ BufsLeft :=
  transferSetup (spiContext 1) (some [⟨some 10, 2⟩]) (some [⟨some 20, 2⟩]) (some 2) id

def twoFramesRun : List SpiAction :=
  List.replicate 4 .cpu ++ [.load, .finish true] ++ List.replicate 4 .cpu ++
    [.load, .finish true] ++ List.replicate 6 .cpu

theorem fifo_transfer_twoFrames : ∃ s : SpiState ℕ BufsLeft, s.pc = .done 0 ∧
    s.sent.length = 2 ∧ s.mem = Scatter.scatter id [some 20, some 21] ((doubler 2 2).answers s.sent) := by
  obtain ⟨s, hrun, hdone⟩ : ∃ s, schedule (spiStep (spiContext 1) (doubler 2 2)) twoFrames
      twoFramesRun = some s ∧ s.pc = .done 0 := ⟨_, rfl, rfl⟩
  have hstart : transceiveStart (spiContext 1) true (some [⟨some 10, 2⟩])
      (some [⟨some 20, 2⟩]) id = .ok twoFrames := rfl
  have hplaces : Scatter.FetchedFirst [some 10, some 11] [some 20, some 21] := by
    intro n a htx hrx
    have htx := List.mem_of_getElem? htx
    have hrx := List.mem_of_mem_take hrx
    simp at htx hrx
    omega
  obtain ⟨-, -, -, hend⟩ := fifo_transfer hstart rfl rfl hplaces
    (Reach.of_schedule (.start rfl) twoFramesRun (anyStep_all _) hrun)
  obtain ⟨hmem, -, hsize⟩ := hend hdone
  exact ⟨s, hdone, (hsize 2 rfl).1, hmem⟩

end MmIot
