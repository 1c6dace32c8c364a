import MmIot.Proofs.SpiFifo
import MmIot.Spec.SpiDma

/-! Moving frames with DMA agrees with moving them one by one, for all devices and all orders
in which the channels run, exactly when the dummy buffer is never in use by both channels for
more than a frame. -/

namespace MmIot

open Transition

variable {α C P : Type} {dfs : ℕ} {ctx : SpiCursor dfs C} {port : SpiPort α P}

/-! ### The cursors -/

theorem SpiCursor.len_le (c : C) : ctx.len c ≤ (ctx.frames c).length := by
  by_contra hlt
  have hget := ctx.frames_getElem c (ctx.frames c).length (by omega)
  simp at hget

/-- Where the frames of a part of the transfer are. -/
theorem SpiCursor.place (c : C) {n i : ℕ} (hn : n ≤ ctx.len c ∨ ctx.len c = 0) (hi : i < n) :
    (ctx.frames c)[i]?.join = (ctx.buf c).map (· + dfs * i) := by
  by_cases hzero : ctx.len c = 0
  · simp [(ctx.len_eq_zero c).mp hzero, ctx.buf_of_len c hzero]
  · rw [ctx.frames_getElem c i (by omega)]
    rfl

theorem dmaLen_le_tx (tx rx : C) : dmaLen ctx tx rx ≤ ctx.len tx ∨ ctx.len tx = 0 := by
  unfold dmaLen
  split_ifs <;> omega

theorem dmaLen_le_rx (tx rx : C) : dmaLen ctx tx rx ≤ ctx.len rx ∨ ctx.len rx = 0 := by
  unfold dmaLen
  split_ifs <;> omega

variable (ctx) in
theorem dmaLen_le_max (tx rx : C) : dmaLen ctx tx rx ≤ max (ctx.len tx) (ctx.len rx) := by
  unfold dmaLen
  split_ifs <;> omega

theorem dmaLen_pos {tx rx : C} (h : ctx.len rx > 0 ∨ ctx.len tx > 0) : 0 < dmaLen ctx tx rx := by
  unfold dmaLen
  split_ifs <;> omega

/-! ### The loop with DMA -/

variable [Zero α] {txs rxs : List (Option ℕ)} {mem : ℕ → α} {txBufs rxBufs : Option (List SpiBuf)}
  {s s' : DmaState α C}

/-- At the head of the loop, or past it, everything up to here is moved. -/
structure AtLoop (ctx : SpiCursor dfs C) (port : SpiPort α P) (txBufs rxBufs : Option (List SpiBuf))
    (txs rxs : List (Option ℕ)) (mem : ℕ → α) (s : DmaState α C) : Prop where
  pc : s.pc = .loop ∨ s.pc = .done
  cursors : LoopCursors ctx txBufs rxBufs s.tx s.rx
  tx : ctx.frames s.tx = txs.drop s.sent.length
  rx : ctx.frames s.rx = rxs.drop s.sent.length
  txFifo : s.txFifo = []
  rxFifo : s.rxFifo = []
  sent : s.sent = Scatter.gather 0 mem txs s.sent.length
  mem : s.mem = Scatter.scatter mem rxs (port.answers s.sent)
  bound : s.sent.length ≤ max txs.length rxs.length
  ended : s.pc = .done → max txs.length rxs.length ≤ s.sent.length

/-- In a part of `len` frames after the first `b`. -/
structure InPart (ctx : SpiCursor dfs C) (port : SpiPort α P) (txBufs rxBufs : Option (List SpiBuf))
    (txs rxs : List (Option ℕ)) (mem : ℕ → α) (b len : ℕ) (s : DmaState α C) : Prop where
  pc : s.pc = .moving len
  cursors : LoopCursors ctx txBufs rxBufs s.tx s.rx
  more : ctx.len s.rx > 0 ∨ ctx.len s.tx > 0
  part : len = dmaLen ctx s.tx s.rx
  tx : ctx.frames s.tx = txs.drop b
  rx : ctx.frames s.rx = rxs.drop b
  fetched : s.fetched ≤ len
  sent : s.sent ++ s.txFifo = Scatter.gather 0 mem txs (b + s.fetched)
  stored : b + s.stored ≤ s.sent.length
  rxFifo : s.rxFifo = (port.answers s.sent).drop (b + s.stored)
  mem : s.mem = Scatter.scatter mem rxs ((port.answers s.sent).take (b + s.stored))
  dummy : ctx.buf s.tx = none → s.fetched < len → s.dummy = 0

def DmaInv (ctx : SpiCursor dfs C) (port : SpiPort α P) (txBufs rxBufs : Option (List SpiBuf))
    (txs rxs : List (Option ℕ)) (mem : ℕ → α) (s : DmaState α C) : Prop :=
  AtLoop ctx port txBufs rxBufs txs rxs mem s ∨
    ∃ b len, InPart ctx port txBufs rxBufs txs rxs mem b len s

theorem InPart.count {b len : ℕ} (h : InPart ctx port txBufs rxBufs txs rxs mem b len s) :
    s.sent.length + s.txFifo.length = b + s.fetched ∧
      s.rxFifo.length = s.sent.length - (b + s.stored) := by
  have hsent := congrArg List.length h.sent
  have hfifo := congrArg List.length h.rxFifo
  simp only [List.length_append, Scatter.gather_length] at hsent
  rw [List.length_drop, answers_length] at hfifo
  exact ⟨hsent, hfifo⟩

/-- The frame that is fetched is the next one of the transmit set. -/
theorem InPart.source {b len : ℕ} (h : InPart ctx port txBufs rxBufs txs rxs mem b len s)
    (hplaces : Scatter.FetchedFirst txs rxs) (hlt : s.fetched < len) :
    s.source ctx = Scatter.fetch 0 mem (txs[b + s.fetched]?.join) := by
  have hplace : txs[b + s.fetched]?.join = (ctx.buf s.tx).map (· + dfs * s.fetched) := by
    rw [← ctx.place s.tx (dmaLen_le_tx s.tx s.rx) (h.part ▸ hlt), h.tx, List.getElem?_drop]
  have hcount := h.count.1
  have hstored := h.stored
  have hbefore : ((port.answers s.sent).take (b + s.stored)).length ≤ b + s.fetched := by
    rw [List.length_take, answers_length]
    omega
  rw [← Scatter.fetch_scatter hplaces 0 mem hbefore, ← h.mem, hplace]
  unfold DmaState.source
  cases hbuf : ctx.buf s.tx with
  | none => exact h.dummy hbuf hlt
  | some a => rfl

/-! ### Its steps -/

theorem AtLoop.enter (h : AtLoop ctx port txBufs rxBufs txs rxs mem s)
    (hmore : ctx.len s.rx > 0 ∨ ctx.len s.tx > 0) :
    InPart ctx port txBufs rxBufs txs rxs mem s.sent.length (dmaLen ctx s.tx s.rx) { s with
      pc := .moving (dmaLen ctx s.tx s.rx)
      dummy := if ctx.buf s.tx = none then spiStm32TxNop α else s.dummy
      fetched := 0
      stored := 0 } where
  pc := rfl
  cursors := h.cursors
  more := hmore
  part := rfl
  tx := h.tx
  rx := h.rx
  fetched := Nat.zero_le _
  sent := by simpa [h.txFifo] using h.sent
  stored := le_rfl
  rxFifo := by simp [h.rxFifo]
  mem := by
    rw [Nat.add_zero, List.take_of_length_le (by simp)]
    exact h.mem
  dummy := fun hbuf _ => if_pos hbuf

theorem AtLoop.exit (h : AtLoop ctx port txBufs rxBufs txs rxs mem s)
    (hend : ¬(ctx.len s.rx > 0 ∨ ctx.len s.tx > 0)) :
    AtLoop ctx port txBufs rxBufs txs rxs mem { s with pc := .done } := by
  have htx := (ctx.len_eq_zero s.tx).mp (by omega)
  have hrx := (ctx.len_eq_zero s.rx).mp (by omega)
  rw [h.tx, List.drop_eq_nil_iff] at htx
  rw [h.rx, List.drop_eq_nil_iff] at hrx
  exact { h with pc := .inr rfl, ended := fun _ => max_le htx hrx }

theorem InPart.bound {b len : ℕ} (h : InPart ctx port txBufs rxBufs txs rxs mem b len s) :
    b + len ≤ max txs.length rxs.length := by
  have hframes := dmaLen_le_max ctx s.tx s.rx
  have htxLen := ctx.len_le s.tx
  have hrxLen := ctx.len_le s.rx
  have hpos := dmaLen_pos h.more
  rw [h.tx, List.length_drop] at htxLen
  rw [h.rx, List.length_drop] at hrxLen
  rw [h.part]
  omega

theorem InPart.leave {b len : ℕ} (h : InPart ctx port txBufs rxBufs txs rxs mem b len s)
    (hend : s.fetched = len ∨ s.stored = len) (htx : s.txFifo = []) (hrx : s.rxFifo = []) :
    AtLoop ctx port txBufs rxBufs txs rxs mem
      { s with pc := .loop, tx := ctx.update s.tx len, rx := ctx.update s.rx len } := by
  obtain ⟨hcount, hrest⟩ := h.count
  rw [htx, List.length_nil] at hcount
  rw [hrx, List.length_nil] at hrest
  have hfetched := h.fetched
  have hstored := h.stored
  have hsent : s.sent.length = b + len := by omega
  refine ⟨.inl rfl, ?_, ?_, ?_, htx, hrx, ?_, ?_, ?_, nofun⟩
  · rw [h.part]
    exact h.cursors.next h.more
  · rw [hsent, ctx.frames_update _ _ (h.part ▸ dmaLen_le_tx s.tx s.rx), h.tx, List.drop_drop]
  · rw [hsent, ctx.frames_update _ _ (h.part ▸ dmaLen_le_rx s.tx s.rx), h.rx, List.drop_drop]
  · have hall := h.sent
    rw [htx, List.append_nil] at hall
    rw [hsent, hall]
    congr 1
    omega
  · rw [h.mem, List.take_of_length_le]
    rw [answers_length]
    omega
  · exact hsent ▸ h.bound

theorem InPart.fetch {b len : ℕ} (h : InPart ctx port txBufs rxBufs txs rxs mem b len s)
    (hplaces : Scatter.FetchedFirst txs rxs) (hlt : s.fetched < len) :
    InPart ctx port txBufs rxBufs txs rxs mem b len
      { s with txFifo := s.txFifo ++ [s.source ctx], fetched := s.fetched + 1 } := by
  refine { h with fetched := hlt, sent := ?_, dummy := ?_ }
  · rw [h.source hplaces hlt, ← List.append_assoc, h.sent, ← Nat.add_assoc, Scatter.gather_succ]
  · exact fun hbuf hmore => h.dummy hbuf (Nat.lt_of_succ_lt hmore)

theorem InPart.exchange {b len : ℕ} (h : InPart ctx port txBufs rxBufs txs rxs mem b len s)
    {f : α} {fs : List α} (htx : s.txFifo = f :: fs) :
    InPart ctx port txBufs rxBufs txs rxs mem b len { s with
      txFifo := fs
      rxFifo := s.rxFifo ++ [port.answer s.sent f]
      sent := s.sent ++ [f] } := by
  have hstored := h.stored
  have hlen : b + s.stored ≤ (port.answers s.sent).length := by simpa using hstored
  refine { h with sent := ?_, stored := ?_, rxFifo := ?_, mem := ?_ }
  · rw [← h.sent, htx]
    simp
  · simp
    omega
  · rw [answers_concat, List.drop_append_of_le_length hlen, h.rxFifo]
  · rw [answers_concat, List.take_append_of_le_length hlen]
    exact h.mem

/-- Stored in the dummy buffer, an answer does no harm if no frame is to be fetched from it. -/
theorem InPart.store {b len : ℕ} (h : InPart ctx port txBufs rxBufs txs rxs mem b len s)
    (hdummy : ctx.buf s.tx = none → ctx.buf s.rx = none → len ≤ 1) {f : α} {fs : List α}
    (hrx : s.rxFifo = f :: fs) : InPart ctx port txBufs rxBufs txs rxs mem b len
      { { s with rxFifo := fs }.put ctx f with stored := s.stored + 1 } := by
  obtain ⟨hcount, hrest⟩ := h.count
  rw [hrx, List.length_cons] at hrest
  have hfetched := h.fetched
  have hdrop := h.rxFifo
  rw [hrx] at hdrop
  have hnext : (port.answers s.sent)[b + s.stored]? = some f := by
    rw [← Nat.add_zero (b + s.stored), ← List.getElem?_drop, ← hdrop]
    rfl
  have htake : (port.answers s.sent).take (b + (s.stored + 1)) =
      (port.answers s.sent).take (b + s.stored) ++ [f] := by
    rw [← Nat.add_assoc, List.take_add_one, hnext]
    rfl
  have hplace : rxs[b + s.stored]?.join = (ctx.buf s.rx).map (· + dfs * s.stored) := by
    rw [← ctx.place s.rx (dmaLen_le_rx s.tx s.rx) (by rw [← h.part]; omega), h.rx,
      List.getElem?_drop]
  have hmem : Scatter.scatter mem rxs ((port.answers s.sent).take (b + (s.stored + 1))) =
      Scatter.put s.mem ((ctx.buf s.rx).map (· + dfs * s.stored)) f := by
    rw [htake, Scatter.scatter_concat, ← h.mem, List.length_take, Nat.min_eq_left, hplace]
    rw [answers_length]
    omega
  have hrest' : fs = (port.answers s.sent).drop (b + (s.stored + 1)) := by
    rw [← Nat.add_assoc, ← List.drop_drop, ← hdrop]
    rfl
  unfold DmaState.put
  cases hbuf : ctx.buf s.rx with
  | none =>
    rw [hbuf] at hmem
    refine { h with stored := by dsimp only; omega, rxFifo := hrest', mem := ?_, dummy := ?_ }
    · rw [hmem]
      rfl
    · intro hnone hmore
      have hone := hdummy hnone hbuf
      dsimp only at hmore
      omega
  | some a =>
    rw [hbuf] at hmem
    exact { h with stored := by dsimp only; omega, rxFifo := hrest', mem := hmem.symm }

theorem DmaInv.step (hdummy : DummyAlone ctx txBufs rxBufs)
    (hplaces : Scatter.FetchedFirst txs rxs) (h : DmaInv ctx port txBufs rxBufs txs rxs mem s)
    (a : DmaAction) (hg : RxDrained s a) (hs : dmaStep ctx port s a = some s') :
    DmaInv ctx port txBufs rxBufs txs rxs mem s' := by
  rcases h with h | ⟨b, len, h⟩
  · -- between the parts only the driver moves
    have hnone : ∀ len, s.pc ≠ .moving len := by
      intro len hpc
      rcases h.pc with hloop | hdone
      · simp [hpc] at hloop
      · simp [hpc] at hdone
    cases a with
    | cpu =>
      rcases h.pc with hpc | hpc
      · simp only [dmaStep, DmaState.cpu, hpc] at hs
        by_cases hmore : ctx.len s.rx > 0 ∨ ctx.len s.tx > 0
        · rw [if_pos hmore] at hs
          cases hs
          exact .inr ⟨_, _, h.enter hmore⟩
        · rw [if_neg hmore] at hs
          cases hs
          exact .inl (h.exit hmore)
      · simp [dmaStep, DmaState.cpu, hpc] at hs
    | fetch =>
      rcases h.pc with hpc | hpc <;> simp [dmaStep, hpc] at hs
    | exchange => simp [dmaStep, h.txFifo] at hs
    | store => rcases h.pc with hpc | hpc <;> simp [dmaStep, hpc] at hs
  · cases a with
    | cpu =>
      simp only [dmaStep, DmaState.cpu, h.pc] at hs
      split_ifs at hs with hend
      cases hs
      exact .inl (h.leave hend.1 hend.2 (hg rfl))
    | fetch =>
      simp only [dmaStep, h.pc] at hs
      split_ifs at hs with hlt
      cases hs
      exact .inr ⟨b, len, h.pc ▸ h.fetch hplaces hlt.1⟩
    | exchange =>
      simp only [dmaStep] at hs
      split at hs <;> cases hs
      exact .inr ⟨b, len, h.exchange ‹_›⟩
    | store =>
      simp only [dmaStep, h.pc] at hs
      cases hfifo : s.rxFifo with
      | nil => simp [hfifo] at hs
      | cons f fs =>
        simp only [hfifo] at hs
        split_ifs at hs
        cases hs
        have hnext := h.store (fun htx hrx => h.part ▸ hdummy _ _ h.cursors htx hrx) hfifo
        exact .inr ⟨b, len, h.pc ▸ hnext⟩

theorem AtLoop.start (dummy : α) :
    AtLoop ctx port txBufs rxBufs (bufSetFrames dfs (txBufs.getD []))
      (bufSetFrames dfs (rxBufs.getD [])) mem (dmaStart ctx txBufs rxBufs mem dummy) where
  pc := .inl rfl
  cursors := .start
  tx := ctx.frames_setup _
  rx := ctx.frames_setup _
  txFifo := rfl
  rxFifo := rfl
  sent := rfl
  mem := (Scatter.scatter_nil _ _).symm
  bound := Nat.zero_le _
  ended := nofun

/-- While all parts are moved, the frames that went out are those of the transmit set. -/
theorem DmaInv.sent_eq (h : DmaInv ctx port txBufs rxBufs txs rxs mem s) :
    s.sent = Scatter.gather 0 mem txs s.sent.length := by
  rcases h with h | ⟨b, len, h⟩
  · exact h.sent
  · have hsent := congrArg (List.take s.sent.length) h.sent
    have hcount := h.count.1
    rwa [List.take_left, Scatter.gather_take _ _ _ (by omega)] at hsent

theorem DmaInv.bound (h : DmaInv ctx port txBufs rxBufs txs rxs mem s) :
    s.sent.length ≤ max txs.length rxs.length := by
  rcases h with h | ⟨b, len, h⟩
  · exact h.bound
  · have hcount := h.count.1
    have hfetched := h.fetched
    have hbound := h.bound
    omega

theorem dma_transfer (hdummy : DummyAlone ctx txBufs rxBufs)
    (htxs : txs = bufSetFrames dfs (txBufs.getD []))
    (hrxs : rxs = bufSetFrames dfs (rxBufs.getD [])) (hplaces : Scatter.FetchedFirst txs rxs)
    {dummy : α} (hs : Reach (· = dmaStart ctx txBufs rxBufs mem dummy) RxDrained
      (dmaStep ctx port) s) : DmaInv ctx port txBufs rxBufs txs rxs mem s := by
  subst htxs hrxs
  induction hs with
  | start h => exact .inl (h ▸ AtLoop.start _)
  | next _ hg hstep ih => exact ih.step hdummy hplaces _ hg hstep

/-! ### Frame by frame -/

/-- `n` frames were shifted. -/
structure PolledInv (ctx : SpiCursor dfs C) (port : SpiPort α P) (txs rxs : List (Option ℕ))
    (mem : ℕ → α) (s : PolledState α C) : Prop where
  tx : ctx.frames s.tx = txs.drop s.sent.length
  rx : ctx.frames s.rx = rxs.drop s.sent.length
  sent : s.sent = Scatter.gather 0 mem txs s.sent.length
  mem : s.mem = Scatter.scatter mem rxs (port.answers s.sent)

theorem PolledInv.shiftM {s : PolledState α C} (h : PolledInv ctx port txs rxs mem s)
    (hplaces : Scatter.FetchedFirst txs rxs) :
    PolledInv ctx port txs rxs mem (s.shiftM ctx port) := by
  have hframe : ctx.txFrame s.tx s.mem = Scatter.fetch 0 mem (txs[s.sent.length]?.join) := by
    rw [SpiCursor.txFrame_eq, h.tx, h.mem]
    simpa using Scatter.fetch_scatter hplaces 0 mem (answers_length port s.sent).le
  refine ⟨?_, ?_, ?_, ?_⟩
  · simp [PolledState.shiftM, SpiCursor.frames_update_one, h.tx]
  · simp [PolledState.shiftM, SpiCursor.frames_update_one, h.rx]
  · simp only [PolledState.shiftM, List.length_append, List.length_singleton]
    rw [hframe, Scatter.gather_succ, ← h.sent]
  · change ctx.rxFrame s.rx s.mem (port.answer s.sent (ctx.txFrame s.tx s.mem)) = _
    simp only [PolledState.shiftM, answers_concat]
    rw [SpiCursor.rxFrame_eq, h.rx, h.mem, Scatter.scatter_concat, answers_length]
    simp

theorem PolledInv.ongoing_iff {s : PolledState α C} (h : PolledInv ctx port txs rxs mem s) :
    s.transferOngoing ctx = true ↔ s.sent.length < max txs.length rxs.length := by
  simp only [PolledState.transferOngoing, Bool.or_eq_true, ctx.on_iff_frames, h.tx, h.rx, ne_eq,
    List.drop_eq_nil_iff]
  omega

/-- The loop ends after the longer of the buffer sets, and not before its first frame. -/
theorem shiftFrames_spec {s : PolledState α C} (h : PolledInv ctx port txs rxs mem s)
    (hplaces : Scatter.FetchedFirst txs rxs) (fuel : ℕ)
    (hfuel : max txs.length rxs.length ≤ s.sent.length + fuel + 1) :
    ∃ s', shiftFrames ctx port (fuel + 1) s = some s' ∧ PolledInv ctx port txs rxs mem s' ∧
      s'.sent.length = max (s.sent.length + 1) (max txs.length rxs.length) := by
  have hnext := h.shiftM hplaces
  have hlen : (s.shiftM ctx port).sent.length = s.sent.length + 1 := by
    simp [PolledState.shiftM]
  have hongoing := hnext.ongoing_iff
  rw [hlen] at hongoing
  induction fuel generalizing s with
  | zero =>
    have hend : ¬ (s.shiftM ctx port).transferOngoing ctx = true := by
      rw [hongoing]
      omega
    refine ⟨_, ?_, hnext, by omega⟩
    rw [shiftFrames]
    exact if_neg hend
  | succ fuel ih =>
    rw [shiftFrames]
    by_cases hmore : (s.shiftM ctx port).transferOngoing ctx = true
    · rw [if_pos hmore]
      rw [hongoing] at hmore
      have hnext' := hnext.shiftM hplaces
      have hlen' : ((s.shiftM ctx port).shiftM ctx port).sent.length =
          (s.shiftM ctx port).sent.length + 1 := by
        simp [PolledState.shiftM]
      obtain ⟨s', hs', hinv, hcount⟩ := ih hnext (by omega) hnext' hlen'
        (hlen' ▸ hnext'.ongoing_iff)
      exact ⟨s', hs', hinv, by omega⟩
    · rw [if_neg hmore]
      rw [hongoing] at hmore
      exact ⟨_, rfl, hnext, by omega⟩

theorem polledInv_start : PolledInv ctx port (bufSetFrames dfs (txBufs.getD []))
    (bufSetFrames dfs (rxBufs.getD [])) mem (polledStart ctx txBufs rxBufs mem) where
  tx := ctx.frames_setup _
  rx := ctx.frames_setup _
  sent := rfl
  mem := (Scatter.scatter_nil _ _).symm

/-! ### A part that goes through the dummy buffer both ways -/

/-- From `s`, the transfer can come to `s'` with each answer stored in time. -/
abbrev DmaLeads (ctx : SpiCursor dfs C) (port : SpiPort α P) (s s' : DmaState α C) : Prop :=
  Reach (· = s) RxDrained (dmaStep ctx port) s'

theorem DmaLeads.step (a : DmaAction) (hg : RxDrained s a)
    (hs : dmaStep ctx port s a = some s') : DmaLeads ctx port s s' :=
  Reach.next (.start rfl) hg hs

/-- The channels and the SPI need no answer to be stored. -/
theorem DmaLeads.channel (a : DmaAction) (ha : a ≠ .cpu)
    (hs : dmaStep ctx port s a = some s') : DmaLeads ctx port s s' :=
  .step a (fun h => absurd h ha) hs

/-- At the head of the loop after `b` frames, where the cursors are `tx` and `rx`. -/
structure Between (tx rx : C) (b : ℕ) (s : DmaState α C) : Prop where
  pc : s.pc = .loop
  tx : s.tx = tx
  rx : s.rx = rx
  txFifo : s.txFifo = []
  rxFifo : s.rxFifo = []
  sent : s.sent.length = b

/-- `k` frames of a part were moved one after the other. -/
structure Lockstep (tx rx : C) (b len k : ℕ) (s : DmaState α C) : Prop where
  pc : s.pc = .moving len
  tx : s.tx = tx
  rx : s.rx = rx
  txFifo : s.txFifo = []
  rxFifo : s.rxFifo = []
  fetched : s.fetched = k
  stored : s.stored = k
  sent : s.sent.length = b + k

section Lockstep

variable {tx rx : C} {b len k : ℕ}

variable (ctx port) in
theorem Between.enter (h : Between tx rx b s) (hmore : ctx.len rx > 0 ∨ ctx.len tx > 0) :
    ∃ s', DmaLeads ctx port s s' ∧ Lockstep tx rx b (dmaLen ctx tx rx) 0 s' ∧ s'.sent = s.sent ∧
      (ctx.buf tx = none → s'.dummy = 0) := by
  have hstep : dmaStep ctx port s .cpu = some { s with
      pc := .moving (dmaLen ctx s.tx s.rx)
      dummy := if ctx.buf s.tx = none then spiStm32TxNop α else s.dummy
      fetched := 0
      stored := 0 } := by
    simp only [dmaStep, DmaState.cpu, h.pc]
    rw [if_pos (by rw [h.tx, h.rx]; exact hmore)]
  refine ⟨_, DmaLeads.step .cpu (fun _ => h.rxFifo) hstep, ?_, rfl, ?_⟩
  · exact ⟨by rw [h.tx, h.rx], h.tx, h.rx, h.txFifo, h.rxFifo, rfl, rfl, h.sent⟩
  · intro hbuf
    exact if_pos (h.tx ▸ hbuf)

variable (ctx port) in
/-- The next frame is fetched and exchanged, and its answer is not stored yet. -/
theorem Lockstep.exchange (hdepth : 0 < port.txDepth) (h : Lockstep tx rx b len k s)
    (hlt : k < len) : DmaLeads ctx port s { s with
      fetched := s.fetched + 1
      txFifo := []
      rxFifo := [port.answer s.sent (s.source ctx)]
      sent := s.sent ++ [s.source ctx] } := by
  have hfetch : dmaStep ctx port s .fetch =
      some { s with txFifo := [s.source ctx], fetched := s.fetched + 1 } := by
    simp [dmaStep, h.pc, h.fetched, h.txFifo, hlt, hdepth]
  have hexchange : dmaStep ctx port
      { s with txFifo := [s.source ctx], fetched := s.fetched + 1 } .exchange = some { s with
        fetched := s.fetched + 1
        txFifo := []
        rxFifo := [port.answer s.sent (s.source ctx)]
        sent := s.sent ++ [s.source ctx] } := by
    simp [dmaStep, h.rxFifo, SpiPort.answer]
  have hfetched := DmaLeads.channel .fetch (by simp) hfetch
  exact hfetched.trans (DmaLeads.channel .exchange (by simp) hexchange)

variable (ctx port) in
/-- One frame is fetched, exchanged and stored before the next one. -/
theorem Lockstep.frame (hdepth : 0 < port.txDepth) (h : Lockstep tx rx b len k s) (hlt : k < len) :
    ∃ s', DmaLeads ctx port s s' ∧ Lockstep tx rx b len (k + 1) s' ∧
      s'.sent = s.sent ++ [s.source ctx] ∧
      (ctx.buf rx = none → s'.dummy = port.answer s.sent (s.source ctx)) := by
  have hstore : dmaStep ctx port { s with
      fetched := s.fetched + 1
      txFifo := []
      rxFifo := [port.answer s.sent (s.source ctx)]
      sent := s.sent ++ [s.source ctx] } .store = some { DmaState.put ctx { s with
        fetched := s.fetched + 1
        txFifo := []
        rxFifo := []
        sent := s.sent ++ [s.source ctx] } (port.answer s.sent (s.source ctx)) with
          stored := s.stored + 1 } := by
    simp [dmaStep, h.pc, h.stored, hlt]
  have hleads := h.exchange ctx port hdepth hlt
  refine ⟨_, hleads.trans (DmaLeads.channel .store (by simp) hstore), ?_, ?_, ?_⟩
  · unfold DmaState.put
    cases ctx.buf s.rx with
    | none =>
      refine ⟨h.pc, h.tx, h.rx, rfl, rfl, congrArg (· + 1) h.fetched, congrArg (· + 1) h.stored, ?_⟩
      simp [h.sent, Nat.add_assoc]
    | some a =>
      refine ⟨h.pc, h.tx, h.rx, rfl, rfl, congrArg (· + 1) h.fetched, congrArg (· + 1) h.stored, ?_⟩
      simp [h.sent, Nat.add_assoc]
  · unfold DmaState.put
    cases ctx.buf s.rx <;> rfl
  · intro hbuf
    simp only [DmaState.put, h.rx, hbuf]

variable (ctx port) in
theorem Lockstep.run (hdepth : 0 < port.txDepth) (h : Lockstep tx rx b len 0 s) (hk : k ≤ len) :
    ∃ s', DmaLeads ctx port s s' ∧ Lockstep tx rx b len k s' := by
  induction k with
  | zero => exact ⟨s, .start rfl, h⟩
  | succ k ih =>
    obtain ⟨t, ht, hlock⟩ := ih (Nat.le_of_succ_le hk)
    obtain ⟨s', hs', hnext, -, -⟩ := hlock.frame ctx port hdepth hk
    exact ⟨s', ht.trans hs', hnext⟩

variable (ctx port) in
theorem Lockstep.leave (h : Lockstep tx rx b len len s) : ∃ s', DmaLeads ctx port s s' ∧
    Between (ctx.update tx len) (ctx.update rx len) (b + len) s' := by
  have hstep : dmaStep ctx port s .cpu = some { s with
      pc := .loop, tx := ctx.update s.tx len, rx := ctx.update s.rx len } := by
    simp [dmaStep, DmaState.cpu, h.pc, h.stored, h.txFifo]
  exact ⟨_, DmaLeads.step .cpu (fun _ => h.rxFifo) hstep, rfl, by rw [h.tx], by rw [h.rx], h.txFifo, h.rxFifo, h.sent⟩

variable (ctx port) in
/-- Nothing makes the driver wait for the last answer of a part. -/
theorem Lockstep.answer_lost (hdepth : 0 < port.txDepth) (h : Lockstep tx rx b len k s)
    (hlast : k + 1 = len) : ∃ s', Reach (· = s) anyStep (dmaStep ctx port) s' ∧ s'.pc = .loop ∧
      s'.sent = s.sent ++ [s.source ctx] ∧ s'.mem = s.mem ∧
      s'.rxFifo = [port.answer s.sent (s.source ctx)] := by
  have hleads := h.exchange ctx port hdepth (by omega)
  have hany : Reach (· = s) anyStep (dmaStep ctx port) _ := hleads.mono fun _ _ _ => trivial
  have hstep : dmaStep ctx port { s with
      fetched := s.fetched + 1
      txFifo := []
      rxFifo := [port.answer s.sent (s.source ctx)]
      sent := s.sent ++ [s.source ctx] } .cpu = some { s with
        pc := .loop
        tx := ctx.update s.tx len
        rx := ctx.update s.rx len
        fetched := s.fetched + 1
        txFifo := []
        rxFifo := [port.answer s.sent (s.source ctx)]
        sent := s.sent ++ [s.source ctx] } := by
    simp [dmaStep, DmaState.cpu, h.pc, h.fetched, hlast]
  exact ⟨_, hany.next trivial hstep, rfl, rfl, rfl, rfl⟩

end Lockstep

variable (port mem) in
/-- The loop gets to each of its cursors. -/
theorem reach_loopCursors (hdepth : 0 < port.txDepth) (dummy : α) {tx rx : C}
    (h : LoopCursors ctx txBufs rxBufs tx rx) :
    ∃ b s, DmaLeads ctx port (dmaStart ctx txBufs rxBufs mem dummy) s ∧ Between tx rx b s ∧
      ctx.frames tx = (bufSetFrames dfs (txBufs.getD [])).drop b := by
  induction h with
  | start => exact ⟨0, _, .start rfl, ⟨rfl, rfl, rfl, rfl, rfl, rfl⟩, ctx.frames_setup _⟩
  | @next tx rx _ hmore ih =>
    obtain ⟨b, s, hs, hbetween, htx⟩ := ih
    obtain ⟨t, ht, hlock, -, -⟩ := hbetween.enter ctx port hmore
    obtain ⟨u, hu, hlocked⟩ := hlock.run ctx port hdepth le_rfl
    obtain ⟨v, hv, hleft⟩ := hlocked.leave ctx port
    refine ⟨_, v, ((hs.trans ht).trans hu).trans hv, hleft, ?_⟩
    rw [ctx.frames_update _ _ (dmaLen_le_tx tx rx), htx, List.drop_drop]

variable (port) in
/-- The second frame of such a part is the answer to the first. -/
theorem dummy_leaks {tx rx : C} {b : ℕ} (hdepth : 0 < port.txDepth) (h : Between tx rx b s)
    (htx : ctx.buf tx = none) (hrx : ctx.buf rx = none) (hlen : 2 ≤ dmaLen ctx tx rx) :
    ∃ s', DmaLeads ctx port s s' ∧ s'.sent = s.sent ++ [0, port.answer s.sent 0] := by
  have hmore : ctx.len rx > 0 ∨ ctx.len tx > 0 := by
    have hmax := dmaLen_le_max ctx tx rx
    omega
  obtain ⟨t, ht, hlock, hsent, hdummy⟩ := h.enter ctx port hmore
  obtain ⟨u, hu, hlock', hsent', hdummy'⟩ := hlock.frame ctx port hdepth (by omega)
  obtain ⟨v, hv, -, hsent'', -⟩ := hlock'.frame ctx port hdepth (by omega)
  have hfirst : t.source ctx = 0 := by
    rw [DmaState.source, hlock.tx, htx]
    exact hdummy htx
  have hsecond : u.source ctx = port.answer s.sent 0 := by
    rw [DmaState.source, hlock'.tx, htx]
    exact (hdummy' hrx).trans (by rw [hsent, hfirst])
  refine ⟨v, (ht.trans hu).trans hv, ?_⟩
  rw [hsent'', hsent', hsent, hfirst, hsecond, List.append_assoc]
  rfl

/-- DMA moves the frames that are moved one by one, for every device and however its channels
take turns, exactly when no part of more than a frame has memory in neither direction. In such
a part answers are sent where zeros should be. -/
theorem dma_agrees_iff [Nontrivial α] (htxs : txs = bufSetFrames dfs (txBufs.getD []))
    (hrxs : rxs = bufSetFrames dfs (rxBufs.getD [])) (hplaces : Scatter.FetchedFirst txs rxs)
    (hlong : 0 < max txs.length rxs.length) :
    (∀ (P : Type) (port : SpiPort α P) (dummy : α) (s : DmaState α C),
      Reach (· = dmaStart ctx txBufs rxBufs mem dummy) RxDrained (dmaStep ctx port) s →
      ∃ p, shiftFrames ctx port (max txs.length rxs.length)
          (polledStart ctx txBufs rxBufs mem) = some p ∧
        s.sent <+: p.sent ∧ (s.pc = .done → s.sent = p.sent ∧ s.mem = p.mem)) ↔
      DummyAlone ctx txBufs rxBufs := by
  have hpolled : ∀ {P : Type} (port : SpiPort α P), ∃ p,
      shiftFrames ctx port (max txs.length rxs.length)
        (polledStart ctx txBufs rxBufs mem) = some p ∧
      PolledInv ctx port txs rxs mem p ∧ p.sent.length = max txs.length rxs.length := by
    intro P port
    obtain ⟨fuel, hfuel⟩ := Nat.exists_eq_succ_of_ne_zero (Nat.ne_of_gt hlong)
    have hstart : PolledInv ctx port txs rxs mem (polledStart ctx txBufs rxBufs mem) := by
      rw [htxs, hrxs]
      exact polledInv_start
    have hzero : (polledStart ctx txBufs rxBufs mem).sent.length = 0 := rfl
    obtain ⟨p, hp, hinv, hcount⟩ := shiftFrames_spec hstart hplaces fuel (by omega)
    exact ⟨p, hfuel ▸ hp, hinv, by omega⟩
  constructor
  · intro hagree tx rx hcursors htx hrx
    by_contra hlen
    obtain ⟨a, ha⟩ := exists_ne (0 : α)
    let port : SpiPort α Unit :=
      { txDepth := 1, rxDepth := 1, peer := fun _ _ => ((), a), peerInit := (), interrupt := false }
    obtain ⟨b, s, hs, hbetween, hframes⟩ :=
      reach_loopCursors port mem Nat.one_pos 0 hcursors
    obtain ⟨s', hs', hsent⟩ := dummy_leaks port Nat.one_pos hbetween htx hrx (by omega)
    obtain ⟨p, hp, hprefix, -⟩ := hagree Unit port 0 s' (hs.trans hs')
    obtain ⟨p', hp', hinv, -⟩ := hpolled port
    cases hp.symm.trans hp'
    -- the frame after the first `b + 1`
    have hplace : txs[b + 1]?.join = none := by
      rw [htxs, ← List.getElem?_drop, ← hframes,
        ctx.place tx (dmaLen_le_tx tx rx) (show 1 < dmaLen ctx tx rx by omega), htx]
      rfl
    have hget : p.sent[b + 1]? = some a := by
      obtain ⟨rest, hrest⟩ := hprefix
      rw [← hrest, hsent, ← hbetween.sent]
      simp
      rfl
    rw [hinv.sent] at hget
    have hzero := Scatter.eq_fetch_of_gather hget
    rw [hplace] at hzero
    exact ha hzero
  · intro hdummy P port dummy s hs
    obtain ⟨p, hp, hinv, hcount⟩ := hpolled port
    have hdma := dma_transfer hdummy htxs hrxs hplaces hs
    refine ⟨p, hp, ?_, ?_⟩
    · rw [hdma.sent_eq, hinv.sent, ← Scatter.gather_take 0 mem txs (hcount ▸ hdma.bound)]
      exact List.take_prefix _ _
    · intro hdone
      rcases hdma with h | ⟨b, len, h⟩
      · have hlen : s.sent.length = p.sent.length :=
          hcount ▸ Nat.le_antisymm h.bound (h.ended hdone)
        have hsent : s.sent = p.sent := by rw [h.sent, hinv.sent, hlen]
        exact ⟨hsent, by rw [h.mem, hinv.mem, hsent]⟩
      · simp [h.pc] at hdone

/-- Two frames of nothing, with the answers to be dropped, are such a part. -/
theorem dma_agrees_iff_nothing : ¬ ∀ (P : Type) (port : SpiPort ℕ P) (dummy : ℕ)
    (s : DmaState ℕ BufsLeft),
    Reach (· = dmaStart (spiContext 1) (some [⟨none, 2⟩]) none id dummy) RxDrained
      (dmaStep (spiContext 1) port) s →
    ∃ p, shiftFrames (spiContext 1) port 2
        (polledStart (spiContext 1) (some [⟨none, 2⟩]) none id) = some p ∧
      s.sent <+: p.sent ∧ (s.pc = .done → s.sent = p.sent ∧ s.mem = p.mem) := by
  intro hagree
  have hplaces : Scatter.FetchedFirst [none, none] ([] : List (Option ℕ)) := by
    intro n a _ hmem
    simp at hmem
  have htxs : [none, none] = bufSetFrames 1 ((some [⟨none, 2⟩] : Option (List SpiBuf)).getD []) := rfl
  have hrxs : [] = bufSetFrames 1 ((none : Option (List SpiBuf)).getD []) := rfl
  have halone := (dma_agrees_iff htxs hrxs hplaces (by decide)).mp hagree
  exact absurd (halone _ _ .start rfl rfl) (by decide)

end MmIot
