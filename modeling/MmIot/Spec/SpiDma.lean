import MmIot.Spec.SpiStm32

/-! The two ways `spi_ll_stm32_optim.c` moves frames without the FIFOs: one by one, and with
a DMA channel for each direction, which share one dummy buffer for the parts of a transfer
that have no memory. -/

namespace MmIot

variable {α C P : Type} [Zero α] {dfs : ℕ} (ctx : SpiCursor dfs C) (port : SpiPort α P)

/-! ### Frame by frame -/

/-- The frames sent so far determine the state of the device. -/
structure PolledState (α C : Type) where
  tx : C
  rx : C
  mem : ℕ → α
  sent : List α

def PolledState.transferOngoing (s : PolledState α C) : Bool := ctx.on s.tx || ctx.on s.rx

/-- `spi_stm32_shift_m` without the FIFO: it waits for the answer to each frame. -/
def PolledState.shiftM (s : PolledState α C) : PolledState α C :=
  let f := ctx.txFrame s.tx s.mem
  let tx := ctx.update s.tx 1
  let a := (port.peer (Transducer.run port.peer port.peerInit s.sent).1 f).2
  { tx := tx
    rx := ctx.update s.rx 1
    mem := ctx.rxFrame s.rx s.mem a
    sent := s.sent ++ [f] }

/-- The loop of `transceive` without interrupts, which shifts a frame before it looks whether
there is one. -/
def shiftFrames : ℕ → PolledState α C → Option (PolledState α C)
  | 0, _ => none
  | fuel + 1, s =>
    let s := s.shiftM ctx port
    if s.transferOngoing ctx then shiftFrames fuel s else some s

def polledStart (txBufs rxBufs : Option (List SpiBuf)) (mem : ℕ → α) : PolledState α C where
  tx := ctx.setup (txBufs.getD [])
  rx := ctx.setup (rxBufs.getD [])
  mem := mem
  sent := []

/-! ### With DMA -/

/-- Before a part of the transfer, in one of `len` frames, or past the last one. -/
inductive DmaPc where
  | loop
  | moving (len : ℕ)
  | done
  deriving DecidableEq

/-- The frames fetched and not yet sent are in `txFifo`, the answers not yet stored in `rxFifo`.
`fetched` and `stored` count those of the current part, and `dummy` is `dummy_rx_tx_buffer`. -/
structure DmaState (α C : Type) where
  pc : DmaPc
  tx : C
  rx : C
  mem : ℕ → α
  dummy : α
  txFifo : List α
  rxFifo : List α
  fetched : ℕ
  stored : ℕ
  sent : List α

/-- The driver's loop, a channel that moves a frame, or the SPI that exchanges one. -/
inductive DmaAction where
  | cpu | fetch | exchange | store

/-- The frames moved in one part of the transfer. -/
def dmaLen (tx rx : C) : ℕ :=
  if ctx.len rx = 0 then ctx.len tx
  else if ctx.len tx = 0 then ctx.len rx
  else min (ctx.len tx) (ctx.len rx)

/-- The frame at the source address, which stays at the dummy buffer for a NULL one. -/
def DmaState.source (s : DmaState α C) : α :=
  match ctx.buf s.tx with
  | none => s.dummy
  | some a => s.mem (a + dfs * s.fetched)

/-- The frame put at the destination address. -/
def DmaState.put (s : DmaState α C) (f : α) : DmaState α C :=
  match ctx.buf s.rx with
  | none => { s with dummy := f }
  | some a => { s with mem := Function.update s.mem (a + dfs * s.stored) f }

/-- The loop of `transceive_dma`. Loading the channel for transmission clears the dummy buffer
if it is the source. The part is over when either channel is and the SPI is idle. -/
def DmaState.cpu (s : DmaState α C) : Option (DmaState α C) :=
  match s.pc with
  | .loop =>
    if ctx.len s.rx > 0 ∨ ctx.len s.tx > 0 then
      some { s with
        pc := .moving (dmaLen ctx s.tx s.rx)
        dummy := if ctx.buf s.tx = none then spiStm32TxNop α else s.dummy
        fetched := 0
        stored := 0 }
    else some { s with pc := .done }
  | .moving len =>
    -- `wait_dma_rx_tx_done` returns at the first of the two flags
    if (s.fetched = len ∨ s.stored = len) ∧ s.txFifo = [] then
      some { s with pc := .loop, tx := ctx.update s.tx len, rx := ctx.update s.rx len }
    else none
  | .done => none

def dmaStep (s : DmaState α C) : DmaAction → Option (DmaState α C)
  | .cpu => s.cpu ctx
  | .fetch =>
    match s.pc with
    | .moving len =>
      if s.fetched < len ∧ s.txFifo.length < port.txDepth then
        some { s with txFifo := s.txFifo ++ [s.source ctx], fetched := s.fetched + 1 }
      else none
    | _ => none
  | .exchange =>
    match s.txFifo with
    | [] => none
    | f :: fs =>
      let a := (port.peer (Transducer.run port.peer port.peerInit s.sent).1 f).2
      some { s with txFifo := fs, rxFifo := s.rxFifo ++ [a], sent := s.sent ++ [f] }
  | .store =>
    match s.pc, s.rxFifo with
    | .moving len, f :: fs =>
      if s.stored < len then
        some { { s with rxFifo := fs }.put ctx f with stored := s.stored + 1 }
      else none
    | _, _ => none

/-- The driver goes on with all answers stored, which it does not wait for. -/
def RxDrained (s : DmaState α C) (a : DmaAction) : Prop := a = .cpu → s.rxFifo = []

/-- `transceive_dma` up to its loop; what the dummy buffer holds is left from before. -/
def dmaStart (txBufs rxBufs : Option (List SpiBuf)) (mem : ℕ → α) (dummy : α) : DmaState α C where
  pc := .loop
  tx := ctx.setup (txBufs.getD [])
  rx := ctx.setup (rxBufs.getD [])
  mem := mem
  dummy := dummy
  txFifo := []
  rxFifo := []
  fetched := 0
  stored := 0
  sent := []

/-- The cursors at the head of the loop, which depend on the buffer sets alone. -/
inductive LoopCursors (txBufs rxBufs : Option (List SpiBuf)) : C → C → Prop
  | start : LoopCursors txBufs rxBufs (ctx.setup (txBufs.getD [])) (ctx.setup (rxBufs.getD []))
  | next {tx rx : C} : LoopCursors txBufs rxBufs tx rx → ctx.len rx > 0 ∨ ctx.len tx > 0 →
      LoopCursors txBufs rxBufs (ctx.update tx (dmaLen ctx tx rx))
        (ctx.update rx (dmaLen ctx tx rx))

/-- No part of the transfer that has memory in neither direction is longer than a frame. -/
def DummyAlone (txBufs rxBufs : Option (List SpiBuf)) : Prop :=
  ∀ tx rx, LoopCursors ctx txBufs rxBufs tx rx → ctx.buf tx = none → ctx.buf rx = none →
    dmaLen ctx tx rx ≤ 1

end MmIot
