import Mathlib.Algebra.Order.Ring.Nat
import MmIot.Lib.Transducer
import MmIot.Lib.Transition

/-! `spi_ll_stm32_optim.c`, the SPI master the radio is on: frames pass through the two
FIFOs of the peripheral, which goes on shifting between any two steps of the driver. -/

namespace MmIot

/-- `struct spi_buf`, with the address of the memory it lends or `none` for a NULL one. -/
structure SpiBuf where
  buf : Option ℕ
  len : ℕ

/-- The address of each whole frame of `dfs` bytes. -/
def SpiBuf.frames (dfs : ℕ) (b : SpiBuf) : List (Option ℕ) :=
  (List.range (b.len / dfs)).map fun i => b.buf.map (· + dfs * i)

def bufSetFrames (dfs : ℕ) (bufs : List SpiBuf) : List (Option ℕ) := bufs.flatMap (SpiBuf.frames dfs)

/-- One half of Zephyr's `spi_context`, which the driver moves along the transmit or the
receive buffer set: `tx_len` and `tx_buf` are what is left of the current buffer, and
`frames` what is left of the whole set. -/
structure SpiCursor (dfs : ℕ) (C : Type) where
  setup : List SpiBuf → C
  on : C → Bool
  bufOn : C → Bool
  len : C → ℕ
  buf : C → Option ℕ
  update : C → ℕ → C
  frames : C → List (Option ℕ)
  frames_setup : ∀ bufs, frames (setup bufs) = bufSetFrames dfs bufs
  on_iff : ∀ c, on c = true ↔ len c ≠ 0
  bufOn_iff : ∀ c, bufOn c = true ↔ len c ≠ 0 ∧ buf c ≠ none
  len_eq_zero : ∀ c, len c = 0 ↔ frames c = []
  buf_of_len : ∀ c, len c = 0 → buf c = none
  frames_getElem : ∀ c, ∀ i < len c, (frames c)[i]? = some ((buf c).map (· + dfs * i))
  frames_update : ∀ c n, n ≤ len c ∨ len c = 0 → frames (update c n) = (frames c).drop n

def EIO : ℤ := 5
def EINVAL : ℤ := 22
def EMSGSIZE : ℤ := 122

def UINT16_MAX : ℤ := 65535

/-- `spi_stm32_count_bufset_frames`: the number of bytes is a `uint32_t`, and the count an
`int32_t`. -/
def countBufsetFrames (bytesPerFrame : ℕ) : Option (List SpiBuf) → ℤ
  | none => 0
  | some bufs =>
    let numBytes := bufs.foldl (fun n b => (n + b.len) % 2 ^ 32) 0
    if numBytes % bytesPerFrame ≠ 0 then -EINVAL
    else Int.bmod ↑(numBytes / bytesPerFrame) (2 ^ 32)

/-- `spi_stm32_count_total_frames` -/
def countTotalFrames (bytesPerFrame : ℕ) (txBufs rxBufs : Option (List SpiBuf)) : ℤ :=
  let txFrames := countBufsetFrames bytesPerFrame txBufs
  if txFrames < 0 then txFrames
  else
    let rxFrames := countBufsetFrames bytesPerFrame rxBufs
    if rxFrames < 0 then rxFrames
    else if txFrames > UINT16_MAX ∨ rxFrames > UINT16_MAX then -EMSGSIZE
    else max rxFrames txFrames

/-- What the driver finds: the depths of the FIFOs, the device on the other end, which
answers each frame, and whether the interrupts of the SPI are used or it is polled. -/
structure SpiPort (α P : Type) where
  txDepth : ℕ
  rxDepth : ℕ
  peer : P → α → P × α
  peerInit : P
  interrupt : Bool

/-- Where the driver is: before a pass of `spi_stm32_isr` or of the polling loop, about to
look at the receive or the transmit FIFO, at the check that ends the pass, or in
`spi_stm32_complete` and past it with a status. -/
inductive SpiPc where
  | idle | rx | tx | check
  | flush (status : ℤ)
  | busy (status : ℤ)
  | done (status : ℤ)
  deriving DecidableEq

/-- A transfer under way. `left` is the number of frames the transfer size still lets in,
on the series that have one; `sent` the frames that went over the wire and `got` those the
driver took from the receive FIFO. -/
structure SpiState (α C : Type) where
  pc : SpiPc
  tx : C
  rx : C
  mem : ℕ → α
  txFifo : List α
  shift : Option α
  rxFifo : List α
  ovr : Bool
  fault : Bool
  left : Option ℕ
  sent : List α
  got : List α

/-- The driver's steps, and what the peripheral does in between: take a frame to shift,
end shifting it, or find an error. After an overrun the series differ in whether a frame
that would find room again is kept. -/
inductive SpiAction where
  | cpu
  | load
  | finish (keep : Bool)
  | fault

section Driver

variable {α C P : Type} [Zero α] {dfs : ℕ} (ctx : SpiCursor dfs C) (port : SpiPort α P)

/-- `SPI_STM32_TX_NOP` -/
def spiStm32TxNop (α : Type) [Zero α] : α := 0

/-- `UNALIGNED_GET` of the frame the transmit buffer is at. -/
def SpiCursor.txFrame (c : C) (mem : ℕ → α) : α :=
  if ctx.bufOn c then
    match ctx.buf c with
    | some a => mem a
    | none => spiStm32TxNop α
  else spiStm32TxNop α

/-- `UNALIGNED_PUT` to where the receive buffer is at. -/
def SpiCursor.rxFrame (c : C) (mem : ℕ → α) (f : α) : ℕ → α :=
  if ctx.bufOn c then
    match ctx.buf c with
    | some a => Function.update mem a f
    | none => mem
  else mem

/-- `spi_stm32_send_next_frame` -/
def SpiState.sendNextFrame (s : SpiState α C) : SpiState α C :=
  { s with
    txFifo := s.txFifo ++ [ctx.txFrame s.tx s.mem]
    left := s.left.map (· - 1)
    tx := ctx.update s.tx 1 }

/-- `spi_stm32_read_next_frame` -/
def SpiState.readNextFrame (s : SpiState α C) : SpiState α C :=
  match s.rxFifo with
  | [] => s
  | f :: fs =>
    { s with
      rxFifo := fs
      got := s.got ++ [f]
      mem := ctx.rxFrame s.rx s.mem f
      rx := ctx.update s.rx 1 }

/-- `ll_func_tx_is_not_full`, which a transfer size that is used up also ends. -/
def SpiState.txIsNotFull (s : SpiState α C) : Bool :=
  s.txFifo.length < port.txDepth && s.left != some 0

def SpiState.transferOngoing (s : SpiState α C) : Bool := ctx.on s.tx || ctx.on s.rx

/-- `spi_stm32_get_err`, with the overrun flag cleared. -/
def SpiState.getErr (s : SpiState α C) : ℤ × SpiState α C :=
  if s.ovr || s.fault then (- EIO, { s with ovr := false }) else (0, s)

/-- `spi_stm32_complete` up to where it flushes the receive FIFO. -/
def SpiState.complete (s : SpiState α C) (status : ℤ) : SpiState α C :=
  { s with pc := .flush status }

/-- `ll_func_spi_is_busy`: a frame is under way, or the transfer size is not used up. -/
def SpiState.isBusy (s : SpiState α C) : Bool :=
  !s.txFifo.isEmpty || s.shift.isSome || s.left.getD 0 != 0

/-- One step of the driver. -/
def SpiState.cpu (s : SpiState α C) : Option (SpiState α C) :=
  match s.pc with
  | .idle =>
    if port.interrupt then
      let (err, s) := s.getErr
      if err ≠ 0 then some (s.complete err)
      else if s.transferOngoing ctx then some { s with pc := .rx }
      else some (s.complete 0)
    else some { s with pc := .rx }
  | .rx => some { s.readNextFrame ctx with pc := .tx }
  | .tx =>
    if s.txIsNotFull port then some { s.sendNextFrame ctx with pc := .check }
    else some { s with pc := .check }
  | .check =>
    let (err, s) := s.getErr
    if err ≠ 0 ∨ s.transferOngoing ctx = false then some (s.complete err)
    else some { s with pc := .idle }
  | .flush status =>
    match s.rxFifo with
    | [] => some { s with pc := .busy status }
    | _ :: fs => some { s with rxFifo := fs }
  | .busy status => if s.isBusy then none else some { s with pc := .done status }
  | .done _ => none

/-- The frame being shifted is out, and the answer to it is in. -/
def SpiState.finish (s : SpiState α C) (keep : Bool) : Option (SpiState α C) :=
  match s.shift with
  | none => none
  | some f =>
    let a := (port.peer (Transducer.run port.peer port.peerInit s.sent).1 f).2
    let s := { s with shift := none, sent := s.sent ++ [f] }
    some (
      if port.rxDepth ≤ s.rxFifo.length then { s with ovr := true }
      else if s.ovr && !keep then s
      else { s with rxFifo := s.rxFifo ++ [a] })

def spiStep (s : SpiState α C) : SpiAction → Option (SpiState α C)
  | .cpu => s.cpu ctx port
  | .load =>
    match s.shift, s.txFifo with
    | none, f :: fs => some { s with shift := some f, txFifo := fs }
    | _, _ => none
  | .finish keep => s.finish port keep
  | .fault => some { s with fault := true }

/-- The buffer sets are set up on the frame memory `mem`, and the peripheral is enabled with
empty FIFOs. -/
def transferSetup (txBufs rxBufs : Option (List SpiBuf)) (left : Option ℕ) (mem : ℕ → α) :
    SpiState α C where
  pc := .idle
  tx := ctx.setup (txBufs.getD [])
  rx := ctx.setup (rxBufs.getD [])
  mem := mem
  txFifo := []
  shift := none
  rxFifo := []
  ovr := false
  fault := false
  left := left
  sent := []
  got := []

/-- `transceive` up to its loop. A master with the FIFO on the `st_stm32h7_spi` series has a
transfer size, where 0 is no limit. -/
def transceiveStart (hasTransferSize : Bool) (txBufs rxBufs : Option (List SpiBuf))
    (mem : ℕ → α) : Except ℤ (SpiState α C) :=
  let totalFrames := countTotalFrames dfs txBufs rxBufs
  if hasTransferSize = false then .ok (transferSetup ctx txBufs rxBufs none mem)
  else if totalFrames < 0 then .error totalFrames
  else
    let left := if totalFrames = 0 then none else some totalFrames.toNat
    .ok (transferSetup ctx txBufs rxBufs left mem)

/-- Whether an interrupt is pending: that of the receive FIFO is enabled only for a transfer
with receive buffers, and the end of transfer only where there is a transfer size. -/
def SpiState.interruptPending (rxBufs : Option (List SpiBuf)) (s : SpiState α C) : Bool :=
  s.txIsNotFull port || (rxBufs.isSome && !s.rxFifo.isEmpty) || s.ovr || s.fault ||
    (s.left == some 0 && !s.isBusy)

end Driver

end MmIot
