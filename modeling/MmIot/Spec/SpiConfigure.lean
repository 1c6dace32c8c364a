import Mathlib.Logic.Function.Basic
import Mathlib.Order.Bounds.Basic
import MmIot.Spec.SpiStm32

/-! `spi_stm32_configure` of `spi_ll_stm32_optim.c` over the transfers it is called for: it
writes the registers of the SPI, unless the configuration asked for is the one it wrote last,
which it knows by its address alone. -/

namespace MmIot

def ENOTSUP : ℤ := 134

/-- What is read of a `struct spi_config`. -/
structure SpiSettings where
  frequency : ℕ
  wordSize : ℕ
  frameFormatTi : Bool
  cpol : Bool
  cpha : Bool
  transferLsb : Bool
  opModeSlave : Bool
  csIsGpio : Bool

/-- `protocolMotorola` is for the two macros without which the format cannot be set back. -/
structure SpiBoard where
  protocolTi : Bool
  protocolMotorola : Bool
  useHwSs : Bool
  h7 : Bool
  fifo : Bool
  mssiClocks : ℕ
  midiClocks : ℕ

inductive SpiStandard where
  | motorola | ti
  deriving DecidableEq

inductive NssMode where
  | soft | hardInput | hardOutput
  deriving DecidableEq

/-- What the driver sets of the SPI. The clock is divided by `2 ^ br`. -/
structure SpiRegs where
  standard : SpiStandard
  br : ℕ
  polarityHigh : Bool
  phase2Edge : Bool
  fullDuplex : Bool
  lsbFirst : Bool
  crc : Bool
  nssPolarityLow : Bool
  ssLevelHigh : Bool
  nssMode : NssMode
  slave : Bool
  dataWidth : ℕ
  masterSsIdleness : ℕ
  interDataIdleness : ℕ
  fifoThreshold8bit : Bool

/-- The first of the eight prescalers that does not exceed the frequency. -/
def findPrescaler (clock frequency : ℕ) : Option ℕ :=
  (List.range' 1 8).find? fun br => clock >>> br ≤ frequency

/-- The frame format is set before anything else. -/
def SpiRegs.setStandard (board : SpiBoard) (config : SpiSettings) (regs : SpiRegs) : SpiRegs :=
  if config.frameFormatTi then { regs with standard := .ti }
  else if board.protocolMotorola then { regs with standard := .motorola }
  else regs

def SpiSettings.softNss (board : SpiBoard) (config : SpiSettings) : Bool :=
  config.csIsGpio || !board.useHwSs

/-- Everything else. -/
def SpiRegs.install (board : SpiBoard) (config : SpiSettings) (br : ℕ) (regs : SpiRegs) :
    SpiRegs :=
  { regs with
    br := br
    polarityHigh := config.cpol
    phase2Edge := config.cpha
    fullDuplex := true
    lsbFirst := config.transferLsb
    crc := false
    ssLevelHigh :=
      if config.softNss board && board.h7 && !config.opModeSlave && regs.nssPolarityLow then true
      else regs.ssLevelHigh
    nssMode :=
      if config.softNss board then .soft
      else if config.opModeSlave then .hardInput else .hardOutput
    slave := config.opModeSlave
    dataWidth := if config.wordSize = 8 then 8 else 16
    masterSsIdleness := if board.h7 then board.mssiClocks else regs.masterSsIdleness
    interDataIdleness := if board.h7 then board.midiClocks else regs.interDataIdleness
    fifoThreshold8bit := board.fifo || regs.fifoThreshold8bit }

/-- `spi_stm32_configure` for a configuration that was not the last; `rateRead` is whether
`clock_control_get_rate` succeeds. -/
def spiStm32Configure (board : SpiBoard) (clock : ℕ) (rateRead : Bool) (config : SpiSettings)
    (regs : SpiRegs) : ℤ × SpiRegs :=
  if config.wordSize ≠ 8 ∧ config.wordSize ≠ 16 then (-ENOTSUP, regs)
  else if config.frameFormatTi && !board.protocolTi then (-ENOTSUP, regs)
  else if !rateRead then (- EIO, regs.setStandard board config)
  else
    match findPrescaler clock config.frequency with
    | none => (-EINVAL, regs.setStandard board config)
    | some br => (0, (regs.setStandard board config).install board config br)

/-- `config` is that of the `spi_context`, and `mem` what the callers hold at each address. -/
structure SpiDriver (Ptr : Type) where
  config : Option Ptr
  regs : SpiRegs
  mem : Ptr → SpiSettings
  clock : ℕ

variable {Ptr : Type} [DecidableEq Ptr]

/-- With the test of `spi_context_configured` before it. -/
def SpiDriver.configure (board : SpiBoard) (s : SpiDriver Ptr) (p : Ptr) (rateRead : Bool) :
    ℤ × SpiDriver Ptr :=
  if s.config = some p then (0, s)
  else
    let (ret, regs) := spiStm32Configure board s.clock rateRead (s.mem p) s.regs
    (ret, { s with regs := regs, config := if ret = 0 then some p else s.config })

/-- A transfer, a caller that writes a configuration, or a change of the clock. -/
inductive SpiDriverAction (Ptr : Type) where
  | transceive (p : Ptr) (rateRead : Bool)
  | write (p : Ptr) (config : SpiSettings)
  | setClock (rate : ℕ)

def SpiSettings.standard (config : SpiSettings) : SpiStandard :=
  if config.frameFormatTi then .ti else .motorola

/-- The registers do what the configuration says: in particular, the SPI is clocked as fast as
its frequency allows. -/
structure Serves (board : SpiBoard) (clock : ℕ) (config : SpiSettings) (regs : SpiRegs) : Prop where
  standard : regs.standard = config.standard
  fastest : IsLeast {br | 1 ≤ br ∧ clock >>> br ≤ config.frequency} regs.br
  prescaler : regs.br ≤ 8
  polarity : regs.polarityHigh = config.cpol
  phase : regs.phase2Edge = config.cpha
  direction : regs.fullDuplex = true
  bitOrder : regs.lsbFirst = config.transferLsb
  crc : regs.crc = false
  nss : regs.nssMode = if config.softNss board then .soft
    else if config.opModeSlave then .hardInput else .hardOutput
  ssLevel : board.h7 → regs.nssMode = .soft → regs.slave = false → regs.nssPolarityLow →
    regs.ssLevelHigh
  mode : regs.slave = config.opModeSlave
  width : regs.dataWidth = config.wordSize

/-- Both are served by the same registers. -/
def Alike (board : SpiBoard) (clock clock' : ℕ) (config config' : SpiSettings) : Prop :=
  ∀ regs, Serves board clock config regs ↔ Serves board clock' config' regs

/-- The frame format of a transfer is set before its frequency is looked at. -/
def SpiDriver.setsStandard (board : SpiBoard) (s : SpiDriver Ptr) (p : Ptr) : Prop :=
  s.config ≠ some p ∧ ((s.mem p).wordSize = 8 ∨ (s.mem p).wordSize = 16) ∧
    ((s.mem p).frameFormatTi = true → board.protocolTi = true)

/-- What the registers do is not changed under the configuration they were written for: a
transfer that is refused after it set the frame format asks for the installed one, one that is
not finds a board that can set its format or is in it, and what the installed configuration
asks for stays the same. -/
def Settled (board : SpiBoard) (s : SpiDriver Ptr) : SpiDriverAction Ptr → Prop
  | .transceive p rateRead => s.setsStandard board p →
    if rateRead = true ∧ s.clock >>> 8 ≤ (s.mem p).frequency then
      (s.mem p).frameFormatTi = true ∨ board.protocolMotorola = true ∨ s.regs.standard = .motorola
    else ∀ q, s.config = some q → (s.mem p).frameFormatTi = (s.mem q).frameFormatTi ∨
      (s.mem p).frameFormatTi = false ∧ board.protocolMotorola = false
  | .write p config => s.config = some p → Alike board s.clock s.clock (s.mem p) config
  | .setClock rate => ∀ p, s.config = some p → Alike board s.clock rate (s.mem p) (s.mem p)

end MmIot
