import Mathlib.Algebra.Order.Ring.Int
import Mathlib.Logic.Function.Basic
import MmIot.Lib.Transition

/-! How the transfers of `spi_ll_stm32_optim.c` keep the SoC from suspending: any number of
threads, each one statement of the driver at a time. The transfers are those that end in the
thread that makes them, with DMA or without `CONFIG_SPI_STM32_INTERRUPT`, and without
`SPI_LOCK_ON`: `spi_context_lock` keeps the others out until `spi_context_release`. -/

namespace MmIot

/-- What a transfer takes a reference of. -/
inductive PmRef where
  | suspendToIdle | suspendToRam | device
  deriving DecidableEq

/-- `CONFIG_PM_S2RAM`, and whether the device has its two DMA channels. A device that has not is
of a build without `CONFIG_SPI_STM32_INTERRUPT`, where a transfer waits for nothing that can fail
before `spi_stm32_complete`. -/
structure PmConfig where
  s2ram : Bool
  dma : Bool

/-- In the order `spi_stm32_pm_policy_state_lock_get` takes them. -/
def PmConfig.gets (cfg : PmConfig) : List PmRef :=
  if cfg.s2ram then [.suspendToIdle, .suspendToRam, .device] else [.suspendToIdle, .device]

/-- In the order `spi_stm32_pm_policy_state_lock_put` gives them back. -/
def PmConfig.puts (cfg : PmConfig) : List PmRef :=
  if cfg.s2ram then [.device, .suspendToIdle, .suspendToRam] else [.device, .suspendToIdle]

/-- Where a thread is. The put inside `spi_stm32_complete` is not the `last` one, which
`transceive_dma` makes after it has released the context. -/
inductive PmPc where
  | idle
  | get
  | turnOn
  | getting (refs : List PmRef)
  | configure
  | transfer
  | put (last : Bool)
  | turnOff (last : Bool)
  | putting (last : Bool) (refs : List PmRef)
  | release
  deriving DecidableEq

/-- The lock of the context, `pm_policy_state_on`, and the references held. -/
structure PmShared where
  locked : Bool
  on : Bool
  count : PmRef → ℤ

/-- Where a thread goes on after a put. -/
def PmPc.afterPut : Bool → PmPc
  | true => .idle
  | false => .release

/-- The next statement of `transceive` or `transceive_dma`. `ok` is how the part before the
transfer ends: `spi_stm32_configure`, and the transfer size where there is one. -/
def PmShared.cpu (cfg : PmConfig) (s : PmShared) (ok : Bool) : PmPc → Option (PmShared × PmPc)
  | .idle => if s.locked then none else some ({ s with locked := true }, .get)
  | .get => some (s, if s.on then .configure else .turnOn)
  | .turnOn => some ({ s with on := true }, .getting cfg.gets)
  | .getting [] => some (s, .configure)
  | .getting (r :: rs) =>
    some ({ s with count := Function.update s.count r (s.count r + 1) }, .getting rs)
  | .configure => some (s, if ok then .transfer else .release)
  | .transfer => some (s, .put false)
  | .put last => some (s, if s.on then .turnOff last else .afterPut last)
  | .turnOff last => some ({ s with on := false }, .putting last cfg.puts)
  | .putting last [] => some (s, .afterPut last)
  | .putting last (r :: rs) =>
    some ({ s with count := Function.update s.count r (s.count r - 1) }, .putting last rs)
  | .release => some ({ s with locked := false }, if cfg.dma then .put true else .idle)

structure PmState where
  shared : PmShared
  threads : List PmPc

def pmStart (threads : ℕ) : PmState where
  shared := { locked := false, on := false, count := fun _ => 0 }
  threads := List.replicate threads .idle

/-- The step of one thread. -/
def pmStep (cfg : PmConfig) (s : PmState) (a : ℕ × Bool) : Option PmState :=
  s.threads[a.1]?.bind fun pc => (s.shared.cpu cfg a.2 pc).map fun next =>
    { shared := next.1, threads := s.threads.set a.1 next.2 }

/-- A thread that counts on the references from here to the end of its transfer. -/
def PmPc.relies : PmPc → Bool
  | .getting _ | .configure | .transfer => true
  | _ => false

/-- No reference was given back that was not held, and a transfer under way holds them all. -/
structure PmState.Awake (cfg : PmConfig) (s : PmState) : Prop where
  balanced : ∀ r ∈ cfg.gets, 0 ≤ s.shared.count r
  held : .transfer ∈ s.threads → ∀ r ∈ cfg.gets, 0 < s.shared.count r

/-- A thread that turns the flag off finds it on, and no thread counts on it. -/
def pmGuard (s : PmState) (a : ℕ × Bool) : Prop :=
  ∀ last, s.threads[a.1]? = some (.turnOff last) →
    s.shared.on = true ∧ ∀ pc ∈ s.threads, pc.relies = false

end MmIot
