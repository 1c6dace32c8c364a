import Mathlib.Order.Bounds.Image
import MmIot.Spec.SpiConfigure

/-! Which runs of transfers are made with the registers their configurations ask for, although
the driver takes a configuration at a known address for one it has written. -/

namespace MmIot

open Transition

variable {Ptr : Type} {board : SpiBoard} {clock clock' : ℕ}
  {config config' : SpiSettings} {regs : SpiRegs} {s s' : SpiDriver Ptr}

/-! ### The prescaler -/

/-- The slowest clock is the eighth. -/
theorem findPrescaler_eq_none {frequency : ℕ} : findPrescaler clock frequency = none ↔
    ¬ clock >>> 8 ≤ frequency := by
  simp only [findPrescaler, List.find?_range'_eq_none, Bool.not_eq_true', decide_eq_false_iff_not]
  constructor
  · exact fun h => h 8 (by omega) (by omega)
  · intro hslow j _ hj hle
    refine hslow (le_trans ?_ hle)
    rw [Nat.shiftRight_eq_div_pow, Nat.shiftRight_eq_div_pow]
    exact Nat.div_le_div_left (Nat.pow_le_pow_right Nat.two_pos (by omega)) (Nat.two_pow_pos j)

/-! ### The registers -/

variable [DecidableEq Ptr]

/-- What `spi_stm32_configure` can do to the driver. -/
inductive Configured (board : SpiBoard) (s : SpiDriver Ptr) (p : Ptr) (rateRead : Bool) :
    ℤ × SpiDriver Ptr → Prop
  | known : s.config = some p → Configured board s p rateRead (0, s)
  | unsupported : s.config ≠ some p → ¬ s.setsStandard board p →
      Configured board s p rateRead (-ENOTSUP, s)
  | refused {ret : ℤ} : s.setsStandard board p →
      ¬(rateRead = true ∧ s.clock >>> 8 ≤ (s.mem p).frequency) → ret < 0 →
      Configured board s p rateRead (ret, { s with regs := s.regs.setStandard board (s.mem p) })
  | installed {br : ℕ} : s.setsStandard board p →
      rateRead = true ∧ s.clock >>> 8 ≤ (s.mem p).frequency →
      findPrescaler s.clock (s.mem p).frequency = some br →
      Configured board s p rateRead (0, { s with
        regs := (s.regs.setStandard board (s.mem p)).install board (s.mem p) br
        config := some p })

theorem configured (board : SpiBoard) (s : SpiDriver Ptr) (p : Ptr) (rateRead : Bool) :
    Configured board s p rateRead (s.configure board p rateRead) := by
  unfold SpiDriver.configure
  by_cases hknown : s.config = some p
  · rw [if_pos hknown]
    exact .known hknown
  rw [if_neg hknown]
  unfold spiStm32Configure
  by_cases hword : (s.mem p).wordSize ≠ 8 ∧ (s.mem p).wordSize ≠ 16
  · rw [if_pos hword]
    exact .unsupported hknown fun h => by rcases h.2.1 with h | h <;> simp [h] at hword
  rw [if_neg hword]
  by_cases hti : ((s.mem p).frameFormatTi && !board.protocolTi) = true
  · rw [if_pos hti]
    refine .unsupported hknown fun h => ?_
    simp only [Bool.and_eq_true, Bool.not_eq_true'] at hti
    simp [h.2.2 hti.1] at hti
  rw [if_neg hti]
  have hsets : s.setsStandard board p := by
    refine ⟨hknown, by omega, fun hasked => ?_⟩
    simpa [hasked] using hti
  cases hread : rateRead with
  | false => exact .refused hsets (by simp) (by decide)
  | true =>
    simp only [Bool.not_true, Bool.false_eq_true, if_false]
    cases hbr : findPrescaler s.clock (s.mem p).frequency with
    | none =>
      have hret : -EINVAL < 0 := by decide
      exact .refused hsets (fun h => findPrescaler_eq_none.mp hbr h.2) hret
    | some br =>
      refine .installed hsets ⟨rfl, ?_⟩ hbr
      by_contra hslow
      rw [findPrescaler_eq_none.mpr hslow] at hbr
      cases hbr

end MmIot
