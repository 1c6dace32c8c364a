import Mathlib.Tactic.Common
import MmIot.Spec.SpiTraining

/-! The chip select and the bus after the training sequence. Both are given back only on the
way through to the end, and the pin only if it was active low. -/

namespace MmIot

/-- The pin is as it was, and the bus not locked with the configuration on the stack. -/
structure GivesBack (s s' : SpiBus) : Prop where
  csFlags : s'.csFlags = s.csFlags
  lockedBy : s'.lockedBy ≠ some .temporary

/-- The pin is active low before a transfer that succeeds and releases the bus, or active high
before one that fails and does not lock it. Where the flags are not reported, they have to be
the default ones, active low or active high. -/
def TrainingGivesBack (gpio : GpioConstants) (env : TrainingEnv) (s : SpiBus) : Prop :=
  match env.getConfig with
  | .failed => True
  | .ok =>
    if env.transceive = 0 then
      env.release = 0 ∧ s.csFlags &&& gpio.GPIO_ACTIVE_LOW = gpio.GPIO_ACTIVE_LOW
    else env.keepsLock = false ∧ s.csFlags &&& gpio.GPIO_ACTIVE_LOW = 0#32
  | .enosys =>
    if env.transceive = 0 then
      env.release = 0 ∧ s.csFlags = gpio.GPIO_OUTPUT_INACTIVE ||| gpio.GPIO_ACTIVE_LOW
    else env.keepsLock = false ∧ s.csFlags = gpio.GPIO_OUTPUT_INACTIVE &&& ~~~gpio.GPIO_ACTIVE_LOW

/-! ### Flags -/

theorem eq_or_mask_iff (flags mask : GpioFlags) : flags = flags ||| mask ↔ flags &&& mask = mask := by
  simp only [BitVec.eq_of_getElem_eq_iff, BitVec.getElem_or, BitVec.getElem_and]
  refine forall_congr' fun i => forall_congr' fun hi => ?_
  cases flags[i] <;> cases mask[i] <;> decide

theorem eq_and_not_mask_iff (flags mask : GpioFlags) :
    flags = flags &&& ~~~mask ↔ flags &&& mask = 0#32 := by
  simp only [BitVec.eq_of_getElem_eq_iff, BitVec.getElem_and, BitVec.getElem_not, BitVec.getElem_zero]
  refine forall_congr' fun i => forall_congr' fun hi => ?_
  cases flags[i] <;> cases mask[i] <;> decide

/-! ### The exits -/

section Exits

variable (gpio : GpioConstants) (env : TrainingEnv) (s : SpiBus)

theorem training_transferred (hget : env.getConfig ≠ .failed) (hconf : env.configure = 0)
    (htransfer : env.transceive = 0) (hrestore : env.restore = 0) :
    mmhalWlanSendTrainingSeq gpio env s =
      ⟨trainingFlags gpio env s ||| gpio.GPIO_ACTIVE_LOW,
        if env.release = 0 then none else some .temporary⟩ := by
  unfold mmhalWlanSendTrainingSeq
  rw [if_neg hget]
  simp only [hconf, htransfer, hrestore, ne_eq, not_true_eq_false, if_false, gpioPinConfigure,
    spiTransceive, spiRelease, if_true, true_or]
  split <;> rfl

theorem training_notTransferred (hget : env.getConfig ≠ .failed) (hconf : env.configure = 0)
    (htransfer : env.transceive ≠ 0) :
    mmhalWlanSendTrainingSeq gpio env s =
      ⟨trainingFlags gpio env s &&& ~~~gpio.GPIO_ACTIVE_LOW,
        if env.keepsLock then some .temporary else s.lockedBy⟩ := by
  unfold mmhalWlanSendTrainingSeq
  rw [if_neg hget]
  simp only [hconf, htransfer, ne_eq, not_true_eq_false, not_false_eq_true, if_false, if_true,
    gpioPinConfigure, spiTransceive, false_or]
  split <;> rfl

/-- Past the query of the flags, the pin has to have the flags that the exit leaves. -/
theorem training_givesBack_iff_of_flags (hget : env.getConfig ≠ .failed) (hconf : env.configure = 0)
    (hrestore : env.restore = 0) (hfree : s.lockedBy ≠ some .temporary) :
    GivesBack s (mmhalWlanSendTrainingSeq gpio env s) ↔
      if env.transceive = 0 then
        env.release = 0 ∧ s.csFlags = trainingFlags gpio env s ||| gpio.GPIO_ACTIVE_LOW
      else env.keepsLock = false ∧
        s.csFlags = trainingFlags gpio env s &&& ~~~gpio.GPIO_ACTIVE_LOW := by
  by_cases htransfer : env.transceive = 0
  · rw [if_pos htransfer, training_transferred gpio env s hget hconf htransfer hrestore]
    refine ⟨?_, ?_⟩
    · rintro ⟨hflags, hlock⟩
      refine ⟨?_, hflags.symm⟩
      by_contra hrelease
      rw [if_neg hrelease] at hlock
      exact hlock rfl
    · rintro ⟨hrelease, hflags⟩
      rw [if_pos hrelease]
      exact ⟨hflags.symm, by simp⟩
  · rw [if_neg htransfer, training_notTransferred gpio env s hget hconf htransfer]
    refine ⟨?_, ?_⟩
    · rintro ⟨hflags, hlock⟩
      refine ⟨?_, hflags.symm⟩
      by_contra hkeeps
      rw [if_pos (eq_true_of_ne_false hkeeps)] at hlock
      exact hlock rfl
    · rintro ⟨hkeeps, hflags⟩
      rw [if_neg (by rw [hkeeps]; decide)]
      exact ⟨hflags.symm, hfree⟩

/-- Where the pin can be reconfigured, pin and bus are given back if and only if the transfer
ends as the pin's polarity needs it. -/
theorem training_givesBack_iff (hconf : env.configure = 0) (hrestore : env.restore = 0)
    (hfree : s.lockedBy ≠ some .temporary) :
    GivesBack s (mmhalWlanSendTrainingSeq gpio env s) ↔ TrainingGivesBack gpio env s := by
  unfold TrainingGivesBack
  cases hget : env.getConfig with
  | failed =>
    have hsame : mmhalWlanSendTrainingSeq gpio env s = s := if_pos hget
    rw [hsame]
    exact iff_of_true ⟨rfl, hfree⟩ trivial
  | ok =>
    have hflags : trainingFlags gpio env s = s.csFlags := if_pos hget
    rw [training_givesBack_iff_of_flags gpio env s (by simp [hget]) hconf hrestore hfree, hflags,
      eq_or_mask_iff, eq_and_not_mask_iff]
  | enosys =>
    have hflags : trainingFlags gpio env s = gpio.GPIO_OUTPUT_INACTIVE := if_neg (by simp [hget])
    rw [training_givesBack_iff_of_flags gpio env s (by simp [hget]) hconf hrestore hfree, hflags]

end Exits

/-! ### An active-low and an active-high pin -/

/-- Zephyr's flags; an inactive output is one that starts at its logical low. -/
def zephyrGpio : GpioConstants where
  GPIO_ACTIVE_LOW := 0x000001
  GPIO_OUTPUT_INACTIVE := 0x160000

/-- An output, as the driver of the pin reports it. -/
def csOutput : GpioFlags := 0x020000

/-- The flags are reported, and only the transfer can fail. -/
def trainingEnv (transceive : ℤ) : TrainingEnv where
  getConfig := .ok
  configure := 0
  transceive := transceive
  keepsLock := false
  release := 0
  restore := 0

theorem training_givesBack_iff_activeLow :
    GivesBack ⟨csOutput ||| zephyrGpio.GPIO_ACTIVE_LOW, none⟩
      (mmhalWlanSendTrainingSeq zephyrGpio (trainingEnv 0)
        ⟨csOutput ||| zephyrGpio.GPIO_ACTIVE_LOW, none⟩) :=
  (training_givesBack_iff zephyrGpio (trainingEnv 0) ⟨csOutput ||| zephyrGpio.GPIO_ACTIVE_LOW, none⟩
    rfl rfl (by decide)).mpr ⟨rfl, by decide⟩

/-- A transfer that fails leaves an active-low pin active high, and one that succeeds an
active-high pin active low. -/
theorem failedTransfer_not_givesBack :
    (mmhalWlanSendTrainingSeq zephyrGpio (trainingEnv (-5))
        ⟨csOutput ||| zephyrGpio.GPIO_ACTIVE_LOW, none⟩).csFlags = csOutput ∧
      (mmhalWlanSendTrainingSeq zephyrGpio (trainingEnv 0) ⟨csOutput, none⟩).csFlags =
        csOutput ||| zephyrGpio.GPIO_ACTIVE_LOW ∧
      ¬ GivesBack ⟨csOutput ||| zephyrGpio.GPIO_ACTIVE_LOW, none⟩
        (mmhalWlanSendTrainingSeq zephyrGpio (trainingEnv (-5))
          ⟨csOutput ||| zephyrGpio.GPIO_ACTIVE_LOW, none⟩) ∧
      ¬ GivesBack ⟨csOutput, none⟩
        (mmhalWlanSendTrainingSeq zephyrGpio (trainingEnv 0) ⟨csOutput, none⟩) := by
  refine ⟨by decide, by decide, ?_, ?_⟩
  · intro h
    exact absurd h.csFlags (by decide)
  · intro h
    exact absurd h.csFlags (by decide)

end MmIot
