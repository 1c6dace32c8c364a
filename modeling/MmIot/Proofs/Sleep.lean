import Mathlib.Algebra.Order.Ring.Rat
import Mathlib.Tactic.Linarith
import Mathlib.Tactic.NormNum
import MmIot.Spec.Sleep

/-! Sleeps at and beyond the 31 bits of the kernel's parameter: one shim loops, the other
hands over a sum that does not fit. -/

namespace MmIot

theorem INT32_MAX_toInt32 : CInt.toInt32 INT32_MAX = 2147483647 :=
  CInt.toInt32_small (x := INT32_MAX) (by decide)

/-- The loop's arguments are not negative and add up. -/
theorem mmosalTaskSleep_adds (durationMs : UInt32) :
    (∀ ms ∈ mmosalTaskSleep durationMs, 0 ≤ ms) ∧
      (mmosalTaskSleep durationMs).sum = durationMs.toNat := by
  induction durationMs using mmosalTaskSleep.induct with
  | case1 durationMs h ih =>
    have hle : INT32_MAX ≤ durationMs := UInt32.le_of_lt h
    have hmax : INT32_MAX.toNat = 2147483647 := rfl
    have hsub := UInt32.toNat_sub_of_le _ _ hle
    rw [UInt32.le_iff_toNat_le] at hle
    obtain ⟨hpos, hsum⟩ := ih
    rw [mmosalTaskSleep, if_pos h, INT32_MAX_toInt32]
    refine ⟨List.forall_mem_cons.mpr ⟨by decide, hpos⟩, ?_⟩
    rw [List.sum_cons, hsum, hsub]
    omega
  | case2 durationMs h =>
    have hmax : INT32_MAX.toNat = 2147483647 := rfl
    rw [UInt32.lt_iff_toNat_lt] at h
    have harg : CInt.toInt32 durationMs = durationMs.toNat := CInt.toInt32_small (by omega)
    rw [mmosalTaskSleep, if_neg (by rwa [UInt32.lt_iff_toNat_lt]), harg]
    exact ⟨by simp, by simp⟩

/-- A sum of 31 bits is handed over as it is. -/
theorem osSleep_fits {sec usec : ℤ} (hsec : 0 ≤ sec) (husec : 0 ≤ usec)
    (h : sec * 1000000 + usec ≤ 2147483647000) :
    slept (osSleep sec usec) = sec * 1000 + (usec + 999) / 1000 := by
  have hdiv : (usec + 999).tdiv 1000 = (usec + 999) / 1000 := Int.tdiv_eq_ediv_of_nonneg (by omega)
  unfold osSleep
  dsimp only
  rw [hdiv]
  split
  next hpos =>
    rw [CInt.bmod_fits (by omega), slept, List.map_singleton, List.sum_singleton, kMsleep]
    omega
  next hpos =>
    rw [slept, List.map_nil, List.sum_nil]
    omega

/-- Whatever it is narrowed to, the argument has 31 bits. -/
theorem slept_osSleep_le (sec usec : ℤ) : slept (osSleep sec usec) ≤ 2147483647 := by
  unfold osSleep
  dsimp only
  split
  next =>
    have := Int.bmod_lt (x := sec * 1000 + (usec + 999).tdiv 1000) (m := 2 ^ 32) (by decide)
    rw [slept, List.map_singleton, List.sum_singleton, kMsleep]
    omega
  next => decide

theorem osSleep_longEnough_iff {sec usec : ℤ} (hsec : 0 ≤ sec) (husec : 0 ≤ usec) :
    (sec * 1000 + usec / 1000 : ℚ) ≤ slept (osSleep sec usec) ↔
      sec * 1000000 + usec ≤ 2147483647000 := by
  refine ⟨fun h => ?_, fun h => ?_⟩
  · have hle : (slept (osSleep sec usec) : ℚ) ≤ 2147483647 := by
      exact_mod_cast slept_osSleep_le sec usec
    have hbound : (sec * 1000000 + usec : ℚ) ≤ 2147483647000 := by linarith
    exact_mod_cast hbound
  · have hceil : usec ≤ (usec + 999) / 1000 * 1000 := by omega
    have hcast : (usec : ℚ) ≤ ((usec + 999) / 1000 : ℤ) * 1000 := by exact_mod_cast hceil
    rw [osSleep_fits hsec husec h, Int.cast_add, Int.cast_mul]
    push_cast at hcast ⊢
    linarith

/-- The task sleep makes up every duration; `os_sleep` sleeps long enough if and only if it is
asked for no more than the kernel's parameter holds. -/
theorem sleepsLongEnough_iff (durationMs : UInt32) (sec usec : ℤ) :
    ((∀ ms ∈ mmosalTaskSleep durationMs, 0 ≤ ms) ∧
      (mmosalTaskSleep durationMs).sum = durationMs.toNat) ∧
    (0 ≤ sec → sec < 2 ^ 31 → 0 ≤ usec → usec < 1000000 →
      ((sec * 1000 + usec / 1000 : ℚ) ≤ slept (osSleep sec usec) ↔
        sec * 1000000 + usec ≤ 2147483647000)) :=
  ⟨mmosalTaskSleep_adds durationMs, fun hsec _ husec _ => osSleep_longEnough_iff hsec husec⟩

/-- The last duration that fits. -/
theorem sleepsLongEnough_iff_last :
    ((2147483 : ℤ) * 1000 + (647000 : ℤ) / 1000 : ℚ) ≤ slept (osSleep 2147483 647000) :=
  ((sleepsLongEnough_iff 0 2147483 647000).2 (by decide) (by decide) (by decide)
    (by decide)).mpr (by decide)

/-- A second later `k_msleep` returns at once. -/
theorem nextSecond_not_slept :
    osSleep 2147484 0 = [-2147483296] ∧ slept (osSleep 2147484 0) = 0 ∧
      ¬ ((2147484 : ℤ) * 1000 + (0 : ℤ) / 1000 : ℚ) ≤ slept (osSleep 2147484 0) := by
  have hargs : osSleep 2147484 0 = [-2147483296] := by decide
  have hslept : slept (osSleep 2147484 0) = 0 := by
    rw [hargs]
    rfl
  refine ⟨hargs, hslept, ?_⟩
  rw [hslept]
  norm_num

end MmIot
