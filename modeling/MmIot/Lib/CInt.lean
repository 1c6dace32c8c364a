import Mathlib.Tactic.Common
import Mathlib.Tactic.Ring

/-! C's `int32_t` arithmetic. Code written over an operation `int32 : ℤ → m ℤ`,
which takes the exact value of each arithmetic result, can be read two ways: as
the wrapping machine computes it, or with `none` wherever C leaves an overflow
undefined. -/

namespace CInt

/-- Two's complement: what the machine keeps of an exact value. -/
def wrap32 (x : ℤ) : Id ℤ := pure (Int.bmod x (2 ^ 32))

/-- An exact value that fits, or `none` for an overflow. -/
def checked32 (x : ℤ) : Option ℤ := if -2 ^ 31 ≤ x ∧ x < 2 ^ 31 then some x else none

/-- The conversion of a `uint32_t` to `int32_t`. -/
def toInt32 (x : UInt32) : ℤ := Int.bmod x.toNat (2 ^ 32)

theorem bmod_fits {x : ℤ} (h : -2 ^ 31 ≤ x ∧ x < 2 ^ 31) : Int.bmod x (2 ^ 32) = x := by
  apply Int.bmod_eq_of_le <;> omega

theorem checked32_fits {x : ℤ} (h : -2 ^ 31 ≤ x ∧ x < 2 ^ 31) : checked32 x = some x :=
  if_pos h

theorem wrap32_fits {x : ℤ} (h : -2 ^ 31 ≤ x ∧ x < 2 ^ 31) : wrap32 x = pure x :=
  congrArg pure (bmod_fits h)

theorem toInt32_small {x : UInt32} (h : x.toNat < 2 ^ 31) : toInt32 x = x.toNat :=
  bmod_fits (by omega)

/-- A number that wraps only gets smaller. -/
theorem bmod_natCast_le (n : ℕ) : Int.bmod n (2 ^ 32) ≤ n := by
  rw [Int.bmod_def]
  split_ifs <;> omega

/-- The upper half of the unsigned numbers is what reads as negative. -/
theorem toInt32_neg_iff {x : UInt32} {y : ℤ} (h : (x.toNat : ℤ) = y % 2 ^ 32) :
    toInt32 x < 0 ↔ 2 ^ 31 ≤ y % 2 ^ 32 := by
  have hbmod : ∀ n : ℕ, n < 2 ^ 32 → (Int.bmod n (2 ^ 32) < 0 ↔ (2 : ℤ) ^ 31 ≤ n) := by
    intro n hn
    rw [Int.bmod_def]
    split_ifs <;> omega
  rw [← h]
  exact hbmod x.toNat x.toNat_lt

/-- Times less than half a turn apart compare as if their clock did not wrap. -/
theorem toInt32_sub_ofNat {x y : ℕ} (hxy : x < y + 2 ^ 31) (hyx : y ≤ x + 2 ^ 31) :
    toInt32 (UInt32.ofNat x - UInt32.ofNat y) = (x : ℤ) - y := by
  have hbmod : ∀ n : ℕ, n < 2 ^ 32 → (n : ℤ) = ((x : ℤ) - y) % 2 ^ 32 →
      Int.bmod n (2 ^ 32) = (x : ℤ) - y := by
    intro n hn h
    rw [Int.bmod_def]
    split_ifs <;> omega
  refine hbmod _ (UInt32.toNat_lt _) ?_
  rw [UInt32.toNat_sub, UInt32.toNat_ofNat', UInt32.toNat_ofNat']
  omega

/-- Truncating division rounds everything in `(-c, b * c)` into `[0, b)`. -/
theorem tdiv_mem_range {x b c : ℤ} (hc : 0 < c) (hb : 0 < b) (hlo : -c < x) (hhi : x < b * c) :
    0 ≤ x.tdiv c ∧ x.tdiv c < b := by
  rcases Int.lt_or_le x 0 with hneg | hpos
  · have h0 : x.tdiv c = 0 := by
      rw [← Int.neg_neg x, Int.neg_tdiv, Int.tdiv_eq_zero_of_lt (by omega) (by omega), neg_zero]
    omega
  · rw [Int.tdiv_eq_ediv_of_nonneg hpos]
    exact ⟨Int.ediv_nonneg hpos hc.le, Int.ediv_lt_of_lt_mul hc hhi⟩

end CInt
