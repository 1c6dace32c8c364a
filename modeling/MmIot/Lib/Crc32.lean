import Mathlib.Data.Nat.Notation
import Mathlib.Logic.Function.Iterate

/-! The reflected CRC-32 of IEEE 802.3. Two inputs that differ in one byte have different CRCs. -/

namespace Crc32

def POLYNOMIAL : BitVec 32 := 0xEDB88320

def shift (c : BitVec 32) : BitVec 32 :=
  if c.getLsbD 0 then (c >>> 1) ^^^ POLYNOMIAL else c >>> 1

def step (c : BitVec 32) (b : UInt8) : BitVec 32 := shift^[8] (c ^^^ b.toBitVec.setWidth 32)

def crc32 (bs : List UInt8) : BitVec 32 := ~~~bs.foldl step (~~~0)

/-- The polynomial's top bit is set, so the bit shifted out is still to be seen. -/
theorem getLsbD_shift_top (c : BitVec 32) : (shift c).getLsbD 31 = c.getLsbD 0 := by
  have htop : POLYNOMIAL.getLsbD 31 = true := by decide
  have hout : (c >>> 1).getLsbD 31 = false := by
    rw [BitVec.getLsbD_ushiftRight]
    exact BitVec.getLsbD_of_ge c 32 (Nat.le_refl _)
  unfold shift
  split
  next h => rw [BitVec.getLsbD_xor, hout, htop, h, Bool.false_xor]
  next h => rw [hout, Bool.eq_false_iff.mpr h]

theorem shift_injective : Function.Injective shift := by
  intro c d h
  have hlow : c.getLsbD 0 = d.getLsbD 0 := by rw [← getLsbD_shift_top c, h, getLsbD_shift_top d]
  have hrest : c >>> 1 = d >>> 1 := by
    unfold shift at h
    rw [hlow] at h
    split at h
    · exact (BitVec.xor_left_inj _).mp h
    · exact h
  apply BitVec.eq_of_getLsbD_eq
  intro i _
  cases i with
  | zero => exact hlow
  | succ i =>
    have hbit := congrArg (·.getLsbD i) hrest
    simpa only [BitVec.getLsbD_ushiftRight, Nat.add_comm 1] using hbit

theorem step_injective (b : UInt8) : Function.Injective fun c => step c b := by
  intro c d h
  exact (BitVec.xor_left_inj _).mp (shift_injective.iterate 8 h)

theorem step_byte_injective (c : BitVec 32) : Function.Injective (step c) := by
  intro x y h
  have hwide := (BitVec.xor_right_inj _).mp (shift_injective.iterate 8 h)
  have hnat := congrArg BitVec.toNat hwide
  rw [BitVec.toNat_setWidth, BitVec.toNat_setWidth, UInt8.toNat_toBitVec, UInt8.toNat_toBitVec]
    at hnat
  rw [← UInt8.toNat_inj]
  have := x.toNat_lt
  have := y.toNat_lt
  omega

theorem foldl_step_injective (bs : List UInt8) :
    Function.Injective fun c => bs.foldl step c := by
  induction bs with
  | nil => exact Function.injective_id
  | cons b bs ih => exact ih.comp (step_injective b)

theorem crc32_byte (xs ys : List UInt8) {x y : UInt8}
    (h : crc32 (xs ++ x :: ys) = crc32 (xs ++ y :: ys)) : x = y := by
  have hfold := BitVec.not_inj.mp h
  simp only [List.foldl_append, List.foldl_cons] at hfold
  exact step_byte_injective _ (foldl_step_injective ys hfold)

set_option maxRecDepth 4000 in
/-- The check value, of the digits 1 to 9. -/
example : crc32 [0x31, 0x32, 0x33, 0x34, 0x35, 0x36, 0x37, 0x38, 0x39] = 0xCBF43926 := by decide

end Crc32
