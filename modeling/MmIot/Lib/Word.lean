import MmIot.Lib.Memory
import MmIot.Lib.Tlv

/-! Words of 32 bits in a byte memory, low byte first, and updates of some of their bits. -/

namespace Word

/-! ### Masked bits -/

section Masked

variable {w : ℕ} (old mask value mask' value' : BitVec w)

/-- The bits of `mask` come from `value`, the others stay. -/
def masked : BitVec w := (old &&& ~~~mask) ||| (value &&& mask)

theorem getElem_masked (i : ℕ) (hi : i < w) :
    (masked old mask value)[i] = if mask[i] then value[i] else old[i] := by
  simp only [masked, BitVec.getElem_or, BitVec.getElem_and, BitVec.getElem_not]
  cases mask[i] <;> simp

/-- Setting the ones and then clearing the zeros. -/
theorem or_and_eq_masked : (old ||| (value &&& mask)) &&& (value ||| ~~~mask) =
    masked old mask value := by
  ext i hi
  simp only [getElem_masked, BitVec.getElem_or, BitVec.getElem_and, BitVec.getElem_not]
  cases mask[i] <;> cases value[i] <;> simp

theorem masked_masked : masked (masked old mask value) mask value' = masked old mask value' := by
  ext i hi
  simp only [getElem_masked]
  split <;> rfl

variable {mask mask'} in
theorem masked_comm (h : mask &&& mask' = 0) :
    masked (masked old mask value) mask' value' = masked (masked old mask' value') mask value := by
  ext i hi
  have hdisjoint : ¬(mask[i] ∧ mask'[i]) := by
    have hbit := congrArg (·.getLsbD i) h
    simpa [BitVec.getLsbD_eq_getElem hi] using hbit
  simp only [getElem_masked]
  split
  next hmask' => rw [if_neg fun hmask => hdisjoint ⟨hmask, hmask'⟩]
  next => rfl

end Masked

/-! ### Words in memory -/

def load (mem : ℕ → UInt8) (a : ℕ) : BitVec 32 :=
  .ofNat 32 (LittleEndian.decode (Memory.load mem (a + ·) 4))

def store (mem : ℕ → UInt8) (a : ℕ) (word : BitVec 32) : ℕ → UInt8 :=
  Memory.store mem (a + ·) (LittleEndian.encode 4 word.toNat)

theorem load_store (mem : ℕ → UInt8) (a : ℕ) (word : BitVec 32) :
    load (store mem a word) a = word := by
  have hinj : Function.Injective (a + ·) := fun i j h => Nat.add_left_cancel h
  have hbytes := Memory.load_store mem hinj (LittleEndian.encode 4 word.toNat)
  rw [LittleEndian.encode_length] at hbytes
  rw [load, store, hbytes, LittleEndian.decode_encode word.isLt, BitVec.ofNat_toNat,
    BitVec.setWidth_eq]

theorem store_outside (mem : ℕ → UInt8) {a i : ℕ} (word : BitVec 32) (hi : i < a ∨ a + 4 ≤ i) :
    store mem a word i = mem i := by
  apply Memory.store_outside
  intro j hj
  rw [LittleEndian.encode_length] at hj
  omega

theorem store_store (mem : ℕ → UInt8) (a : ℕ) (word word' : BitVec 32) :
    store (store mem a word) a word' = store mem a word' := by
  have hinj : Function.Injective (a + ·) := fun i j h => Nat.add_left_cancel h
  funext i
  by_cases hi : i < a ∨ a + 4 ≤ i
  · rw [store_outside _ _ hi, store_outside _ _ hi, store_outside _ _ hi]
  · obtain ⟨j, rfl⟩ : ∃ j, i = a + j := ⟨i - a, by omega⟩
    have hj : j < (LittleEndian.encode 4 word'.toNat).length := by
      rw [LittleEndian.encode_length]
      omega
    have hinside (mem : ℕ → UInt8) := Memory.store_inside mem hinj _ j hj
    exact (hinside _).trans (hinside mem).symm

/-! ### Masked updates in memory -/

/-- The word at `a` with some of its bits changed. -/
def update (mem : ℕ → UInt8) (a : ℕ) (mask value : BitVec 32) : ℕ → UInt8 :=
  store mem a (masked (load mem a) mask value)

theorem update_update (mem : ℕ → UInt8) (a : ℕ) (mask value : BitVec 32) :
    update (update mem a mask value) a mask value = update mem a mask value := by
  simp only [update, load_store, store_store, masked_masked]

theorem update_comm (mem : ℕ → UInt8) (a : ℕ) {mask mask' : BitVec 32} (value value' : BitVec 32)
    (h : mask &&& mask' = 0) :
    update (update mem a mask value) a mask' value' =
      update (update mem a mask' value') a mask value := by
  simp only [update, load_store, store_store, masked_comm _ _ _ h]

/-! ### Packing by hand -/

theorem or_shiftLeft_byte {x : BitVec 32} (byte : UInt8) {k : ℕ} (hk : k ≤ 24)
    (hx : x.toNat < 2 ^ k) :
    (x ||| byte.toBitVec.setWidth 32 <<< k).toNat = x.toNat + 2 ^ k * byte.toNat := by
  have hbyte := byte.toNat_lt
  have hpow : 2 ^ k ≤ 2 ^ 24 := Nat.pow_le_pow_right (by decide) hk
  have hlt : byte.toNat * 2 ^ k < 2 ^ 32 := by
    calc byte.toNat * 2 ^ k ≤ 255 * 2 ^ 24 := Nat.mul_le_mul (by omega) hpow
      _ < 2 ^ 32 := by decide
  have hwidth : (byte.toBitVec.setWidth 32).toNat = byte.toNat := by
    rw [BitVec.toNat_setWidth, UInt8.toNat_toBitVec, Nat.mod_eq_of_lt (by omega)]
  rw [BitVec.toNat_or, BitVec.toNat_shiftLeft, hwidth, Nat.shiftLeft_eq, Nat.mod_eq_of_lt hlt,
    Nat.mul_comm, Nat.or_comm, ← Nat.two_pow_add_eq_or_of_lt hx, Nat.add_comm]

end Word
