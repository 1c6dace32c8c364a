import MmIot.Lib.Word
import MmIot.Proofs.SdioFaults
import MmIot.Spec.SdioRegister

/-! Updates of a register on a bus whose operations may fail. Only a successful write moves
bytes into the chip, and these are the four bytes of the register. -/

namespace MmIot

theorem packLe32_append (b0 b1 b2 b3 : UInt8) (rest : List UInt8) :
    packLe32 ([b0, b1, b2, b3] ++ rest) = .ofNat 32 (LittleEndian.decode [b0, b1, b2, b3]) := by
  have h0 := b0.toNat_lt
  have h1 := b1.toNat_lt
  have h2 := b2.toNat_lt
  have hfirst : (b0.toBitVec.setWidth 32).toNat = b0.toNat := by
    rw [BitVec.toNat_setWidth, UInt8.toNat_toBitVec, Nat.mod_eq_of_lt (by omega)]
  have hsecond := Word.or_shiftLeft_byte b1 (k := 8) (by decide) (hfirst ▸ h0)
  have hthird := Word.or_shiftLeft_byte b2 (k := 16) (by decide) (by rw [hsecond, hfirst]; omega)
  have hfourth := Word.or_shiftLeft_byte b3 (k := 24) (by decide)
    (by rw [hthird, hsecond, hfirst]; omega)
  apply BitVec.eq_of_toNat_eq
  have h3 := b3.toNat_lt
  have hlt : LittleEndian.decode [b0, b1, b2, b3] < 2 ^ 32 := by
    simp only [LittleEndian.decode]
    omega
  rw [BitVec.toNat_ofNat, Nat.mod_eq_of_lt hlt]
  apply hfourth.trans
  rw [hthird, hsecond, hfirst]
  simp only [LittleEndian.decode]
  omega

theorem packLe32_load (mem : ℕ → UInt8) (a : ℕ) (rest : List UInt8) :
    packLe32 (Memory.load mem (a + ·) 4 ++ rest) = Word.load mem a :=
  packLe32_append _ _ _ _ rest

section Registers

variable (hal : Mmhal) (outcome : ℕ → ℤ)

/-! ### What leaves the memory alone -/

theorem Chip.cmd52_mem (c : Chip) (cmd : Cmd52) : (c.cmd52 cmd).mem = c.mem := by
  unfold Chip.cmd52
  split_ifs <;> rfl

theorem morseCmd52Write_mem (address : ℕ) (data : UInt8) (f : SdioFunction) (b : SdioBus) :
    (morseCmd52Write hal outcome address data f b).bus.chip.mem = b.chip.mem := by
  rw [morseCmd52Write, mmhalWlanSdioCmd]
  dsimp only
  split
  · exact Chip.cmd52_mem _ _
  · rfl

theorem morseAddressBaseSet_mem (a : ℕ) (access : UInt8) (f : SdioFunction) (b : SdioBus) :
    (morseAddressBaseSet hal outcome a access f b).bus.chip.mem = b.chip.mem := by
  have hwrite := morseCmd52Write_mem hal outcome
  unfold morseAddressBaseSet
  dsimp only
  split_ifs
  · exact hwrite _ _ f b
  · rw [hwrite, hwrite]
  · rw [hwrite, hwrite, hwrite]

theorem sdhcRequest_read_mem {arg : ℕ} (blockSize blocks : ℕ) (data : List UInt8) (b : SdioBus)
    (h : (hal.decodeCmd53 arg).direction = .read) :
    (sdhcRequest hal outcome arg blockSize blocks data b).bus.chip.mem = b.chip.mem := by
  unfold sdhcRequest
  simp only [h]
  split_ifs <;> rfl

/-- Four bytes are no block of any function. -/
theorem morseCmd53_word (d : SdioDirection) (initial : ℤ) (f : SdioFunction) (a : ℕ)
    (data : List UInt8) (b : SdioBus) :
    morseCmd53 hal outcome d initial f a data 4 b =
      morseCmd53Tail hal outcome d f a data 4 initial b := by
  cases f <;> rfl

theorem morseCmd53Read_word_mem (f : SdioFunction) (a : ℕ) (data : List UInt8) (b : SdioBus) :
    (morseCmd53Read hal outcome f a data 4 b).bus.chip.mem = b.chip.mem := by
  have hdecode := hal.decode_makeCmd53 ⟨.read, f, .byte, a % 0x10000, 4⟩
    (by dsimp only; omega) (by dsimp only; omega)
  have hread : (hal.decodeCmd53 (hal.makeCmd53Arg ⟨.read, f, .byte, a % 0x10000, 4⟩)).direction =
      .read := by rw [hdecode]
  rw [morseCmd53Read, morseCmd53_word, morseCmd53Tail, if_pos (by decide)]
  exact sdhcRequest_read_mem hal outcome 4 1 data b hread

theorem sdioSpiReadLe32_mem (stack : List UInt8) (a : ℕ) (b : SdioBus) :
    (sdioSpiReadLe32 hal outcome stack a b).bus.chip.mem = b.chip.mem := by
  have hset := morseAddressBaseSet_mem hal outcome a MORSE_CONFIG_ACCESS_4BYTE .fn1 b
  have hread := morseCmd53Read_word_mem hal outcome .fn1 a stack
    (morseAddressBaseSet hal outcome a MORSE_CONFIG_ACCESS_4BYTE .fn1 b).bus
  unfold sdioSpiReadLe32
  dsimp only
  split_ifs
  · exact hset
  · exact hread.trans hset
  · exact hread.trans hset

/-! ### Reads and writes that succeed -/

theorem morseCmd53_word_moves (d : SdioDirection) (initial : ℤ) (f : SdioFunction) {a : ℕ}
    (data : List UInt8) {b : SdioBus} (hbase : b.chip.base = a / 0x10000 * 0x10000)
    (halign : a % 4 = 0) (hzero : (morseCmd53 hal outcome d initial f a data 4 b).result = 0) :
    Moves d a 4 data b (morseCmd53 hal outcome d initial f a data 4 b) := by
  have hwindow : a % 0x10000 + 4 ≤ 0x10000 := by omega
  have hstops := morseCmd53Tail_stops hal outcome d f data initial hbase hwindow
    (by decide) (by decide)
  rw [morseCmd53_word] at hzero ⊢
  have hok := hstops.result_iff.mp hzero 0 Nat.zero_lt_one
  rw [morseCmd53Tail_congr hal outcome faultFree d f a data 4 initial fun _ => hok]
  exact morseCmd53Tail_moves hal faultFree_ok d f data initial hbase hwindow
    (by decide) (by decide)

/-- A read that succeeds gives the word in memory. -/
theorem sdioSpiReadLe32_ok (stack : List UInt8) {a : ℕ} (haddr : a < 0x100000000)
    (halign : a % 4 = 0) {b : SdioBus} (h : (sdioSpiReadLe32 hal outcome stack a b).result = 0) :
    (sdioSpiReadLe32 hal outcome stack a b).data = some (Word.load b.chip.mem a) := by
  unfold sdioSpiReadLe32 at h ⊢
  dsimp only at h ⊢
  by_cases hset : (morseAddressBaseSet hal outcome a MORSE_CONFIG_ACCESS_4BYTE .fn1 b).result = 0
  · have hbase := morseAddressBaseSet_setsBase hal outcome .fn1 MORSE_CONFIG_ACCESS_4BYTE haddr hset
    rw [if_neg (not_not.mpr hset)] at h ⊢
    generalize morseAddressBaseSet hal outcome a MORSE_CONFIG_ACCESS_4BYTE .fn1 b = set at *
    by_cases hread : (morseCmd53Read hal outcome .fn1 a stack 4 set.bus).result = 0
    · have hmoves := morseCmd53_word_moves hal outcome .read (-1) .fn1 stack hbase.base halign hread
      have hbuffer : (morseCmd53Read hal outcome .fn1 a stack 4 set.bus).data =
          Memory.load set.bus.chip.mem (a + ·) 4 ++ stack.drop 4 := hmoves.buffer
      rw [if_neg (not_not.mpr hread), hbuffer, packLe32_load, hbase.mem]
    · rw [if_pos hread] at h
      exact absurd h hread
  · rw [if_pos hset] at h
    exact absurd h hset

/-- A write that succeeds leaves its word in memory. -/
theorem sdioSpiWriteLe32_ok {a : ℕ} (haddr : a < 0x100000000) (halign : a % 4 = 0)
    {data : BitVec 32} {b : SdioBus} (h : (sdioSpiWriteLe32 hal outcome a data b).result = 0) :
    (sdioSpiWriteLe32 hal outcome a data b).bus.chip.mem = Word.store b.chip.mem a data := by
  unfold sdioSpiWriteLe32 at h ⊢
  dsimp only at h ⊢
  by_cases hset : (morseAddressBaseSet hal outcome a MORSE_CONFIG_ACCESS_4BYTE .fn2 b).result = 0
  · have hbase := morseAddressBaseSet_setsBase hal outcome .fn2 MORSE_CONFIG_ACCESS_4BYTE haddr hset
    rw [if_neg (not_not.mpr hset)] at h ⊢
    have hmoves := morseCmd53_word_moves hal outcome .write hal.otherError .fn2 _ hbase.base
      halign h
    apply hmoves.mem.trans
    rw [hbase.mem]
    rfl
  · rw [if_pos hset] at h
    exact absurd h hset

end Registers

/-! ### Updates -/

/-- The values of `mmhal_sdio_error_codes`. -/
structure Mmhal.CodesNegative (hal : Mmhal) : Prop where
  cmdTimeout : hal.cmdTimeout < 0
  dataTimeout : hal.dataTimeout < 0
  otherError : hal.otherError < 0

section Updates

variable {hal : Mmhal} (hcodes : hal.CodesNegative) {outcome : ℕ → ℤ}

include hcodes

theorem mapCmdError_nonpos (ret : ℤ) : morsemicroSdioMapCmdError hal ret ≤ 0 := by
  have := hcodes.cmdTimeout
  have := hcodes.otherError
  unfold morsemicroSdioMapCmdError
  split_ifs <;> omega

theorem mapDataError_nonpos (ret : ℤ) : morsemicroSdioMapDataError hal ret ≤ 0 := by
  have := hcodes.dataTimeout
  have := hcodes.otherError
  unfold morsemicroSdioMapDataError
  split_ifs <;> omega

theorem morseAddressBaseSet_nonpos (a : ℕ) (access : UInt8) (f : SdioFunction) (b : SdioBus) :
    (morseAddressBaseSet hal outcome a access f b).result ≤ 0 := by
  unfold morseAddressBaseSet
  dsimp only
  split_ifs <;> exact mapCmdError_nonpos hcodes _

theorem sdioSpiReadLe32_nonpos (stack : List UInt8) (a : ℕ) (b : SdioBus) :
    (sdioSpiReadLe32 hal outcome stack a b).result ≤ 0 := by
  have hset : (morseAddressBaseSet hal outcome a MORSE_CONFIG_ACCESS_4BYTE .fn1 b).result ≤ 0 :=
    morseAddressBaseSet_nonpos hcodes a MORSE_CONFIG_ACCESS_4BYTE .fn1 b
  have hread : (morseCmd53Read hal outcome .fn1 a stack 4
      (morseAddressBaseSet hal outcome a MORSE_CONFIG_ACCESS_4BYTE .fn1 b).bus).result ≤ 0 :=
    mapDataError_nonpos hcodes _
  unfold sdioSpiReadLe32
  dsimp only
  split_ifs
  · exact hset
  · exact hread
  · exact hread

/-- A failed read ends an update. -/
theorem sdioSpiUpdateLe32_read_failed (stack : List UInt8) (regValue : BitVec 32) {a : ℕ}
    (mask value : BitVec 32) {b : SdioBus}
    (h : (sdioSpiReadLe32 hal outcome stack a b).result ≠ 0) :
    sdioSpiUpdateLe32 hal outcome stack regValue a mask value b =
      (sdioSpiReadLe32 hal outcome stack a b).toSdioResult := by
  have hneg := lt_of_le_of_ne (sdioSpiReadLe32_nonpos hcodes stack a b) h
  rw [sdioSpiUpdateLe32]
  exact if_pos hneg

/-- An update that succeeds is the one of the memory. -/
theorem sdioSpiUpdateLe32_ok (stack : List UInt8) (regValue : BitVec 32) {a : ℕ}
    (haddr : a < 0x100000000) (halign : a % 4 = 0) {mask value : BitVec 32} {b : SdioBus}
    (h : (sdioSpiUpdateLe32 hal outcome stack regValue a mask value b).result = 0) :
    (sdioSpiUpdateLe32 hal outcome stack regValue a mask value b).bus.chip.mem =
      Word.update b.chip.mem a mask value := by
  by_cases hread : (sdioSpiReadLe32 hal outcome stack a b).result = 0
  · have hword := sdioSpiReadLe32_ok hal outcome stack haddr halign hread
    have hmem := sdioSpiReadLe32_mem hal outcome stack a b
    unfold sdioSpiUpdateLe32 at h ⊢
    dsimp only at h ⊢
    rw [if_neg (by omega), hword, Option.getD_some, Word.or_and_eq_masked] at h ⊢
    rw [sdioSpiWriteLe32_ok hal outcome haddr halign h, hmem, Word.update]
  · rw [sdioSpiUpdateLe32_read_failed hcodes stack regValue mask value hread] at h
    exact absurd h hread

end Updates

/-- What a call finds around it: the outcomes of its requests, and its stack. -/
structure RegisterCall where
  outcome : ℕ → ℤ
  receiveData : List UInt8
  regValue : BitVec 32

/-- A success gives the bits of `mask` those of `value` and changes nothing else; a failed read
leaves the memory alone. -/
def UpdatesMasked (hal : Mmhal) (a : ℕ) (mask value : BitVec 32)
    (op : RegisterCall → SdioBus → SdioResult) : Prop :=
  ∀ call b,
    ((op call b).result = 0 →
      Word.load (op call b).bus.chip.mem a =
        (Word.load b.chip.mem a &&& ~~~mask) ||| (value &&& mask) ∧
      ∀ i, i < a ∨ a + 4 ≤ i → (op call b).bus.chip.mem i = b.chip.mem i) ∧
    ((sdioSpiReadLe32 hal call.outcome call.receiveData a b).result ≠ 0 →
      (op call b).bus.chip.mem = b.chip.mem)

/-- A second success in a row changes nothing more. -/
def IdempotentOnMem (op : RegisterCall → SdioBus → SdioResult) : Prop :=
  ∀ call call' b, (op call b).result = 0 → (op call' (op call b).bus).result = 0 →
    (op call' (op call b).bus).bus.chip.mem = (op call b).bus.chip.mem

/-- Two successes in either order leave the same memory. -/
def CommuteOnMem (op op' : RegisterCall → SdioBus → SdioResult) : Prop :=
  ∀ first second first' second' b,
    (op first b).result = 0 → (op' second (op first b).bus).result = 0 →
    (op' first' b).result = 0 → (op second' (op' first' b).bus).result = 0 →
    (op' second (op first b).bus).bus.chip.mem = (op second' (op' first' b).bus).bus.chip.mem

section RegisterOps

variable {hal : Mmhal} (hcodes : hal.CodesNegative) {a : ℕ} (haddr : a < 0x100000000)
  (halign : a % 4 = 0)

include hcodes haddr halign

theorem update_masked (mask value : BitVec 32) :
    UpdatesMasked hal a mask value fun call =>
      sdioSpiUpdateLe32 hal call.outcome call.receiveData call.regValue a mask value := by
  refine fun call b => ⟨fun hzero => ?_, fun hread => ?_⟩
  · have hmem := sdioSpiUpdateLe32_ok hcodes call.receiveData call.regValue haddr halign hzero
    rw [hmem]
    exact ⟨Word.load_store _ _ _, fun i hi => Word.store_outside _ _ hi⟩
  · dsimp only
    rw [sdioSpiUpdateLe32_read_failed hcodes _ _ _ _ hread]
    exact sdioSpiReadLe32_mem hal call.outcome call.receiveData a b

theorem update_idempotent (mask value : BitVec 32) :
    IdempotentOnMem fun call =>
      sdioSpiUpdateLe32 hal call.outcome call.receiveData call.regValue a mask value := by
  intro call call' b hfirst hsecond
  have hmem := sdioSpiUpdateLe32_ok hcodes call.receiveData call.regValue haddr halign hfirst
  apply (sdioSpiUpdateLe32_ok hcodes call'.receiveData call'.regValue haddr halign hsecond).trans
  rw [hmem, Word.update_update]

theorem update_commute {mask mask' : BitVec 32} (value value' : BitVec 32)
    (hdisjoint : mask &&& mask' = 0) :
    CommuteOnMem
      (fun call =>
        sdioSpiUpdateLe32 hal call.outcome call.receiveData call.regValue a mask value)
      (fun call =>
        sdioSpiUpdateLe32 hal call.outcome call.receiveData call.regValue a mask' value') := by
  intro first second first' second' b hfirst hsecond hfirst' hsecond'
  have hupdate (call : RegisterCall) {mask value : BitVec 32} {b : SdioBus}
      (h : (sdioSpiUpdateLe32 hal call.outcome call.receiveData call.regValue a mask value b).result
        = 0) :=
    sdioSpiUpdateLe32_ok hcodes call.receiveData call.regValue haddr halign h
  calc _ = Word.update (Word.update b.chip.mem a mask value) a mask' value' := by
        rw [hupdate second hsecond, hupdate first hfirst]
    _ = Word.update (Word.update b.chip.mem a mask' value') a mask value :=
        Word.update_comm _ _ _ _ hdisjoint
    _ = _ := by rw [hupdate second' hsecond', hupdate first' hfirst']

end RegisterOps

/-- A successful update changes the bits of its mask and nothing else, whatever the failures
before it; a failed read leaves the memory alone. To set and to clear bits are such updates. -/
theorem registerUpdate_masked {hal : Mmhal} (hcodes : hal.CodesNegative) {a : ℕ}
    (haddr : a < 0x100000000) (halign : a % 4 = 0) :
    (∀ mask value, UpdatesMasked hal a mask value fun call =>
      sdioSpiUpdateLe32 hal call.outcome call.receiveData call.regValue a mask value) ∧
    (∀ mask,
      let op := fun call : RegisterCall =>
        sdioSpiSetBitsLe32 hal call.outcome call.receiveData call.regValue a mask
      UpdatesMasked hal a mask mask op ∧ IdempotentOnMem op) ∧
    (∀ mask,
      let op := fun call : RegisterCall =>
        sdioSpiClearBitsLe32 hal call.outcome call.receiveData call.regValue a mask
      UpdatesMasked hal a mask 0 op ∧ IdempotentOnMem op) ∧
    ∀ mask mask' value value' : BitVec 32, mask &&& mask' = 0 →
      CommuteOnMem
        (fun call =>
          sdioSpiUpdateLe32 hal call.outcome call.receiveData call.regValue a mask value)
        (fun call =>
          sdioSpiUpdateLe32 hal call.outcome call.receiveData call.regValue a mask' value') := by
  refine ⟨update_masked hcodes haddr halign, fun mask => ?_, fun mask => ?_, ?_⟩
  · exact ⟨update_masked hcodes haddr halign mask mask,
      update_idempotent hcodes haddr halign mask mask⟩
  · exact ⟨update_masked hcodes haddr halign mask 0,
      update_idempotent hcodes haddr halign mask 0⟩
  · exact fun mask mask' value value' hdisjoint =>
      update_commute hcodes haddr halign value value' hdisjoint

/-- Clearing the low byte of a register of ones. -/
theorem registerUpdate_masked_lowByte :
    (sdioSpiUpdateLe32 sdioWordHal faultFree [] 0 0x10012008 0xFF 0 clearedBus).result = 0 ∧
      Word.load (sdioSpiUpdateLe32 sdioWordHal faultFree [] 0 0x10012008 0xFF 0
        clearedBus).bus.chip.mem 0x10012008 = 0xFFFFFF00 := by
  have hcodes : sdioWordHal.CodesNegative := ⟨by decide, by decide, by decide⟩
  have hzero : (sdioSpiUpdateLe32 sdioWordHal faultFree [] 0 0x10012008 0xFF 0
    clearedBus).result = 0 := by decide
  have h := (registerUpdate_masked hcodes (a := 0x10012008) (by decide) rfl).1 0xFF 0
    ⟨faultFree, [], 0⟩ clearedBus
  refine ⟨hzero, (h.1 hzero).1.trans ?_⟩
  decide

end MmIot
