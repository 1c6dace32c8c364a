import Mathlib.Logic.Equiv.Basic
import Mathlib.Algebra.Group.End
import MmIot.Lib.Transducer
import MmIot.Spec.AesCbc

/-! CBC streaming round trip: both directions are transducers over blocks, the
second undoing the first, and a call is one run over the blocks of its input. -/

namespace MmIot

/-! ### Blocks and bytes -/

theorem Block.xor_xor (a b : Block) : (a.xor b).xor b = a := by
  ext i hi
  simp only [Block.xor, Vector.getElem_zipWith, UInt8.xor_assoc, UInt8.xor_self, UInt8.xor_zero]

theorem Block.toList_read {bytes : List UInt8} (h : 16 ≤ bytes.length) :
    (Block.read bytes).toList = bytes.take 16 := by
  apply List.ext_getElem
  · simp only [Vector.length_toList, List.length_take]
    omega
  · intro i h₁ h₂
    simp only [Vector.length_toList] at h₁
    have hi : i < bytes.length := by omega
    simp [Block.read, hi]

/-- The first `n` blocks of a buffer. -/
def blocks : ℕ → List UInt8 → List Block
  | 0, _ => []
  | n + 1, bytes => Block.read bytes :: blocks n (bytes.drop 16)

def blockBytes (bs : List Block) : List UInt8 := bs.flatMap Vector.toList

@[simp] theorem blockBytes_cons (b : Block) (bs : List Block) :
    blockBytes (b :: bs) = b.toList ++ blockBytes bs := rfl

@[simp] theorem blockBytes_append (xs ys : List Block) :
    blockBytes (xs ++ ys) = blockBytes xs ++ blockBytes ys := List.flatMap_append

@[simp] theorem blockBytes_length (bs : List Block) : (blockBytes bs).length = 16 * bs.length := by
  induction bs with
  | nil => rfl
  | cons b bs ih =>
    simp only [blockBytes_cons, List.length_append, Vector.length_toList, ih, List.length_cons]
    omega

theorem blockBytes_blocks (n : ℕ) (bytes : List UInt8) (h : 16 * n ≤ bytes.length) :
    blockBytes (blocks n bytes) = bytes.take (16 * n) := by
  induction n generalizing bytes with
  | zero => simp [blocks, blockBytes]
  | succ n ih =>
    rw [blocks, blockBytes_cons, Block.toList_read (by omega),
      ih _ (by rw [List.length_drop]; omega), ← List.take_add]
    congr 1
    omega

theorem Block.read_append (b : Block) (bytes : List UInt8) :
    Block.read (b.toList ++ bytes) = b := by
  ext i hi
  have hlt : i < b.toList.length := by rw [Vector.length_toList]; exact hi
  simp [Block.read, List.getElem?_append_left hlt, hi]

theorem blocks_blockBytes (bs : List Block) : blocks bs.length (blockBytes bs) = bs := by
  induction bs with
  | nil => rfl
  | cons b bs ih =>
    rw [List.length_cons, blocks, blockBytes_cons, Block.read_append,
      List.drop_left' b.length_toList, ih]

/-- A whole number of blocks is read back from its bytes. -/
theorem exists_blocks {bytes : List UInt8} (h : 16 ∣ bytes.length) :
    ∃ bs : List Block, bytes = blockBytes bs := by
  obtain ⟨n, hn⟩ := h
  exact ⟨blocks n bytes, by rw [blockBytes_blocks n bytes (by omega), List.take_of_length_le (by omega)]⟩

theorem blockBytes_injective {xs ys : List Block} (h : blockBytes xs = blockBytes ys) : xs = ys := by
  have hlen := congrArg List.length h
  simp only [blockBytes_length] at hlen
  have hlen : xs.length = ys.length := by omega
  rw [← blocks_blockBytes xs, ← blocks_blockBytes ys, h, hlen]

/-- The last block as bytes, or the initial one. -/
theorem getLastD_toList (iv : Block) (bs : List Block) :
    (bs.getLastD iv).toList =
      if blockBytes bs = [] then iv.toList
      else (blockBytes bs).drop ((blockBytes bs).length - 16) := by
  rcases List.eq_nil_or_concat bs with rfl | ⟨bs, b, rfl⟩
  · rfl
  · rw [List.concat_eq_append]
    have hb : blockBytes [b] = b.toList := by simp [blockBytes]
    have hne : blockBytes (bs ++ [b]) ≠ [] := fun h => by
      have hlen := congrArg List.length h
      rw [blockBytes_length, List.length_append, List.length_singleton, List.length_nil] at hlen
      omega
    rw [if_neg hne, List.getLastD_concat, blockBytes_append, hb, List.length_append,
      b.length_toList, Nat.add_sub_cancel, List.drop_left]

/-! ### Calls -/

/-- ECB under one key in both directions: it never fails, and each direction undoes
the other. -/
structure EcbInverse {κ : Type*} (ecb : AesEcb κ) (encCtx decCtx : κ) (enc dec : Block → Block) :
    Prop where
  encrypt : ∀ b, ecb encCtx .encrypt b = .ok (enc b)
  decrypt : ∀ b, ecb decCtx .decrypt b = .ok (dec b)
  dec_enc : ∀ b, dec (enc b) = b
  enc_dec : ∀ b, enc (dec b) = b

/-- One encrypted block: it is output and next iv in one. -/
def cbcEncrypt (enc : Block → Block) (iv input : Block) : Block × Block :=
  (enc (input.xor iv), enc (input.xor iv))

def cbcDecrypt (dec : Block → Block) (iv input : Block) : Block × Block :=
  (input, (dec input).xor iv)

section Cbc

variable {κ : Type*} {ecb : AesEcb κ} {ctx : κ} {mode : AesMode}
  {step : Block → Block → Block × Block}

/-- Where no block fails, the loop is one run over the blocks of the input. -/
theorem cbcLoop_eq (hstep : ∀ iv b, cbcBlock ecb ctx mode iv b = .ok (step iv b)) (n : ℕ)
    (iv : Block) (input output : List UInt8) :
    cbcLoop ecb ctx mode n iv input output =
      { ret := 0
        iv := (Transducer.run step iv (blocks n input)).1
        output := blockBytes (Transducer.run step iv (blocks n input)).2 ++
          output.drop (16 * n) } := by
  induction n generalizing iv input output with
  | zero => rfl
  | succ n ih =>
    simp only [cbcLoop, hstep, ih, blocks, Transducer.run_cons, blockBytes_cons, List.drop_drop,
      List.append_assoc]
    rw [Nat.mul_succ, Nat.add_comm 16]

theorem cbcCall_eq (hstep : ∀ iv b, cbcBlock ecb ctx mode iv b = .ok (step iv b)) (call : CbcCall)
    (bs : List Block) (hbs : call.input = blockBytes bs) (iv : Block) :
    call.exec ecb ctx mode iv =
      { ret := 0
        iv := (Transducer.run step iv bs).1
        output := blockBytes (Transducer.run step iv bs).2 ++
          call.output.drop call.input.length } := by
  have hlen : call.input.length = 16 * bs.length := by rw [hbs, blockBytes_length]
  have hblocks : blocks (call.input.length / 16) call.input = bs := by
    rw [hlen, Nat.mul_div_cancel_left _ (by decide), hbs, blocks_blockBytes]
  have hdrop : 16 * (call.input.length / 16) = call.input.length := by omega
  unfold CbcCall.exec mbedtlsAesCryptCbc
  rw [if_neg (by omega), cbcLoop_eq hstep, hblocks, hdrop]

/-- However the blocks are cut into calls, the calls are one run over all of them. -/
theorem cbcCalls_eq (hstep : ∀ iv b, cbcBlock ecb ctx mode iv b = .ok (step iv b))
    (calls : List CbcCall) (hcut : ∀ call ∈ calls, 16 ∣ call.input.length) :
    ∃ bs, (calls.map CbcCall.input).flatten = blockBytes bs ∧
      ∀ iv, cbcCalls ecb ctx mode iv calls =
        (calls.map fun _ => 0, (Transducer.run step iv bs).1,
          blockBytes (Transducer.run step iv bs).2) := by
  induction calls with
  | nil => exact ⟨[], rfl, fun _ => rfl⟩
  | cons call calls ih =>
    obtain ⟨xs, hxs⟩ := exists_blocks (hcut call List.mem_cons_self)
    obtain ⟨ys, hys, hcalls⟩ := ih fun c hc => hcut c (List.mem_cons_of_mem _ hc)
    refine ⟨xs ++ ys, ?_, fun iv => ?_⟩
    · rw [List.map_cons, List.flatten_cons, hys, hxs, blockBytes_append]
    · have hwritten : call.input.length =
          (blockBytes (Transducer.run step iv xs).2).length := by
        rw [hxs, blockBytes_length, blockBytes_length, Transducer.run_length]
      simp only [cbcCalls, cbcCall_eq hstep call xs hxs, hcalls, Transducer.run_append,
        blockBytes_append, List.map_cons]
      rw [hwritten, List.take_left]

end Cbc

theorem cbcBlock_encrypt {κ : Type*} {ecb : AesEcb κ} {encCtx decCtx : κ} {enc dec : Block → Block}
    (h : EcbInverse ecb encCtx decCtx enc dec) (iv b : Block) :
    cbcBlock ecb encCtx .encrypt iv b = .ok (cbcEncrypt enc iv b) := by
  simp only [cbcBlock, h.encrypt, cbcEncrypt]

theorem cbcBlock_decrypt {κ : Type*} {ecb : AesEcb κ} {encCtx decCtx : κ} {enc dec : Block → Block}
    (h : EcbInverse ecb encCtx decCtx enc dec) (iv b : Block) :
    cbcBlock ecb decCtx .decrypt iv b = .ok (cbcDecrypt dec iv b) := by
  simp only [cbcBlock, h.decrypt, cbcDecrypt]

theorem cbcDecrypt_cbcEncrypt {enc dec : Block → Block} (h : ∀ b, dec (enc b) = b)
    (iv b : Block) : cbcDecrypt dec iv (cbcEncrypt enc iv b).2 = ((cbcEncrypt enc iv b).1, b) := by
  simp only [cbcDecrypt, cbcEncrypt, h, Block.xor_xor]

/-- The round trip: one ciphertext and one final iv, whatever the calls on either
side; and a call that is not whole blocks changes nothing. -/
theorem cbcCalls_roundTrip {κ : Type*} (ecb : AesEcb κ) (encCtx decCtx : κ)
    (enc dec : Block → Block) (hecb : EcbInverse ecb encCtx decCtx enc dec) (iv : Block)
    (msg : List UInt8) (hmsg : 16 ∣ msg.length) :
    (∃ (ct : List UInt8) (ivEnd : Block), ct.length = msg.length ∧
      ivEnd.toList = (if ct = [] then iv.toList else ct.drop (ct.length - 16)) ∧
      (∀ calls : List CbcCall, (calls.map CbcCall.input).flatten = msg →
        (∀ call ∈ calls, 16 ∣ call.input.length) →
        cbcCalls ecb encCtx .encrypt iv calls = (calls.map fun _ => 0, ivEnd, ct)) ∧
      (∀ calls : List CbcCall, (calls.map CbcCall.input).flatten = ct →
        (∀ call ∈ calls, 16 ∣ call.input.length) →
        cbcCalls ecb decCtx .decrypt iv calls = (calls.map fun _ => 0, ivEnd, msg))) ∧
    ∀ (ctx : κ) (mode : AesMode) (iv : Block) (call : CbcCall), ¬ 16 ∣ call.input.length →
      call.exec ecb ctx mode iv =
        ⟨MBEDTLS_ERR_AES_INVALID_INPUT_LENGTH, iv, call.output⟩ := by
  obtain ⟨bs, rfl⟩ := exists_blocks hmsg
  have hlast := Transducer.run_state_eq_getLastD (cbcEncrypt enc) (fun _ _ => rfl) iv bs
  have hinv := Transducer.run_inverse (cbcEncrypt enc) (cbcDecrypt_cbcEncrypt hecb.dec_enc) iv bs
  refine ⟨⟨blockBytes (Transducer.run (cbcEncrypt enc) iv bs).2,
    (Transducer.run (cbcEncrypt enc) iv bs).1, ?_, ?_, ?_, ?_⟩, ?_⟩
  · rw [blockBytes_length, blockBytes_length, Transducer.run_length]
  · rw [hlast, getLastD_toList]
  · intro calls hcalls hcut
    obtain ⟨xs, hxs, heq⟩ := cbcCalls_eq (cbcBlock_encrypt hecb) calls hcut
    have hxs : xs = bs := blockBytes_injective (hxs.symm.trans hcalls)
    rw [heq, hxs]
  · intro calls hcalls hcut
    obtain ⟨xs, hxs, heq⟩ := cbcCalls_eq (cbcBlock_decrypt hecb) calls hcut
    have hxs : xs = _ := blockBytes_injective (hxs.symm.trans hcalls)
    rw [heq, hxs, hinv]
  · intro ctx mode iv call hlen
    unfold CbcCall.exec mbedtlsAesCryptCbc
    rw [if_pos fun h => hlen (Nat.dvd_of_mod_eq_zero h)]

/-! ### Two blocks of AES-128

The values are the cipher's own under one key: `aesInput` are the blocks that CBC
hands to ECB for `aesMessage`, `aesCiphertext` what ECB makes of them. -/

def aesIv : Block := #v[0x00, 0x01, 0x02, 0x03, 0x04, 0x05, 0x06, 0x07, 0x08, 0x09, 0x0a, 0x0b, 0x0c, 0x0d, 0x0e, 0x0f]

def aesMessage : List UInt8 :=
  [0x6b, 0xc1, 0xbe, 0xe2, 0x2e, 0x40, 0x9f, 0x96, 0xe9, 0x3d, 0x7e, 0x11, 0x73, 0x93, 0x17, 0x2a,
   0xae, 0x2d, 0x8a, 0x57, 0x1e, 0x03, 0xac, 0x9c, 0x9e, 0xb7, 0x6f, 0xac, 0x45, 0xaf, 0x8e, 0x51]

def aesInput : Block × Block :=
  (#v[0x6b, 0xc0, 0xbc, 0xe1, 0x2a, 0x45, 0x99, 0x91, 0xe1, 0x34, 0x74, 0x1a, 0x7f, 0x9e, 0x19, 0x25],
   #v[0xd8, 0x64, 0x21, 0xfb, 0x9f, 0x1a, 0x1e, 0xda, 0x50, 0x5e, 0xe1, 0x37, 0x57, 0x46, 0x97, 0x2c])

def aesCiphertext : List UInt8 :=
  [0x76, 0x49, 0xab, 0xac, 0x81, 0x19, 0xb2, 0x46, 0xce, 0xe9, 0x8e, 0x9b, 0x12, 0xe9, 0x19, 0x7d,
   0x50, 0x86, 0xcb, 0x9b, 0x50, 0x72, 0x19, 0xee, 0x95, 0xdb, 0x11, 0x3a, 0x91, 0x76, 0x78, 0xb2]

/-- A permutation that agrees with AES on the two input blocks. -/
def aesBlock : Equiv.Perm Block :=
  Equiv.swap aesInput.1 (Block.read aesCiphertext) *
    Equiv.swap aesInput.2 (Block.read (aesCiphertext.drop 16))

def aesEcb : AesEcb Unit := fun _ mode b =>
  match mode with
  | .encrypt => .ok (aesBlock b)
  | .decrypt => .ok (aesBlock.symm b)

theorem aesEcb_inverse : EcbInverse aesEcb () () aesBlock aesBlock.symm :=
  ⟨fun _ => rfl, fun _ => rfl, aesBlock.symm_apply_apply, aesBlock.apply_symm_apply⟩

/-- A call with an output buffer of its own size. -/
def CbcCall.ofInput (input : List UInt8) : CbcCall := ⟨input, input, le_rfl⟩

theorem cbcCalls_roundTrip_aes128 :
    ∃ ivEnd, cbcCalls aesEcb () .encrypt aesIv [.ofInput aesMessage] =
        ([0], ivEnd, aesCiphertext) ∧
      cbcCalls aesEcb () .decrypt aesIv [.ofInput (aesCiphertext.take 16), .ofInput [],
        .ofInput (aesCiphertext.drop 16)] = ([0, 0, 0], ivEnd, aesMessage) ∧
      ivEnd = Block.read (aesCiphertext.drop 16) := by
  obtain ⟨⟨ct, ivEnd, -, hiv, henc, hdec⟩, -⟩ := cbcCalls_roundTrip aesEcb () () aesBlock
    aesBlock.symm aesEcb_inverse aesIv aesMessage (by decide)
  have hone := henc [.ofInput aesMessage] rfl (by decide)
  have hrun : cbcCalls aesEcb () .encrypt aesIv [.ofInput aesMessage] =
      ([0], Block.read (aesCiphertext.drop 16), aesCiphertext) := by decide +kernel
  rw [hrun] at hone
  obtain ⟨-, rfl, rfl⟩ : [0] = [0] ∧ _ ∧ _ := by simpa using hone
  exact ⟨_, hrun, hdec _ rfl (by decide), rfl⟩

end MmIot
