import Mathlib.Data.Int.Notation
import Mathlib.Data.Nat.Notation
import Mathlib.Tactic.Common

/-! `mbedtls_aes_crypt_cbc` (`edgez_hostap_os_zephyr.c`) over a block cipher that
mbedtls supplies, and streams of successive calls that carry the iv. -/

namespace MmIot

/-- `unsigned char block[16]` -/
abbrev Block := Vector UInt8 16

/-- The sixteen bytes at the front of a buffer. -/
def Block.read (bytes : List UInt8) : Block := Vector.ofFn fun i => bytes.getD i 0

def Block.xor (a b : Block) : Block := a.zipWith (· ^^^ ·) b

/-- `MBEDTLS_AES_ENCRYPT` and `MBEDTLS_AES_DECRYPT` -/
inductive AesMode where
  | encrypt | decrypt
  deriving DecidableEq

/-- `MBEDTLS_ERR_AES_INVALID_INPUT_LENGTH` -/
def MBEDTLS_ERR_AES_INVALID_INPUT_LENGTH : ℤ := -0x0022

/-- `mbedtls_aes_crypt_ecb` for a context: the output block, or its error. -/
abbrev AesEcb (κ : Type*) := κ → AesMode → Block → Except ℤ Block

/-- What a call leaves in `iv` and `output` beside its result. -/
structure CbcResult where
  ret : ℤ
  iv : Block
  output : List UInt8
  deriving DecidableEq

section Cbc

variable {κ : Type*} (ecb : AesEcb κ) (ctx : κ)

/-- One pass of the loop: the next iv and the output block. -/
def cbcBlock (mode : AesMode) (iv input : Block) : Except ℤ (Block × Block) :=
  match mode with
  | .encrypt =>
    match ecb ctx .encrypt (input.xor iv) with
    | .error ret => .error ret
    | .ok output => .ok (output, output)
  | .decrypt =>
    match ecb ctx .decrypt input with
    | .error ret => .error ret
    | .ok output => .ok (input, output.xor iv)

/-- The loop with `16 * n` bytes to go; what is not overwritten of the output stays. -/
def cbcLoop (mode : AesMode) : ℕ → Block → List UInt8 → List UInt8 → CbcResult
  | 0, iv, _, output => ⟨0, iv, output⟩
  | n + 1, iv, input, output =>
    match cbcBlock ecb ctx mode iv (Block.read input) with
    | .error ret => ⟨ret, iv, output⟩
    | .ok (iv, block) =>
      let r := cbcLoop mode n iv (input.drop 16) (output.drop 16)
      { r with output := block.toList ++ r.output }

def mbedtlsAesCryptCbc (mode : AesMode) (length : ℕ) (iv : Block) (input output : List UInt8) :
    CbcResult :=
  if length % 16 ≠ 0 then ⟨MBEDTLS_ERR_AES_INVALID_INPUT_LENGTH, iv, output⟩
  else cbcLoop ecb ctx mode (length / 16) iv input output

/-- A call's input and the output buffer it is given, which has room for it. -/
structure CbcCall where
  input : List UInt8
  output : List UInt8
  fits : input.length ≤ output.length

def CbcCall.exec (mode : AesMode) (iv : Block) (call : CbcCall) : CbcResult :=
  mbedtlsAesCryptCbc ecb ctx mode call.input.length iv call.input call.output

/-- Successive calls on one iv: the results, the iv left and the bytes written. -/
def cbcCalls (mode : AesMode) (iv : Block) : List CbcCall → List ℤ × Block × List UInt8
  | [] => ([], iv, [])
  | call :: calls =>
    let r := call.exec ecb ctx mode iv
    let (rets, iv, bytes) := cbcCalls mode r.iv calls
    (r.ret :: rets, iv, r.output.take call.input.length ++ bytes)

end Cbc

end MmIot
