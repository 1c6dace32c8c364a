import MmIot.Lib.Tlv
import MmIot.Spec.SdioSpi

/-! The 32-bit registers of `sdio_spi.c`: read through function 1 and packed by hand,
written through function 2 from a little-endian host's memory. -/

namespace MmIot

/-- `PACK_LE32` -/
def packLe32 (src : List UInt8) : BitVec 32 :=
  let dst := (src.getD 0 0).toBitVec.setWidth 32
  let dst := dst ||| (src.getD 1 0).toBitVec.setWidth 32 <<< 8
  let dst := dst ||| (src.getD 2 0).toBitVec.setWidth 32 <<< 16
  dst ||| (src.getD 3 0).toBitVec.setWidth 32 <<< 24

/-- A read also sets the caller's word, if it succeeds. -/
structure SdioWord extends SdioResult where
  data : Option (BitVec 32)

section Registers

variable (hal : Mmhal) (outcome : ℕ → ℤ) (receiveData : List UInt8)

/-- `receiveData` is what was on the stack. -/
def sdioSpiReadLe32 (address : ℕ) (b : SdioBus) : SdioWord :=
  let r := morseAddressBaseSet hal outcome address MORSE_CONFIG_ACCESS_4BYTE .fn1 b
  if r.result ≠ 0 then { r with data := none }
  else
    let r := morseCmd53Read hal outcome .fn1 address receiveData 4 r.bus
    if r.result ≠ 0 then { r with data := none }
    else { r with data := some (packLe32 r.data) }

def sdioSpiWriteLe32 (address : ℕ) (data : BitVec 32) (b : SdioBus) : SdioResult :=
  let r := morseAddressBaseSet hal outcome address MORSE_CONFIG_ACCESS_4BYTE .fn2 b
  if r.result ≠ 0 then r
  else morseCmd53Write hal outcome .fn2 address (LittleEndian.encode 4 data.toNat) 4 r.bus

/-- A register that was not read is some word from the stack, `regValue`. -/
def sdioSpiUpdateLe32 (regValue : BitVec 32) (address : ℕ) (mask value : BitVec 32)
    (b : SdioBus) : SdioResult :=
  let r := sdioSpiReadLe32 hal outcome receiveData address b
  if r.result < 0 then r.toSdioResult
  else
    let regValue := r.data.getD regValue
    let regValue := regValue ||| (value &&& mask)
    let regValue := regValue &&& (value ||| ~~~mask)
    sdioSpiWriteLe32 hal outcome address regValue r.bus

def sdioSpiSetBitsLe32 (regValue : BitVec 32) (address : ℕ) (mask : BitVec 32) (b : SdioBus) :
    SdioResult :=
  sdioSpiUpdateLe32 hal outcome receiveData regValue address mask mask b

def sdioSpiClearBitsLe32 (regValue : BitVec 32) (address : ℕ) (mask : BitVec 32) (b : SdioBus) :
    SdioResult :=
  sdioSpiUpdateLe32 hal outcome receiveData regValue address mask 0 b

end Registers

end MmIot
