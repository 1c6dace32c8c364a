import MmIot.Spec.SdioHost

/-! The bulk transfers of `sdio_spi.c`: cut at 64 KiB windows, then into blocks of
512 bytes and a tail in byte mode. Addresses and lengths are `uint32_t`. -/

namespace MmIot

/-- `uint32_t` arithmetic. -/
def u32 (n : ℕ) : ℕ := n % 0x100000000

def sub32 (a b : ℕ) : ℕ := u32 (a + 0x100000000 - b)

def BLOCK_SIZE_FN2 : ℕ := 512

def CMD53_MAX_BLOCKS : ℕ := 128

def MORSE_CONFIG_ACCESS_4BYTE : UInt8 := 2

section Transfers

variable (hal : Mmhal) (outcome : ℕ → ℤ)

def morseCmd52Write (address : ℕ) (data : UInt8) (function : SdioFunction) (b : SdioBus) :
    SdioResult :=
  mmhalWlanSdioCmd hal outcome (hal.makeCmd52Arg ⟨.write, function, address, data⟩) b

def morseAddressBaseSet (address : ℕ) (access : UInt8) (function : SdioFunction) (b : SdioBus) :
    SdioResult :=
  let address := address / 0x10000 * 0x10000
  let r := morseCmd52Write hal outcome MORSE_REG_ADDRESS_BASE (.ofNat (address / 0x10000)) function b
  if r.result ≠ 0 then r
  else
    let r := morseCmd52Write hal outcome (MORSE_REG_ADDRESS_BASE + 1) (.ofNat (address / 0x1000000))
      function r.bus
    if r.result ≠ 0 then r
    else morseCmd52Write hal outcome (MORSE_REG_ADDRESS_BASE + 2) access function r.bus

/-- What is left over after the blocks goes in byte mode; `result` is the one so far. -/
def morseCmd53Tail (direction : SdioDirection) (function : SdioFunction) (address : ℕ)
    (data : List UInt8) (len : ℕ) (result : ℤ) (b : SdioBus) : SdioTransfer :=
  if 0 < len then
    morsemicroSdioCmd53Raw hal outcome
      (hal.makeCmd53Arg ⟨direction, function, .byte, address % 0x10000, len⟩) data 0 len b
  else { result, bus := b, data }

/-- `morse_cmd53_read` and `morse_cmd53_write`, which differ in the direction and in
the result for nothing to do. -/
def morseCmd53 (direction : SdioDirection) (initial : ℤ) (function : SdioFunction) (address : ℕ)
    (data : List UInt8) (len : ℕ) (b : SdioBus) : SdioTransfer :=
  let numBlocks := len / function.blockSize % 0x10000
  if 0 < numBlocks then
    let r := morsemicroSdioCmd53Raw hal outcome
      (hal.makeCmd53Arg ⟨direction, function, .block, address % 0x10000, numBlocks⟩)
      data BLOCK_SIZE_FN2 numBlocks b
    if r.result ≠ 0 then r
    else
      let transferSize := numBlocks * function.blockSize
      let rest := morseCmd53Tail hal outcome direction function (u32 (address + transferSize))
        (r.data.drop transferSize) (sub32 len transferSize) r.result r.bus
      { rest with data := r.data.take transferSize ++ rest.data }
  else morseCmd53Tail hal outcome direction function address data len initial b

def morseCmd53Read (function : SdioFunction) (address : ℕ) (data : List UInt8) (len : ℕ)
    (b : SdioBus) : SdioTransfer :=
  morseCmd53 hal outcome .read (-1) function address data len b

def morseCmd53Write (function : SdioFunction) (address : ℕ) (data : List UInt8) (len : ℕ)
    (b : SdioBus) : SdioResult :=
  (morseCmd53 hal outcome .write hal.otherError function address data len b).toSdioResult

/-- How much the next round of either loop transfers. -/
def transferSize (address len : ℕ) : ℕ :=
  let size := min len (BLOCK_SIZE_FN2 * CMD53_MAX_BLOCKS)
  let nextBoundary := u32 (address / 0x10000 * 0x10000 + 0x10000)
  if nextBoundary < u32 (address + size) then sub32 nextBoundary address else size

/-- The loop of `sdio_spi_write_multi_byte`, with fuel for its rounds. -/
def writeLoop : ℕ → ℕ → List UInt8 → ℕ → ℤ → SdioBus → Option SdioResult
  | 0, _, _, len, result, b => if len = 0 then some ⟨result, b⟩ else none
  | fuel + 1, address, data, len, result, b =>
    if len = 0 then some ⟨result, b⟩
    else
      let r := morseAddressBaseSet hal outcome address MORSE_CONFIG_ACCESS_4BYTE .fn2 b
      if r.result ≠ 0 then some r
      else
        let size := transferSize address len
        let r := morseCmd53Write hal outcome .fn2 address data size r.bus
        if r.result ≠ 0 then some r
        else writeLoop fuel (u32 (address + size)) (data.drop size) (sub32 len size) r.result r.bus

def sdioSpiWriteMultiByte (fuel address : ℕ) (data : List UInt8) (len : ℕ) (b : SdioBus) :
    Option SdioResult :=
  if len = 0 ∨ len % 4 ≠ 0 then some ⟨hal.invalidArgument, b⟩
  else writeLoop hal outcome fuel address data len (-1) b

/-- `memcmp(data, data + 4, 4) == 0` -/
def firstWordRepeats (data : List UInt8) : Bool := data.take 4 = (data.drop 4).take 4

/-- One round's read. The first eight bytes are read again when the second word
repeats the first; neither read's result is looked at. -/
def readPiece (address : ℕ) (data : List UInt8) (size : ℕ) (b : SdioBus) : SdioTransfer :=
  let r := morseCmd53Read hal outcome .fn2 address data size b
  if 8 ≤ size ∧ firstWordRepeats r.data then
    morseCmd53Read hal outcome .fn2 address r.data 8 r.bus
  else r

/-- The loop of `sdio_spi_read_multi_byte`. -/
def readLoop : ℕ → ℕ → List UInt8 → ℕ → ℤ → SdioBus → Option SdioTransfer
  | 0, _, data, len, result, b => if len = 0 then some { result, bus := b, data } else none
  | fuel + 1, address, data, len, result, b =>
    if len = 0 then some { result, bus := b, data }
    else
      let r := morseAddressBaseSet hal outcome address MORSE_CONFIG_ACCESS_4BYTE .fn2 b
      if r.result ≠ 0 then some { r with data }
      else
        let size := transferSize address len
        let piece := readPiece hal outcome address data size r.bus
        (readLoop fuel (u32 (address + size)) (piece.data.drop size) (sub32 len size) r.result
          piece.bus).map fun rest => { rest with data := piece.data.take size ++ rest.data }

def sdioSpiReadMultiByte (fuel address : ℕ) (data : List UInt8) (len : ℕ) (b : SdioBus) :
    Option SdioTransfer :=
  if len = 0 ∨ len % 4 ≠ 0 then some { result := hal.invalidArgument, bus := b, data }
  else readLoop hal outcome fuel address data len (-1) b

end Transfers

end MmIot
