import Mathlib.Data.Int.Notation
import MmIot.Lib.Memory

/-! The SDIO bus: the chip behind its keyhole registers and the host functions of
`morsemicro_sdio.c`. Every request has an outcome, an errno that is 0 on success. -/

namespace MmIot

inductive SdioDirection where
  | read | write
  deriving DecidableEq

/-- `enum mmhal_sdio_function` -/
inductive SdioFunction where
  | fn0 | fn1 | fn2
  deriving DecidableEq

inductive SdioMode where
  | byte | block
  deriving DecidableEq

/-- The arguments of `mmhal_make_cmd52_arg`. -/
structure Cmd52 where
  direction : SdioDirection
  function : SdioFunction
  address : ℕ
  data : UInt8
  deriving DecidableEq

/-- The arguments of `mmhal_make_cmd53_arg`. -/
structure Cmd53 where
  direction : SdioDirection
  function : SdioFunction
  mode : SdioMode
  address : ℕ
  count : ℕ
  deriving DecidableEq

/-- What morselib's `mmhal.h` supplies: encoders whose words carry the fields they
were made from (17-bit addresses, 9-bit counts), and error codes. -/
structure Mmhal where
  makeCmd52Arg : Cmd52 → ℕ
  makeCmd53Arg : Cmd53 → ℕ
  decodeCmd52 : ℕ → Cmd52
  decodeCmd53 : ℕ → Cmd53
  decode_makeCmd52 : ∀ c, c.address < 0x20000 → decodeCmd52 (makeCmd52Arg c) = c
  decode_makeCmd53 : ∀ c, c.address < 0x20000 → c.count < 0x200 → decodeCmd53 (makeCmd53Arg c) = c
  invalidArgument : ℤ
  cmdTimeout : ℤ
  dataTimeout : ℤ
  otherError : ℤ
  invalidArgument_ne : invalidArgument ≠ 0
  cmdTimeout_ne : cmdTimeout ≠ 0
  dataTimeout_ne : dataTimeout ≠ 0
  otherError_ne : otherError ≠ 0

/-- A byte memory behind the keyhole: `MORSE_REG_ADDRESS_WINDOW_0`, `_1` and `_CONFIG`. -/
structure Chip where
  mem : ℕ → UInt8
  window0 : UInt8
  window1 : UInt8
  access : UInt8

def MORSE_REG_ADDRESS_BASE : ℕ := 0x10000

/-- The upper half of the addresses that CMD53 reaches. -/
def Chip.base (c : Chip) : ℕ := c.window1.toNat * 0x1000000 + c.window0.toNat * 0x10000

/-- Where the `i`-th byte of a command lies; the window is never left. -/
def Chip.loc (c : Chip) (address i : ℕ) : ℕ := c.base + (address + i) % 0x10000

def Chip.cmd52 (c : Chip) (cmd : Cmd52) : Chip :=
  if cmd.direction = .read then c
  else if cmd.address = MORSE_REG_ADDRESS_BASE then { c with window0 := cmd.data }
  else if cmd.address = MORSE_REG_ADDRESS_BASE + 1 then { c with window1 := cmd.data }
  else if cmd.address = MORSE_REG_ADDRESS_BASE + 2 then { c with access := cmd.data }
  else c

/-- `enum block_size` -/
def SdioFunction.blockSize : SdioFunction → ℕ
  | .fn1 => 8
  | .fn0 | .fn2 => 512

/-- How many bytes a command moves on the card's side. -/
def Cmd53.bytes (cmd : Cmd53) : ℕ :=
  match cmd.mode with
  | .byte => cmd.count
  | .block => cmd.count * cmd.function.blockSize

/-- A CMD53 on the bus: what the card decodes, the host's transfer, and the keyhole. -/
structure Cmd53Record where
  cmd : Cmd53
  blockSize : ℕ
  blocks : ℕ
  base : ℕ

/-- What the host moves. -/
def Cmd53Record.bytes (r : Cmd53Record) : ℕ := r.blockSize * r.blocks

/-- The chip, how many requests were made, and the CMD53s among them, newest first. -/
structure SdioBus where
  chip : Chip
  requests : ℕ
  log : List Cmd53Record

/-- What a call returns, with the bus it leaves. -/
structure SdioResult where
  result : ℤ
  bus : SdioBus

/-- A transfer also leaves the caller's buffer, from its data pointer on. -/
structure SdioTransfer extends SdioResult where
  data : List UInt8

/-- `-EIO` -/
def ioError : ℤ := -5

def ETIMEDOUT : ℤ := 116

section Host

variable (hal : Mmhal) (outcome : ℕ → ℤ)

def morsemicroSdioMapCmdError (ret : ℤ) : ℤ :=
  if ret = 0 then 0 else if ret = -ETIMEDOUT then hal.cmdTimeout else hal.otherError

def morsemicroSdioMapDataError (ret : ℤ) : ℤ :=
  if ret = 0 then 0 else if ret = -ETIMEDOUT then hal.dataTimeout else hal.otherError

/-- `mmhal_wlan_sdio_cmd` for CMD52, the only index that is sent. -/
def mmhalWlanSdioCmd (arg : ℕ) (b : SdioBus) : SdioResult where
  result := morsemicroSdioMapCmdError hal (outcome b.requests)
  bus := { b with
    chip := if outcome b.requests = 0 then b.chip.cmd52 (hal.decodeCmd52 arg) else b.chip
    requests := b.requests + 1 }

/-- `sdhc_request` for CMD53. A failed request moves nothing, and one in which the host
and the card do not count the same bytes fails. -/
def sdhcRequest (sdioArg blockSize blocks : ℕ) (data : List UInt8) (b : SdioBus) : SdioTransfer :=
  let cmd := hal.decodeCmd53 sdioArg
  let bytes := blockSize * blocks
  let ret := if outcome b.requests = 0 ∧ bytes ≠ cmd.bytes then ioError else outcome b.requests
  let loc := b.chip.loc cmd.address
  let bus := { b with
    requests := b.requests + 1
    log := ⟨cmd, blockSize, blocks, b.chip.base⟩ :: b.log }
  if ret ≠ 0 then { result := ret, bus, data }
  else match cmd.direction with
    | .read => { result := 0, bus, data := Memory.load b.chip.mem loc bytes ++ data.drop bytes }
    | .write =>
      { result := 0, data
        bus := { bus with chip.mem := Memory.store b.chip.mem loc (data.take bytes) } }

def morsemicroSdioCmd53Raw (sdioArg : ℕ) (data : List UInt8) (blockSize transferLength : ℕ)
    (b : SdioBus) : SdioTransfer :=
  let r :=
    if blockSize ≠ 0 then sdhcRequest hal outcome sdioArg blockSize transferLength data b
    else sdhcRequest hal outcome sdioArg transferLength 1 data b
  { r with result := morsemicroSdioMapDataError hal r.result }

end Host

end MmIot
