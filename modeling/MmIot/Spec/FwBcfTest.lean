import MmIot.Spec.MbinForm

/-! The firmware and BCF tests of the porting assistant, on files in flash. -/

namespace MmIot

/-- What a read gives: a buffer, if not NULL, and how much of it was read. -/
structure Robuf where
  buf : Option (List UInt8)
  len : ℕ
  deriving DecidableEq

/-- `mmhal_wlan_read_fw_file`. -/
def mmhalWlanReadFwFile (firmware : List UInt8) (offset requestedLen : ℕ) : Robuf :=
  if offset > firmware.length then ⟨none, 0⟩
  else ⟨some (firmware.drop offset), min (firmware.length - offset) requestedLen⟩

/-- `mmhal_wlan_read_bcf_file`. -/
def mmhalWlanReadBcfFile (bcf : List UInt8) (offset requestedLen : ℕ) : Robuf :=
  if bcf.length < offset then ⟨none, 0⟩
  else ⟨some (bcf.drop offset), min (bcf.length - offset) requestedLen⟩

inductive TestResult where
  | noResult | passed | skipped | failed | failedNonCritical
  deriving DecidableEq

def MAX_TLVS : ℕ := 50

section Test

-- the arguments of `execute_fw_bcf_test`, and `MMHAL_WLAN_FW_BCF_MIN_READ_LENGTH`
variable (fileReadFn : ℕ → ℕ → Robuf) (fileReadFnName type : String) (expectedMagicNumber : ℕ)
  (minReadLength : ℕ)

def checkFile : String :=
  "Check that you have provided a valid " ++ type ++ " file and review your implementation\n" ++
    "of " ++ fileReadFnName ++ "().\n"

def lengthTooShort (minimum : String) : String :=
  "The length of data returned by " ++ fileReadFnName ++ "() was too short\n" ++
    fileReadFnName ++ "() is required to return a minimum of " ++ minimum

/-- The checks on the header that is read for a TLV, which gives its type and length. -/
def readTlvHeader (first : Bool) (offset : ℕ) : Except String (ℕ × ℕ) :=
  let robuf := fileReadFn offset TLV_HEADER_SIZE
  if robuf.len = 0 then
    .error (type ++ " invalid or ended too soon (EOF marker not found)\n" ++
      checkFile fileReadFnName type)
  else match robuf.buf with
  | none =>
    .error (fileReadFnName ++ " returned NULL buffer but non-zero length\n" ++
      "Review your implementation of " ++ fileReadFnName ++ "().\n")
  | some buf =>
    if robuf.len < TLV_HEADER_SIZE then
      .error (lengthTooShort fileReadFnName
        ("MMWLAN_FW_BCF_MIN_READ_LENGTH (" ++ toString minReadLength ++ ") bytes.\n"))
    else
      let tlvType := LittleEndian.decode (buf.take 2)
      if first ∧ tlvType ≠ FIELD_TYPE_MAGIC then
        .error ("The firware was corrupt (did not start with a magic number). \n" ++
          "Possible causes include using invalid (e.g., outdated) firmware, or a bug in\n" ++
          fileReadFnName ++ "()\n")
      else .ok (tlvType, LittleEndian.decode ((buf.drop 2).take 2))

/-- The loop that reads the data of a TLV, which gives the offset of the next one. A read that
has a length is taken to have a buffer, as the source does. -/
def readTlvData (first : Bool) (offset remainingLen : ℕ) : Except String ℕ :=
  if remainingLen = 0 then .ok offset
  else
    let robuf := fileReadFn offset remainingLen
    if robuf.len = 0 then
      .error (type ++ " ended too soon.\n" ++
        "Check that you have provided a valid firmware file and review your implementation of\n" ++
        fileReadFnName ++ "().\n")
    else if robuf.len > remainingLen then
      .error ("The length of data returned by " ++ fileReadFnName ++ "() was too great\n" ++
        fileReadFnName ++ "() should not return more than `requested_len` bytes.\n")
    else if first ∧ robuf.len < 4 then
      .error (lengthTooShort fileReadFnName
        ("MMWLAN_FW_BCF_MIN_READ_LENGTH " ++ toString minReadLength ++ ") bytes\n"))
    else
      let magic := LittleEndian.decode ((robuf.buf.getD []).take 4)
      if first ∧ magic ≠ expectedMagicNumber then
        .error ("The " ++ type ++
          " was corrupt (did not contain the correct magic number -- expect " ++
          hex 8 expectedMagicNumber ++ ", got " ++ hex 8 magic ++ ").\n" ++
          "This is likey caused by using an invalid (e.g., outdated) version.\n")
      else readTlvData first (offset + robuf.len) (remainingLen - robuf.len)
termination_by remainingLen
decreasing_by exact Nat.sub_lt (by omega) (Nat.pos_of_ne_zero ‹_›)

/-- The rounds of the main loop that are left. No offset wraps: 50 TLVs of 16-bit lengths are
far below 2^32 bytes. -/
def walkTlvs : ℕ → Bool → ℕ → Except String Unit
  | 0, _, _ =>
    .error (type ++ " invalid or ended too soon (EOF marker not found after " ++
      toString MAX_TLVS ++ " TLVs).\n" ++ checkFile fileReadFnName type)
  | rounds + 1, first, offset => do
    let hdr ← readTlvHeader fileReadFn fileReadFnName type minReadLength first offset
    if hdr.1 = FIELD_TYPE_EOF then return
    else
      let next ← readTlvData fileReadFn fileReadFnName type expectedMagicNumber minReadLength
        first (offset + TLV_HEADER_SIZE) hdr.2
      walkTlvs rounds false next

/-- `execute_fw_bcf_test`: the result, and what was logged. -/
def executeFwBcfTest : TestResult × String :=
  match walkTlvs fileReadFn fileReadFnName type expectedMagicNumber minReadLength MAX_TLVS true 0
    with
  | .error log => (.failedNonCritical, log)
  | .ok () => (.passed, "")

end Test

/-- `test_step_mmhal_wlan_validate_fw`. -/
def validateFw (minReadLength : ℕ) (firmware : List UInt8) : TestResult × String :=
  executeFwBcfTest (mmhalWlanReadFwFile firmware) "mmhal_wlan_read_fw_file" "Firmware"
    FW_MAGIC_NUMBER minReadLength

/-- `test_step_mmhal_wlan_validate_bcf`. -/
def validateBcf (minReadLength : ℕ) (bcf : List UInt8) : TestResult × String :=
  executeFwBcfTest (mmhalWlanReadBcfFile bcf) "mmhal_wlan_read_bcf_file" "BCF" BCF_MAGIC_NUMBER
    minReadLength

def DEFAULT_COMPRESSION_CHUNK_SIZE : ℤ := 8 * 1024

end MmIot
