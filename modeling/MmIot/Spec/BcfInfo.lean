import MmIot.Spec.MbinForm
import MmIot.Spec.NetMgmt
import Mathlib.Data.List.DropRight

/-! `bcf_info.py`, which prints the regions of a BCF at build time, and the table that the
build makes of them for the driver. Text is ASCII, and is put as its bytes. -/

namespace MmIot

def FIELD_TYPE_BCF_REGDOM : ℕ := 0x8101
def FIELD_TYPE_BCF_CHIPS : ℕ := 0x8104

/-! ### The parser -/

/-- What `parse_bcf` can raise. -/
inductive BcfError where
  | bcfParseError (message : String)
  | unicodeDecodeError
  deriving DecidableEq

structure BcfInfo where
  regdoms : List (List UInt8)
  chip : Option (List UInt8)
  deriving DecidableEq

/-- `TLV_HEADER.unpack_from`. -/
def unpackType (data : List UInt8) (offset : ℕ) : ℕ := LittleEndian.decode (Loops.slice data offset 2)
def unpackLen (data : List UInt8) (offset : ℕ) : ℕ :=
  LittleEndian.decode (Loops.slice data (offset + 2) 2)

def decodeAscii (bytes : List UInt8) : Except BcfError (List UInt8) :=
  if bytes.all (· < 0x80) then .ok bytes else .error .unicodeDecodeError

/-- The rounds of the loop of `parse_bcf`, with fuel. -/
def parseTlvs (data : List UInt8) : ℕ → ℕ → BcfInfo → Except BcfError BcfInfo
  | 0, _, info => .ok info
  | fuel + 1, offset, info =>
    if offset + TLV_HEADER_SIZE ≤ data.length then
      let tlvType := unpackType data offset
      let tlvLen := unpackLen data offset
      let payload := Loops.slice data (offset + TLV_HEADER_SIZE) tlvLen
      let next := offset + TLV_HEADER_SIZE + tlvLen
      if tlvType = FIELD_TYPE_BCF_REGDOM then do
        let code ← decodeAscii (payload.take 2)
        parseTlvs data fuel next { info with regdoms := info.regdoms ++ [code] }
      else if tlvType = FIELD_TYPE_BCF_CHIPS then
        parseTlvs data fuel next { info with chip := some (payload.rdropWhile (· = 0)) }
      else if tlvType = FIELD_TYPE_EOF then .ok info
      else parseTlvs data fuel next info
    else .ok info

/-- The offsets of the headers that are read, an EOF header the last of them. -/
def tlvOffsets (data : List UInt8) : ℕ → ℕ → List ℕ
  | 0, _ => []
  | fuel + 1, offset =>
    if offset + TLV_HEADER_SIZE ≤ data.length then
      offset :: if unpackType data offset = FIELD_TYPE_EOF then []
        else tlvOffsets data fuel (offset + TLV_HEADER_SIZE + unpackLen data offset)
    else []

/-- Slices end where the data does, so that what is missing is not noticed. -/
def parseBcf (data : List UInt8) : Except BcfError BcfInfo :=
  if data.length < TLV_HEADER_SIZE then
    .error (.bcfParseError "file is too small to contain a TLV header")
  else
    let magicLen := unpackLen data 0
    let magic := LittleEndian.decode (Loops.slice data TLV_HEADER_SIZE magicLen)
    if unpackType data 0 ≠ FIELD_TYPE_MAGIC ∨ magic ≠ BCF_MAGIC_NUMBER then
      .error (.bcfParseError "missing or invalid BCF magic number")
    else do
      let info ← parseTlvs data data.length (TLV_HEADER_SIZE + magicLen) ⟨[], none⟩
      return { info with regdoms := info.regdoms.eraseDups }

/-- The keys of `CHIP_TLV_IDS`. -/
inductive ChipName where
  | mm6108 | mm8108
  deriving DecidableEq

/-- `mm610x` and `mm810x`. -/
def CHIP_TLV_IDS : ChipName → List UInt8
  | .mm6108 => [0x6d, 0x6d, 0x36, 0x31, 0x30, 0x78]
  | .mm8108 => [0x6d, 0x6d, 0x38, 0x31, 0x30, 0x78]

/-- How `main` can fail. -/
inductive BcfInfoError where
  | parse (e : BcfError)
  | noRegdoms
  | wrongChip (chip : List UInt8)
  deriving DecidableEq

/-- `print(";".join(regdoms))`. -/
def printRegdoms (regdoms : List (List UInt8)) : List UInt8 :=
  List.intercalate [0x3b] regdoms ++ [0x0a]

/-- `main` of `bcf_info.py`: what is printed when it exits with 0. -/
def bcfInfoMain (chip : Option ChipName) (data : List UInt8) : Except BcfInfoError (List UInt8) :=
  match parseBcf data with
  | .error e => .error (.parse e)
  | .ok info =>
    if info.regdoms = [] then .error .noRegdoms
    else match chip, info.chip with
    | some name, some found =>
      if found ≠ CHIP_TLV_IDS name then .error (.wrongChip found)
      else .ok (printRegdoms info.regdoms)
    | _, _ => .ok (printRegdoms info.regdoms)

/-! ### The table -/

/-- What `OUTPUT_STRIP_TRAILING_WHITESPACE` strips. -/
def isSpace (b : UInt8) : Bool := b = 0x20 ∨ 0x09 ≤ b ∧ b ≤ 0x0d

/-- `bcf_regions_flat`: no whitespace at the end, and no semicolons. -/
def bcfRegionsFlat (regions : List UInt8) : List UInt8 :=
  (regions.rdropWhile isSpace).filter (· ≠ 0x3b)

/-- `bcf_reg_dne` on a table, or none where it reads behind the end: the second byte is read
if the first one is as it should be. -/
def bcfRegDneReads (countryCode : Country) : List UInt8 → Option (Except Errno Unit)
  | [] => some (.error .einval)
  | [a] => if countryCode.fst = a then none else some (.error .einval)
  | a :: b :: rest =>
    if countryCode.fst = a ∧ countryCode.snd = b then some (.ok ())
    else bcfRegDneReads countryCode rest

/-! ### What the table is for -/

/-- The code in a TLV, if that is a regulatory one. -/
def codesAt (data : List UInt8) (offset : ℕ) : List (List UInt8) :=
  if unpackType data offset = FIELD_TYPE_BCF_REGDOM then
    [(Loops.slice data (offset + TLV_HEADER_SIZE) (unpackLen data offset)).take 2]
  else []

/-- The codes in a file, each one once. -/
def regionCodes (data : List UInt8) : List (List UInt8) :=
  ((tlvOffsets data data.length (TLV_HEADER_SIZE + unpackLen data 0)).flatMap
    (codesAt data)).eraseDups

/-- What gets into the table of each code; only the last one is at the end of a line. -/
def keptCodes : List (List UInt8) → List (List UInt8)
  | [] => []
  | [code] => [bcfRegionsFlat code]
  | code :: code' :: codes => code.filter (· ≠ 0x3b) :: keptCodes (code' :: codes)

/-- Codes of two characters get into the table as they are, and others leave nothing. -/
def WholeCodes (codes : List (List UInt8)) : Prop :=
  keptCodes codes = codes.map fun code => if code.length = 2 then code else []

/-- What gets into the table, cut in twos, is the codes of two characters and no others. -/
def CutsIntoCodes (codes : List (List UInt8)) : Prop :=
  ∃ pairs : List (List UInt8), (keptCodes codes).flatten = pairs.flatten ∧
    (∀ pair ∈ pairs, pair.length = 2) ∧ ∀ a b, [a, b] ∈ pairs ↔ [a, b] ∈ codes

/-- The check reads inside the table, and finds the codes of two characters in the list. -/
structure RegionsAgree (codes : List (List UInt8)) (table : List UInt8) : Prop where
  inside : ∀ cc, bcfRegDneReads cc table ≠ none
  found : ∀ cc, bcfRegDneReads cc table = some (.ok ()) ↔ [cc.fst, cc.snd] ∈ codes

end MmIot
