import MmIot.Lib.Tlv
import MmIot.Lib.Loops
import Mathlib.Data.Int.Notation

/-! `compress-mbin.py`: segments of an MBIN file are cut into chunks, and each chunk is
compressed into a TLV of its own. -/

namespace MmIot

def FIELD_TYPE_MAGIC : ℕ := 0x8000
def FIELD_TYPE_FW_SEGMENT : ℕ := 0x8001
def FIELD_TYPE_FW_SEGMENT_DEFLATED : ℕ := 0x8002
def FIELD_TYPE_SW_SEGMENT : ℕ := 0x8201
def FIELD_TYPE_SW_SEGMENT_DEFLATED : ℕ := 0x8202
def FIELD_TYPE_EOF : ℕ := 0x8F00

def SW_MAGIC_NUMBER : ℕ := 0x57534D4D
def FW_MAGIC_NUMBER : ℕ := 0x57464D4D
def BCF_MAGIC_NUMBER : ℕ := 0x43424D4D

def COMPRESSION_LEVEL : ℕ := 1
def TLV_HEADER_SIZE : ℕ := 4

/-- `TLV_HEADER_FORMAT`: a type and a length of two bytes each. -/
abbrev MbinTlv := Tlv 2 2

/-- What can be raised: `MbinFormatError`, a plain `ValueError`, or `struct.error`. -/
inductive CompressError where
  | mbinFormatError (message : String)
  | valueError (message : String)
  | structError
  deriving DecidableEq

/-- `0x{n:x}`, padded with zeros to a width. -/
def hex (width n : ℕ) : String :=
  "0x" ++ String.ofList ((Nat.toDigits 16 n).leftpad width '0')

/-- Little-endian `struct.pack` of values, each with its width in bytes. -/
def structPack (fields : List (ℕ × ℕ)) : Except CompressError (List UInt8) :=
  if ∀ f ∈ fields, f.2 < 256 ^ f.1 then
    .ok (fields.flatMap fun f => LittleEndian.encode f.1 f.2)
  else .error .structError

/-! ### Reading -/

structure TlvItem where
  offset : ℕ
  tlv : MbinTlv

theorem tlvLength_lt (infile : List UInt8) :
    LittleEndian.decode ((infile.take TLV_HEADER_SIZE).drop 2) < 256 ^ 2 := by
  apply LittleEndian.decode_lt_of_length_le
  rw [List.length_drop, List.length_take, TLV_HEADER_SIZE]
  omega

/-- `_iter_tlvs`: what is yielded, and what is raised after that, with fuel for the rounds. -/
def iterTlvs : ℕ → ℕ → List UInt8 → List TlvItem × Option CompressError
  | 0, _, _ => ([], none)
  | fuel + 1, offset, infile =>
    let header := infile.take TLV_HEADER_SIZE
    if header = [] then ([], none)
    else if header.length ≠ TLV_HEADER_SIZE then
      ([], some (.mbinFormatError ("Truncated TLV header at offset " ++ hex 0 offset)))
    else
      let tlvType := LittleEndian.decode (header.take 2)
      let tlvLength := LittleEndian.decode (header.drop 2)
      let data := (infile.drop TLV_HEADER_SIZE).take tlvLength
      if hlength : data.length ≠ tlvLength then
        ([], some (.mbinFormatError ("Truncated TLV type " ++ hex 4 tlvType ++ " at offset " ++
          hex 0 offset ++ ": expected " ++ toString tlvLength ++ " bytes, got " ++
          toString data.length)))
      else
        let tlv := ⟨tlvType, data, LittleEndian.decode_lt_of_length_le (List.length_take_le _ _),
          (not_ne_iff.mp hlength).trans_lt (tlvLength_lt infile)⟩
        let rest := iterTlvs fuel (offset + TLV_HEADER_SIZE + tlvLength)
          (infile.drop (TLV_HEADER_SIZE + tlvLength))
        (⟨offset, tlv⟩ :: rest.1, rest.2)

inductive InputType where
  | firmware | software | bcf
  deriving DecidableEq

def validateMagic (tlv : MbinTlv) : Except CompressError InputType :=
  if tlv.type ≠ FIELD_TYPE_MAGIC ∨ tlv.data.length ≠ 4 then
    .error (.mbinFormatError "Input does not begin with a valid MBIN magic TLV")
  else
    let magicNumber := LittleEndian.decode tlv.data
    if magicNumber = FW_MAGIC_NUMBER then .ok .firmware
    else if magicNumber = SW_MAGIC_NUMBER then .ok .software
    else if magicNumber = BCF_MAGIC_NUMBER then .ok .bcf
    else .error (.mbinFormatError ("Unknown MBIN magic number " ++ hex 8 magicNumber))

/-! ### Writing -/

/-- Where a TLV of the output comes from. -/
inductive Origin where
  | copied | compressed
  deriving DecidableEq

/-- The last field, the origin of each TLV written, is a ghost. -/
structure MbinWriter where
  outfile : List UInt8
  compressionChunkSize : ℕ
  compressedSegmentCount : ℕ
  preservedCompressedSegmentCount : ℕ
  preservedTlvCount : ℕ
  tlvCount : ℕ
  origins : List Origin

def MbinWriter.new (compressionChunkSize : ℕ) : MbinWriter :=
  ⟨[], compressionChunkSize, 0, 0, 0, 0, []⟩

def MbinWriter.addTlv (w : MbinWriter) (tlvType : ℕ) (data : List UInt8) :
    Except CompressError MbinWriter :=
  if data.length > 0xFFFF then
    .error (.mbinFormatError ("TLV type " ++ hex 4 tlvType ++ " is too large: " ++
      toString data.length ++ " bytes"))
  else do
    let header ← structPack [(2, tlvType), (2, data.length)]
    return { w with
      outfile := w.outfile ++ header ++ data
      tlvCount := w.tlvCount + 1 }

/-- The branch of `_compress_mbin` for all other TLVs. -/
def MbinWriter.preserveTlv (w : MbinWriter) (tlv : MbinTlv) : Except CompressError MbinWriter := do
  let w ← w.addTlv tlv.type tlv.data
  let w := { w with origins := w.origins ++ [Origin.copied] }
  if tlv.type = FIELD_TYPE_FW_SEGMENT_DEFLATED ∨ tlv.type = FIELD_TYPE_SW_SEGMENT_DEFLATED then
    return { w with preservedCompressedSegmentCount := w.preservedCompressedSegmentCount + 1 }
  else return { w with preservedTlvCount := w.preservedTlvCount + 1 }

section Compression

-- `zlib.compress`, from the level and the data
variable (compress : ℕ → List UInt8 → List UInt8)

/-- One round of the loop below. -/
def MbinWriter.addCompressedChunk (w : MbinWriter) (outputType destAddress : ℕ)
    (data : List UInt8) (offset : ℕ) : Except CompressError MbinWriter := do
  let chunk := Loops.slice data offset w.compressionChunkSize
  let chunkAddress := destAddress + offset
  let compressedChunk := compress COMPRESSION_LEVEL chunk
  let header ← structPack [(4, chunkAddress), (2, chunk.length)]
  let w ← w.addTlv outputType (header ++ compressedChunk)
  return { w with
    compressedSegmentCount := w.compressedSegmentCount + 1
    origins := w.origins ++ [Origin.compressed] }

def MbinWriter.addCompressedSegment (w : MbinWriter) (outputType destAddress : ℕ)
    (data : List UInt8) : Except CompressError MbinWriter :=
  (Loops.range 0 data.length w.compressionChunkSize).foldlM
    (fun w offset => w.addCompressedChunk compress outputType destAddress data offset) w

/-- The branches of `_compress_mbin` for a segment, which differ in a word and in the type. -/
def MbinWriter.addSegment (w : MbinWriter) (title : String) (outputType : ℕ) (item : TlvItem) :
    Except CompressError MbinWriter :=
  if item.tlv.data.length < 4 then
    .error (.mbinFormatError (title ++ " segment at offset " ++ hex 0 item.offset ++
      " has no address"))
  else
    let destAddress := LittleEndian.decode (item.tlv.data.take 4)
    w.addCompressedSegment compress outputType destAddress (item.tlv.data.drop 4)

/-- The locals of `_compress_mbin`. -/
structure CompressState where
  sawMagic : Bool
  sawEof : Bool
  inputType : Option InputType
  outbin : MbinWriter

/-- The first TLV has to be the magic. -/
def CompressState.checkMagic (s : CompressState) (tlv : MbinTlv) :
    Except CompressError (Option InputType) :=
  if s.sawMagic then .ok s.inputType else (validateMagic tlv).map some

/-- The branches on the type. -/
def MbinWriter.addItem (w : MbinWriter) (item : TlvItem) : Except CompressError MbinWriter :=
  if item.tlv.type = FIELD_TYPE_FW_SEGMENT then
    w.addSegment compress "Firmware" FIELD_TYPE_FW_SEGMENT_DEFLATED item
  else if item.tlv.type = FIELD_TYPE_SW_SEGMENT then
    w.addSegment compress "Software" FIELD_TYPE_SW_SEGMENT_DEFLATED item
  else w.preserveTlv item.tlv

/-- The body of the loop of `_compress_mbin`. -/
def compressTlv (s : CompressState) (item : TlvItem) : Except CompressError CompressState :=
  if s.sawEof then
    .error (.mbinFormatError ("TLV type " ++ hex 4 item.tlv.type ++ " follows EOF at offset " ++
      hex 0 item.offset))
  else do
    let inputType ← s.checkMagic item.tlv
    let outbin ← s.outbin.addItem compress item
    return {
      sawMagic := true
      sawEof := s.sawEof || item.tlv.type = FIELD_TYPE_EOF
      inputType, outbin }

/-- `_compress_mbin`, from whether the paths are the same and what the input file holds. -/
def compressMbin (samePath : Bool) (compressionChunkSize : ℤ) (input : List UInt8) :
    Except CompressError CompressState :=
  if samePath then .error (.valueError "Input and output paths must be different")
  else if compressionChunkSize ≤ 0 ∨ compressionChunkSize > 0xFFFF then
    .error (.valueError "Compression chunk size must be between 1 and 65535 bytes")
  else do
    let tlvs := iterTlvs input.length 0 input
    let start := ⟨false, false, none, .new compressionChunkSize.toNat⟩
    let s ← tlvs.1.foldlM (compressTlv compress) start
    match tlvs.2 with
    | some e => .error e
    | none =>
      if !s.sawMagic then .error (.mbinFormatError "Input file is empty")
      else if !s.sawEof then
        .error (.mbinFormatError "Input MBIN does not contain an EOF TLV")
      else return s

end Compression

end MmIot
