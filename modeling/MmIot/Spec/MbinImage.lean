import MmIot.Spec.Mbin

/-! What an MBIN file does to a chip: the bytes its segments write, in order, among the
TLVs that are taken as they are. -/

namespace MmIot

inductive Segment where
  | firmware | software
  deriving DecidableEq

def Segment.ofType (tlvType : ℕ) : Option Segment :=
  if tlvType = FIELD_TYPE_FW_SEGMENT then some .firmware
  else if tlvType = FIELD_TYPE_SW_SEGMENT then some .software
  else none

def Segment.ofDeflatedType (tlvType : ℕ) : Option Segment :=
  if tlvType = FIELD_TYPE_FW_SEGMENT_DEFLATED then some .firmware
  else if tlvType = FIELD_TYPE_SW_SEGMENT_DEFLATED then some .software
  else none

inductive MbinEvent where
  | write (segment : Segment) (address : ℕ) (byte : UInt8)
  | other (tlv : MbinTlv)
  deriving DecidableEq

/-- Bytes written to consecutive addresses. -/
def segmentWrites (segment : Segment) (address : ℕ) (data : List UInt8) : List MbinEvent :=
  (data.zipIdx address).map fun b => .write segment b.2 b.1

/-- A segment writes what follows its address; all else is left as it is. -/
def plainEvents (tlv : MbinTlv) : List MbinEvent :=
  match Segment.ofType tlv.type with
  | some segment =>
    segmentWrites segment (LittleEndian.decode (tlv.data.take 4)) (tlv.data.drop 4)
  | none => [.other tlv]

section Inflation

-- `zlib.decompress`
variable (decompress : List UInt8 → Option (List UInt8))

/-- A deflated segment writes its inflated payload, which has to be as long as it says. -/
def inflatedEvents (tlv : MbinTlv) : Option (List MbinEvent) := do
  let segment ← Segment.ofDeflatedType tlv.type
  let payload ← decompress (tlv.data.drop 6)
  if 6 ≤ tlv.data.length ∧
      payload.length = LittleEndian.decode ((tlv.data.drop 4).take 2) then
    return segmentWrites segment (LittleEndian.decode (tlv.data.take 4)) payload
  else none

/-- TLVs that were copied stay as they are, the others are inflated. -/
def originEvents : List Origin → List MbinTlv → Option (List MbinEvent)
  | [], [] => some []
  | .copied :: origins, tlv :: tlvs =>
    (originEvents origins tlvs).map (.other tlv :: ·)
  | .compressed :: origins, tlv :: tlvs => do
    let events ← inflatedEvents decompress tlv
    let rest ← originEvents origins tlvs
    return events ++ rest
  | _, _ => none

end Inflation

end MmIot
