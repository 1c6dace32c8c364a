import MmIot.Spec.MbinImage

/-! The form of an MBIN file: what its TLVs have to be, and what a compressor can make of
each of them. -/

namespace MmIot

def IsMbinMagic (n : ℕ) : Prop := n = FW_MAGIC_NUMBER ∨ n = SW_MAGIC_NUMBER ∨ n = BCF_MAGIC_NUMBER

/-- A magic TLV with a number of the given kind. -/
structure MagicTlv (isMagic : ℕ → Prop) (tlv : MbinTlv) : Prop where
  type : tlv.type = FIELD_TYPE_MAGIC
  length : tlv.data.length = 4
  number : isMagic (LittleEndian.decode tlv.data)

/-- There is one EOF TLV, the last one. -/
def EndsAtEof (tlvs : List MbinTlv) : Prop :=
  ∃ body last, tlvs = body ++ [last] ∧ last.type = FIELD_TYPE_EOF ∧
    ∀ tlv ∈ body, tlv.type ≠ FIELD_TYPE_EOF

/-- A magic TLV comes first and the EOF TLV last. -/
structure MbinForm (isMagic : ℕ → Prop) (tlvs : List MbinTlv) : Prop where
  magic : ∃ first rest, tlvs = first :: rest ∧ MagicTlv isMagic first
  eof : EndsAtEof tlvs

/-- A segment has an address, and every chunk of it an address of 32 bits and a compressed
payload that a TLV can hold. -/
def Compressible (compress : ℕ → List UInt8 → List UInt8) (chunkSize : ℕ) (tlv : MbinTlv) : Prop :=
  Segment.ofType tlv.type ≠ none → 4 ≤ tlv.data.length ∧
    ∀ offset ∈ Loops.range 0 (tlv.data.drop 4).length chunkSize,
      LittleEndian.decode (tlv.data.take 4) + offset < 2 ^ 32 ∧
        (compress COMPRESSION_LEVEL (Loops.slice (tlv.data.drop 4) offset chunkSize)).length + 6 ≤
          65535

/-- How many TLVs of the output stand for one of the input. -/
def outputCount (chunkSize : ℕ) (tlv : MbinTlv) : ℕ :=
  if Segment.ofType tlv.type = none then 1
  else (tlv.data.length - 4 + chunkSize - 1) / chunkSize

/-- What stands for a TLV in the output: itself, or deflated chunks. -/
inductive OutputFor (chunkSize : ℕ) (tlv : MbinTlv) : List MbinTlv → Prop
  | copied (h : Segment.ofType tlv.type = none) : OutputFor chunkSize tlv [tlv]
  | chunks {outs : List MbinTlv} (segment : Segment) (h : Segment.ofType tlv.type = some segment)
      (hlength : outs.length = outputCount chunkSize tlv)
      (htype : ∀ out ∈ outs, Segment.ofDeflatedType out.type = some segment) :
      OutputFor chunkSize tlv outs

theorem endsAtEof_cons {tlv : MbinTlv} {tlvs : List MbinTlv} :
    EndsAtEof (tlv :: tlvs) ↔
      if tlv.type = FIELD_TYPE_EOF then tlvs = [] else EndsAtEof tlvs := by
  refine ⟨?_, ?_⟩
  · rintro ⟨_ | ⟨first, body⟩, last, heq, hlast, hbody⟩
    · cases heq
      simp [hlast]
    · cases heq
      rw [if_neg (hbody _ List.mem_cons_self)]
      exact ⟨body, last, rfl, hlast, fun t ht => hbody t (List.mem_cons_of_mem _ ht)⟩
  · split
    next heof =>
      rintro rfl
      exact ⟨[], tlv, rfl, heof, nofun⟩
    next hne =>
      rintro ⟨body, last, rfl, hlast, hbody⟩
      exact ⟨tlv :: body, last, rfl, hlast, List.forall_mem_cons.mpr ⟨hne, hbody⟩⟩

theorem not_endsAtEof_nil : ¬ EndsAtEof [] := by
  rintro ⟨body, last, heq, -⟩
  simp at heq

end MmIot
