import MmIot.Proofs.FwBcfTest

/-! Compressing twice: there is no segment left in the output, and all the rest is copied. -/

namespace MmIot

section Recompress

variable {compress : ℕ → List UInt8 → List UInt8} {chunkSize : ℕ}

theorem OutputFor.segment_none {tlv : MbinTlv} {outs : List MbinTlv}
    (h : OutputFor chunkSize tlv outs) : ∀ out ∈ outs, Segment.ofType out.type = none := by
  intro out hout
  cases h with
  | copied hnone =>
    cases List.mem_singleton.mp hout
    exact hnone
  | chunks segment hsegment hlength htype =>
    have hdeflated := htype out hout
    unfold Segment.ofDeflatedType at hdeflated
    split at hdeflated
    next hfw =>
      rw [hfw]
      rfl
    next =>
      split at hdeflated
      next hsw =>
        rw [hsw]
        rfl
      next => cases hdeflated

theorem output_segment_none {tlvs : List MbinTlv} {outs : List (List MbinTlv)}
    (h : List.Forall₂ (OutputFor chunkSize) tlvs outs) :
    ∀ out ∈ outs.flatten, Segment.ofType out.type = none := by
  induction h with
  | nil => nofun
  | cons hfirst _ ih =>
    intro out hout
    rcases List.mem_append.mp hout with hout | hout
    · exact hfirst.segment_none out hout
    · exact ih out hout

/-- Where there is no segment, the output is the input. -/
theorem output_flatten_eq {tlvs : List MbinTlv} {outs : List (List MbinTlv)}
    (h : List.Forall₂ (OutputFor chunkSize) tlvs outs)
    (hnone : ∀ tlv ∈ tlvs, Segment.ofType tlv.type = none) : outs.flatten = tlvs := by
  induction h with
  | nil => rfl
  | @cons tlv first tlvs outs hfirst _ ih =>
    rw [List.forall_mem_cons] at hnone
    rw [List.flatten_cons, ih hnone.2]
    cases hfirst with
    | copied => rfl
    | chunks segment hsegment => cases hnone.1.symm.trans hsegment

/-- A file that was compressed, with any chunk size, is taken again, with any chunk size, and
comes out as it is. -/
theorem compressMbin_idempotent {samePath : Bool} {compressionChunkSize : ℤ} {input : List UInt8}
    {s : CompressState} (h : compressMbin compress samePath compressionChunkSize input = .ok s)
    {compressionChunkSize' : ℤ} (hpos : 1 ≤ compressionChunkSize')
    (hsize : compressionChunkSize' ≤ 65535) :
    ∃ s', compressMbin compress false compressionChunkSize' s.outbin.outfile = .ok s' ∧
      s'.outbin.outfile = s.outbin.outfile := by
  obtain ⟨tlvs, outs, -, hform, -, houts, hfile⟩ := compressMbin_ok h
  have hnone := output_segment_none houts
  have hall : ∀ out ∈ outs.flatten, Compressible compress compressionChunkSize'.toNat out :=
    fun out hout hsegment => absurd (hnone out hout) hsegment
  obtain ⟨s', hs'⟩ := compressMbin_flatMap_encode hpos hsize (output_mbinForm houts hform) hall
  rw [← hfile] at hs'
  refine ⟨s', hs', ?_⟩
  obtain ⟨tlvs', outs', heq, -, -, houts', hfile'⟩ := compressMbin_ok hs'
  obtain rfl : outs.flatten = tlvs' :=
    Tlv.flatMap_encode_injective (by decide) (hfile.symm.trans heq)
  rw [hfile', output_flatten_eq houts' hnone, hfile]

end Recompress

/-- The two chunks of `abcabc`, compressed again in chunks of 8 KiB. -/
theorem compressMbin_idempotent_abc :
    compressMbin abcCompress false 3 abcMbin = .ok abcState ∧
      ∃ s', compressMbin abcCompress false DEFAULT_COMPRESSION_CHUNK_SIZE
          abcState.outbin.outfile = .ok s' ∧
        s'.outbin.outfile = abcState.outbin.outfile := by
  have hrun : compressMbin abcCompress false 3 abcMbin = .ok abcState := by rfl
  exact ⟨hrun, compressMbin_idempotent hrun (by decide) (by decide)⟩

end MmIot
