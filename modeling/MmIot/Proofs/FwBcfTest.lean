import MmIot.Proofs.FwImage
import MmIot.Proofs.MbinForm

/-! The firmware test on well-formed files, and on what the compressor makes of them: what
counts is how many TLVs there are. -/

namespace MmIot

/-! ### Well-formed files -/

theorem eofWithin_flatMap_encode {tlvs : List MbinTlv} (heof : EndsAtEof tlvs) (n : ℕ) :
    EofWithin n (tlvs.flatMap Tlv.encode) ↔ tlvs.length ≤ n := by
  induction tlvs generalizing n with
  | nil => exact absurd heof not_endsAtEof_nil
  | cons tlv tlvs ih =>
    cases n with
    | zero => exact iff_of_false (not_eofWithin_zero _) (Nat.not_succ_le_zero _)
    | succ n =>
      rw [endsAtEof_cons] at heof
      rw [eofWithin_succ, List.flatMap_cons, headerType_encode, headerLen_encode,
        List.drop_left' (Tlv.encode_length tlv), List.length_append, Tlv.encode_length,
        List.length_cons, Nat.succ_le_succ_iff]
      by_cases htype : tlv.type = FIELD_TYPE_EOF
      · rw [if_pos htype] at heof
        simp [htype, heof]
      · rw [if_neg htype] at heof
        rw [ih heof, or_iff_right htype]
        omega

/-- Of the well-formed files, the test passes the ones with the firmware magic and at most
`MAX_TLVS` TLVs. -/
theorem validateFw_passed_iff {isMagic : ℕ → Prop} {tlvs : List MbinTlv}
    (hform : MbinForm isMagic tlvs) (minReadLength : ℕ) :
    (validateFw minReadLength (tlvs.flatMap Tlv.encode)).1 = .passed ↔
      MbinForm (· = FW_MAGIC_NUMBER) tlvs ∧ tlvs.length ≤ MAX_TLVS := by
  obtain ⟨⟨first, rest, rfl, hmagic⟩, heof⟩ := hform
  have hfirst : first.type ≠ FIELD_TYPE_EOF := by
    rw [hmagic.type]
    decide
  have hrest : EndsAtEof rest := by
    rw [endsAtEof_cons, if_neg hfirst] at heof
    exact heof
  have hnumber : ((first.encode ++ rest.flatMap Tlv.encode).drop 4).take 4 = first.data := by
    have hdrop : (first.encode ++ rest.flatMap Tlv.encode).drop 4 =
        first.data ++ rest.flatMap Tlv.encode := Tlv.drop_encode first _
    rw [hdrop, List.take_left' hmagic.length]
  rw [validateFw, executeFwBcfTest_passed_iff, List.flatMap_cons, headerType_encode,
    headerLen_encode, hnumber, List.drop_left' (Tlv.encode_length first),
    eofWithin_flatMap_encode hrest, List.length_append, Tlv.encode_length, hmagic.length,
    List.length_cons, show MAX_TLVS = 49 + 1 from rfl]
  refine ⟨?_, ?_⟩
  · rintro ⟨-, -, -, hvalue, hlen⟩
    refine ⟨⟨⟨first, rest, rfl, hmagic.type, hmagic.length, (hvalue (by decide)).2⟩, heof⟩, ?_⟩
    exact Nat.succ_le_succ hlen
  · rintro ⟨⟨⟨first', rest', heq, hmagic'⟩, -⟩, hlen⟩
    cases heq
    exact ⟨by omega, hmagic'.type, by omega, fun _ => ⟨Nat.le_refl 4, hmagic'.number⟩,
      Nat.le_of_succ_le_succ hlen⟩

/-! ### The output of the compressor -/

namespace OutputFor

variable {chunkSize : ℕ} {tlv : MbinTlv} {outs : List MbinTlv}

theorem length (h : OutputFor chunkSize tlv outs) : outs.length = outputCount chunkSize tlv := by
  cases h with
  | copied hnone => rw [outputCount, if_pos hnone, List.length_singleton]
  | chunks segment hsegment hlength htype => exact hlength

theorem eq_of_magic (h : OutputFor chunkSize tlv outs) (hmagic : tlv.type = FIELD_TYPE_MAGIC) :
    outs = [tlv] := by
  cases h with
  | copied hnone => rfl
  | chunks segment hsegment hlength htype =>
    rw [hmagic] at hsegment
    cases hsegment

theorem eq_of_eof (h : OutputFor chunkSize tlv outs) (heof : tlv.type = FIELD_TYPE_EOF) :
    outs = [tlv] := by
  cases h with
  | copied hnone => rfl
  | chunks segment hsegment hlength htype =>
    rw [heof] at hsegment
    cases hsegment

/-- No EOF comes from another TLV. -/
theorem type_ne_eof (h : OutputFor chunkSize tlv outs) (hne : tlv.type ≠ FIELD_TYPE_EOF) :
    ∀ out ∈ outs, out.type ≠ FIELD_TYPE_EOF := by
  intro out hout heof
  cases h with
  | copied hnone =>
    cases List.mem_singleton.mp hout
    exact hne heof
  | chunks segment hsegment hlength htype =>
    have hdeflated := htype out hout
    rw [heof] at hdeflated
    cases hdeflated

end OutputFor

section Output

variable {chunkSize : ℕ} {tlvs : List MbinTlv} {outs : List (List MbinTlv)}

theorem output_length (h : List.Forall₂ (OutputFor chunkSize) tlvs outs) :
    outs.flatten.length = (tlvs.map (outputCount chunkSize)).sum := by
  induction h with
  | nil => rfl
  | cons hfirst _ ih =>
    rw [List.flatten_cons, List.length_append, ih, hfirst.length, List.map_cons, List.sum_cons]

theorem endsAtEof_append {body : List MbinTlv} (h : EndsAtEof tlvs)
    (hbody : ∀ tlv ∈ body, tlv.type ≠ FIELD_TYPE_EOF) : EndsAtEof (body ++ tlvs) := by
  obtain ⟨body', last, rfl, hlast, hbody'⟩ := h
  refine ⟨body ++ body', last, (List.append_assoc ..).symm, hlast, ?_⟩
  intro tlv htlv
  rcases List.mem_append.mp htlv with htlv | htlv
  · exact hbody tlv htlv
  · exact hbody' tlv htlv

theorem output_endsAtEof (h : List.Forall₂ (OutputFor chunkSize) tlvs outs)
    (heof : EndsAtEof tlvs) : EndsAtEof outs.flatten := by
  induction h with
  | nil => exact heof
  | @cons tlv first tlvs outs hfirst hrest ih =>
    rw [endsAtEof_cons] at heof
    by_cases htype : tlv.type = FIELD_TYPE_EOF
    · rw [if_pos htype] at heof
      cases heof
      cases hrest
      rw [hfirst.eq_of_eof htype]
      exact ⟨[], tlv, rfl, htype, nofun⟩
    · rw [if_neg htype] at heof
      exact endsAtEof_append (ih heof) (hfirst.type_ne_eof htype)

/-- The output of a well-formed file is well formed, with the same magic number. -/
theorem output_mbinForm {isMagic : ℕ → Prop} (h : List.Forall₂ (OutputFor chunkSize) tlvs outs)
    (hform : MbinForm isMagic tlvs) : MbinForm isMagic outs.flatten := by
  refine ⟨?_, output_endsAtEof h hform.eof⟩
  obtain ⟨first, rest, rfl, hmagic⟩ := hform.magic
  cases h with
  | cons hfirst hrest =>
    rw [hfirst.eq_of_magic hmagic.type]
    exact ⟨first, _, rfl, hmagic⟩

end Output

/-- A compressed firmware file passes if its chunks and other TLVs are few enough. -/
theorem validateFw_output_iff {compress : ℕ → List UInt8 → List UInt8} {samePath : Bool}
    {compressionChunkSize : ℤ} {tlvs : List MbinTlv} {s : CompressState} {minReadLength : ℕ}
    (hform : MbinForm (· = FW_MAGIC_NUMBER) tlvs)
    (hcompress : compressMbin compress samePath compressionChunkSize (tlvs.flatMap Tlv.encode) =
      .ok s) :
    (validateFw minReadLength s.outbin.outfile).1 = .passed ↔
      (tlvs.map (outputCount compressionChunkSize.toNat)).sum ≤ MAX_TLVS := by
  obtain ⟨tlvs', outs, heq, -, -, houts, hfile⟩ := compressMbin_ok hcompress
  cases Tlv.flatMap_encode_injective (by decide) heq
  have hout := output_mbinForm houts hform
  rw [hfile, validateFw_passed_iff hout, output_length houts]
  exact and_iff_right hout

/-! ### When the output passes -/

def fwMagicTlv : MbinTlv := ⟨FIELD_TYPE_MAGIC, [0x4d, 0x4d, 0x46, 0x57], by decide, by decide⟩

def eofTlv : MbinTlv := ⟨FIELD_TYPE_EOF, [], by decide, by decide⟩

/-- `abc` at 0x1000. -/
def abcTlv : MbinTlv where
  type      := FIELD_TYPE_FW_SEGMENT
  data      := [0x00, 0x10, 0x00, 0x00, 0x61, 0x62, 0x63]
  type_lt   := by decide
  length_lt := by decide

/-- The magic number and the EOF around segments. -/
def fwImage (body : List MbinTlv) : List MbinTlv := fwMagicTlv :: (body ++ [eofTlv])

theorem fwImage_mbinForm {body : List MbinTlv} (hbody : ∀ tlv ∈ body, tlv.type ≠ FIELD_TYPE_EOF) :
    MbinForm (· = FW_MAGIC_NUMBER) (fwImage body) := by
  refine ⟨⟨fwMagicTlv, _, rfl, rfl, rfl, rfl⟩, fwMagicTlv :: body, eofTlv, rfl, rfl, ?_⟩
  rw [List.forall_mem_cons]
  exact ⟨by decide, hbody⟩

/-- Only segments can be refused. -/
theorem fwImage_compressible {compress : ℕ → List UInt8 → List UInt8} {chunkSize : ℕ}
    {body : List MbinTlv} (hbody : ∀ tlv ∈ body, Compressible compress chunkSize tlv) :
    ∀ tlv ∈ fwImage body, Compressible compress chunkSize tlv := by
  rw [fwImage, List.forall_mem_cons, List.forall_mem_append, List.forall_mem_singleton]
  refine ⟨?_, hbody, ?_⟩ <;> intro hsegment <;> exact absurd rfl hsegment

theorem MbinForm.mono {isMagic isMagic' : ℕ → Prop} {tlvs : List MbinTlv}
    (h : MbinForm isMagic tlvs) (hmono : ∀ n, isMagic n → isMagic' n) : MbinForm isMagic' tlvs := by
  obtain ⟨⟨first, rest, heq, htype, hlength, hnumber⟩, heof⟩ := h
  exact ⟨⟨first, rest, heq, htype, hlength, hmono _ hnumber⟩, heof⟩

/-- A firmware file that passes the test still does so when it is compressed, if and only if
its chunks and other TLVs are at most as many as the test walks. -/
theorem compressed_passed_iff {compress : ℕ → List UInt8 → List UInt8} {minReadLength : ℕ}
    {firmware : List UInt8} {s : CompressState}
    (htest : (validateFw minReadLength firmware).1 = .passed)
    (hcompress : compressMbin compress false DEFAULT_COMPRESSION_CHUNK_SIZE firmware = .ok s) :
    (validateFw minReadLength s.outbin.outfile).1 = .passed ↔
      ∃ tlvs : List MbinTlv, firmware = tlvs.flatMap Tlv.encode ∧
        (tlvs.map (outputCount DEFAULT_COMPRESSION_CHUNK_SIZE.toNat)).sum ≤ MAX_TLVS := by
  obtain ⟨tlvs, -, rfl, hform, -⟩ := compressMbin_ok hcompress
  obtain ⟨hfw, -⟩ := (validateFw_passed_iff hform minReadLength).mp htest
  rw [validateFw_output_iff hfw hcompress]
  refine ⟨?_, ?_⟩
  · intro hcount
    exact ⟨tlvs, rfl, hcount⟩
  · rintro ⟨tlvs', heq, hcount⟩
    cases Tlv.flatMap_encode_injective (by decide) heq
    exact hcount

theorem compressed_passed_iff_abc :
    (validateFw 8 ((fwImage [abcTlv]).flatMap Tlv.encode)).1 = .passed ∧
      ∃ s, compressMbin abcCompress false DEFAULT_COMPRESSION_CHUNK_SIZE
          ((fwImage [abcTlv]).flatMap Tlv.encode) = .ok s ∧
        ((validateFw 8 s.outbin.outfile).1 = .passed ↔
          ∃ tlvs : List MbinTlv, (fwImage [abcTlv]).flatMap Tlv.encode = tlvs.flatMap Tlv.encode ∧
            (tlvs.map (outputCount DEFAULT_COMPRESSION_CHUNK_SIZE.toNat)).sum ≤ MAX_TLVS) := by
  have hform : MbinForm (· = FW_MAGIC_NUMBER) (fwImage [abcTlv]) := fwImage_mbinForm (by decide)
  have htest : (validateFw 8 ((fwImage [abcTlv]).flatMap Tlv.encode)).1 = .passed :=
    (validateFw_passed_iff hform 8).mpr ⟨hform, by decide⟩
  have habc : ∀ tlv ∈ [abcTlv],
      Compressible abcCompress DEFAULT_COMPRESSION_CHUNK_SIZE.toNat tlv := by
    rw [List.forall_mem_singleton]
    intro
    decide
  obtain ⟨s, hs⟩ := compressMbin_flatMap_encode (by decide) (by decide)
    (hform.mono fun _ => .inl) (fwImage_compressible habc)
  exact ⟨htest, s, hs, compressed_passed_iff htest hs⟩

/-! ### An image of 400 KB -/

/-- A segment of bytes that are zero. -/
def zerosTlv (address count : ℕ) (h : count < 65532) : MbinTlv where
  type      := FIELD_TYPE_FW_SEGMENT
  data      := LittleEndian.encode 4 address ++ List.replicate count 0
  type_lt   := by decide
  length_lt := by
    rw [List.length_append, LittleEndian.encode_length, List.length_replicate]
    omega

/-- What zlib makes of 8192 zeros at level 1. -/
def zerosStream : List UInt8 :=
  [0x78, 0x01, 0xed, 0xd0, 0x01, 0x0d, 0x00, 0x00, 0x00, 0xc2, 0xa0, 0xf7,
   0x4f, 0x6d, 0x0e, 0x37, 0x88, 0x40, 0x61, 0xc0, 0x80, 0x01, 0x03, 0x06,
   0x0c, 0x18, 0x30, 0x60, 0xc0, 0x80, 0x01, 0x03, 0x06, 0x0c, 0x18, 0x30,
   0x60, 0xc0, 0x80, 0x01, 0x03, 0x06, 0x0c, 0x18, 0x30, 0x60, 0xc0, 0x80,
   0x01, 0x03, 0x06, 0x0c, 0xbc, 0x0f, 0x0c, 0x20, 0x00, 0x00, 0x01]

def zerosCompress (_level : ℕ) (data : List UInt8) : List UInt8 :=
  if data = List.replicate 8192 0 then zerosStream else 0 :: data

/-- Seven segments of 56 KB. -/
def zerosBody : List MbinTlv :=
  (List.range 7).map fun i => zerosTlv (0x100000 + i * 57344) 57344 (by decide)

theorem zerosCompress_length (level : ℕ) (data : List UInt8) :
    (zerosCompress level data).length ≤ data.length + 59 := by
  rw [zerosCompress]
  split
  · exact (show zerosStream.length = 59 from rfl) ▸ Nat.le_add_left ..
  · rw [List.length_cons]
    omega

theorem zerosTlv_compressible {address count : ℕ} (h : count < 65532)
    (haddress : address + count < 2 ^ 32) :
    Compressible zerosCompress DEFAULT_COMPRESSION_CHUNK_SIZE.toNat (zerosTlv address count h) := by
  intro
  have hdrop : (zerosTlv address count h).data.drop 4 = List.replicate count 0 :=
    List.drop_left' (LittleEndian.encode_length _ _)
  have htake : (zerosTlv address count h).data.take 4 = LittleEndian.encode 4 address :=
    List.take_left' (LittleEndian.encode_length _ _)
  rw [hdrop, htake, LittleEndian.decode_encode (by omega)]
  refine ⟨by simp [zerosTlv], ?_⟩
  intro offset hoffset
  have hlt := Loops.lt_of_mem_range (Nat.zero_le _) hoffset
  rw [List.length_replicate] at hlt
  have hchunk : (Loops.slice (List.replicate count (0 : UInt8)) offset
      DEFAULT_COMPRESSION_CHUNK_SIZE.toNat).length ≤ 8192 := List.length_take_le _ _
  have hlen := zerosCompress_length COMPRESSION_LEVEL (Loops.slice
    (List.replicate count (0 : UInt8)) offset DEFAULT_COMPRESSION_CHUNK_SIZE.toNat)
  omega

theorem zerosTlv_outputCount {address count : ℕ} (h : count < 65532) :
    outputCount DEFAULT_COMPRESSION_CHUNK_SIZE.toNat (zerosTlv address count h) =
      (count + 8191) / 8192 := by
  have hsegment : Segment.ofType (zerosTlv address count h).type = some .firmware := rfl
  rw [outputCount, hsegment, if_neg (Option.some_ne_none _)]
  simp [zerosTlv, DEFAULT_COMPRESSION_CHUNK_SIZE]

/-- The image passes, and the 49 chunks of its output are too many. -/
theorem largeImage_not_passed :
    (validateFw 8 ((fwImage zerosBody).flatMap Tlv.encode)).1 = .passed ∧
      ∃ s, compressMbin zerosCompress false DEFAULT_COMPRESSION_CHUNK_SIZE
          ((fwImage zerosBody).flatMap Tlv.encode) = .ok s ∧
        (validateFw 8 s.outbin.outfile).1 ≠ .passed := by
  have hform : MbinForm (· = FW_MAGIC_NUMBER) (fwImage zerosBody) := by
    apply fwImage_mbinForm
    intro tlv htlv heof
    obtain ⟨i, -, rfl⟩ := List.mem_map.mp htlv
    cases heof
  have hbody : ∀ tlv ∈ zerosBody,
      Compressible zerosCompress DEFAULT_COMPRESSION_CHUNK_SIZE.toNat tlv := by
    intro tlv htlv
    obtain ⟨i, hi, rfl⟩ := List.mem_map.mp htlv
    rw [List.mem_range] at hi
    exact zerosTlv_compressible _ (by omega)
  obtain ⟨s, hs⟩ := compressMbin_flatMap_encode (by decide) (by decide)
    (hform.mono fun _ => .inl) (fwImage_compressible hbody)
  refine ⟨(validateFw_passed_iff hform 8).mpr ⟨hform, by decide⟩, s, hs, ?_⟩
  rw [ne_eq, validateFw_output_iff hform hs, fwImage, zerosBody, List.map_cons, List.map_append,
    List.map_map]
  simp only [Function.comp_def, zerosTlv_outputCount]
  decide

end MmIot
