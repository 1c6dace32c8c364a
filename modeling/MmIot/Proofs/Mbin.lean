import MmIot.Spec.MbinImage

/-! Compression preserves the image: the TLVs written for one TLV of the input have
the events of that TLV, chunk after chunk. -/

namespace MmIot

/-! ### Reading -/

/-- A whole TLV at the front is yielded. -/
theorem iterTlvs_of_some {fuel offset : ℕ} {infile rest : List UInt8} {tlv : MbinTlv}
    (h : Tlv.decodeFirst infile = some (tlv, rest)) :
    iterTlvs (fuel + 1) offset infile =
      (⟨offset, tlv⟩ :: (iterTlvs fuel (offset + 4 + tlv.data.length) rest).1,
        (iterTlvs fuel (offset + 4 + tlv.data.length) rest).2) := by
  have htype : (infile.take 4).take 2 = infile.take 2 := List.take_take ..
  have hlength : (infile.take 4).drop 2 = (infile.drop 2).take 2 := List.drop_take ..
  simp only [Tlv.decodeFirst] at h
  split at h
  next hfits =>
    obtain ⟨hheader, hdata⟩ := hfits
    cases h
    have hfour : (infile.take 4).length = 4 := by
      rw [List.length_take]
      omega
    have hne : infile.take 4 ≠ [] := fun h => by rw [h] at hfour; cases hfour
    rw [iterTlvs]
    simp only [TLV_HEADER_SIZE, htype, hlength, hfour, hne, if_false, ne_eq, not_true_eq_false]
    rw [dif_neg (not_not.mpr hdata)]
    simp only [hdata]
  next => cases h

/-- What is not a whole TLV is an error. -/
theorem iterTlvs_of_none (fuel offset : ℕ) {infile : List UInt8}
    (h : @Tlv.decodeFirst 2 2 infile = none) (hne : infile ≠ []) :
    ∃ e, iterTlvs (fuel + 1) offset infile = ([], some e) := by
  have hlength : (infile.take 4).drop 2 = (infile.drop 2).take 2 := List.drop_take ..
  have hsome : infile.take 4 ≠ [] := by
    cases infile with
    | nil => exact absurd rfl hne
    | cons b bs => exact List.cons_ne_nil _ _
  simp only [Tlv.decodeFirst] at h
  split at h
  next => cases h
  next hshort =>
    rw [iterTlvs]
    simp only [TLV_HEADER_SIZE, hlength, hsome, if_false]
    by_cases hheader : (infile.take 4).length = 4
    · rw [if_neg (not_not.mpr hheader), dif_pos]
      · exact ⟨_, rfl⟩
      · rw [List.length_take] at hheader
        exact fun hdata => hshort ⟨by omega, hdata⟩
    · exact ⟨_, if_pos hheader⟩

/-- What was read without an error is all there is. -/
theorem iterTlvs_ok (fuel : ℕ) {offset : ℕ} {infile : List UInt8} (hfuel : infile.length ≤ fuel)
    (h : (iterTlvs fuel offset infile).2 = none) :
    infile = ((iterTlvs fuel offset infile).1.map TlvItem.tlv).flatMap Tlv.encode := by
  induction fuel generalizing offset infile with
  | zero => exact List.eq_nil_of_length_eq_zero (Nat.le_zero.mp hfuel)
  | succ fuel ih =>
    rcases eq_or_ne infile [] with rfl | hne
    · rfl
    · cases hfirst : @Tlv.decodeFirst 2 2 infile with
      | none =>
        obtain ⟨e, he⟩ := iterTlvs_of_none fuel offset hfirst hne
        rw [he] at h
        exact nomatch h
      | some r =>
        obtain ⟨tlv, rest⟩ := r
        have hsplit := Tlv.eq_encode_append hfirst
        have hlen := congrArg List.length hsplit
        rw [List.length_append, Tlv.encode_length] at hlen
        rw [iterTlvs_of_some hfirst] at h ⊢
        rw [List.map_cons, List.flatMap_cons, ← ih (by omega) h]
        exact hsplit

/-! ### Writing -/

theorem structPack_ok {w₁ n₁ w₂ n₂ : ℕ} {bytes : List UInt8}
    (h : structPack [(w₁, n₁), (w₂, n₂)] = .ok bytes) :
    n₁ < 256 ^ w₁ ∧ n₂ < 256 ^ w₂ ∧
      bytes = LittleEndian.encode w₁ n₁ ++ LittleEndian.encode w₂ n₂ := by
  rw [structPack] at h
  split at h
  next hfits =>
    cases h
    refine ⟨hfits (w₁, n₁) (by simp), hfits (w₂, n₂) (by simp), ?_⟩
    rw [List.flatMap_cons, List.flatMap_singleton]
  next => exact nomatch h

theorem addTlv_ok {w w' : MbinWriter} {tlvType : ℕ} {data : List UInt8}
    (h : w.addTlv tlvType data = .ok w') :
    ∃ tlv : MbinTlv, tlv.type = tlvType ∧ tlv.data = data ∧
      w' = { w with outfile  := w.outfile ++ tlv.encode
                    tlvCount := w.tlvCount + 1 } := by
  obtain ⟨-, h⟩ := Loops.check_eq_ok.mp h
  obtain ⟨header, hheader, h⟩ := Loops.bind_eq_ok.mp h
  obtain ⟨htype, hlength, rfl⟩ := structPack_ok hheader
  cases h
  refine ⟨⟨tlvType, data, htype, hlength⟩, rfl, rfl, ?_⟩
  simp only [Tlv.encode, List.append_assoc]

/-- One TLV was written, and nothing else of a writer changed that is read again. -/
structure Appends (origin : Origin) (tlv : MbinTlv) (w w' : MbinWriter) : Prop where
  chunkSize : w'.compressionChunkSize = w.compressionChunkSize
  outfile : w'.outfile = w.outfile ++ tlv.encode
  origins : w'.origins = w.origins ++ [origin]

theorem preserveTlv_ok {w w' : MbinWriter} {tlv : MbinTlv} (h : w.preserveTlv tlv = .ok w') :
    Appends .copied tlv w w' := by
  obtain ⟨w₁, hadd, h⟩ := Loops.bind_eq_ok.mp h
  obtain ⟨tlv', htype, hdata, rfl⟩ := addTlv_ok hadd
  obtain rfl : tlv' = tlv := by
    cases tlv
    cases tlv'
    cases htype
    cases hdata
    rfl
  split at h <;> cases h <;> exact ⟨rfl, rfl, rfl⟩

section Rounds

variable {compress : ℕ → List UInt8 → List UInt8}

theorem addCompressedChunk_ok {w w' : MbinWriter} {outputType destAddress offset : ℕ}
    {data : List UInt8}
    (h : w.addCompressedChunk compress outputType destAddress data offset = .ok w') :
    let chunk := Loops.slice data offset w.compressionChunkSize
    destAddress + offset < 256 ^ 4 ∧ chunk.length < 256 ^ 2 ∧
      ∃ tlv : MbinTlv, tlv.type = outputType ∧
        tlv.data = LittleEndian.encode 4 (destAddress + offset) ++
          LittleEndian.encode 2 chunk.length ++ compress COMPRESSION_LEVEL chunk ∧
        Appends .compressed tlv w w' := by
  obtain ⟨header, hheader, h⟩ := Loops.bind_eq_ok.mp h
  obtain ⟨haddress, hlength, rfl⟩ := structPack_ok hheader
  obtain ⟨w₁, hadd, h⟩ := Loops.bind_eq_ok.mp h
  obtain ⟨tlv, htype, hdata, rfl⟩ := addTlv_ok hadd
  cases h
  exact ⟨haddress, hlength, tlv, htype, hdata, rfl, rfl, rfl⟩

/-- The branches for the two segment types come to the same. -/
theorem addItem_cases {w w' : MbinWriter} {item : TlvItem} (h : w.addItem compress item = .ok w') :
    (∃ segment outputType, Segment.ofType item.tlv.type = some segment ∧
      Segment.ofDeflatedType outputType = some segment ∧
      w.addCompressedSegment compress outputType (LittleEndian.decode (item.tlv.data.take 4))
        (item.tlv.data.drop 4) = .ok w') ∨
    Segment.ofType item.tlv.type = none ∧ w.preserveTlv item.tlv = .ok w' := by
  rw [MbinWriter.addItem] at h
  split at h
  next hfw =>
    obtain ⟨-, h⟩ := Loops.check_eq_ok.mp h
    exact .inl ⟨.firmware, _, if_pos hfw, rfl, h⟩
  next hfw =>
    split at h
    next hsw =>
      obtain ⟨-, h⟩ := Loops.check_eq_ok.mp h
      exact .inl ⟨.software, _, (if_neg hfw).trans (if_pos hsw), rfl, h⟩
    next hsw => exact .inr ⟨(if_neg hfw).trans (if_neg hsw), h⟩

/-- What a round of the main loop has done when it ends. -/
theorem compressTlv_round {s s' : CompressState} {item : TlvItem}
    (h : compressTlv compress s item = .ok s') :
    s.sawEof = false ∧ s.outbin.addItem compress item = .ok s'.outbin ∧ s'.sawMagic = true ∧
      (s'.sawEof = true ↔ item.tlv.type = FIELD_TYPE_EOF) := by
  obtain ⟨hsaw, h⟩ := Loops.check_eq_ok.mp h
  obtain ⟨inputType, -, h⟩ := Loops.bind_eq_ok.mp h
  obtain ⟨outbin, houtbin, h⟩ := Loops.bind_eq_ok.mp h
  cases h
  exact ⟨by simpa using hsaw, houtbin, rfl, by simp [hsaw]⟩

/-- Reading and the checks at both ends aside, a file is what the main loop goes through. -/
theorem compressMbin_eq_ok_iff {samePath : Bool} {compressionChunkSize : ℤ} {input : List UInt8}
    {s : CompressState} :
    compressMbin compress samePath compressionChunkSize input = .ok s ↔
      samePath = false ∧ 0 < compressionChunkSize ∧ compressionChunkSize ≤ 0xFFFF ∧
        (iterTlvs input.length 0 input).2 = none ∧
        (iterTlvs input.length 0 input).1.foldlM (compressTlv compress)
          ⟨false, false, none, .new compressionChunkSize.toNat⟩ = .ok s ∧
        s.sawMagic = true ∧ s.sawEof = true := by
  rw [compressMbin, Loops.check_eq_ok, Loops.check_eq_ok, Loops.bind_eq_ok]
  refine ⟨?_, ?_⟩
  · rintro ⟨hpath, hsize, s', hloop, h⟩
    cases hread : (iterTlvs input.length 0 input).2 with
    | some e =>
      rw [hread] at h
      cases h
    | none =>
      rw [hread] at h
      obtain ⟨hmagic, h⟩ := Loops.check_eq_ok.mp h
      obtain ⟨heof, h⟩ := Loops.check_eq_ok.mp h
      cases h
      exact ⟨by simpa using hpath, by omega, by omega, rfl, hloop, by simpa using hmagic,
        by simpa using heof⟩
  · rintro ⟨hpath, hpos, hsize, hread, hloop, hmagic, heof⟩
    refine ⟨by simp [hpath], by omega, s, hloop, ?_⟩
    rw [hread]
    exact Loops.check_eq_ok.mpr ⟨by simp [hmagic], Loops.check_eq_ok.mpr ⟨by simp [heof], rfl⟩⟩

end Rounds

section Events

variable (decompress : List UInt8 → Option (List UInt8))

/-- From one writer to a later one, TLVs with these events were written. -/
structure Emits (events : List MbinEvent) (w w' : MbinWriter) : Prop where
  chunkSize : w'.compressionChunkSize = w.compressionChunkSize
  written : ∃ origins tlvs, w'.outfile = w.outfile ++ tlvs.flatMap Tlv.encode ∧
    w'.origins = w.origins ++ origins ∧ originEvents decompress origins tlvs = some events

variable {decompress}

theorem originEvents_append {origins origins' : List Origin} {tlvs tlvs' : List MbinTlv}
    {events events' : List MbinEvent} (h : originEvents decompress origins tlvs = some events)
    (h' : originEvents decompress origins' tlvs' = some events') :
    originEvents decompress (origins ++ origins') (tlvs ++ tlvs') = some (events ++ events') := by
  induction origins, tlvs using originEvents.induct generalizing events with
  | case1 =>
    cases h
    exact h'
  | case2 origins tlv tlvs ih =>
    obtain ⟨rest, hrest, rfl⟩ := Option.map_eq_some_iff.mp h
    rw [List.cons_append, List.cons_append, originEvents, ih hrest, Option.map_some,
      List.cons_append]
  | case3 origins tlv tlvs ih =>
    obtain ⟨first, hfirst, h⟩ := Option.bind_eq_some_iff.mp h
    obtain ⟨rest, hrest, h⟩ := Option.bind_eq_some_iff.mp h
    cases h
    rw [List.cons_append, List.cons_append, originEvents, hfirst, ih hrest, List.append_assoc]
    rfl
  | case4 origins tlvs hnil hcopied hcompressed =>
    rw [originEvents] at h
    · exact nomatch h
    all_goals assumption

theorem Emits.refl (w : MbinWriter) : Emits decompress [] w w :=
  ⟨rfl, [], [], (List.append_nil _).symm, (List.append_nil _).symm, rfl⟩

theorem Emits.trans {events events' : List MbinEvent} {w w' w'' : MbinWriter}
    (h : Emits decompress events w w') (h' : Emits decompress events' w' w'') :
    Emits decompress (events ++ events') w w'' := by
  obtain ⟨hsize, origins, tlvs, hfile, horigins, hevents⟩ := h
  obtain ⟨hsize', origins', tlvs', hfile', horigins', hevents'⟩ := h'
  refine ⟨hsize'.trans hsize, origins ++ origins', tlvs ++ tlvs', ?_, ?_,
    originEvents_append hevents hevents'⟩
  · rw [hfile', hfile, List.flatMap_append, List.append_assoc]
  · rw [horigins', horigins, List.append_assoc]

theorem Appends.emits {origin : Origin} {tlv : MbinTlv} {w w' : MbinWriter}
    (h : Appends origin tlv w w') {events : List MbinEvent}
    (hevents : originEvents decompress [origin] [tlv] = some events) :
    Emits decompress events w w' :=
  ⟨h.chunkSize, [origin], [tlv], by rw [h.outfile, List.flatMap_singleton], h.origins, hevents⟩

/-- The payload that is written for a chunk inflates to the chunk. -/
theorem inflatedEvents_chunk {compress : ℕ → List UInt8 → List UInt8}
    (hzlib : ∀ data, decompress (compress COMPRESSION_LEVEL data) = some data) {tlv : MbinTlv}
    {segment : Segment} {address : ℕ} {chunk : List UInt8}
    (htype : Segment.ofDeflatedType tlv.type = some segment) (haddress : address < 256 ^ 4)
    (hlength : chunk.length < 256 ^ 2)
    (hdata : tlv.data = LittleEndian.encode 4 address ++ LittleEndian.encode 2 chunk.length ++
      compress COMPRESSION_LEVEL chunk) :
    inflatedEvents decompress tlv = some (segmentWrites segment address chunk) := by
  have haddr : tlv.data.take 4 = LittleEndian.encode 4 address := by
    rw [hdata, List.append_assoc]
    exact List.take_left' (LittleEndian.encode_length _ _)
  have hlen : (tlv.data.drop 4).take 2 = LittleEndian.encode 2 chunk.length := by
    rw [hdata, List.append_assoc, List.drop_left' (LittleEndian.encode_length _ _)]
    exact List.take_left' (LittleEndian.encode_length _ _)
  have hpayload : tlv.data.drop 6 = compress COMPRESSION_LEVEL chunk := by
    rw [hdata]
    exact List.drop_left' (by simp)
  have hsix : 6 ≤ tlv.data.length := by
    rw [hdata]
    simp only [List.length_append, LittleEndian.encode_length]
    omega
  simp [inflatedEvents, htype, hpayload, hzlib, haddr, hlen, hsix,
    LittleEndian.decode_encode haddress, LittleEndian.decode_encode hlength]

variable {compress : ℕ → List UInt8 → List UInt8}
  (hzlib : ∀ data, decompress (compress COMPRESSION_LEVEL data) = some data)

include hzlib in
theorem addCompressedChunk_emits {w w' : MbinWriter} {segment : Segment}
    {outputType destAddress offset : ℕ} {data : List UInt8}
    (htype : Segment.ofDeflatedType outputType = some segment)
    (h : w.addCompressedChunk compress outputType destAddress data offset = .ok w') :
    Emits decompress (segmentWrites segment (destAddress + offset)
      (Loops.slice data offset w.compressionChunkSize)) w w' := by
  obtain ⟨haddress, hlength, tlv, hoftype, hdata, happends⟩ := addCompressedChunk_ok h
  have hevents := inflatedEvents_chunk hzlib (hoftype ▸ htype) haddress hlength hdata
  apply happends.emits
  simp [originEvents, hevents]

include hzlib in
/-- The chunks of a segment write what the segment does. -/
theorem addCompressedSegment_emits {w w' : MbinWriter} {segment : Segment}
    {outputType destAddress : ℕ} {data : List UInt8}
    (htype : Segment.ofDeflatedType outputType = some segment)
    (hsize : 0 < w.compressionChunkSize)
    (h : w.addCompressedSegment compress outputType destAddress data = .ok w') :
    Emits decompress (segmentWrites segment destAddress data) w w' := by
  have hchunks := Loops.foldlM_ok (R := fun w offsets w' =>
    Emits decompress (offsets.flatMap fun offset => segmentWrites segment (destAddress + offset)
      (Loops.slice data offset w.compressionChunkSize)) w w') (fun w => .refl w)
    (fun w offset w₁ offsets w' hchunk hrest => by
      have hfirst := addCompressedChunk_emits hzlib htype hchunk
      rw [hfirst.chunkSize] at hrest
      exact hfirst.trans hrest) h
  have hwhole := Loops.flatMap_slice_zipIdx data hsize destAddress 0
  simp only [segmentWrites, ← List.map_flatMap, hwhole] at hchunks
  exact hchunks

include hzlib in
theorem addItem_emits {w w' : MbinWriter} {item : TlvItem} (hsize : 0 < w.compressionChunkSize)
    (h : w.addItem compress item = .ok w') : Emits decompress (plainEvents item.tlv) w w' := by
  rcases addItem_cases h with ⟨segment, outputType, hplain, htype, h⟩ | ⟨hnone, h⟩
  · simp only [plainEvents, hplain]
    exact addCompressedSegment_emits hzlib htype hsize h
  · simp only [plainEvents, hnone]
    exact (preserveTlv_ok h).emits rfl

include hzlib in
/-- A round of the main loop writes what its TLV stands for. -/
theorem compressTlv_emits {s s' : CompressState} {item : TlvItem}
    (hsize : 0 < s.outbin.compressionChunkSize) (h : compressTlv compress s item = .ok s') :
    Emits decompress (plainEvents item.tlv) s.outbin s'.outbin := by
  obtain ⟨-, hitem, -⟩ := compressTlv_round h
  exact addItem_emits hzlib hsize hitem

include hzlib in
theorem compressTlvs_emit {s s' : CompressState} {items : List TlvItem}
    (hsize : 0 < s.outbin.compressionChunkSize)
    (h : items.foldlM (compressTlv compress) s = .ok s') :
    Emits decompress ((items.map TlvItem.tlv).flatMap plainEvents) s.outbin s'.outbin := by
  refine Loops.foldlM_ok (R := fun s items s' => 0 < s.outbin.compressionChunkSize →
    Emits decompress ((items.map TlvItem.tlv).flatMap plainEvents) s.outbin s'.outbin)
    (fun s _ => .refl s.outbin) (fun s item s₁ items s' hitem hrest hsize => ?_) h hsize
  have hfirst := compressTlv_emits hzlib hsize hitem
  exact hfirst.trans (hrest (hfirst.chunkSize ▸ hsize))

end Events

/-! ### The whole file -/

/-- When the input is compressed without an error, it and the output decode as TLVs with
the same writes and the same other TLVs in the same order. -/
theorem compressMbin_preserves {compress : ℕ → List UInt8 → List UInt8}
    {decompress : List UInt8 → Option (List UInt8)}
    (hzlib : ∀ data, decompress (compress COMPRESSION_LEVEL data) = some data)
    {samePath : Bool} {compressionChunkSize : ℤ} {input : List UInt8} {s : CompressState}
    (h : compressMbin compress samePath compressionChunkSize input = .ok s) :
    ∃ inputTlvs outputTlvs, Tlv.decode input = some inputTlvs ∧
      Tlv.decode s.outbin.outfile = some outputTlvs ∧
      originEvents decompress s.outbin.origins outputTlvs =
        some (inputTlvs.flatMap plainEvents) := by
  obtain ⟨-, hpos, -, hread, hloop, -⟩ := compressMbin_eq_ok_iff.mp h
  obtain ⟨-, origins, tlvs, hfile, horigins, hevents⟩ := compressTlvs_emit hzlib
    (by simp only [MbinWriter.new]; omega) hloop
  have hinput := iterTlvs_ok input.length (Nat.le_refl _) hread
  refine ⟨(iterTlvs input.length 0 input).1.map TlvItem.tlv, tlvs, ?_, ?_, ?_⟩
  · nth_rewrite 1 [hinput]
    exact Tlv.decode_flatMap_encode (by decide) _
  · rw [hfile]
    exact Tlv.decode_flatMap_encode (by decide) _
  · rw [horigins]
    exact hevents

/-! ### A segment of two chunks -/

/-- What zlib makes of the bytes of `abc` at level 1. -/
def abcStream : List UInt8 :=
  [0x78, 0x01, 0x4b, 0x4c, 0x4a, 0x06, 0x00, 0x02, 0x4d, 0x01, 0x27]

def abcCompress (_level : ℕ) (data : List UInt8) : List UInt8 :=
  if data = [0x61, 0x62, 0x63] then abcStream else 0 :: data

def abcDecompress (bytes : List UInt8) : Option (List UInt8) :=
  if bytes = abcStream then some [0x61, 0x62, 0x63]
  else if bytes.head? = some 0 then some bytes.tail
  else none

theorem abcDecompress_abcCompress (data : List UInt8) :
    abcDecompress (abcCompress COMPRESSION_LEVEL data) = some data := by
  rw [abcCompress]
  split
  next h => rw [h]; rfl
  next => rfl

/-- Magic, `abcabc` at 0x1000, EOF. -/
def abcMbin : List UInt8 :=
  [0x00, 0x80, 0x04, 0x00, 0x4d, 0x4d, 0x46, 0x57,
   0x01, 0x80, 0x0a, 0x00, 0x00, 0x10, 0x00, 0x00, 0x61, 0x62, 0x63, 0x61, 0x62, 0x63,
   0x00, 0x8f, 0x00, 0x00]

def abcState : CompressState where
  sawMagic  := true
  sawEof    := true
  inputType := some .firmware
  outbin    := {
    outfile :=
      [0x00, 0x80, 0x04, 0x00, 0x4d, 0x4d, 0x46, 0x57] ++
      [0x02, 0x80, 0x11, 0x00, 0x00, 0x10, 0x00, 0x00, 0x03, 0x00] ++ abcStream ++
      [0x02, 0x80, 0x11, 0x00, 0x03, 0x10, 0x00, 0x00, 0x03, 0x00] ++ abcStream ++
      [0x00, 0x8f, 0x00, 0x00]
    compressionChunkSize            := 3
    compressedSegmentCount          := 2
    preservedCompressedSegmentCount := 0
    preservedTlvCount               := 2
    tlvCount                        := 4
    origins := [.copied, .compressed, .compressed, .copied] }

theorem compressMbin_preserves_abc :
    compressMbin abcCompress false 3 abcMbin = .ok abcState ∧
      ∃ inputTlvs outputTlvs, Tlv.decode abcMbin = some inputTlvs ∧
        Tlv.decode abcState.outbin.outfile = some outputTlvs ∧
        originEvents abcDecompress abcState.outbin.origins outputTlvs =
          some (inputTlvs.flatMap plainEvents) := by
  have hrun : compressMbin abcCompress false 3 abcMbin = .ok abcState := by rfl
  exact ⟨hrun, compressMbin_preserves abcDecompress_abcCompress hrun⟩

end MmIot
