import MmIot.Proofs.Mbin
import MmIot.Spec.MbinForm

/-! What the compressor accepts: each check is put as a condition on the TLV it is about,
and the three flags of the main loop come to the form of the file. -/

namespace MmIot

/-! ### Reading -/

/-- Whole TLVs are yielded as they are, with no error. -/
theorem iterTlvs_flatMap_encode (tlvs : List MbinTlv) {fuel : ℕ} (offset : ℕ)
    (hfuel : tlvs.length ≤ fuel) :
    (iterTlvs fuel offset (tlvs.flatMap Tlv.encode)).1.map TlvItem.tlv = tlvs ∧
      (iterTlvs fuel offset (tlvs.flatMap Tlv.encode)).2 = none := by
  induction tlvs generalizing fuel offset with
  | nil => cases fuel <;> exact ⟨rfl, rfl⟩
  | cons tlv tlvs ih =>
    cases fuel with
    | zero => exact absurd hfuel (Nat.not_succ_le_zero _)
    | succ fuel =>
      obtain ⟨htlvs, herr⟩ := ih (offset + 4 + tlv.data.length) (Nat.le_of_succ_le_succ hfuel)
      rw [List.flatMap_cons, iterTlvs_of_some (Tlv.decodeFirst_encode tlv _)]
      exact ⟨by rw [List.map_cons, htlvs], herr⟩

/-! ### Writing -/

/-- From one writer to a later one, these TLVs were written. -/
structure Writes (tlvs : List MbinTlv) (w w' : MbinWriter) : Prop where
  chunkSize : w'.compressionChunkSize = w.compressionChunkSize
  outfile : w'.outfile = w.outfile ++ tlvs.flatMap Tlv.encode

theorem Writes.refl (w : MbinWriter) : Writes [] w w := ⟨rfl, (List.append_nil _).symm⟩

theorem Writes.trans {tlvs tlvs' : List MbinTlv} {w w' w'' : MbinWriter} (h : Writes tlvs w w')
    (h' : Writes tlvs' w' w'') : Writes (tlvs ++ tlvs') w w'' := by
  refine ⟨h'.chunkSize.trans h.chunkSize, ?_⟩
  rw [h'.outfile, h.outfile, List.flatMap_append, List.append_assoc]

theorem Appends.writes {origin : Origin} {tlv : MbinTlv} {w w' : MbinWriter}
    (h : Appends origin tlv w w') : Writes [tlv] w w' :=
  ⟨h.chunkSize, by rw [h.outfile, List.flatMap_singleton]⟩

section Compression

variable {compress : ℕ → List UInt8 → List UInt8}

/-- A segment gives one TLV for each chunk. -/
theorem addCompressedSegment_writes {w w' : MbinWriter} {outputType destAddress : ℕ}
    {data : List UInt8}
    (h : w.addCompressedSegment compress outputType destAddress data = .ok w') :
    ∃ outs : List MbinTlv, outs.length = (data.length + w.compressionChunkSize - 1) /
        w.compressionChunkSize ∧
      (∀ out ∈ outs, out.type = outputType) ∧ Writes outs w w' := by
  have hcount : (Loops.range 0 data.length w.compressionChunkSize).length =
      (data.length + w.compressionChunkSize - 1) / w.compressionChunkSize := by
    simp [Loops.range]
  rw [← hcount]
  refine Loops.foldlM_ok (R := fun w offsets w' => ∃ outs : List MbinTlv,
    outs.length = offsets.length ∧ (∀ out ∈ outs, out.type = outputType) ∧ Writes outs w w')
    ?_ ?_ h
  · intro w
    exact ⟨[], rfl, by simp, .refl w⟩
  · intro w offset w₁ offsets w' hchunk hrest
    obtain ⟨-, -, out, htype, -, hfirst⟩ := addCompressedChunk_ok hchunk
    obtain ⟨outs, hlen, htypes, hwrites⟩ := hrest
    refine ⟨out :: outs, by simp [hlen], ?_, hfirst.writes.trans hwrites⟩
    simpa [htype] using htypes

theorem addItem_writes {w w' : MbinWriter} {item : TlvItem} (h : w.addItem compress item = .ok w') :
    ∃ outs, OutputFor w.compressionChunkSize item.tlv outs ∧ Writes outs w w' := by
  rcases addItem_cases h with ⟨segment, outputType, hplain, htype, h⟩ | ⟨hnone, h⟩
  · obtain ⟨outs, hlen, htypes, hwrites⟩ := addCompressedSegment_writes h
    refine ⟨outs, .chunks segment hplain ?_ ?_, hwrites⟩
    · simpa [outputCount, hplain] using hlen
    · intro out hout
      rw [htypes out hout, htype]
  · exact ⟨_, .copied hnone, (preserveTlv_ok h).writes⟩

end Compression

/-! ### What the writer accepts -/

theorem structPack_isOk_iff (fields : List (ℕ × ℕ)) :
    (∃ bytes, structPack fields = .ok bytes) ↔ ∀ f ∈ fields, f.2 < 256 ^ f.1 := by
  unfold structPack
  split
  next h => exact iff_of_true ⟨_, rfl⟩ h
  next h => exact iff_of_false nofun h

theorem addTlv_isOk_iff (w : MbinWriter) (tlvType : ℕ) (data : List UInt8) :
    (∃ w', w.addTlv tlvType data = .ok w') ↔ tlvType < 256 ^ 2 ∧ data.length ≤ 65535 := by
  refine ⟨?_, ?_⟩
  · rintro ⟨w', h⟩
    obtain ⟨hlen, h⟩ := Loops.check_eq_ok.mp h
    obtain ⟨header, hheader, -⟩ := Loops.bind_eq_ok.mp h
    exact ⟨(structPack_ok hheader).1, Nat.le_of_not_lt hlen⟩
  · rintro ⟨htype, hlen⟩
    obtain ⟨header, hheader⟩ := (structPack_isOk_iff [(2, tlvType), (2, data.length)]).mpr
      (by simp; omega)
    exact ⟨_, Loops.check_eq_ok.mpr ⟨Nat.not_lt.mpr hlen, Loops.bind_eq_ok.mpr ⟨header, hheader, rfl⟩⟩⟩

theorem preserveTlv_isOk (w : MbinWriter) (tlv : MbinTlv) : ∃ w', w.preserveTlv tlv = .ok w' := by
  obtain ⟨w', h⟩ := (addTlv_isOk_iff w tlv.type tlv.data).mpr
    ⟨tlv.type_lt, Nat.le_of_lt_succ tlv.length_lt⟩
  rw [MbinWriter.preserveTlv, h]
  simp only [bind, Except.bind]
  split <;> exact ⟨_, rfl⟩

section Compression

variable {compress : ℕ → List UInt8 → List UInt8}

/-- What a round of the chunk loop checks. -/
def ChunkFits (compress : ℕ → List UInt8 → List UInt8) (destAddress : ℕ) (chunk : List UInt8)
    (offset : ℕ) : Prop :=
  destAddress + offset < 2 ^ 32 ∧ (compress COMPRESSION_LEVEL chunk).length + 6 ≤ 65535

theorem addCompressedChunk_isOk_iff {w : MbinWriter} {outputType : ℕ} (destAddress : ℕ)
    (data : List UInt8) (offset : ℕ) (hsize : w.compressionChunkSize ≤ 65535)
    (htype : outputType < 256 ^ 2) :
    (∃ w', w.addCompressedChunk compress outputType destAddress data offset = .ok w') ↔
      ChunkFits compress destAddress (Loops.slice data offset w.compressionChunkSize) offset := by
  have hchunk : (Loops.slice data offset w.compressionChunkSize).length ≤ 65535 :=
    (List.length_take_le _ _).trans hsize
  refine ⟨?_, ?_⟩
  · rintro ⟨w', h⟩
    obtain ⟨header, hheader, h⟩ := Loops.bind_eq_ok.mp h
    obtain ⟨haddress, -, rfl⟩ := structPack_ok hheader
    obtain ⟨w₁, hadd, -⟩ := Loops.bind_eq_ok.mp h
    obtain ⟨-, hlen⟩ := (addTlv_isOk_iff _ _ _).mp ⟨w₁, hadd⟩
    refine ⟨haddress, ?_⟩
    simp only [List.length_append, LittleEndian.encode_length] at hlen
    omega
  · rintro ⟨haddress, hlen⟩
    obtain ⟨header, hheader⟩ := (structPack_isOk_iff [(4, destAddress + offset),
      (2, (Loops.slice data offset w.compressionChunkSize).length)]).mpr (by simp; omega)
    obtain ⟨-, -, rfl⟩ := structPack_ok hheader
    have hpayload : (LittleEndian.encode 4 (destAddress + offset) ++
        LittleEndian.encode 2 (Loops.slice data offset w.compressionChunkSize).length ++
        compress COMPRESSION_LEVEL (Loops.slice data offset w.compressionChunkSize)).length ≤
          65535 := by
      simp only [List.length_append, LittleEndian.encode_length]
      omega
    obtain ⟨w₁, hadd⟩ := (addTlv_isOk_iff w outputType _).mpr ⟨htype, hpayload⟩
    exact ⟨_, Loops.bind_eq_ok.mpr ⟨_, hheader, Loops.bind_eq_ok.mpr ⟨w₁, hadd, rfl⟩⟩⟩

/-- A writer's chunks, at any offsets. -/
theorem addCompressedChunks_isOk_iff {w : MbinWriter} {outputType : ℕ} (destAddress : ℕ)
    (data : List UInt8) (offsets : List ℕ) (hsize : w.compressionChunkSize ≤ 65535)
    (htype : outputType < 256 ^ 2) :
    (∃ w', offsets.foldlM (fun w offset =>
        w.addCompressedChunk compress outputType destAddress data offset) w = .ok w') ↔
      ∀ offset ∈ offsets,
        ChunkFits compress destAddress (Loops.slice data offset w.compressionChunkSize) offset := by
  apply Loops.foldlM_isOk_iff (I := fun v => v.compressionChunkSize = w.compressionChunkSize)
  · intro v offset hv
    rw [addCompressedChunk_isOk_iff destAddress data offset (hv ▸ hsize) htype, hv]
  · intro v offset v' hv h
    obtain ⟨-, -, out, -, -, happends⟩ := addCompressedChunk_ok h
    exact happends.chunkSize.trans hv
  · rfl

theorem addSegment_isOk_iff {w : MbinWriter} (title : String) {outputType : ℕ} {item : TlvItem}
    (hsize : w.compressionChunkSize ≤ 65535) (htype : outputType < 256 ^ 2)
    (hsegment : Segment.ofType item.tlv.type ≠ none) :
    (∃ w', w.addSegment compress title outputType item = .ok w') ↔
      Compressible compress w.compressionChunkSize item.tlv := by
  have hiff : (∃ w', w.addCompressedSegment compress outputType _ _ = .ok w') ↔ _ :=
    addCompressedChunks_isOk_iff (LittleEndian.decode (item.tlv.data.take 4))
      (item.tlv.data.drop 4) _ hsize htype
  simp only [MbinWriter.addSegment, Loops.check_eq_ok, exists_and_left, hiff, Nat.not_lt]
  refine ⟨?_, ?_⟩
  · intro h _
    exact h
  · intro h
    exact h hsegment

theorem addItem_isOk_iff {w : MbinWriter} (item : TlvItem) (hsize : w.compressionChunkSize ≤ 65535) :
    (∃ w', w.addItem compress item = .ok w') ↔
      Compressible compress w.compressionChunkSize item.tlv := by
  rw [MbinWriter.addItem]
  split
  next hfw => exact addSegment_isOk_iff _ hsize (by decide) (by simp [Segment.ofType, hfw])
  next hfw =>
    split
    next hsw => exact addSegment_isOk_iff _ hsize (by decide) (by simp [Segment.ofType, hsw]; decide)
    next hsw =>
      refine iff_of_true (preserveTlv_isOk w item.tlv) ?_
      intro hsegment
      simp [Segment.ofType, hfw, hsw] at hsegment

/-! ### The main loop -/

theorem validateMagic_isOk_iff (tlv : MbinTlv) :
    (∃ inputType, validateMagic tlv = .ok inputType) ↔ MagicTlv IsMbinMagic tlv := by
  rw [validateMagic]
  split
  next h =>
    refine iff_of_false nofun ?_
    intro hmagic
    exact h.elim (fun hne => hne hmagic.type) fun hne => hne hmagic.length
  next h =>
    rw [not_or, not_not, not_not] at h
    refine ⟨?_, ?_⟩
    · intro hok
      refine ⟨h.1, h.2, ?_⟩
      by_contra hnone
      simp only [IsMbinMagic, not_or] at hnone
      simp [hnone] at hok
    · rintro ⟨-, -, hfw | hsw | hbcf⟩
      · exact ⟨_, if_pos hfw⟩
      · rw [hsw]
        exact ⟨.software, rfl⟩
      · rw [hbcf]
        exact ⟨.bcf, rfl⟩

/-- What a round of the main loop leaves. -/
theorem compressTlv_ok {s s' : CompressState} {item : TlvItem}
    (h : compressTlv compress s item = .ok s') :
    s'.sawMagic = true ∧ (s'.sawEof = true ↔ item.tlv.type = FIELD_TYPE_EOF) ∧
      ∃ outs, OutputFor s.outbin.compressionChunkSize item.tlv outs ∧
        Writes outs s.outbin s'.outbin := by
  obtain ⟨-, hitem, hmagic, heof⟩ := compressTlv_round h
  exact ⟨hmagic, heof, addItem_writes hitem⟩

/-- What a round of the main loop checks. -/
theorem compressTlv_isOk_iff {s : CompressState} (item : TlvItem)
    (hsize : s.outbin.compressionChunkSize ≤ 65535) :
    (∃ s', compressTlv compress s item = .ok s') ↔ s.sawEof = false ∧
      (s.sawMagic = false → MagicTlv IsMbinMagic item.tlv) ∧
      Compressible compress s.outbin.compressionChunkSize item.tlv := by
  rw [← validateMagic_isOk_iff, ← addItem_isOk_iff item hsize]
  refine ⟨?_, ?_⟩
  · rintro ⟨s', h⟩
    obtain ⟨hsaw, h⟩ := Loops.check_eq_ok.mp h
    obtain ⟨inputType, hmagic, h⟩ := Loops.bind_eq_ok.mp h
    obtain ⟨outbin, houtbin, -⟩ := Loops.bind_eq_ok.mp h
    refine ⟨by simpa using hsaw, ?_, outbin, houtbin⟩
    intro hfirst
    rw [CompressState.checkMagic, if_neg (by simp [hfirst])] at hmagic
    cases hvalid : validateMagic item.tlv with
    | error e =>
      rw [hvalid] at hmagic
      cases hmagic
    | ok inputType => exact ⟨inputType, rfl⟩
  · rintro ⟨hsaw, hmagic, outbin, houtbin⟩
    obtain ⟨inputType, hcheck⟩ : ∃ inputType, s.checkMagic item.tlv = .ok inputType := by
      rw [CompressState.checkMagic]
      split
      · exact ⟨_, rfl⟩
      next hfirst =>
        obtain ⟨inputType, hvalid⟩ := hmagic (by simpa using hfirst)
        exact ⟨some inputType, by rw [hvalid]; rfl⟩
    exact ⟨_, Loops.check_eq_ok.mpr ⟨by simp [hsaw],
      Loops.bind_eq_ok.mpr ⟨inputType, hcheck, Loops.bind_eq_ok.mpr ⟨outbin, houtbin, rfl⟩⟩⟩⟩

/-- Past the magic TLV the loop ends after an EOF exactly on the rest of a well-formed file. -/
theorem compressTlvs_isOk_iff (items : List TlvItem) {s : CompressState}
    (hsize : s.outbin.compressionChunkSize ≤ 65535) (hmagic : s.sawMagic = true) :
    (∃ s', items.foldlM (compressTlv compress) s = .ok s' ∧ s'.sawEof = true) ↔
      (if s.sawEof then items = [] else EndsAtEof (items.map TlvItem.tlv)) ∧
        ∀ item ∈ items, Compressible compress s.outbin.compressionChunkSize item.tlv := by
  induction items generalizing s with
  | nil =>
    refine ⟨?_, ?_⟩
    · rintro ⟨s', h, heof⟩
      cases h
      simp [heof]
    · rintro ⟨heof, -⟩
      cases hsaw : s.sawEof with
      | true => exact ⟨s, rfl, hsaw⟩
      | false =>
        rw [hsaw] at heof
        exact absurd heof not_endsAtEof_nil
  | cons item items ih =>
    have hfirst : (∃ t, compressTlv compress s item = .ok t) ↔ _ :=
      compressTlv_isOk_iff item hsize
    rw [List.forall_mem_cons]
    refine ⟨?_, ?_⟩
    · rintro ⟨s', h, heof⟩
      obtain ⟨t, ht, h⟩ := Loops.bind_eq_ok.mp h
      obtain ⟨hsaw, -, hitem⟩ := hfirst.mp ⟨t, ht⟩
      obtain ⟨htmagic, hteof, outs, -, hwrites⟩ := compressTlv_ok ht
      have hrest := (ih (hwrites.chunkSize ▸ hsize) htmagic).mp ⟨s', h, heof⟩
      simp only [hwrites.chunkSize, hteof] at hrest
      refine ⟨?_, hitem, hrest.2⟩
      rw [hsaw, List.map_cons]
      simpa [endsAtEof_cons] using hrest.1
    · rintro ⟨hform, hitem, hrest⟩
      have hsaw : s.sawEof = false := by
        by_contra hsaw
        simp [hsaw] at hform
      obtain ⟨t, ht⟩ := hfirst.mpr ⟨hsaw, by simp [hmagic], hitem⟩
      obtain ⟨htmagic, hteof, outs, -, hwrites⟩ := compressTlv_ok ht
      rw [hsaw, List.map_cons] at hform
      obtain ⟨s', h, heof⟩ := (ih (hwrites.chunkSize ▸ hsize) htmagic).mpr (by
        simp only [hwrites.chunkSize, hteof]
        exact ⟨by simpa [endsAtEof_cons] using hform, hrest⟩)
      exact ⟨s', Loops.bind_eq_ok.mpr ⟨t, ht, h⟩, heof⟩

variable (compress) in
/-- From the start, the magic TLV included. -/
theorem compressItems_isOk_iff (items : List TlvItem) {chunkSize : ℕ} (hsize : chunkSize ≤ 65535) :
    (∃ s', items.foldlM (compressTlv compress) ⟨false, false, none, .new chunkSize⟩ = .ok s' ∧
        s'.sawEof = true) ↔
      MbinForm IsMbinMagic (items.map TlvItem.tlv) ∧
        ∀ item ∈ items, Compressible compress chunkSize item.tlv := by
  cases items with
  | nil =>
    refine iff_of_false ?_ ?_
    · rintro ⟨s', h, heof⟩
      cases h
      cases heof
    · rintro ⟨⟨⟨first, rest, heq, -⟩, -⟩, -⟩
      cases heq
  | cons item items =>
    have hfirst : (∃ t, compressTlv compress ⟨false, false, none, .new chunkSize⟩ item = .ok t) ↔
      _ := compressTlv_isOk_iff item hsize
    rw [List.forall_mem_cons]
    refine ⟨?_, ?_⟩
    · rintro ⟨s', h, heof⟩
      obtain ⟨t, ht, h⟩ := Loops.bind_eq_ok.mp h
      obtain ⟨-, hmagic, hitem⟩ := hfirst.mp ⟨t, ht⟩
      obtain ⟨htmagic, hteof, outs, -, hwrites⟩ := compressTlv_ok ht
      have hrest := (compressTlvs_isOk_iff items (hwrites.chunkSize ▸ hsize) htmagic).mp
        ⟨s', h, heof⟩
      simp only [hwrites.chunkSize, hteof] at hrest
      refine ⟨⟨⟨item.tlv, _, rfl, hmagic rfl⟩, ?_⟩, hitem, hrest.2⟩
      rw [List.map_cons, endsAtEof_cons]
      simpa using hrest.1
    · rintro ⟨⟨⟨first, rest, heq, hmagic⟩, heof⟩, hitem, hrest⟩
      cases heq
      obtain ⟨t, ht⟩ := hfirst.mpr ⟨rfl, fun _ => hmagic, hitem⟩
      obtain ⟨htmagic, hteof, outs, -, hwrites⟩ := compressTlv_ok ht
      rw [List.map_cons, endsAtEof_cons] at heof
      obtain ⟨s', h, hseof⟩ := (compressTlvs_isOk_iff items (hwrites.chunkSize ▸ hsize) htmagic).mpr
        (by
          simp only [hwrites.chunkSize, hteof]
          exact ⟨by simpa using heof, hrest⟩)
      exact ⟨s', Loops.bind_eq_ok.mpr ⟨t, ht, h⟩, hseof⟩

/-- What the whole loop writes, TLV after TLV. -/
theorem compressTlvs_write {s s' : CompressState} {items : List TlvItem}
    (h : items.foldlM (compressTlv compress) s = .ok s') :
    ∃ outs, List.Forall₂ (OutputFor s.outbin.compressionChunkSize) (items.map TlvItem.tlv) outs ∧
      Writes outs.flatten s.outbin s'.outbin := by
  refine Loops.foldlM_ok (R := fun s items s' => ∃ outs,
    List.Forall₂ (OutputFor s.outbin.compressionChunkSize) (items.map TlvItem.tlv) outs ∧
      Writes outs.flatten s.outbin s'.outbin) ?_ ?_ h
  · intro s
    exact ⟨[], .nil, .refl s.outbin⟩
  · intro s item s₁ items s' hitem hrest
    obtain ⟨-, -, first, hfirst, hwrites⟩ := compressTlv_ok hitem
    obtain ⟨outs, houts, hothers⟩ := hrest
    rw [hwrites.chunkSize] at houts
    exact ⟨first :: outs, .cons hfirst houts, hwrites.trans hothers⟩

/-- Only a file with a magic TLV gets to an EOF. -/
theorem compressTlvs_sawMagic {s s' : CompressState} {items : List TlvItem}
    (h : items.foldlM (compressTlv compress) s = .ok s') :
    (s.sawEof = true → s.sawMagic = true) → s'.sawEof = true → s'.sawMagic = true := by
  refine Loops.foldlM_ok (R := fun s _ s' =>
    (s.sawEof = true → s.sawMagic = true) → s'.sawEof = true → s'.sawMagic = true) ?_ ?_ h
  · intro s hs
    exact hs
  · intro s item s₁ items s' hitem hrest hs
    apply hrest
    intro
    exact (compressTlv_ok hitem).1

/-! ### The whole file -/

/-- What is accepted is well formed, and the output stands for it. -/
theorem compressMbin_ok {samePath : Bool} {compressionChunkSize : ℤ} {input : List UInt8}
    {s : CompressState} (h : compressMbin compress samePath compressionChunkSize input = .ok s) :
    ∃ tlvs outs, input = tlvs.flatMap Tlv.encode ∧ MbinForm IsMbinMagic tlvs ∧
      (∀ tlv ∈ tlvs, Compressible compress compressionChunkSize.toNat tlv) ∧
      List.Forall₂ (OutputFor compressionChunkSize.toNat) tlvs outs ∧
      s.outbin.outfile = outs.flatten.flatMap Tlv.encode := by
  obtain ⟨-, hpos, hsize, hread, hloop, -, heof⟩ := compressMbin_eq_ok_iff.mp h
  obtain ⟨outs, houts, hwrites⟩ := compressTlvs_write hloop
  obtain ⟨hform, hall⟩ := (compressItems_isOk_iff compress _ (by omega)).mp ⟨s, hloop, heof⟩
  refine ⟨_, outs, iterTlvs_ok input.length (Nat.le_refl _) hread, hform, ?_, houts,
    hwrites.outfile⟩
  intro tlv htlv
  obtain ⟨item, hitem, rfl⟩ := List.mem_map.mp htlv
  exact hall item hitem

/-- What is well formed is accepted. -/
theorem compressMbin_flatMap_encode {compressionChunkSize : ℤ} {tlvs : List MbinTlv}
    (hpos : 0 < compressionChunkSize) (hsize : compressionChunkSize ≤ 0xFFFF)
    (hform : MbinForm IsMbinMagic tlvs)
    (hall : ∀ tlv ∈ tlvs, Compressible compress compressionChunkSize.toNat tlv) :
    ∃ s, compressMbin compress false compressionChunkSize (tlvs.flatMap Tlv.encode) = .ok s := by
  obtain ⟨htlvs, hread⟩ := iterTlvs_flatMap_encode tlvs 0
    (Tlv.length_le_flatMap_encode (by decide) tlvs)
  obtain ⟨s, hloop, heof⟩ := (compressItems_isOk_iff compress
      (iterTlvs (tlvs.flatMap Tlv.encode).length 0 (tlvs.flatMap Tlv.encode)).1
      (by omega : compressionChunkSize.toNat ≤ 65535)).mpr (by
    rw [htlvs]
    refine ⟨hform, ?_⟩
    intro item hitem
    exact hall _ (htlvs ▸ List.mem_map_of_mem hitem))
  refine ⟨s, compressMbin_eq_ok_iff.mpr ⟨rfl, hpos, hsize, hread, hloop, ?_, heof⟩⟩
  exact compressTlvs_sawMagic hloop nofun heof

end Compression

/-- The compressor accepts the well-formed files whose segments it can cut up, and no others. -/
theorem compressMbin_isOk_iff (compress : ℕ → List UInt8 → List UInt8) {compressionChunkSize : ℤ}
    (hpos : 1 ≤ compressionChunkSize) (hsize : compressionChunkSize ≤ 65535)
    (input : List UInt8) :
    (∃ s, compressMbin compress false compressionChunkSize input = .ok s) ↔
      ∃ tlvs, input = tlvs.flatMap Tlv.encode ∧ MbinForm IsMbinMagic tlvs ∧
        ∀ tlv ∈ tlvs, Compressible compress compressionChunkSize.toNat tlv := by
  refine ⟨?_, ?_⟩
  · rintro ⟨s, h⟩
    obtain ⟨tlvs, outs, hinput, hform, hall, -, -⟩ := compressMbin_ok h
    exact ⟨tlvs, hinput, hform, hall⟩
  · rintro ⟨tlvs, rfl, hform, hall⟩
    exact compressMbin_flatMap_encode hpos hsize hform hall

theorem compressMbin_isOk_iff_abc :
    (∃ s, compressMbin abcCompress false 3 abcMbin = .ok s) ↔
      ∃ tlvs, abcMbin = tlvs.flatMap Tlv.encode ∧ MbinForm IsMbinMagic tlvs ∧
        ∀ tlv ∈ tlvs, Compressible abcCompress (3 : ℤ).toNat tlv :=
  compressMbin_isOk_iff abcCompress (by decide) (by decide) abcMbin

end MmIot
