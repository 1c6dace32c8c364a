import MmIot.Proofs.MbinForm

/-! What the compressor raises. Of its errors only one of `struct.pack` is none that the tool
reports, and only the address of a chunk can be too large for it. -/

namespace MmIot

/-- The errors that `_main` turns into a message; `struct.error` is none of them. -/
def CompressError.Reported : CompressError → Prop
  | .mbinFormatError _ => True
  | .valueError _ => True
  | .structError => False

/-- A segment in which a chunk has an address beyond 32 bits, behind chunks that fit. -/
def AddressOverflows (compress : ℕ → List UInt8 → List UInt8) (chunkSize : ℕ) (tlv : MbinTlv) :
    Prop :=
  Segment.ofType tlv.type ≠ none ∧ 4 ≤ tlv.data.length ∧
    ∃ done offset rest,
      Loops.range 0 (tlv.data.drop 4).length chunkSize = done ++ offset :: rest ∧
      (∀ o ∈ done, ChunkFits compress (LittleEndian.decode (tlv.data.take 4))
        (Loops.slice (tlv.data.drop 4) o chunkSize) o) ∧
      2 ^ 32 ≤ LittleEndian.decode (tlv.data.take 4) + offset

/-- The file begins with a magic TLV and others that can be compressed, none of them an EOF, and
then there is such a segment. -/
def ReachesOverflow (compress : ℕ → List UInt8 → List UInt8) (chunkSize : ℕ) (input : List UInt8) :
    Prop :=
  ∃ (first : MbinTlv) (done : List MbinTlv) (tlv : MbinTlv) (rest : List UInt8),
    input = (first :: done).flatMap Tlv.encode ++ (tlv.encode ++ rest) ∧
    MagicTlv IsMbinMagic first ∧
    (∀ t ∈ done, t.type ≠ FIELD_TYPE_EOF ∧ Compressible compress chunkSize t) ∧
    AddressOverflows compress chunkSize tlv

/-! ### Reading -/

/-- What was read is at the front of the file. -/
theorem exists_iterTlvs_append (fuel offset : ℕ) (infile : List UInt8) :
    ∃ tail, infile =
      ((iterTlvs fuel offset infile).1.map TlvItem.tlv).flatMap Tlv.encode ++ tail := by
  induction fuel generalizing offset infile with
  | zero => exact ⟨infile, rfl⟩
  | succ fuel ih =>
    rcases eq_or_ne infile [] with rfl | hne
    · exact ⟨[], rfl⟩
    · cases hfirst : @Tlv.decodeFirst 2 2 infile with
      | none =>
        obtain ⟨e, he⟩ := iterTlvs_of_none fuel offset hfirst hne
        rw [he]
        exact ⟨infile, rfl⟩
      | some r =>
        obtain ⟨tlv, rest⟩ := r
        obtain ⟨tail, htail⟩ := ih (offset + 4 + tlv.data.length) rest
        refine ⟨tail, ?_⟩
        rw [iterTlvs_of_some hfirst, List.map_cons, List.flatMap_cons, List.append_assoc, ← htail]
        exact Tlv.eq_encode_append hfirst

/-- Whole TLVs at the front are read first. -/
theorem iterTlvs_append (tlvs : List MbinTlv) (bytes : List UInt8) {fuel : ℕ} (offset : ℕ)
    (hfuel : tlvs.length ≤ fuel) :
    ∃ more, (iterTlvs fuel offset (tlvs.flatMap Tlv.encode ++ bytes)).1.map TlvItem.tlv =
      tlvs ++ more := by
  induction tlvs generalizing fuel offset with
  | nil => exact ⟨_, rfl⟩
  | cons tlv tlvs ih =>
    cases fuel with
    | zero => exact absurd hfuel (Nat.not_succ_le_zero _)
    | succ fuel =>
      obtain ⟨more, hmore⟩ := ih (offset + 4 + tlv.data.length) (Nat.le_of_succ_le_succ hfuel)
      refine ⟨more, ?_⟩
      rw [List.flatMap_cons, List.append_assoc, iterTlvs_of_some (Tlv.decodeFirst_encode tlv _),
        List.map_cons, hmore, List.cons_append]

/-- What is raised while reading is a format error. -/
theorem iterTlvs_ne_structError (fuel offset : ℕ) (infile : List UInt8) :
    (iterTlvs fuel offset infile).2 ≠ some .structError := by
  induction fuel generalizing offset infile with
  | zero => simp [iterTlvs]
  | succ fuel ih =>
    rw [iterTlvs]
    dsimp only
    split
    · simp
    split
    · simp
    split
    · simp
    · exact ih _ _

/-! ### Writing -/

theorem structPack_structError_iff (fields : List (ℕ × ℕ)) :
    structPack fields = .error .structError ↔ ¬ ∀ f ∈ fields, f.2 < 256 ^ f.1 := by
  unfold structPack
  split
  next h => exact iff_of_false (by simp) (not_not.mpr h)
  next h => exact iff_of_true rfl h

theorem addTlv_ne_structError (w : MbinWriter) {tlvType : ℕ} (htype : tlvType < 256 ^ 2)
    (data : List UInt8) : w.addTlv tlvType data ≠ .error .structError := by
  intro h
  by_cases hlen : data.length ≤ 0xFFFF
  · obtain ⟨w', hw'⟩ := (addTlv_isOk_iff w tlvType data).mpr ⟨htype, hlen⟩
    cases hw'.symm.trans h
  · rw [MbinWriter.addTlv, if_pos (Nat.lt_of_not_le hlen)] at h
    cases h

theorem preserveTlv_ne_structError (w : MbinWriter) (tlv : MbinTlv) :
    w.preserveTlv tlv ≠ .error .structError := by
  intro h
  obtain ⟨w', hw'⟩ := preserveTlv_isOk w tlv
  cases hw'.symm.trans h

section Compression

variable {compress : ℕ → List UInt8 → List UInt8}

/-- The address is packed first. -/
theorem addCompressedChunk_structError_iff {w : MbinWriter} {outputType : ℕ} (destAddress : ℕ)
    (data : List UInt8) (offset : ℕ) (hsize : w.compressionChunkSize ≤ 65535)
    (htype : outputType < 256 ^ 2) :
    w.addCompressedChunk compress outputType destAddress data offset = .error .structError ↔
      2 ^ 32 ≤ destAddress + offset := by
  have hchunk : (Loops.slice data offset w.compressionChunkSize).length ≤ 65535 :=
    (List.length_take_le _ _).trans hsize
  have hpack : structPack [(4, destAddress + offset),
      (2, (Loops.slice data offset w.compressionChunkSize).length)] = .error .structError ↔
        2 ^ 32 ≤ destAddress + offset := by
    rw [structPack_structError_iff]
    simp
    omega
  rw [← hpack]
  refine ⟨?_, fun h => Loops.bind_eq_error.mpr (.inl h)⟩
  intro h
  rcases Loops.bind_eq_error.mp h with h | ⟨header, -, h⟩
  · exact h
  · rcases Loops.bind_eq_error.mp h with h | ⟨w', -, h⟩
    · exact absurd h (addTlv_ne_structError w htype _)
    · cases h

theorem chunks_chunkSize {w w' : MbinWriter} {outputType destAddress : ℕ} {data : List UInt8}
    {offsets : List ℕ} (h : offsets.foldlM (fun w offset =>
      w.addCompressedChunk compress outputType destAddress data offset) w = .ok w') :
    w'.compressionChunkSize = w.compressionChunkSize := by
  refine Loops.foldlM_ok (R := fun w _ w' => w'.compressionChunkSize = w.compressionChunkSize)
    (fun _ => rfl) ?_ h
  intro w offset w₁ offsets w' hchunk hrest
  obtain ⟨-, -, tlv, -, -, happends⟩ := addCompressedChunk_ok hchunk
  exact hrest.trans happends.chunkSize

theorem addCompressedSegment_structError_iff {w : MbinWriter} {outputType : ℕ} (destAddress : ℕ)
    (data : List UInt8) (hsize : w.compressionChunkSize ≤ 65535) (htype : outputType < 256 ^ 2) :
    w.addCompressedSegment compress outputType destAddress data = .error .structError ↔
      ∃ done offset rest,
        Loops.range 0 data.length w.compressionChunkSize = done ++ offset :: rest ∧
        (∀ o ∈ done, ChunkFits compress destAddress
          (Loops.slice data o w.compressionChunkSize) o) ∧
        2 ^ 32 ≤ destAddress + offset := by
  have hfits (done : List ℕ) : (∃ t, done.foldlM (fun w offset =>
      w.addCompressedChunk compress outputType destAddress data offset) w = .ok t) ↔ _ :=
    addCompressedChunks_isOk_iff destAddress data done hsize htype
  rw [MbinWriter.addCompressedSegment, Loops.foldlM_eq_error]
  refine exists_congr fun done => exists_congr fun offset => exists_congr fun rest => ?_
  rw [exists_and_left, ← hfits]
  refine and_congr_right fun _ => ?_
  rw [exists_and_right.symm]
  refine exists_congr fun t => and_congr_right fun hdone => ?_
  have hchunk := chunks_chunkSize hdone
  exact addCompressedChunk_structError_iff destAddress data offset (hchunk ▸ hsize) htype

theorem addSegment_structError_iff {w : MbinWriter} (title : String) {outputType : ℕ}
    {item : TlvItem} (hsize : w.compressionChunkSize ≤ 65535) (htype : outputType < 256 ^ 2)
    (hsegment : Segment.ofType item.tlv.type ≠ none) :
    w.addSegment compress title outputType item = .error .structError ↔
      AddressOverflows compress w.compressionChunkSize item.tlv := by
  rw [MbinWriter.addSegment, Loops.check_eq_error (by simp),
    addCompressedSegment_structError_iff _ _ hsize htype, Nat.not_lt]
  exact (and_iff_right hsegment).symm

theorem addItem_structError_iff {w : MbinWriter} (item : TlvItem)
    (hsize : w.compressionChunkSize ≤ 65535) :
    w.addItem compress item = .error .structError ↔
      AddressOverflows compress w.compressionChunkSize item.tlv := by
  rw [MbinWriter.addItem]
  split
  next hfw =>
    exact addSegment_structError_iff _ hsize (by decide) (by simp [Segment.ofType, hfw])
  next hfw =>
    split
    next hsw =>
      exact addSegment_structError_iff _ hsize (by decide)
        (by simp [Segment.ofType, hsw]; decide)
    next hsw =>
      refine iff_of_false (preserveTlv_ne_structError w item.tlv) ?_
      rintro ⟨hsegment, -⟩
      simp [Segment.ofType, hfw, hsw] at hsegment

/-! ### The main loop -/

theorem validateMagic_ne_structError (tlv : MbinTlv) :
    validateMagic tlv ≠ .error .structError := by
  rw [validateMagic]
  split
  · simp
  · dsimp only
    split
    · simp
    split
    · simp
    split <;> simp

theorem checkMagic_ne_structError (s : CompressState) (tlv : MbinTlv) :
    s.checkMagic tlv ≠ .error .structError := by
  rw [CompressState.checkMagic]
  split
  · simp
  · have hmagic := validateMagic_ne_structError tlv
    cases hvalid : validateMagic tlv with
    | ok inputType => simp [Except.map]
    | error e =>
      rintro ⟨⟩
      exact hmagic hvalid

/-- The first TLV is the magic, and no segment. -/
theorem checkMagic_first {s : CompressState} {tlv : MbinTlv} {inputType : Option InputType}
    (h : s.checkMagic tlv = .ok inputType) (hsegment : Segment.ofType tlv.type ≠ none) :
    s.sawMagic = true := by
  by_contra hfirst
  rw [CompressState.checkMagic, if_neg hfirst] at h
  cases hvalid : validateMagic tlv with
  | error e =>
    rw [hvalid] at h
    cases h
  | ok inputType =>
    apply hsegment
    rw [((validateMagic_isOk_iff tlv).mp ⟨_, hvalid⟩).type]
    rfl

theorem compressTlv_structError_iff {s : CompressState} (item : TlvItem)
    (hsize : s.outbin.compressionChunkSize ≤ 65535) :
    compressTlv compress s item = .error .structError ↔ s.sawEof = false ∧ s.sawMagic = true ∧
      AddressOverflows compress s.outbin.compressionChunkSize item.tlv := by
  rw [compressTlv, Loops.check_eq_error (by simp), Bool.not_eq_true]
  refine and_congr_right fun _ => ?_
  rw [Loops.bind_eq_error, or_iff_right (checkMagic_ne_structError s item.tlv),
    ← addItem_structError_iff item hsize]
  refine ⟨?_, ?_⟩
  · rintro ⟨inputType, hmagic, h⟩
    rcases Loops.bind_eq_error.mp h with h | ⟨outbin, -, h⟩
    · exact ⟨checkMagic_first hmagic ((addItem_structError_iff item hsize).mp h).1, h⟩
    · cases h
  · rintro ⟨hmagic, h⟩
    exact ⟨s.inputType, if_pos hmagic, Loops.bind_eq_error.mpr (.inl h)⟩

/-- The loop goes on behind the magic TLV as long as there is no EOF. -/
theorem compressTlvs_beforeEof_iff (items : List TlvItem) {s : CompressState}
    (hsize : s.outbin.compressionChunkSize ≤ 65535) (hmagic : s.sawMagic = true)
    (hsaw : s.sawEof = false) :
    (∃ t, items.foldlM (compressTlv compress) s = .ok t ∧ t.sawEof = false) ↔
      ∀ item ∈ items, item.tlv.type ≠ FIELD_TYPE_EOF ∧
        Compressible compress s.outbin.compressionChunkSize item.tlv := by
  induction items generalizing s with
  | nil => exact iff_of_true ⟨s, rfl, hsaw⟩ nofun
  | cons item items ih =>
    have hfirst : (∃ t, compressTlv compress s item = .ok t) ↔ _ :=
      compressTlv_isOk_iff item hsize
    rw [List.forall_mem_cons]
    refine ⟨?_, ?_⟩
    · rintro ⟨t, h, htsaw⟩
      obtain ⟨u, hu, h⟩ := Loops.bind_eq_ok.mp h
      obtain ⟨humagic, hueof, outs, -, hwrites⟩ := compressTlv_ok hu
      have husaw : u.sawEof = false := by
        by_contra husaw
        cases items with
        | nil =>
          cases h
          exact husaw htsaw
        | cons item' items =>
          obtain ⟨v, hv, -⟩ := Loops.bind_eq_ok.mp h
          exact husaw (compressTlv_round hv).1
      obtain ⟨-, -, hitem⟩ := hfirst.mp ⟨u, hu⟩
      have hrest := (ih (hwrites.chunkSize ▸ hsize) humagic husaw).mp ⟨t, h, htsaw⟩
      rw [hwrites.chunkSize] at hrest
      refine ⟨⟨fun heof => ?_, hitem⟩, hrest⟩
      rw [hueof.mpr heof] at husaw
      cases husaw
    · rintro ⟨⟨hne, hitem⟩, hrest⟩
      obtain ⟨u, hu⟩ := hfirst.mpr ⟨hsaw, by simp [hmagic], hitem⟩
      obtain ⟨humagic, hueof, outs, -, hwrites⟩ := compressTlv_ok hu
      have husaw : u.sawEof = false := by
        rw [← Bool.not_eq_true, hueof]
        exact hne
      rw [← hwrites.chunkSize] at hrest
      obtain ⟨t, h, htsaw⟩ := (ih (hwrites.chunkSize ▸ hsize) humagic husaw).mpr hrest
      exact ⟨t, Loops.bind_eq_ok.mpr ⟨u, hu, h⟩, htsaw⟩

/-- What every round keeps. -/
theorem compressTlvs_kept {s t : CompressState} {items : List TlvItem}
    (h : items.foldlM (compressTlv compress) s = .ok t) :
    t.outbin.compressionChunkSize = s.outbin.compressionChunkSize ∧
      (s.sawMagic = true → t.sawMagic = true) := by
  refine Loops.foldlM_ok (R := fun s _ t => t.outbin.compressionChunkSize =
    s.outbin.compressionChunkSize ∧ (s.sawMagic = true → t.sawMagic = true))
    (fun _ => ⟨rfl, id⟩) ?_ h
  intro s item u items t hitem hrest
  obtain ⟨humagic, -, outs, -, hwrites⟩ := compressTlv_ok hitem
  exact ⟨hrest.1.trans hwrites.chunkSize, fun _ => hrest.2 humagic⟩

/-- The loop raises `struct.error` where it gets to an address that is too large. -/
theorem compressItems_structError_iff (items : List TlvItem) {chunkSize : ℕ}
    (hsize : chunkSize ≤ 65535) :
    items.foldlM (compressTlv compress) ⟨false, false, none, .new chunkSize⟩ =
        .error .structError ↔
      ∃ first done item rest, items = first :: done ++ item :: rest ∧
        MagicTlv IsMbinMagic first.tlv ∧
        (∀ t ∈ done, t.tlv.type ≠ FIELD_TYPE_EOF ∧ Compressible compress chunkSize t.tlv) ∧
        AddressOverflows compress chunkSize item.tlv := by
  rw [Loops.foldlM_eq_error]
  refine ⟨?_, ?_⟩
  · rintro ⟨done, item, rest, t, rfl, hdone, h⟩
    obtain ⟨hchunk, -⟩ := compressTlvs_kept hdone
    obtain ⟨htsaw, htmagic, hover⟩ := (compressTlv_structError_iff item (hchunk ▸ hsize)).mp h
    rw [hchunk] at hover
    cases done with
    | nil =>
      cases hdone
      cases htmagic
    | cons first done =>
      obtain ⟨u, hu, hdone⟩ := Loops.bind_eq_ok.mp hdone
      obtain ⟨-, hfirst, -⟩ := (compressTlv_isOk_iff first hsize).mp ⟨u, hu⟩
      obtain ⟨humagic, hueof, outs, -, hwrites⟩ := compressTlv_ok hu
      have hmagic := hfirst rfl
      have husaw : u.sawEof = false := by
        rw [← Bool.not_eq_true, hueof, hmagic.type]
        decide
      have hall := (compressTlvs_beforeEof_iff done (hwrites.chunkSize ▸ hsize) humagic husaw).mp
        ⟨t, hdone, htsaw⟩
      rw [hwrites.chunkSize] at hall
      exact ⟨first, done, item, rest, rfl, hmagic, hall, hover⟩
  · rintro ⟨first, done, item, rest, rfl, hmagic, hall, hover⟩
    have hcompressible : Compressible compress chunkSize first.tlv := by
      intro hsegment
      rw [hmagic.type] at hsegment
      exact absurd rfl hsegment
    obtain ⟨u, hu⟩ : ∃ u, compressTlv compress ⟨false, false, none, .new chunkSize⟩ first = .ok u :=
      (compressTlv_isOk_iff first hsize).mpr ⟨rfl, fun _ => hmagic, hcompressible⟩
    obtain ⟨humagic, hueof, outs, -, hwrites⟩ := compressTlv_ok hu
    have husaw : u.sawEof = false := by
      rw [← Bool.not_eq_true, hueof, hmagic.type]
      decide
    have husize : u.outbin.compressionChunkSize = chunkSize := hwrites.chunkSize
    obtain ⟨t, hdone, htsaw⟩ := (compressTlvs_beforeEof_iff done (husize ▸ hsize) humagic
      husaw).mpr (husize.symm ▸ hall)
    obtain ⟨htsize, htmagic⟩ := compressTlvs_kept hdone
    refine ⟨first :: done, item, rest, t, rfl, Loops.bind_eq_ok.mpr ⟨u, hu, hdone⟩, ?_⟩
    rw [compressTlv_structError_iff item (htsize.trans husize ▸ hsize), htsize, husize]
    exact ⟨htsaw, htmagic humagic, hover⟩

/-! ### The whole file -/

theorem compressMbin_structError_iff {samePath : Bool} {compressionChunkSize : ℤ}
    (hpos : 1 ≤ compressionChunkSize) (hsize : compressionChunkSize ≤ 65535)
    (input : List UInt8) :
    compressMbin compress samePath compressionChunkSize input = .error .structError ↔
      samePath = false ∧ ReachesOverflow compress compressionChunkSize.toNat input := by
  have hloop : compressMbin compress samePath compressionChunkSize input = .error .structError ↔
      samePath = false ∧ (iterTlvs input.length 0 input).1.foldlM (compressTlv compress)
        ⟨false, false, none, .new compressionChunkSize.toNat⟩ = .error .structError := by
    rw [compressMbin, Loops.check_eq_error (by simp), Bool.not_eq_true, if_neg (by omega)]
    refine and_congr_right fun _ => ?_
    rw [Loops.bind_eq_error]
    refine or_iff_left ?_
    rintro ⟨s, -, h⟩
    have hread := iterTlvs_ne_structError input.length 0 input
    split at h
    next e heq =>
      cases h
      exact hread heq
    next =>
      split at h
      · cases h
      split at h <;> cases h
  rw [hloop, compressItems_structError_iff _ (by omega)]
  refine and_congr_right fun _ => ?_
  obtain ⟨tail, htail⟩ := exists_iterTlvs_append input.length 0 input
  refine ⟨?_, ?_⟩
  · rintro ⟨first, done, item, rest, hitems, hmagic, hall, hover⟩
    refine ⟨first.tlv, done.map TlvItem.tlv, item.tlv,
      (rest.map TlvItem.tlv).flatMap Tlv.encode ++ tail, ?_, hmagic, ?_, hover⟩
    · conv_lhs => rw [htail, hitems]
      simp
    · intro t ht
      obtain ⟨i, hi, rfl⟩ := List.mem_map.mp ht
      exact hall i hi
  · rintro ⟨first, done, tlv, rest, hinput, hmagic, hall, hover⟩
    have hbytes : input = (first :: (done ++ [tlv])).flatMap Tlv.encode ++ rest := by
      rw [hinput]
      simp
    have hfuel : (first :: (done ++ [tlv])).length ≤ input.length := by
      rw [hbytes, List.length_append]
      exact Nat.le_add_right_of_le (Tlv.length_le_flatMap_encode (by decide) _)
    obtain ⟨more, hmore⟩ := iterTlvs_append (first :: (done ++ [tlv])) rest 0 hfuel
    rw [← hbytes, List.cons_append, List.append_assoc] at hmore
    obtain ⟨i, items, hitems, rfl, hrest⟩ := List.map_eq_cons_iff.mp hmore
    obtain ⟨is, items', rfl, rfl, hlast⟩ := List.map_eq_append_iff.mp hrest
    obtain ⟨item, js, rfl, rfl, -⟩ := List.map_eq_cons_iff.mp hlast
    exact ⟨i, is, item, js, hitems, hmagic, fun t ht => hall _ (List.mem_map_of_mem ht), hover⟩

end Compression

/-- For any chunk size that the tool takes, whatever goes wrong is reported if and only if the
compressor does not get to a segment with a chunk whose address is beyond 32 bits. -/
theorem allReported_iff_noOverflow (compress : ℕ → List UInt8 → List UInt8) (samePath : Bool)
    {compressionChunkSize : ℤ} (hpos : 1 ≤ compressionChunkSize)
    (hsize : compressionChunkSize ≤ 65535) (input : List UInt8) :
    (∀ e, compressMbin compress samePath compressionChunkSize input = .error e → e.Reported) ↔
      samePath = true ∨ ¬ ReachesOverflow compress compressionChunkSize.toNat input := by
  have hiff : compressMbin compress samePath compressionChunkSize input = .error .structError ↔
      samePath = false ∧ ReachesOverflow compress compressionChunkSize.toNat input :=
    compressMbin_structError_iff hpos hsize input
  rw [← Bool.not_eq_false, ← not_and_or, ← hiff]
  refine ⟨fun h he => h _ he, ?_⟩
  intro hne e he
  cases e with
  | mbinFormatError message => trivial
  | valueError message => trivial
  | structError => exact hne he

theorem allReported_iff_noOverflow_abc : ¬ ReachesOverflow abcCompress 3 abcMbin := by
  have hreported : ∀ e, compressMbin abcCompress false 3 abcMbin = .error e → e.Reported := by
    have hrun : compressMbin abcCompress false 3 abcMbin = .ok abcState := by rfl
    intro e he
    cases hrun.symm.trans he
  exact ((allReported_iff_noOverflow abcCompress false (by decide) (by decide) abcMbin).mp
    hreported).resolve_left (by decide)

/-- What zlib makes of one `a` at level 1. -/
def aCompress (_level : ℕ) (data : List UInt8) : List UInt8 :=
  if data = [0x61] then [0x78, 0x01, 0x4b, 0x04, 0x00, 0x00, 0x62, 0x00, 0x62] else 0 :: data

/-- A firmware segment of two bytes at the last address, cut into chunks of one byte. -/
theorem lastAddress_not_reported :
    compressMbin aCompress false 1
        [0x00, 0x80, 0x04, 0x00, 0x4d, 0x4d, 0x46, 0x57,
         0x01, 0x80, 0x06, 0x00, 0xff, 0xff, 0xff, 0xff, 0x61, 0x61,
         0x00, 0x8f, 0x00, 0x00] = .error .structError ∧
      ¬ CompressError.structError.Reported :=
  ⟨by rfl, id⟩

end MmIot
