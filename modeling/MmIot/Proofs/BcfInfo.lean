import MmIot.Spec.BcfInfo
import MmIot.Proofs.MbinForm

/-! What the parser of BCF files lets through: files that are not well formed, and region
codes that the table of the driver does not keep apart. -/

namespace MmIot

/-! ### Headers at an offset -/

section Offsets

variable {data : List UInt8}

/-- What is unpacked at the offset of a whole TLV. -/
structure TlvAt (data : List UInt8) (offset : ℕ) (tlv : MbinTlv) : Prop where
  type : unpackType data offset = tlv.type
  len : unpackLen data offset = tlv.data.length
  payload : Loops.slice data (offset + 4) tlv.data.length = tlv.data
  le : offset + 4 + tlv.data.length ≤ data.length

theorem TlvAt.of_drop {offset : ℕ} {tlv : MbinTlv} {rest : List UInt8}
    (hdrop : data.drop offset = tlv.encode ++ rest) :
    TlvAt data offset tlv ∧ data.drop (offset + 4 + tlv.data.length) = rest := by
  have hlen := congrArg List.length hdrop
  rw [List.length_drop, List.length_append, Tlv.encode_length] at hlen
  refine ⟨⟨?_, ?_, ?_, by omega⟩, ?_⟩
  · rw [unpackType, Loops.slice, hdrop]
    exact Tlv.decode_take_encode tlv rest
  · rw [unpackLen, Loops.slice, ← List.drop_drop, hdrop]
    exact Tlv.decode_take_drop_encode tlv rest
  · rw [Loops.slice, ← List.drop_drop, hdrop]
    exact (congrArg (List.take _) (Tlv.drop_encode tlv rest)).trans List.take_left
  · rw [Nat.add_assoc, ← List.drop_drop, hdrop]
    exact List.drop_left' (Tlv.encode_length tlv)

theorem exists_tlvAt {offset : ℕ} (h : offset + 4 + unpackLen data offset ≤ data.length) :
    ∃ tlv : MbinTlv, TlvAt data offset tlv ∧
      data.drop offset = tlv.encode ++ data.drop (offset + 4 + tlv.data.length) := by
  rw [unpackLen, Loops.slice, ← List.drop_drop] at h
  obtain ⟨tlv, rest, hdrop⟩ := @Tlv.exists_decodeFirst 2 2 (data.drop offset) (by
    rw [List.length_drop]
    omega)
  obtain ⟨hat, hrest⟩ := TlvAt.of_drop hdrop
  rw [← hrest] at hdrop
  exact ⟨tlv, hat, hdrop⟩

theorem header_le_of_mem_tlvOffsets {fuel offset o : ℕ} (h : o ∈ tlvOffsets data fuel offset) :
    offset + 4 ≤ data.length := by
  cases fuel with
  | zero => cases h
  | succ fuel =>
    rw [tlvOffsets] at h
    split at h
    next hheader => exact hheader
    next => cases h

/-- An EOF header with a payload that ends the data. -/
def EofEnds (data : List UInt8) (offset : ℕ) : Prop :=
  unpackType data offset = FIELD_TYPE_EOF ∧ offset + 4 + unpackLen data offset = data.length

/-- Headers that lead to an EOF are those of whole TLVs. -/
theorem exists_tlvs_of_eofEnds (fuel : ℕ) {offset o : ℕ} (h : o ∈ tlvOffsets data fuel offset)
    (heof : EofEnds data o) :
    ∃ tlvs : List MbinTlv, data.drop offset = tlvs.flatMap Tlv.encode ∧ EndsAtEof tlvs := by
  induction fuel generalizing offset with
  | zero => cases h
  | succ fuel ih =>
    have hheader := header_le_of_mem_tlvOffsets h
    rw [tlvOffsets, TLV_HEADER_SIZE, if_pos hheader] at h
    by_cases htype : unpackType data offset = FIELD_TYPE_EOF
    · rw [if_pos htype] at h
      cases List.mem_singleton.mp h
      obtain ⟨tlv, hat, hdrop⟩ := exists_tlvAt (Nat.le_of_eq heof.2)
      refine ⟨[tlv], ?_, [], tlv, rfl, hat.type ▸ htype, by simp⟩
      rw [hdrop, ← hat.len, heof.2, List.drop_length]
      simp
    · rw [if_neg htype] at h
      have hrest : o ∈ tlvOffsets data fuel (offset + 4 + unpackLen data offset) := by
        rcases List.mem_cons.mp h with rfl | h
        · exact absurd heof.1 htype
        · exact h
      have hnext := header_le_of_mem_tlvOffsets hrest
      obtain ⟨tlv, hat, hdrop⟩ := exists_tlvAt (by omega : offset + 4 + _ ≤ data.length)
      obtain ⟨tlvs, htlvs, hends⟩ := ih hrest
      refine ⟨tlv :: tlvs, ?_, ?_⟩
      · rw [hdrop, ← hat.len, htlvs, List.flatMap_cons]
      · rw [endsAtEof_cons, if_neg (hat.type ▸ htype)]
        exact hends

theorem exists_eofEnds_of_tlvs {fuel offset : ℕ} {tlvs : List MbinTlv}
    (hdrop : data.drop offset = tlvs.flatMap Tlv.encode) (heof : EndsAtEof tlvs)
    (hfuel : tlvs.length ≤ fuel) : ∃ o ∈ tlvOffsets data fuel offset, EofEnds data o := by
  induction tlvs generalizing fuel offset with
  | nil => exact absurd heof not_endsAtEof_nil
  | cons tlv tlvs ih =>
    cases fuel with
    | zero => exact absurd hfuel (Nat.not_succ_le_zero _)
    | succ fuel =>
      rw [List.flatMap_cons] at hdrop
      obtain ⟨hat, hrest⟩ := TlvAt.of_drop hdrop
      have hle := hat.le
      rw [tlvOffsets, TLV_HEADER_SIZE, if_pos (by omega), hat.type, hat.len]
      rw [endsAtEof_cons] at heof
      by_cases htype : tlv.type = FIELD_TYPE_EOF
      · rw [if_pos htype] at heof
        cases heof
        refine ⟨offset, List.mem_cons_self, hat.type.trans htype, ?_⟩
        rw [hat.len]
        have hend := congrArg List.length hrest
        simp only [List.length_drop, List.flatMap_nil, List.length_nil] at hend
        omega
      · rw [if_neg htype] at heof ⊢
        obtain ⟨o, ho, hends⟩ := ih hrest heof (Nat.le_of_succ_le_succ hfuel)
        exact ⟨o, List.mem_cons_of_mem _ ho, hends⟩

end Offsets

/-! ### What the parser returns for -/

theorem parseBcf_ok {data : List UInt8} {info : BcfInfo} (h : parseBcf data = .ok info) :
    4 ≤ data.length ∧ unpackType data 0 = FIELD_TYPE_MAGIC ∧
      LittleEndian.decode (Loops.slice data 4 (unpackLen data 0)) = BCF_MAGIC_NUMBER ∧
      ∃ parsed, parseTlvs data data.length (4 + unpackLen data 0) ⟨[], none⟩ = .ok parsed ∧
        info = { parsed with regdoms := parsed.regdoms.eraseDups } := by
  obtain ⟨hlen, h⟩ := Loops.check_eq_ok.mp h
  obtain ⟨hmagic, h⟩ := Loops.check_eq_ok.mp h
  obtain ⟨parsed, hparsed, h⟩ := Loops.bind_eq_ok.mp h
  cases h
  rw [not_or, not_not, not_not] at hmagic
  exact ⟨Nat.le_of_not_lt hlen, hmagic.1, hmagic.2, parsed, hparsed, rfl⟩

/-- The lengths in a well-formed file lead from the magic TLV to the end. -/
theorem MbinForm.lengths {isMagic : ℕ → Prop} {tlvs : List MbinTlv} (hform : MbinForm isMagic tlvs)
    {data : List UInt8} (hdata : data = tlvs.flatMap Tlv.encode) :
    unpackLen data 0 = 4 ∧ ∃ o ∈ tlvOffsets data data.length 8, EofEnds data o := by
  obtain ⟨⟨first, rest, rfl, hmagic⟩, heof⟩ := hform
  have hdrop : data.drop 0 = first.encode ++ rest.flatMap Tlv.encode := hdata
  obtain ⟨hat, hrest⟩ := TlvAt.of_drop hdrop
  rw [hmagic.length] at hrest
  rw [endsAtEof_cons, if_neg (by rw [hmagic.type]; decide)] at heof
  refine ⟨hat.len.trans hmagic.length, exists_eofEnds_of_tlvs hrest heof ?_⟩
  have hle := Tlv.length_le_flatMap_encode (by decide) (first :: rest)
  rw [← hdata] at hle
  exact (Nat.le_succ _).trans hle

theorem exists_mbinForm_of_lengths {data : List UInt8}
    (htype : unpackType data 0 = FIELD_TYPE_MAGIC)
    (hnumber : LittleEndian.decode (Loops.slice data 4 (unpackLen data 0)) = BCF_MAGIC_NUMBER)
    (hlen : unpackLen data 0 = 4) {o : ℕ} (ho : o ∈ tlvOffsets data data.length 8)
    (heof : EofEnds data o) :
    ∃ tlvs : List MbinTlv, data = tlvs.flatMap Tlv.encode ∧
      MbinForm (· = BCF_MAGIC_NUMBER) tlvs := by
  have height := header_le_of_mem_tlvOffsets ho
  obtain ⟨tlvs, htlvs, hends⟩ := exists_tlvs_of_eofEnds _ ho heof
  obtain ⟨first, hat, hdrop⟩ := exists_tlvAt (by omega : 0 + 4 + unpackLen data 0 ≤ data.length)
  have hfour : first.data.length = 4 := hat.len.symm.trans hlen
  refine ⟨first :: tlvs, ?_, ⟨first, tlvs, rfl, hat.type ▸ htype, hfour, ?_⟩, ?_⟩
  · rw [hfour] at hdrop
    rw [List.flatMap_cons, ← htlvs]
    exact hdrop
  · rw [← hat.payload, ← hat.len]
    exact hnumber
  · rw [endsAtEof_cons, if_neg]
    · exact hends
    · rw [← hat.type, htype]
      decide

/-- What the parser returns for is a well-formed BCF if and only if the length of the magic
TLV is 4 and the lengths lead to an EOF whose payload ends the file. -/
theorem parseBcf_mbinForm_iff {data : List UInt8} {info : BcfInfo}
    (h : parseBcf data = .ok info) :
    (∃ tlvs : List MbinTlv, data = tlvs.flatMap Tlv.encode ∧
        MbinForm (· = BCF_MAGIC_NUMBER) tlvs) ↔
      unpackLen data 0 = 4 ∧ ∃ o ∈ tlvOffsets data data.length 8, EofEnds data o := by
  obtain ⟨-, htype, hnumber, -⟩ := parseBcf_ok h
  refine ⟨?_, ?_⟩
  · rintro ⟨tlvs, hdata, hform⟩
    exact hform.lengths hdata
  · rintro ⟨hlen, o, ho, heof⟩
    exact exists_mbinForm_of_lengths htype hnumber hlen ho heof

/-- The magic, and TLVs behind it. -/
def bcfBytes (rest : List UInt8) : List UInt8 :=
  [0x00, 0x80, 0x04, 0x00, 0x4d, 0x4d, 0x42, 0x43] ++ rest

/-- A regulatory TLV for the US. -/
def usRegdom : List UInt8 := [0x01, 0x81, 0x02, 0x00, 0x55, 0x53]

def eofBytes : List UInt8 := [0x00, 0x8f, 0x00, 0x00]

theorem parseBcf_mbinForm_iff_us :
    parseBcf (bcfBytes (usRegdom ++ eofBytes)) = .ok ⟨[[0x55, 0x53]], none⟩ ∧
      ((∃ tlvs : List MbinTlv, bcfBytes (usRegdom ++ eofBytes) = tlvs.flatMap Tlv.encode ∧
          MbinForm (· = BCF_MAGIC_NUMBER) tlvs) ↔
        unpackLen (bcfBytes (usRegdom ++ eofBytes)) 0 = 4 ∧
          ∃ o ∈ tlvOffsets (bcfBytes (usRegdom ++ eofBytes)) 18 8,
            EofEnds (bcfBytes (usRegdom ++ eofBytes)) o) := by
  have hparse : parseBcf (bcfBytes (usRegdom ++ eofBytes)) = .ok ⟨[[0x55, 0x53]], none⟩ := by rfl
  exact ⟨hparse, parseBcf_mbinForm_iff hparse⟩

/-- Without its EOF the file is still read, where the compressor refuses it. -/
theorem noEof_not_mbinForm :
    parseBcf (bcfBytes usRegdom) = .ok ⟨[[0x55, 0x53]], none⟩ ∧
      (¬ ∃ tlvs : List MbinTlv, bcfBytes usRegdom = tlvs.flatMap Tlv.encode ∧
        MbinForm (· = BCF_MAGIC_NUMBER) tlvs) ∧
      ∀ compress chunkSize s, compressMbin compress false chunkSize (bcfBytes usRegdom) ≠ .ok s := by
  have hnone : ¬ ∃ o ∈ tlvOffsets (bcfBytes usRegdom) 14 8, EofEnds (bcfBytes usRegdom) o := by
    rintro ⟨o, ho, htype, -⟩
    cases List.mem_singleton.mp ho
    cases htype
  refine ⟨rfl, ?_, ?_⟩
  · rintro ⟨tlvs, hdata, hform⟩
    exact hnone (hform.lengths hdata).2
  · intro compress chunkSize s h
    obtain ⟨tlvs, -, hdata, hform, -⟩ := compressMbin_ok h
    exact hnone (hform.lengths hdata).2

/-! ### The region codes -/

theorem decodeAscii_ok {bytes code : List UInt8} (h : decodeAscii bytes = .ok code) :
    code = bytes ∧ ∀ b ∈ bytes, b < 0x80 := by
  rw [decodeAscii] at h
  split at h
  next hlow =>
    cases h
    exact ⟨rfl, by simpa using hlow⟩
  next => cases h

/-- A round of the loop stops at an EOF, or takes the code of its TLV and goes on. -/
theorem parseTlvs_round {data : List UInt8} {fuel offset : ℕ} {info parsed : BcfInfo}
    (hheader : offset + TLV_HEADER_SIZE ≤ data.length)
    (h : parseTlvs data (fuel + 1) offset info = .ok parsed) :
    if unpackType data offset = FIELD_TYPE_EOF then parsed = info
    else ∃ info', info'.regdoms = info.regdoms ++ codesAt data offset ∧
      (∀ code ∈ codesAt data offset, ∀ b ∈ code, b < 0x80) ∧
      parseTlvs data fuel (offset + TLV_HEADER_SIZE + unpackLen data offset) info' = .ok parsed := by
  rw [parseTlvs, if_pos hheader] at h
  by_cases hregdom : unpackType data offset = FIELD_TYPE_BCF_REGDOM
  · rw [if_neg (by rw [hregdom]; decide), codesAt, if_pos hregdom]
    simp only [if_pos hregdom] at h
    obtain ⟨code, hcode, h⟩ := Loops.bind_eq_ok.mp h
    obtain ⟨rfl, hlow⟩ := decodeAscii_ok hcode
    exact ⟨_, rfl, by simpa using hlow, h⟩
  · have hnone : codesAt data offset = [] := if_neg hregdom
    rw [hnone]
    simp only [if_neg hregdom] at h
    by_cases heof : unpackType data offset = FIELD_TYPE_EOF
    · rw [if_pos heof]
      rw [heof] at h
      cases h
      rfl
    · rw [if_neg heof]
      split at h <;> refine ⟨_, ?_, nofun, h⟩ <;> rw [List.append_nil]

theorem parseTlvs_regdoms {data : List UInt8} {fuel offset : ℕ} {info parsed : BcfInfo}
    (h : parseTlvs data fuel offset info = .ok parsed) :
    parsed.regdoms = info.regdoms ++ (tlvOffsets data fuel offset).flatMap (codesAt data) ∧
      ∀ code ∈ (tlvOffsets data fuel offset).flatMap (codesAt data), ∀ b ∈ code, b < 0x80 := by
  induction fuel generalizing offset info with
  | zero =>
    cases h
    exact ⟨(List.append_nil _).symm, nofun⟩
  | succ fuel ih =>
    rw [tlvOffsets]
    by_cases hheader : offset + TLV_HEADER_SIZE ≤ data.length
    · have hround := parseTlvs_round hheader h
      rw [if_pos hheader]
      by_cases heof : unpackType data offset = FIELD_TYPE_EOF
      · rw [if_pos heof] at hround ⊢
        have hnone : codesAt data offset = [] := if_neg (by rw [heof]; decide)
        simp [hround, hnone]
      · rw [if_neg heof] at hround ⊢
        obtain ⟨info', hregdoms', hlow, h⟩ := hround
        obtain ⟨hregdoms, hrest⟩ := ih h
        rw [List.flatMap_cons, List.forall_mem_append]
        exact ⟨by rw [hregdoms, hregdoms', List.append_assoc], hlow, hrest⟩
    · rw [parseTlvs, if_neg hheader] at h
      cases h
      simp [hheader]

theorem parseBcf_regdoms {data : List UInt8} {info : BcfInfo} (h : parseBcf data = .ok info) :
    info.regdoms = regionCodes data ∧ ∀ code ∈ regionCodes data, ∀ b ∈ code, b < 0x80 := by
  obtain ⟨-, -, -, parsed, hparsed, rfl⟩ := parseBcf_ok h
  obtain ⟨hregdoms, hlow⟩ := parseTlvs_regdoms hparsed
  rw [List.nil_append] at hregdoms
  refine ⟨congrArg List.eraseDups hregdoms, ?_⟩
  intro code hcode
  rw [regionCodes, List.mem_eraseDups] at hcode
  exact hlow code hcode

/-- Only the first two bytes of a payload are taken. -/
theorem regionCodes_length_le {data code : List UInt8} (h : code ∈ regionCodes data) :
    code.length ≤ 2 := by
  rw [regionCodes, List.mem_eraseDups, List.mem_flatMap] at h
  obtain ⟨offset, -, h⟩ := h
  rw [codesAt] at h
  split at h
  · cases List.mem_singleton.mp h
    exact List.length_take_le _ _
  · cases h

theorem bcfInfoMain_ok {chip : Option ChipName} {data stdout : List UInt8} {info : BcfInfo}
    (hparse : parseBcf data = .ok info) (h : bcfInfoMain chip data = .ok stdout) :
    info.regdoms ≠ [] ∧ stdout = printRegdoms info.regdoms := by
  rw [bcfInfoMain, hparse] at h
  obtain ⟨hne, h⟩ := Loops.check_eq_ok.mp h
  refine ⟨hne, ?_⟩
  split at h
  · obtain ⟨-, h⟩ := Loops.check_eq_ok.mp h
    cases h
    rfl
  · cases h
    rfl

/-! ### The table -/

theorem rdropWhile_append_cons {p : UInt8 → Bool} {x : UInt8} (hx : ¬ p x) (xs ys : List UInt8) :
    (xs ++ x :: ys).rdropWhile p = xs ++ x :: ys.rdropWhile p := by
  induction ys using List.reverseRecOn with
  | nil => rw [List.rdropWhile_concat_neg _ _ _ hx, List.rdropWhile_nil]
  | append_singleton ys y ih =>
    by_cases hy : p y
    · rw [List.rdropWhile_concat_pos _ _ _ hy, ← ih, ← List.cons_append, ← List.append_assoc,
        List.rdropWhile_concat_pos _ _ _ hy]
    · rw [List.rdropWhile_concat_neg _ _ _ hy, ← List.cons_append, ← List.append_assoc,
        List.rdropWhile_concat_neg _ _ _ hy]

/-- The table is what is kept of the codes. -/
theorem bcfRegionsFlat_printRegdoms {codes : List (List UInt8)} (hne : codes ≠ []) :
    bcfRegionsFlat (printRegdoms codes) = (keptCodes codes).flatten := by
  induction codes using keptCodes.induct with
  | case1 => exact absurd rfl hne
  | case2 code =>
    rw [printRegdoms, List.intercalate_singleton, bcfRegionsFlat,
      List.rdropWhile_concat_pos _ _ _ (by decide), keptCodes, List.flatten_singleton,
      bcfRegionsFlat]
  | case3 code code' codes ih =>
    have hsplit : printRegdoms (code :: code' :: codes) =
        code ++ 0x3b :: printRegdoms (code' :: codes) := by
      simp [printRegdoms, List.intercalate_cons_cons]
    have hrest := ih (List.cons_ne_nil _ _)
    rw [bcfRegionsFlat] at hrest ⊢
    rw [hsplit, rdropWhile_append_cons (by decide), List.filter_append,
      List.filter_cons_of_neg (by decide), hrest, keptCodes, List.flatten_cons]

theorem keptCodes_sublist (codes : List (List UInt8)) :
    List.Forall₂ List.Sublist (keptCodes codes) codes := by
  induction codes using keptCodes.induct with
  | case1 => exact .nil
  | case2 code =>
    exact .cons (List.filter_sublist.trans (List.rdropWhile_prefix _ _).sublist) .nil
  | case3 code code' codes ih => exact .cons List.filter_sublist ih

theorem exists_sublist_of_mem {kept codes : List (List UInt8)}
    (h : List.Forall₂ List.Sublist kept codes) :
    ∀ k ∈ kept, ∃ code ∈ codes, k.Sublist code := by
  induction h with
  | nil => nofun
  | cons hfirst _ ih =>
    rw [List.forall_mem_cons]
    refine ⟨⟨_, List.mem_cons_self, hfirst⟩, ?_⟩
    intro k hk
    obtain ⟨code, hcode, hsub⟩ := ih k hk
    exact ⟨code, List.mem_cons_of_mem _ hcode, hsub⟩

/-- Inside the table the reads give what the check gives. -/
theorem bcfRegDne_of_reads {cc : Country} {table : List UInt8} {ret : Except Errno Unit}
    (h : bcfRegDneReads cc table = some ret) : bcfRegDne cc table = ret := by
  revert h
  fun_induction bcfRegDneReads cc table with
  | case1 =>
    rintro ⟨⟩
    rfl
  | case2 => nofun
  | case3 a hne =>
    rintro ⟨⟩
    rfl
  | case4 a b rest hfound =>
    rintro ⟨⟩
    rw [bcfRegDne, if_pos hfound]
  | case5 a b rest hfound ih =>
    rw [bcfRegDne, if_neg hfound]
    exact ih

/-- Each entry has both its characters, or none. -/
def WholePairs (pairs : List (List UInt8)) : Prop :=
  ∀ pair ∈ pairs, pair.length = 0 ∨ pair.length = 2

theorem bcfRegDneReads_flatten (cc : Country) {pairs : List (List UInt8)} (h : WholePairs pairs)
    (rest : List UInt8) :
    bcfRegDneReads cc (pairs.flatten ++ rest) =
      if [cc.fst, cc.snd] ∈ pairs then some (.ok ()) else bcfRegDneReads cc rest := by
  induction pairs with
  | nil => simp
  | cons pair pairs ih =>
    obtain ⟨hpair, hpairs⟩ := List.forall_mem_cons.mp h
    have hrest := ih hpairs
    rcases hpair with hzero | htwo
    · cases List.eq_nil_of_length_eq_zero hzero
      simpa using hrest
    · obtain ⟨a, b, rfl⟩ := List.length_eq_two.mp htwo
      rw [List.flatten_cons, List.append_assoc, List.cons_append, List.cons_append,
        List.nil_append, bcfRegDneReads, hrest]
      by_cases hfound : cc.fst = a ∧ cc.snd = b
      · simp [hfound]
      · simp [hfound]

/-- Of what is left of codes, the first lone character comes behind whole pairs. -/
theorem wholePairs_or_single {kept : List (List UInt8)} (hle : ∀ k ∈ kept, k.length ≤ 2) :
    WholePairs kept ∨ ∃ pre x post, kept = pre ++ [x] :: post ∧ WholePairs pre := by
  induction kept with
  | nil => exact .inl nofun
  | cons k kept ih =>
    obtain ⟨hk, hkept⟩ := List.forall_mem_cons.mp hle
    by_cases hone : k.length = 1
    · obtain ⟨x, rfl⟩ := List.length_eq_one_iff.mp hone
      exact .inr ⟨[], x, kept, rfl, nofun⟩
    · have hpair : k.length = 0 ∨ k.length = 2 := by omega
      rcases ih hkept with hpairs | ⟨pre, x, post, rfl, hpre⟩
      · exact .inl (List.forall_mem_cons.mpr ⟨hpair, hpairs⟩)
      · exact .inr ⟨k :: pre, x, post, rfl, List.forall_mem_cons.mpr ⟨hpair, hpre⟩⟩

/-- A table of whole pairs agrees with the codes that are found among its pairs. -/
theorem regionsAgree_iff_of_wholePairs {codes pairs : List (List UInt8)} (h : WholePairs pairs) :
    RegionsAgree codes pairs.flatten ↔ ∀ a b, [a, b] ∈ pairs ↔ [a, b] ∈ codes := by
  have hreads : ∀ cc, bcfRegDneReads cc pairs.flatten =
      if [cc.fst, cc.snd] ∈ pairs then some (.ok ()) else some (.error .einval) := by
    intro cc
    have hflatten := bcfRegDneReads_flatten cc h []
    rwa [List.append_nil] at hflatten
  refine ⟨?_, ?_⟩
  · rintro ⟨-, hfound⟩ a b
    rw [← hfound ⟨a, b⟩, hreads]
    by_cases hmem : [a, b] ∈ pairs <;> simp [hmem]
  · intro hiff
    refine ⟨?_, ?_⟩ <;> intro cc <;> rw [hreads]
    · split <;> exact Option.some_ne_none _
    · rw [← hiff]
      by_cases hmem : [cc.fst, cc.snd] ∈ pairs <;> simp [hmem]

/-- Lists of codes without repetitions are kept whole if all codes of two are kept. -/
theorem eq_map_of_sublist {kept codes : List (List UInt8)}
    (hsub : List.Forall₂ List.Sublist kept codes) (hnodup : codes.Nodup)
    (hle : ∀ code ∈ codes, code.length ≤ 2) (hpairs : WholePairs kept)
    (hmem : ∀ code ∈ codes, code.length = 2 → code ∈ kept) :
    kept = codes.map fun code => if code.length = 2 then code else [] := by
  induction hsub with
  | nil => rfl
  | @cons k code kept codes hfirst hrest ih =>
    obtain ⟨hnew, hnodup⟩ := List.nodup_cons.mp hnodup
    obtain ⟨hcode, hle⟩ := List.forall_mem_cons.mp hle
    obtain ⟨hk, hpairs⟩ := List.forall_mem_cons.mp hpairs
    have hlen := hfirst.length_le
    have hhead : k = if code.length = 2 then code else [] := by
      by_cases htwo : code.length = 2
      · rw [if_pos htwo]
        rcases List.mem_cons.mp (hmem code List.mem_cons_self htwo) with heq | hlater
        · exact heq.symm
        · obtain ⟨code', hcode', hsub'⟩ := exists_sublist_of_mem hrest code hlater
          rw [hsub'.eq_of_length_le (htwo ▸ hle code' hcode')] at hnew
          exact absurd hcode' hnew
      · rw [if_neg htwo]
        exact List.eq_nil_of_length_eq_zero (by omega)
    have htail := ih hnodup hle hpairs (by
      intro code' hcode' htwo
      rcases List.mem_cons.mp (hmem code' (List.mem_cons_of_mem _ hcode') htwo) with rfl | h
      · rw [hfirst.eq_of_length_le (htwo ▸ hcode)] at hcode'
        exact absurd hcode' hnew
      · exact h)
    rw [List.map_cons, ← hhead, ← htail]

theorem nodup_eraseDups {α : Type*} [BEq α] [LawfulBEq α] (xs : List α) : xs.eraseDups.Nodup := by
  induction hn : xs.length using Nat.strongRecOn generalizing xs with
  | ind n ih =>
    cases xs with
    | nil => exact List.nodup_nil
    | cons x xs =>
      have hlt : (xs.filter fun y => !y == x).length < n :=
        hn ▸ Nat.lt_succ_of_le (List.length_filter_le _ _)
      rw [List.eraseDups_cons, List.nodup_cons, List.mem_eraseDups]
      exact ⟨by simp, ih _ hlt _ rfl⟩

/-- No table of ASCII ends in a lone character, which the check would read behind: no pair
has a second byte of 0x80, so that a code with one comes to the end of the table. -/
theorem not_regionsAgree_single {codes pre : List (List UInt8)} {x : UInt8}
    (hlow : ∀ b ∈ pre.flatten, b < 0x80) (hpre : WholePairs pre) :
    ¬ RegionsAgree codes (pre.flatten ++ [x]) := by
  intro h
  have hnew : [x, 0x80] ∉ pre := by
    intro hmem
    exact absurd (hlow 0x80 (List.mem_flatten.mpr ⟨_, hmem, by simp⟩)) (by decide)
  have hinside := h.inside ⟨x, 0x80⟩
  rw [bcfRegDneReads_flatten _ hpre, if_neg hnew] at hinside
  simp [bcfRegDneReads] at hinside

/-- A lone character is read with what comes behind it. -/
theorem single_of_regionsAgree {codes pre post : List (List UInt8)} {x : UInt8}
    (hlow : ∀ b ∈ pre.flatten, b < 0x80) (hpre : WholePairs pre)
    (h : RegionsAgree codes (pre ++ [x] :: post).flatten) : ∃ y, [x, y] ∈ codes := by
  rw [List.flatten_append, List.flatten_cons] at h
  cases hpost : post.flatten with
  | nil =>
    rw [hpost, List.append_nil] at h
    exact absurd h (not_regionsAgree_single hlow hpre)
  | cons y rest =>
    refine ⟨y, (h.found ⟨x, y⟩).mp ?_⟩
    rw [hpost, bcfRegDneReads_flatten _ hpre]
    simp [bcfRegDneReads]

/-- A table is pairs, and a lone character if its length is odd. -/
theorem exists_pairs : ∀ table : List UInt8, ∃ pairs rest : List (List UInt8),
    table = pairs.flatten ++ rest.flatten ∧ (∀ pair ∈ pairs, pair.length = 2) ∧
      (rest = [] ∨ ∃ x, rest = [[x]])
  | [] => ⟨[], [], rfl, nofun, .inl rfl⟩
  | [x] => ⟨[], [[x]], rfl, nofun, .inr ⟨x, rfl⟩⟩
  | a :: b :: table => by
    obtain ⟨pairs, rest, rfl, hpairs, hrest⟩ := exists_pairs table
    exact ⟨[a, b] :: pairs, rest, rfl, List.forall_mem_cons.mpr ⟨rfl, hpairs⟩, hrest⟩

theorem regionsAgree_iff_cut {codes : List (List UInt8)} {table : List UInt8}
    (hlow : ∀ b ∈ table, b < 0x80) :
    RegionsAgree codes table ↔ ∃ pairs : List (List UInt8), table = pairs.flatten ∧
      (∀ pair ∈ pairs, pair.length = 2) ∧ ∀ a b, [a, b] ∈ pairs ↔ [a, b] ∈ codes := by
  refine ⟨?_, ?_⟩
  · intro h
    obtain ⟨pairs, rest, rfl, hpairs, rfl | ⟨x, rfl⟩⟩ := exists_pairs table
    · rw [List.flatten_nil, List.append_nil] at h ⊢
      exact ⟨pairs, rfl, hpairs,
        (regionsAgree_iff_of_wholePairs fun pair hp => .inr (hpairs pair hp)).mp h⟩
    · refine absurd h (not_regionsAgree_single ?_ fun pair hp => .inr (hpairs pair hp))
      intro b hb
      exact hlow b (List.mem_append_left _ hb)
  · rintro ⟨pairs, rfl, hpairs, hmem⟩
    exact (regionsAgree_iff_of_wholePairs fun pair hp => .inr (hpairs pair hp)).mpr hmem

theorem keptCodes_lt {codes : List (List UInt8)} (hlow : ∀ code ∈ codes, ∀ b ∈ code, b < 0x80) :
    ∀ b ∈ (keptCodes codes).flatten, b < 0x80 := by
  intro b hb
  obtain ⟨k, hk, hb⟩ := List.mem_flatten.mp hb
  obtain ⟨code, hcode, hsub⟩ := exists_sublist_of_mem (keptCodes_sublist codes) k hk
  exact hlow code hcode b (hsub.subset hb)

/-- The table agrees with codes that are kept whole. Where they are not, it does not agree
either, if no lone character that is left starts a code of two. -/
theorem regionsAgree_keptCodes {codes : List (List UInt8)} (hnodup : codes.Nodup)
    (hle : ∀ code ∈ codes, code.length ≤ 2) (hlow : ∀ code ∈ codes, ∀ b ∈ code, b < 0x80) :
    (WholeCodes codes → RegionsAgree codes (keptCodes codes).flatten) ∧
      (RegionsAgree codes (keptCodes codes).flatten →
        WholeCodes codes ∨ ∃ x y, [x] ∈ keptCodes codes ∧ [x, y] ∈ codes) := by
  have hsub := keptCodes_sublist codes
  have hmem := exists_sublist_of_mem hsub
  refine ⟨?_, ?_⟩
  · intro hwhole
    rw [WholeCodes] at hwhole
    rw [hwhole, regionsAgree_iff_of_wholePairs]
    · intro a b
      rw [List.mem_map]
      refine ⟨?_, ?_⟩
      · rintro ⟨code, hcode, heq⟩
        split at heq
        · exact heq ▸ hcode
        · cases heq
      · intro hcode
        exact ⟨[a, b], hcode, rfl⟩
    · intro pair hpair
      obtain ⟨code, -, rfl⟩ := List.mem_map.mp hpair
      split
      next htwo => exact .inr htwo
      next => exact .inl rfl
  · intro hagree
    have hkept : ∀ k ∈ keptCodes codes, k.length ≤ 2 := by
      intro k hk
      obtain ⟨code, hcode, hsub⟩ := hmem k hk
      exact hsub.length_le.trans (hle code hcode)
    rcases wholePairs_or_single hkept with hpairs | ⟨pre, x, post, heq, hpre⟩
    · refine .inl (eq_map_of_sublist hsub hnodup hle hpairs ?_)
      intro code hcode htwo
      obtain ⟨a, b, rfl⟩ := List.length_eq_two.mp htwo
      exact ((regionsAgree_iff_of_wholePairs hpairs).mp hagree a b).mpr hcode
    · rw [heq] at hagree ⊢
      have hprelow : ∀ b ∈ pre.flatten, b < 0x80 := by
        intro b hb
        apply keptCodes_lt hlow
        rw [heq, List.flatten_append]
        exact List.mem_append_left _ hb
      obtain ⟨y, hy⟩ := single_of_regionsAgree hprelow hpre hagree
      exact .inr ⟨x, y, by simp, hy⟩

/-- When the script prints the regions, the check on the table agrees with them if and only if
what gets into the table cuts into the codes: as it does when codes get there whole, and else
only where a lone character happens to start a code of two. -/
theorem regionsAgree_iff_cutsIntoCodes {chip : Option ChipName} {data stdout : List UInt8}
    {info : BcfInfo} (hparse : parseBcf data = .ok info)
    (hmain : bcfInfoMain chip data = .ok stdout) :
    (RegionsAgree info.regdoms (bcfRegionsFlat stdout) ↔ CutsIntoCodes (regionCodes data)) ∧
      (WholeCodes (regionCodes data) → CutsIntoCodes (regionCodes data)) ∧
      (CutsIntoCodes (regionCodes data) → WholeCodes (regionCodes data) ∨
        ∃ x y, [x] ∈ keptCodes (regionCodes data) ∧ [x, y] ∈ regionCodes data) := by
  obtain ⟨hne, rfl⟩ := bcfInfoMain_ok hparse hmain
  obtain ⟨hregdoms, hlow⟩ := parseBcf_regdoms hparse
  have hagree : RegionsAgree info.regdoms (bcfRegionsFlat (printRegdoms info.regdoms)) ↔
      CutsIntoCodes (regionCodes data) := by
    rw [bcfRegionsFlat_printRegdoms hne, hregdoms]
    exact regionsAgree_iff_cut (keptCodes_lt hlow)
  refine ⟨hagree, ?_⟩
  rw [← hagree, bcfRegionsFlat_printRegdoms hne, hregdoms]
  exact regionsAgree_keptCodes (nodup_eraseDups _) (fun _ => regionCodes_length_le) hlow

theorem regionsAgree_iff_cutsIntoCodes_us :
    parseBcf (bcfBytes (usRegdom ++ eofBytes)) = .ok ⟨[[0x55, 0x53]], none⟩ ∧
      bcfInfoMain none (bcfBytes (usRegdom ++ eofBytes)) = .ok [0x55, 0x53, 0x0a] ∧
      RegionsAgree [[0x55, 0x53]] [0x55, 0x53] := by
  have hparse : parseBcf (bcfBytes (usRegdom ++ eofBytes)) = .ok ⟨[[0x55, 0x53]], none⟩ := by rfl
  have hmain : bcfInfoMain none (bcfBytes (usRegdom ++ eofBytes)) = .ok [0x55, 0x53, 0x0a] := by rfl
  obtain ⟨hagree, hwhole, -⟩ := regionsAgree_iff_cutsIntoCodes hparse hmain
  exact ⟨hparse, hmain, hagree.mpr (hwhole rfl)⟩

/-- A regulatory TLV of one byte: `A`. -/
def shortRegdom : List UInt8 := [0x01, 0x81, 0x01, 0x00, 0x41]

/-- The list is `A;US`. The table has `AU`, which is not listed, and no `US`, and a code that
starts with `S` is read behind its end. -/
theorem shortRegdom_not_regionsAgree :
    parseBcf (bcfBytes (shortRegdom ++ usRegdom ++ eofBytes)) =
        .ok ⟨[[0x41], [0x55, 0x53]], none⟩ ∧
      bcfInfoMain none (bcfBytes (shortRegdom ++ usRegdom ++ eofBytes)) =
        .ok [0x41, 0x3b, 0x55, 0x53, 0x0a] ∧
      bcfRegionsFlat [0x41, 0x3b, 0x55, 0x53, 0x0a] = [0x41, 0x55, 0x53] ∧
      bcfRegDneReads ⟨0x41, 0x55⟩ [0x41, 0x55, 0x53] = some (.ok ()) ∧
      bcfRegDneReads ⟨0x55, 0x53⟩ [0x41, 0x55, 0x53] = some (.error .einval) ∧
      bcfRegDneReads ⟨0x53, 0x47⟩ [0x41, 0x55, 0x53] = none ∧
      ¬ RegionsAgree [[0x41], [0x55, 0x53]] [0x41, 0x55, 0x53] := by
  refine ⟨rfl, rfl, rfl, rfl, rfl, rfl, ?_⟩
  rintro ⟨hinside, -⟩
  exact hinside ⟨0x53, 0x47⟩ rfl

end MmIot
