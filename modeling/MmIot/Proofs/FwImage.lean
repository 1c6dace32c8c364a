import MmIot.Spec.FwBcfTest

/-! Which files the test of the porting assistant passes. A round of its loop is a question
about what is left of the file: a whole TLV and the rest of it, or an EOF header. -/

namespace MmIot

/-- The type and the length that a header at the front says. -/
def headerType (bytes : List UInt8) : ℕ := LittleEndian.decode (bytes.take 2)

def headerLen (bytes : List UInt8) : ℕ := LittleEndian.decode ((bytes.drop 2).take 2)

/-- Whole TLVs, fewer than `n`, lead to an EOF header. -/
def EofWithin (n : ℕ) (bytes : List UInt8) : Prop :=
  ∃ (body : List MbinTlv) (rest : List UInt8), bytes = body.flatMap Tlv.encode ++ rest ∧
    body.length < n ∧ TLV_HEADER_SIZE ≤ rest.length ∧ headerType rest = FIELD_TYPE_EOF

/-- An image as the test describes it: whole TLVs up to an EOF header among the first
`MAX_TLVS`, of which the first is the magic, with the number that is expected. -/
def DescribedImage (expectedMagicNumber : ℕ) (file : List UInt8) : Prop :=
  ∃ (first : MbinTlv) (body : List MbinTlv) (rest : List UInt8),
    file = (first :: body).flatMap Tlv.encode ++ rest ∧
    (first :: body).length < MAX_TLVS ∧
    TLV_HEADER_SIZE ≤ rest.length ∧ headerType rest = FIELD_TYPE_EOF ∧
    first.type = FIELD_TYPE_MAGIC ∧ 4 ≤ first.data.length ∧
    LittleEndian.decode (first.data.take 4) = expectedMagicNumber

/-- The file begins with a magic TLV that has no value, and goes on as it should. -/
def EmptyMagic (file : List UInt8) : Prop :=
  headerType file = FIELD_TYPE_MAGIC ∧ headerLen file = 0 ∧
    EofWithin (MAX_TLVS - 1) (file.drop TLV_HEADER_SIZE)

/-! ### TLVs at the front -/

theorem headerType_encode (tlv : MbinTlv) (rest : List UInt8) :
    headerType (tlv.encode ++ rest) = tlv.type := Tlv.decode_take_encode tlv rest

theorem headerLen_encode (tlv : MbinTlv) (rest : List UInt8) :
    headerLen (tlv.encode ++ rest) = tlv.data.length := Tlv.decode_take_drop_encode tlv rest

/-- A header whose length is there is that of a whole TLV. -/
theorem exists_front {bytes : List UInt8} (h : 4 + headerLen bytes ≤ bytes.length) :
    ∃ tlv : MbinTlv, bytes = tlv.encode ++ bytes.drop (4 + headerLen bytes) ∧
      tlv.type = headerType bytes ∧ tlv.data = (bytes.drop 4).take (headerLen bytes) := by
  obtain ⟨tlv, rest, rfl⟩ := @Tlv.exists_decodeFirst 2 2 bytes h
  refine ⟨tlv, ?_, (headerType_encode tlv rest).symm, ?_⟩
  · rw [headerLen_encode, List.drop_left' (Tlv.encode_length tlv)]
  · rw [headerLen_encode, show 4 = 2 + 2 from rfl, Tlv.drop_encode, List.take_left]

theorem EofWithin.length_le {n : ℕ} {bytes : List UInt8} (h : EofWithin n bytes) :
    TLV_HEADER_SIZE ≤ bytes.length := by
  obtain ⟨body, rest, rfl, -, hheader, -⟩ := h
  rw [List.length_append]
  exact Nat.le_add_left_of_le hheader

theorem not_eofWithin_zero (bytes : List UInt8) : ¬ EofWithin 0 bytes := by
  rintro ⟨body, rest, -, hlen, -⟩
  exact Nat.not_lt_zero _ hlen

theorem eofWithin_succ (n : ℕ) (bytes : List UInt8) :
    EofWithin (n + 1) bytes ↔ 4 ≤ bytes.length ∧ (headerType bytes = FIELD_TYPE_EOF ∨
      4 + headerLen bytes ≤ bytes.length ∧ EofWithin n (bytes.drop (4 + headerLen bytes))) := by
  refine ⟨?_, ?_⟩
  · rintro ⟨body, rest, rfl, hlen, hheader, heof⟩
    cases body with
    | nil => exact ⟨hheader, .inl heof⟩
    | cons tlv body =>
      rw [List.flatMap_cons, List.append_assoc, headerLen_encode,
        List.drop_left' (Tlv.encode_length tlv), List.length_append, Tlv.encode_length]
      refine ⟨by omega, .inr ⟨by omega, body, rest, rfl, ?_, hheader, heof⟩⟩
      exact Nat.lt_of_succ_lt_succ hlen
  · rintro ⟨hheader, heof | ⟨hwhole, body, rest, hbytes, hlen, hrest, heof⟩⟩
    · exact ⟨[], bytes, rfl, Nat.succ_pos n, hheader, heof⟩
    · obtain ⟨tlv, htlv, -⟩ := exists_front hwhole
      refine ⟨tlv :: body, rest, ?_, Nat.succ_lt_succ hlen, hrest, heof⟩
      rw [List.flatMap_cons, List.append_assoc, ← hbytes, ← htlv]

/-! ### The reader -/

theorem mmhalWlanReadBcfFile_eq (file : List UInt8) :
    mmhalWlanReadBcfFile file = mmhalWlanReadFwFile file := rfl

/-- Past the end there is no buffer, and nothing read either. -/
theorem mmhalWlanReadFwFile_len (file : List UInt8) (offset requestedLen : ℕ) :
    (mmhalWlanReadFwFile file offset requestedLen).len =
      min (file.drop offset).length requestedLen := by
  rw [mmhalWlanReadFwFile, List.length_drop]
  split
  next hend => rw [Nat.sub_eq_zero_of_le (Nat.le_of_lt hend), Nat.zero_min]
  next => rfl

theorem mmhalWlanReadFwFile_buf {file : List UInt8} {offset : ℕ} (hne : file.drop offset ≠ [])
    (requestedLen : ℕ) :
    (mmhalWlanReadFwFile file offset requestedLen).buf = some (file.drop offset) := by
  have hpos := List.length_pos_iff.mpr hne
  rw [List.length_drop] at hpos
  rw [mmhalWlanReadFwFile, if_neg (by omega)]

section Walk

variable {file : List UInt8} {fileReadFnName type : String}
  {expectedMagicNumber minReadLength : ℕ}

theorem readTlvHeader_ok_iff {first : Bool} {offset : ℕ} {hdr : ℕ × ℕ} :
    readTlvHeader (mmhalWlanReadFwFile file) fileReadFnName type minReadLength first offset =
        .ok hdr ↔
      4 ≤ (file.drop offset).length ∧
        (first = true → headerType (file.drop offset) = FIELD_TYPE_MAGIC) ∧
        hdr = (headerType (file.drop offset), headerLen (file.drop offset)) := by
  have hlen := mmhalWlanReadFwFile_len file offset TLV_HEADER_SIZE
  rw [readTlvHeader, hlen, TLV_HEADER_SIZE]
  by_cases hne : file.drop offset = []
  · rw [hne]
    exact iff_of_false (by simp) fun h => absurd h.1 (by decide)
  have hpos := List.length_pos_iff.mpr hne
  rw [if_neg (by omega), mmhalWlanReadFwFile_buf hne]
  dsimp only
  rw [Loops.check_eq_ok, Loops.check_eq_ok, Except.ok.injEq]
  refine and_congr (by omega) (and_congr ?_ eq_comm)
  rw [not_and, not_not]
  rfl

theorem readTlvData_end {first : Bool} {offset len next : ℕ} (hlen : len ≠ 0)
    (hend : file.drop offset = []) :
    readTlvData (mmhalWlanReadFwFile file) fileReadFnName type expectedMagicNumber minReadLength
      first offset len ≠ .ok next := by
  rw [readTlvData, if_neg hlen]
  dsimp only
  rw [mmhalWlanReadFwFile_len, hend, List.length_nil, Nat.zero_min, if_pos rfl]
  nofun

/-- The data is read at once, if it is there. -/
theorem readTlvData_ok_iff {first : Bool} {offset len next : ℕ} :
    readTlvData (mmhalWlanReadFwFile file) fileReadFnName type expectedMagicNumber minReadLength
        first offset len = .ok next ↔
      len ≤ (file.drop offset).length ∧ next = offset + len ∧
        (first = true → 0 < len → 4 ≤ len ∧
          LittleEndian.decode ((file.drop offset).take 4) = expectedMagicNumber) := by
  by_cases hzero : len = 0
  · rw [readTlvData, if_pos hzero, hzero]
    simp [eq_comm]
  by_cases hend : file.drop offset = []
  · refine iff_of_false (readTlvData_end hzero hend) ?_
    rintro ⟨hlen, -⟩
    rw [hend] at hlen
    exact hzero (Nat.le_zero.mp hlen)
  have hpos := List.length_pos_iff.mpr hend
  rw [readTlvData, if_neg hzero]
  dsimp only
  rw [mmhalWlanReadFwFile_len, if_neg (by omega), if_neg (by omega), mmhalWlanReadFwFile_buf hend,
    Option.getD_some, Loops.check_eq_ok, Loops.check_eq_ok]
  rcases Nat.lt_or_ge (file.drop offset).length len with hshort | hwhole
  · refine iff_of_false ?_ fun h => absurd h.1 (Nat.not_le.mpr hshort)
    rintro ⟨-, -, h⟩
    rw [Nat.min_eq_left (Nat.le_of_lt hshort)] at h
    refine readTlvData_end (Nat.sub_ne_zero_of_lt hshort) ?_ h
    rw [← List.drop_drop, List.drop_length]
  · rw [Nat.min_eq_right hwhole, Nat.sub_self, readTlvData, if_pos rfl, Except.ok.injEq,
      and_iff_right hwhole]
    cases first with
    | false => simp [eq_comm]
    | true =>
      simp only [true_and, not_lt, not_not, forall_const, forall_prop_of_true (by omega : 0 < len)]
      rw [← and_assoc, and_comm, eq_comm]

/-- One round of the main loop. -/
theorem walkTlvs_succ {first : Bool} {offset : ℕ} (rounds : ℕ) :
    walkTlvs (mmhalWlanReadFwFile file) fileReadFnName type expectedMagicNumber minReadLength
        (rounds + 1) first offset = .ok () ↔
      4 ≤ (file.drop offset).length ∧
      (first = true → headerType (file.drop offset) = FIELD_TYPE_MAGIC) ∧
      (headerType (file.drop offset) = FIELD_TYPE_EOF ∨
        headerLen (file.drop offset) ≤ (file.drop (offset + 4)).length ∧
        (first = true → 0 < headerLen (file.drop offset) → 4 ≤ headerLen (file.drop offset) ∧
          LittleEndian.decode ((file.drop (offset + 4)).take 4) = expectedMagicNumber) ∧
        walkTlvs (mmhalWlanReadFwFile file) fileReadFnName type expectedMagicNumber minReadLength
          rounds false (offset + 4 + headerLen (file.drop offset)) = .ok ()) := by
  rw [walkTlvs, Loops.bind_eq_ok]
  simp only [readTlvHeader_ok_iff, TLV_HEADER_SIZE]
  refine ⟨?_, ?_⟩
  · rintro ⟨hdr, ⟨hheader, hmagic, rfl⟩, h⟩
    refine ⟨hheader, hmagic, or_iff_not_imp_left.mpr ?_⟩
    intro hne
    rw [if_neg hne, Loops.bind_eq_ok] at h
    obtain ⟨next, hdata, h⟩ := h
    obtain ⟨hlen, rfl, hcheck⟩ := readTlvData_ok_iff.mp hdata
    exact ⟨hlen, hcheck, h⟩
  · rintro ⟨hheader, hmagic, h⟩
    refine ⟨_, ⟨hheader, hmagic, rfl⟩, ?_⟩
    dsimp only
    split
    · rfl
    next hne =>
      obtain ⟨hlen, hcheck, h⟩ := h.resolve_left hne
      exact Loops.bind_eq_ok.mpr ⟨_, readTlvData_ok_iff.mpr ⟨hlen, rfl, hcheck⟩, h⟩

/-- Past the first TLV, the walk gets through if an EOF header is among the next ones. -/
theorem walkTlvs_ok_iff (rounds offset : ℕ) :
    walkTlvs (mmhalWlanReadFwFile file) fileReadFnName type expectedMagicNumber minReadLength
      rounds false offset = .ok () ↔ EofWithin rounds (file.drop offset) := by
  induction rounds generalizing offset with
  | zero =>
    refine iff_of_false ?_ (not_eofWithin_zero _)
    rw [walkTlvs]
    nofun
  | succ rounds ih =>
    rw [walkTlvs_succ, eofWithin_succ, ih, List.drop_drop, ← Nat.add_assoc]
    simp only [Bool.false_eq_true, false_imp_iff, true_and, List.length_drop]
    refine and_congr_right ?_
    intro hheader
    refine or_congr_right (and_congr_left' ?_)
    omega

theorem executeFwBcfTest_passed_iff :
    (executeFwBcfTest (mmhalWlanReadFwFile file) fileReadFnName type expectedMagicNumber
        minReadLength).1 = .passed ↔
      4 ≤ file.length ∧ headerType file = FIELD_TYPE_MAGIC ∧
      4 + headerLen file ≤ file.length ∧
      (0 < headerLen file → 4 ≤ headerLen file ∧
        LittleEndian.decode ((file.drop 4).take 4) = expectedMagicNumber) ∧
      EofWithin (MAX_TLVS - 1) (file.drop (4 + headerLen file)) := by
  have hpassed : (executeFwBcfTest (mmhalWlanReadFwFile file) fileReadFnName type
      expectedMagicNumber minReadLength).1 = .passed ↔
        walkTlvs (mmhalWlanReadFwFile file) fileReadFnName type expectedMagicNumber minReadLength
          MAX_TLVS true 0 = .ok () := by
    rw [executeFwBcfTest]
    split
    next log h => simp [h]
    next h => simp [h]
  rw [hpassed, show MAX_TLVS = 49 + 1 from rfl, walkTlvs_succ, walkTlvs_ok_iff]
  simp only [List.drop_zero, Nat.zero_add, List.length_drop, forall_const]
  refine and_congr_right fun hheader => and_congr_right fun hmagic => ?_
  have hfirst : headerType file ≠ FIELD_TYPE_EOF := by
    rw [hmagic]
    decide
  rw [or_iff_right hfirst]
  refine and_congr_left' ?_
  omega

end Walk

/-! ### The images described -/

theorem describedImage_iff (expectedMagicNumber : ℕ) (file : List UInt8) :
    DescribedImage expectedMagicNumber file ↔
      4 ≤ file.length ∧ headerType file = FIELD_TYPE_MAGIC ∧
      4 + headerLen file ≤ file.length ∧
      (4 ≤ headerLen file ∧ LittleEndian.decode ((file.drop 4).take 4) = expectedMagicNumber) ∧
      EofWithin (MAX_TLVS - 1) (file.drop (4 + headerLen file)) := by
  refine ⟨?_, ?_⟩
  · rintro ⟨first, body, rest, rfl, hlen, hrest, heof, htype, hfour, hmagic⟩
    have hdata : ((first.encode ++ (body.flatMap Tlv.encode ++ rest)).drop 4).take 4 =
        first.data.take 4 := by
      rw [show 4 = 2 + 2 from rfl, Tlv.drop_encode, List.take_append_of_le_length hfour]
    rw [List.flatMap_cons, List.append_assoc, headerType_encode, headerLen_encode, hdata,
      List.drop_left' (Tlv.encode_length first), List.length_append, Tlv.encode_length]
    exact ⟨by omega, htype, by omega, ⟨hfour, hmagic⟩, body, rest, rfl,
      Nat.lt_of_succ_lt_succ hlen, hrest, heof⟩
  · rintro ⟨-, htype, hwhole, ⟨hfour, hmagic⟩, body, rest, hbytes, hlen, hrest, heof⟩
    obtain ⟨first, hfile, hfirst, hdata⟩ := exists_front hwhole
    refine ⟨first, body, rest, ?_, Nat.succ_lt_succ hlen, hrest, heof, hfirst.trans htype, ?_, ?_⟩
    · rw [List.flatMap_cons, List.append_assoc, ← hbytes, ← hfile]
    · rw [hdata, List.length_take, List.length_drop]
      omega
    · rw [hdata, List.take_take, Nat.min_eq_left hfour, hmagic]

/-- On either file and for any magic number, the test passes the images described and no others
if and only if the file is not one that begins with a magic TLV of length 0. -/
theorem passesDescribed_iff_notEmptyMagic (file : List UInt8) (fileReadFnName type : String)
    (expectedMagicNumber minReadLength : ℕ) :
    (((executeFwBcfTest (mmhalWlanReadFwFile file) fileReadFnName type expectedMagicNumber
        minReadLength).1 = .passed ↔ DescribedImage expectedMagicNumber file) ↔
      ¬ EmptyMagic file) ∧
    (((executeFwBcfTest (mmhalWlanReadBcfFile file) fileReadFnName type expectedMagicNumber
        minReadLength).1 = .passed ↔ DescribedImage expectedMagicNumber file) ↔
      ¬ EmptyMagic file) := by
  rw [mmhalWlanReadBcfFile_eq, and_self, executeFwBcfTest_passed_iff, describedImage_iff]
  rcases Nat.eq_zero_or_pos (headerLen file) with hempty | hvalue
  · -- there is no value that could be the magic number
    rw [hempty, Nat.add_zero]
    refine ⟨?_, ?_⟩
    · rintro heq ⟨hmagic, -, heof⟩
      have hlen : TLV_HEADER_SIZE ≤ file.length := heof.length_le.trans (List.drop_sublist _ _).length_le
      have himage := heq.mp ⟨hlen, hmagic, hlen, fun h => absurd h (Nat.lt_irrefl 0), heof⟩
      exact absurd himage.2.2.2.1.1 (by decide)
    · intro hno
      refine iff_of_false ?_ fun h => absurd h.2.2.2.1.1 (by decide)
      rintro ⟨-, hmagic, -, -, heof⟩
      exact hno ⟨hmagic, hempty, heof⟩
  · refine iff_of_true ?_ fun h => absurd h.2.1 (Nat.ne_of_gt hvalue)
    rw [forall_prop_of_true hvalue]

/-- A magic TLV without a magic number, and an EOF header: the test passes these 8 bytes as a
firmware and as a BCF. -/
theorem emptyMagic_passed :
    (validateFw 8 [0x00, 0x80, 0x00, 0x00, 0x00, 0x8f, 0x00, 0x00]).1 = .passed ∧
      (validateBcf 8 [0x00, 0x80, 0x00, 0x00, 0x00, 0x8f, 0x00, 0x00]).1 = .passed ∧
      ¬ DescribedImage FW_MAGIC_NUMBER [0x00, 0x80, 0x00, 0x00, 0x00, 0x8f, 0x00, 0x00] ∧
      ¬ DescribedImage BCF_MAGIC_NUMBER [0x00, 0x80, 0x00, 0x00, 0x00, 0x8f, 0x00, 0x00] := by
  have heof : EofWithin (MAX_TLVS - 1) [0x00, 0x8f, 0x00, 0x00] :=
    ⟨[], _, rfl, by decide, by decide, by decide⟩
  have hpassed : ∀ name type magic, (executeFwBcfTest (mmhalWlanReadFwFile
      [0x00, 0x80, 0x00, 0x00, 0x00, 0x8f, 0x00, 0x00]) name type magic 8).1 = .passed := by
    intro name type magic
    rw [executeFwBcfTest_passed_iff]
    exact ⟨by decide, by decide, by decide, fun hvalue => absurd hvalue (by decide), heof⟩
  have hnot : ∀ magic, ¬ DescribedImage magic [0x00, 0x80, 0x00, 0x00, 0x00, 0x8f, 0x00, 0x00] := by
    intro magic h
    rw [describedImage_iff] at h
    exact absurd h.2.2.2.1.1 (by decide)
  exact ⟨hpassed _ _ _, hpassed _ _ _, hnot _, hnot _⟩

end MmIot
