import MmIot.Lib.FirstOccurrence
import MmIot.Proofs.BcfInfo

/-! What the parser of BCF files makes of the TLVs that a file was written from. The ones
in front of the first EOF count, and of them the regulatory ones and the last chip. -/

namespace MmIot

def beforeEof (tlvs : List MbinTlv) : List MbinTlv := tlvs.takeWhile (·.type ≠ FIELD_TYPE_EOF)

def regdomCodes (tlvs : List MbinTlv) : List (List UInt8) :=
  (tlvs.filter (·.type = FIELD_TYPE_BCF_REGDOM)).map (·.data.take 2)

def lastChip (tlvs : List MbinTlv) : Option (List UInt8) :=
  (tlvs.filter (·.type = FIELD_TYPE_BCF_CHIPS)).getLast?.map (·.data.rdropWhile (· = 0))

/-- The first two bytes of the payload are there, and ASCII. -/
structure HasCode (tlv : MbinTlv) : Prop where
  length : 2 ≤ tlv.data.length
  ascii : ∀ b ∈ tlv.data.take 2, b < 0x80

instance (tlv : MbinTlv) : Decidable (HasCode tlv) :=
  decidable_of_iff (2 ≤ tlv.data.length ∧ (tlv.data.take 2).all (· < 0x80))
    ⟨fun h => ⟨h.1, by simpa using h.2⟩, fun h => ⟨h.length, by simpa using h.ascii⟩⟩

/-- The TLVs of a BCF up to an EOF, with any others behind it. -/
structure BcfForm (tlvs : List MbinTlv) : Prop where
  magic : ∃ first rest, tlvs = first :: rest ∧ MagicTlv (· = BCF_MAGIC_NUMBER) first
  eof : ∃ tlv ∈ tlvs, tlv.type = FIELD_TYPE_EOF
  regdom : ∀ tlv ∈ tlvs, tlv.type = FIELD_TYPE_BCF_REGDOM → HasCode tlv

theorem beforeEof_cons (tlv : MbinTlv) (tlvs : List MbinTlv) :
    beforeEof (tlv :: tlvs) =
      if tlv.type = FIELD_TYPE_EOF then [] else tlv :: beforeEof tlvs := by
  by_cases h : tlv.type = FIELD_TYPE_EOF <;> simp [beforeEof, h]

theorem regdomCodes_cons (tlv : MbinTlv) (tlvs : List MbinTlv) :
    regdomCodes (tlv :: tlvs) = regdomCodes [tlv] ++ regdomCodes tlvs := by
  rw [regdomCodes, regdomCodes, regdomCodes, ← List.map_append, ← List.filter_append,
    List.singleton_append]

/-- The chip of a TLV counts if no later one has a chip. -/
theorem lastChip_cons (tlv : MbinTlv) (tlvs : List MbinTlv) :
    lastChip (tlv :: tlvs) = (lastChip tlvs).or (lastChip [tlv]) := by
  unfold lastChip
  rw [← List.singleton_append, List.filter_append, List.getLast?_append, Option.map_or]

/-- Where every regulatory payload has its code, all that is read are whole codes. -/
theorem length_of_mem_regdomCodes {tlvs : List MbinTlv}
    (hcodes : ∀ tlv ∈ tlvs, tlv.type = FIELD_TYPE_BCF_REGDOM → HasCode tlv) {code : List UInt8}
    (h : code ∈ regdomCodes (beforeEof tlvs)) : code.length = 2 := by
  obtain ⟨tlv, htlv, rfl⟩ := List.mem_map.mp h
  obtain ⟨hmem, htype⟩ := List.mem_filter.mp htlv
  have hcode := hcodes tlv ((List.takeWhile_sublist _).subset hmem) (by simpa using htype)
  rw [List.length_take, Nat.min_eq_left hcode.length]

/-- What the parser has read so far, and another TLV. -/
def BcfInfo.read (info : BcfInfo) (tlv : MbinTlv) : BcfInfo :=
  ⟨info.regdoms ++ regdomCodes [tlv], (lastChip [tlv]).or info.chip⟩

theorem BcfInfo.foldl_read (info : BcfInfo) (tlvs : List MbinTlv) :
    tlvs.foldl BcfInfo.read info =
      ⟨info.regdoms ++ regdomCodes tlvs, (lastChip tlvs).or info.chip⟩ := by
  induction tlvs generalizing info with
  | nil => simp [regdomCodes, lastChip]
  | cons tlv tlvs ih =>
    rw [List.foldl_cons, ih, regdomCodes_cons, lastChip_cons, Option.or_assoc]
    simp only [BcfInfo.read, List.append_assoc]

section Rounds

variable {data : List UInt8}

/-- A round at a TLV other than an EOF. -/
theorem parseTlvs_read {fuel offset : ℕ} {tlv : MbinTlv} (hat : TlvAt data offset tlv)
    (hne : tlv.type ≠ FIELD_TYPE_EOF)
    (hcode : tlv.type = FIELD_TYPE_BCF_REGDOM → HasCode tlv) (info : BcfInfo) :
    parseTlvs data (fuel + 1) offset info =
      parseTlvs data fuel (offset + 4 + tlv.data.length) (info.read tlv) := by
  have hle := hat.le
  have hheader : offset + TLV_HEADER_SIZE ≤ data.length := by
    rw [TLV_HEADER_SIZE]
    omega
  have hpayload : Loops.slice data (offset + TLV_HEADER_SIZE) tlv.data.length = tlv.data :=
    hat.payload
  rw [parseTlvs, if_pos hheader]
  simp only [hat.type, hat.len, hpayload, if_neg hne]
  by_cases hregdom : tlv.type = FIELD_TYPE_BCF_REGDOM
  · have hascii : decodeAscii (tlv.data.take 2) = .ok (tlv.data.take 2) := by
      rw [decodeAscii, if_pos]
      simpa using (hcode hregdom).ascii
    have hread : info.read tlv = { info with regdoms := info.regdoms ++ [tlv.data.take 2] } := by
      simp [BcfInfo.read, regdomCodes, lastChip, hregdom, FIELD_TYPE_BCF_REGDOM,
        FIELD_TYPE_BCF_CHIPS]
    rw [if_pos hregdom, hascii, hread]
    rfl
  · have hnone : regdomCodes [tlv] = [] := by simp [regdomCodes, hregdom]
    rw [if_neg hregdom]
    by_cases hchips : tlv.type = FIELD_TYPE_BCF_CHIPS
    · have hread : info.read tlv = { info with chip := some (tlv.data.rdropWhile (· = 0)) } := by
        simp [BcfInfo.read, hnone, lastChip, hchips]
      rw [if_pos hchips, hread]
      rfl
    · have hread : info.read tlv = info := by
        simp [BcfInfo.read, hnone, lastChip, hchips]
      rw [if_neg hchips, hread]
      rfl

theorem parseTlvs_eof {fuel offset : ℕ} {tlv : MbinTlv} (hat : TlvAt data offset tlv)
    (heof : tlv.type = FIELD_TYPE_EOF) (info : BcfInfo) :
    parseTlvs data (fuel + 1) offset info = .ok info := by
  have hle := hat.le
  have hheader : offset + TLV_HEADER_SIZE ≤ data.length := by
    rw [TLV_HEADER_SIZE]
    omega
  rw [parseTlvs, if_pos hheader]
  simp only [hat.type, heof]
  rfl

/-- The TLVs in front of the first EOF are read, and nothing behind it. -/
theorem parseTlvs_flatMap_encode {fuel offset : ℕ} {tlvs : List MbinTlv} {trailing : List UInt8}
    (hdrop : data.drop offset = tlvs.flatMap Tlv.encode ++ trailing)
    (heof : ∃ tlv ∈ tlvs, tlv.type = FIELD_TYPE_EOF)
    (hcodes : ∀ tlv ∈ tlvs, tlv.type = FIELD_TYPE_BCF_REGDOM → HasCode tlv)
    (hfuel : tlvs.length ≤ fuel) (info : BcfInfo) :
    parseTlvs data fuel offset info = .ok ((beforeEof tlvs).foldl BcfInfo.read info) := by
  induction tlvs generalizing fuel offset info with
  | nil =>
    obtain ⟨tlv, hmem, -⟩ := heof
    cases hmem
  | cons tlv tlvs ih =>
    obtain ⟨fuel, rfl⟩ : ∃ n, fuel = n + 1 :=
      Nat.exists_eq_succ_of_ne_zero (Nat.ne_of_gt (Nat.lt_of_lt_of_le (Nat.succ_pos _) hfuel))
    rw [List.flatMap_cons, List.append_assoc] at hdrop
    obtain ⟨hat, hrest⟩ := TlvAt.of_drop hdrop
    rw [beforeEof_cons]
    by_cases hfirst : tlv.type = FIELD_TYPE_EOF
    · rw [if_pos hfirst]
      exact parseTlvs_eof hat hfirst info
    · rw [if_neg hfirst, List.foldl_cons, parseTlvs_read hat hfirst (hcodes _ List.mem_cons_self)]
      refine ih hrest ?_ ?_ (Nat.le_of_succ_le_succ hfuel) _
      · obtain ⟨last, hmem, hlast⟩ := heof
        rcases List.mem_cons.mp hmem with rfl | hmem
        · exact absurd hlast hfirst
        · exact ⟨last, hmem, hlast⟩
      · intro t ht
        exact hcodes t (List.mem_cons_of_mem _ ht)

end Rounds

/-- A BCF is read exactly: the codes in front of the first EOF, each one once and in the
order of their first occurrences, and the last chip there. -/
theorem parseBcf_flatMap_encode {tlvs : List MbinTlv} (hform : BcfForm tlvs)
    (trailing : List UInt8) :
    ∃ regdoms, parseBcf (tlvs.flatMap Tlv.encode ++ trailing) =
        .ok ⟨regdoms, lastChip (beforeEof tlvs)⟩ ∧
      FirstOccurrence.FirstsOf (regdomCodes (beforeEof tlvs)) regdoms ∧
      ∀ code ∈ regdoms, code.length = 2 := by
  obtain ⟨⟨first, rest, rfl, hmagic⟩, ⟨last, hmem, hlast⟩, hcodes⟩ := hform
  have hwhole {code} := @length_of_mem_regdomCodes _ hcodes code
  have hfirst : first.type ≠ FIELD_TYPE_EOF := by
    rw [hmagic.type]
    decide
  have heof : ∃ tlv ∈ rest, tlv.type = FIELD_TYPE_EOF := by
    rcases List.mem_cons.mp hmem with rfl | hmem
    · exact absurd hlast hfirst
    · exact ⟨last, hmem, hlast⟩
  generalize hdata : (first :: rest).flatMap Tlv.encode ++ trailing = data
  have hdrop : data.drop 0 = first.encode ++ (rest.flatMap Tlv.encode ++ trailing) := by
    rw [← hdata, List.drop_zero, List.flatMap_cons, List.append_assoc]
  obtain ⟨hat, hrest⟩ := TlvAt.of_drop hdrop
  have hle := hat.le
  rw [hmagic.length] at hrest hle
  have hlen : unpackLen data 0 = 4 := hat.len.trans hmagic.length
  have hfuel : rest.length ≤ data.length := by
    have hcount := Tlv.length_le_flatMap_encode (by decide) (first :: rest)
    rw [← hdata, List.length_append]
    simp only [List.length_cons] at hcount
    omega
  have hparsed := parseTlvs_flatMap_encode hrest heof
    (fun tlv htlv => hcodes tlv (List.mem_cons_of_mem _ htlv)) hfuel ⟨[], none⟩
  -- the magic itself is neither a code nor a chip
  have hnothing : BcfInfo.read ⟨[], none⟩ first = ⟨[], none⟩ := by
    simp [BcfInfo.read, regdomCodes, lastChip, hmagic.type, FIELD_TYPE_MAGIC, FIELD_TYPE_BCF_REGDOM,
      FIELD_TYPE_BCF_CHIPS]
  have hall := BcfInfo.foldl_read ⟨[], none⟩ (beforeEof (first :: rest))
  rw [beforeEof_cons, if_neg hfirst, List.foldl_cons, hnothing] at hall
  rw [hall] at hparsed
  rw [beforeEof_cons, if_neg hfirst] at hwhole ⊢
  have hfirsts := FirstOccurrence.firstsOf_eraseDups (regdomCodes (first :: beforeEof rest))
  refine ⟨_, ?_, hfirsts, fun code hcode => hwhole ((hfirsts.mem code).mp hcode)⟩
  have hnumber : LittleEndian.decode (Loops.slice data TLV_HEADER_SIZE 4) = BCF_MAGIC_NUMBER := by
    rw [← hmagic.length]
    exact (congrArg LittleEndian.decode hat.payload).trans hmagic.number
  unfold parseBcf
  rw [if_neg (by rw [TLV_HEADER_SIZE]; omega)]
  simp only [hlen, hnumber, hat.type, hmagic.type, ne_eq, not_true_eq_false, or_self, if_false]
  rw [show TLV_HEADER_SIZE + 4 = 0 + 4 + 4 from rfl, hparsed]
  simp only [Option.or_none, List.nil_append]
  rfl

def bcfTlv (type : ℕ) (data : List UInt8) (h : type < 256 ^ 2 ∧ data.length < 256 ^ 2) : MbinTlv :=
  ⟨type, data, h.1, h.2⟩

/-- A region twice, a chip with its NULs, and a region and a chip behind the EOF. -/
def usTlvs : List MbinTlv :=
  [bcfTlv FIELD_TYPE_MAGIC [0x4d, 0x4d, 0x42, 0x43] (by decide),
    bcfTlv FIELD_TYPE_BCF_REGDOM [0x55, 0x53, 0x01] (by decide),
    bcfTlv FIELD_TYPE_BCF_CHIPS [0x6d, 0x6d, 0x36, 0x00, 0x00] (by decide),
    bcfTlv FIELD_TYPE_BCF_REGDOM [0x55, 0x53] (by decide),
    bcfTlv FIELD_TYPE_EOF [] (by decide),
    bcfTlv FIELD_TYPE_BCF_REGDOM [0x4a, 0x50] (by decide),
    bcfTlv FIELD_TYPE_BCF_CHIPS [] (by decide)]

theorem parseBcf_flatMap_encode_us :
    ∃ regdoms, parseBcf (usTlvs.flatMap Tlv.encode ++ [0xFF]) =
        .ok ⟨regdoms, some [0x6d, 0x6d, 0x36]⟩ ∧
      FirstOccurrence.FirstsOf [[0x55, 0x53], [0x55, 0x53]] regdoms ∧
      ∀ code ∈ regdoms, code.length = 2 :=
  have heof : ∃ tlv ∈ usTlvs, tlv.type = FIELD_TYPE_EOF := by decide
  parseBcf_flatMap_encode ⟨⟨_, _, rfl, rfl, rfl, rfl⟩, heof, by decide⟩ [0xFF]

end MmIot
