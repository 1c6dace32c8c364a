import Mathlib.Algebra.Order.Ring.Nat
import Mathlib.Tactic.Common

/-! Type-length-value streams with little-endian headers, types and lengths of any width. -/

namespace LittleEndian

def encode : ℕ → ℕ → List UInt8
  | 0, _ => []
  | w + 1, n => UInt8.ofNat n :: encode w (n / 256)

def decode : List UInt8 → ℕ
  | [] => 0
  | b :: bs => b.toNat + 256 * decode bs

@[simp] theorem encode_length (w n : ℕ) : (encode w n).length = w := by
  induction w generalizing n with
  | zero => rfl
  | succ w ih => rw [encode, List.length_cons, ih]

theorem decode_encode {w n : ℕ} (h : n < 256 ^ w) : decode (encode w n) = n := by
  induction w generalizing n with
  | zero =>
    rw [Nat.pow_zero] at h
    exact (Nat.lt_one_iff.mp h).symm
  | succ w ih =>
    have hrest : n / 256 < 256 ^ w := by
      rw [Nat.pow_succ] at h
      exact (Nat.div_lt_iff_lt_mul (by decide)).mpr h
    rw [encode, decode, ih hrest, UInt8.toNat_ofNat']
    omega

theorem encode_decode {bs : List UInt8} {w : ℕ} (h : bs.length = w) :
    encode w (decode bs) = bs := by
  induction bs generalizing w with
  | nil =>
    cases h
    rfl
  | cons b bs ih =>
    cases h
    have hb := b.toNat_lt
    have hlow : UInt8.ofNat (b.toNat + 256 * decode bs) = b := by
      rw [← UInt8.toNat_inj, UInt8.toNat_ofNat']
      omega
    have hhigh : (b.toNat + 256 * decode bs) / 256 = decode bs := by omega
    rw [decode, List.length_cons, encode, hlow, hhigh, ih rfl]

theorem decode_lt (bs : List UInt8) : decode bs < 256 ^ bs.length := by
  induction bs with
  | nil => exact Nat.one_pos
  | cons b bs ih =>
    have hb := b.toNat_lt
    rw [decode, List.length_cons, Nat.pow_succ]
    omega

theorem decode_lt_of_length_le {bs : List UInt8} {w : ℕ} (h : bs.length ≤ w) :
    decode bs < 256 ^ w :=
  Nat.lt_of_lt_of_le (decode_lt bs) (Nat.pow_le_pow_right (by decide) h)

end LittleEndian

/-- A type of `tw` bytes, and a payload whose length fits `lw` bytes. -/
structure Tlv (tw lw : ℕ) where
  type : ℕ
  data : List UInt8
  type_lt : type < 256 ^ tw
  length_lt : data.length < 256 ^ lw
  deriving DecidableEq

namespace Tlv

variable {tw lw : ℕ}

def encode (t : Tlv tw lw) : List UInt8 :=
  LittleEndian.encode tw t.type ++ LittleEndian.encode lw t.data.length ++ t.data

/-- The TLV at the front, and what follows it. -/
def decodeFirst (bs : List UInt8) : Option (Tlv tw lw × List UInt8) :=
  let type := LittleEndian.decode (bs.take tw)
  let length := LittleEndian.decode ((bs.drop tw).take lw)
  let data := (bs.drop (tw + lw)).take length
  if h : tw + lw ≤ bs.length ∧ data.length = length then
    some (⟨type, data, LittleEndian.decode_lt_of_length_le (List.length_take_le _ _),
      h.2 ▸ LittleEndian.decode_lt_of_length_le (List.length_take_le _ _)⟩,
      bs.drop (tw + lw + length))
  else none

/-- A whole string as TLVs, with fuel for as many. -/
def decodeAll : ℕ → List UInt8 → Option (List (Tlv tw lw))
  | _, [] => some []
  | 0, _ :: _ => none
  | fuel + 1, b :: bs =>
    (decodeFirst (b :: bs)).bind fun r => (decodeAll fuel r.2).map (r.1 :: ·)

def decode (bs : List UInt8) : Option (List (Tlv tw lw)) := decodeAll bs.length bs

theorem encode_length (t : Tlv tw lw) : t.encode.length = tw + lw + t.data.length := by
  rw [encode, List.length_append, List.length_append, LittleEndian.encode_length,
    LittleEndian.encode_length]

theorem decode_take_encode (t : Tlv tw lw) (rest : List UInt8) :
    LittleEndian.decode ((t.encode ++ rest).take tw) = t.type := by
  simp only [encode, List.append_assoc]
  rw [List.take_left' (LittleEndian.encode_length _ _), LittleEndian.decode_encode t.type_lt]

theorem decode_take_drop_encode (t : Tlv tw lw) (rest : List UInt8) :
    LittleEndian.decode (((t.encode ++ rest).drop tw).take lw) = t.data.length := by
  simp only [encode, List.append_assoc]
  rw [List.drop_left' (LittleEndian.encode_length _ _),
    List.take_left' (LittleEndian.encode_length _ _), LittleEndian.decode_encode t.length_lt]

theorem drop_encode (t : Tlv tw lw) (rest : List UInt8) :
    (t.encode ++ rest).drop (tw + lw) = t.data ++ rest := by
  rw [encode, List.append_assoc]
  apply List.drop_left'
  rw [List.length_append, LittleEndian.encode_length, LittleEndian.encode_length]

theorem decodeFirst_encode (t : Tlv tw lw) (rest : List UInt8) :
    decodeFirst (t.encode ++ rest) = some (t, rest) := by
  have hrest : (t.encode ++ rest).drop (tw + lw + t.data.length) = rest :=
    List.drop_left' t.encode_length
  unfold decodeFirst
  simp only [decode_take_encode, decode_take_drop_encode, drop_encode, hrest, List.take_left]
  rw [dif_pos ⟨by rw [List.length_append, encode_length]; omega, trivial⟩]

theorem eq_encode_append {bs rest : List UInt8} {t : Tlv tw lw}
    (h : decodeFirst bs = some (t, rest)) : bs = t.encode ++ rest := by
  simp only [decodeFirst] at h
  split at h
  next hfits =>
    obtain ⟨hheader, hdata⟩ := hfits
    cases h
    have htype : (bs.take tw).length = tw := by
      rw [List.length_take]
      omega
    have hlength : ((bs.drop tw).take lw).length = lw := by
      rw [List.length_take, List.length_drop]
      omega
    simp only [encode, hdata, LittleEndian.encode_decode htype, LittleEndian.encode_decode hlength]
    rw [← List.drop_drop (j := tw + lw), List.append_assoc, List.take_append_drop,
      List.append_assoc, ← List.drop_drop (j := tw), List.take_append_drop, List.take_append_drop]
  next => exact nomatch h

theorem length_le_flatMap_encode (h : 0 < tw + lw) (ts : List (Tlv tw lw)) :
    ts.length ≤ (ts.flatMap encode).length := by
  induction ts with
  | nil => exact Nat.zero_le _
  | cons t ts ih =>
    rw [List.flatMap_cons, List.length_append, List.length_cons, encode_length]
    omega

theorem decodeAll_flatMap_encode (h : 0 < tw + lw) (ts : List (Tlv tw lw)) {fuel : ℕ}
    (hfuel : ts.length ≤ fuel) : decodeAll fuel (ts.flatMap encode) = some ts := by
  induction ts generalizing fuel with
  | nil => rw [List.flatMap_nil, decodeAll]
  | cons t ts ih =>
    cases fuel with
    | zero => exact absurd hfuel (Nat.not_succ_le_zero _)
    | succ fuel =>
      rw [List.flatMap_cons]
      cases hbs : t.encode ++ ts.flatMap encode with
      | nil =>
        have hlen := congrArg List.length hbs
        rw [List.length_append, encode_length, List.length_nil] at hlen
        omega
      | cons b bs =>
        rw [decodeAll, ← hbs, decodeFirst_encode, Option.bind_some,
          ih (Nat.le_of_succ_le_succ hfuel), Option.map_some]

theorem decode_flatMap_encode (h : 0 < tw + lw) (ts : List (Tlv tw lw)) :
    decode (ts.flatMap encode) = some ts :=
  decodeAll_flatMap_encode h ts (length_le_flatMap_encode h ts)

/-- A TLV is at the front if its length field says no more than there is. -/
theorem exists_decodeFirst {bs : List UInt8}
    (h : tw + lw + LittleEndian.decode ((bs.drop tw).take lw) ≤ bs.length) :
    ∃ (t : Tlv tw lw) (rest : List UInt8), bs = t.encode ++ rest := by
  have hfits : tw + lw ≤ bs.length ∧
      ((bs.drop (tw + lw)).take (LittleEndian.decode ((bs.drop tw).take lw))).length =
        LittleEndian.decode ((bs.drop tw).take lw) := by
    rw [List.length_take, List.length_drop]
    omega
  exact ⟨_, _, eq_encode_append (dif_pos hfits)⟩

/-- Bytes are the TLVs of one list only. -/
theorem flatMap_encode_injective (h : 0 < tw + lw) {ts ts' : List (Tlv tw lw)}
    (heq : ts.flatMap encode = ts'.flatMap encode) : ts = ts' := by
  rw [← Option.some_inj, ← decode_flatMap_encode h ts, ← decode_flatMap_encode h ts', heq]

end Tlv
