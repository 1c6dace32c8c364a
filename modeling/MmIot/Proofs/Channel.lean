import MmIot.Spec.Channel
import Mathlib.Data.List.Nodup

/-! Channel derivation is correct and complete on a list whose channel numbers
are distinct and whose frequencies fit an `int32_t`. The searches are first put
in closed form for any reading of the arithmetic that is exact on values that
fit; the wrapping and the checked reading are both of this kind. -/

namespace MmIot

/-- The entry a primary channel number may stand for at bandwidth `bw`. -/
def IsPrimary (p : S1gChannel) (n bw : UInt8) : Prop :=
  p.s1gChanNum = n.toUInt16 ∧ p.bwMhz ≤ 2 ∧ p.bwMhz ≤ bw

/-- The frequency offset of a primary channel from an operating channel, in Hz. -/
def freqOffset (p o : S1gChannel) : ℤ := (p.centreFreqHz.toNat : ℤ) - o.centreFreqHz.toNat

/-- `o` has bandwidth `bw` and its open half span holds the centre of `p`. -/
def Spans (p : S1gChannel) (bw : UInt8) (o : S1gChannel) : Prop :=
  o.bwMhz = bw ∧ |freqOffset p o| < bw.toNat * 500000

instance (p : S1gChannel) (bw : UInt8) : DecidablePred (Spans p bw) := fun _ => by
  unfold Spans; infer_instance

/-- The index of `p` inside `o`, before the division is known to stay in range. -/
def primaryIdx (p o : S1gChannel) (bw : UInt8) : ℤ :=
  (freqOffset p o + ((bw.toNat : ℤ) - p.bwMhz.toNat) * 500000).tdiv 1000000

/-- `o`'s S1G class, or its global class where the S1G class is the skip value. -/
def derivedOpClass (o : S1gChannel) : UInt16 :=
  if o.s1gOperatingClass ≠ SKIP_OP_CLASS_CHECK then o.s1gOperatingClass.toUInt16
  else o.globalOperatingClass.toUInt16

/-- The derived class always selects the entry it was taken from. -/
theorem opClassMatches_derivedOpClass (o : S1gChannel) :
    opClassMatches o (derivedOpClass o) = true := by
  by_cases h : o.s1gOperatingClass = SKIP_OP_CLASS_CHECK <;>
    simp [opClassMatches, derivedOpClass, h]

/-- The index lies in `[0, bw)` for any offset inside the open half span. -/
theorem primaryIdx_range {p o : S1gChannel} {n bw : UInt8} (hp : IsPrimary p n bw)
    (ho : Spans p bw o) : 0 ≤ primaryIdx p o bw ∧ primaryIdx p o bw < bw.toNat := by
  obtain ⟨-, hp2, hpbw⟩ := hp
  obtain ⟨-, hspan⟩ := ho
  rw [abs_lt] at hspan
  have h2 : p.bwMhz.toNat ≤ 2 := UInt8.le_iff_toNat_le.mp hp2
  have hle : p.bwMhz.toNat ≤ bw.toNat := UInt8.le_iff_toNat_le.mp hpbw
  exact CInt.tdiv_mem_range (by omega) (by omega) (by omega) (by omega)

/-- The index is the same as a byte. -/
theorem primaryIdx_ofNat {p o : S1gChannel} {n bw : UInt8} (hp : IsPrimary p n bw)
    (ho : Spans p bw o) : ((UInt8.ofNat (primaryIdx p o bw).toNat).toNat : ℤ) = primaryIdx p o bw := by
  obtain ⟨hlo, hhi⟩ := primaryIdx_range hp ho
  have hbw := bw.toNat_lt
  rw [UInt8.toNat_ofNat_of_lt' (by simp [UInt8.size]; omega)]
  omega

/-- With distinct keys, a search that pins the key finds the entry with that key. -/
theorem find?_of_nodup {α κ : Type} {key : α → κ} {l : List α} (hn : (l.map key).Nodup)
    {q : α → Bool} {o : α} (ho : o ∈ l) (hq : q o = true) (hkey : ∀ c, q c = true → key c = key o) :
    l.find? q = some o := by
  cases hf : l.find? q with
  | none => exact absurd hq (by simpa using List.find?_eq_none.mp hf o ho)
  | some c =>
    have hc := hkey c (List.find?_some hf)
    rw [List.inj_on_of_nodup_map hn (List.mem_of_find?_eq_some hf) ho hc]

section Exact

variable {m : Type → Type} [Monad m] [LawfulMonad m] {int32 : ℤ → m ℤ}

/-- The arithmetic is exact on every value that fits. -/
def ExactOnFits (int32 : ℤ → m ℤ) : Prop := ∀ x : ℤ, -2 ^ 31 ≤ x ∧ x < 2 ^ 31 → int32 x = pure x

theorem findOperatingChannel_eq (hint : ExactOnFits int32) {p : S1gChannel}
    (hp : p.centreFreqHz.toNat < 2 ^ 31) (bw : UInt8) {l : List S1gChannel}
    (hl : ∀ c ∈ l, c.centreFreqHz.toNat < 2 ^ 31) :
    findOperatingChannel int32 p bw l = pure (l.find? fun o => Spans p bw o) := by
  induction l with
  | nil => rfl
  | cons c l ih =>
    have hc := hl c (by simp)
    have hbw := bw.toNat_lt
    have hhalf : ((bw.toNat : ℤ) * 1000000).tdiv 2 = bw.toNat * 500000 := by
      rw [Int.tdiv_eq_ediv_of_nonneg (by omega)]
      omega
    rw [findOperatingChannel, hint _ (by omega), pure_bind, hhalf, hint _ (by omega), pure_bind,
      CInt.toInt32_small hp, CInt.toInt32_small hc, hint _ (by omega), pure_bind,
      hint _ (by omega), pure_bind, ih fun c' hc' => hl c' (by simp [hc'])]
    have hiff : (c.bwMhz = bw ∧ -((bw.toNat : ℤ) * 500000) < p.centreFreqHz.toNat - c.centreFreqHz.toNat ∧
        (p.centreFreqHz.toNat : ℤ) - c.centreFreqHz.toNat < bw.toNat * 500000) ↔ Spans p bw c := by
      rw [Spans, freqOffset, abs_lt]
    by_cases h : Spans p bw c
    · rw [if_pos (hiff.mpr h), List.find?_cons_of_pos (by simpa using h)]
    · rw [if_neg (mt hiff.mp h), List.find?_cons_of_neg (by simpa using h)]

/-- Once both lookups land on `p` and `o`, the index is the closed form. -/
theorem calcPrimaryChanIdx_eq (hint : ExactOnFits int32) {l : ChannelList} {p o : S1gChannel}
    {n bw : UInt8} (hp : IsPrimary p n bw) (ho : Spans p bw o)
    (hpf : p.centreFreqHz.toNat < 2 ^ 31) (hof : o.centreFreqHz.toNat < 2 ^ 31)
    {opClass : UInt16}
    (hfind : (l.channels.find? fun c => c.s1gChanNum = o.s1gChanNum ∧ opClassMatches c opClass) =
      some o)
    (hprim : (l.channels.find? fun c => c.s1gChanNum = n.toUInt16) = some p) :
    calcPrimaryChanIdx int32 (some l) opClass o.s1gChanNum n = pure (primaryIdx p o bw) := by
  have hrange := primaryIdx_range hp ho
  obtain ⟨hbw, hspan⟩ := ho
  obtain ⟨-, hp2, hpbw⟩ := hp
  rw [freqOffset, abs_lt] at hspan
  have hb := bw.toNat_lt
  have hle : p.bwMhz.toNat ≤ bw.toNat := UInt8.le_iff_toNat_le.mp hpbw
  simp only [calcPrimaryChanIdx, hfind, hprim, hbw]
  rw [if_neg (by simp [hp2, hpbw]), CInt.toInt32_small hpf, CInt.toInt32_small hof,
    hint _ (by omega), pure_bind, hint _ (by omega), pure_bind, hint _ (by omega), pure_bind,
    hint _ (by omega), pure_bind]
  change (int32 (primaryIdx p o bw) >>= _) = _
  rw [hint _ (by omega), pure_bind, if_neg (by omega)]

/-- The closed form of a successful derivation. -/
def derivedChannel (p o : S1gChannel) (bw : UInt8) : OperatingChannel where
  opClass := derivedOpClass o
  s1gChanNum := o.s1gChanNum
  pri1mhzChanIdx := UInt8.ofNat (primaryIdx p o bw).toNat
  priBwMhz := p.bwMhz

variable {l : ChannelList} {n bw : UInt8}

theorem deriveOperatingChannel_ok (hint : ExactOnFits int32)
    (hnum : (l.channels.map S1gChannel.s1gChanNum).Nodup)
    (hfreq : ∀ c ∈ l.channels, c.centreFreqHz.toNat < 2 ^ 31) {p o : S1gChannel}
    (hpl : p ∈ l.channels) (hp : IsPrimary p n bw)
    (hfind : (l.channels.find? fun o => Spans p bw o) = some o) :
    deriveOperatingChannel int32 (some l) n bw = pure (.ok (derivedChannel p o bw)) := by
  have hol := List.mem_of_find?_eq_some hfind
  have ho : Spans p bw o := by simpa using List.find?_some hfind
  have hrange := primaryIdx_range hp ho
  have hprim : (l.channels.find? fun c => c.s1gChanNum = n.toUInt16) = some p :=
    find?_of_nodup hnum hpl (by simpa using hp.1) (by simp [hp.1])
  have hop : (l.channels.find? fun c =>
      c.s1gChanNum = o.s1gChanNum ∧ opClassMatches c (derivedOpClass o)) = some o :=
    find?_of_nodup hnum hol (by simpa using opClassMatches_derivedOpClass o) (by simp +contextual)
  have hidx := calcPrimaryChanIdx_eq hint hp ho (hfreq p hpl) (hfreq o hol) hop hprim
  obtain ⟨-, hp2, hpbw⟩ := hp
  simp only [deriveOperatingChannel, hprim]
  rw [if_neg (by simp [hp2, hpbw]), findOperatingChannel_eq hint (hfreq p hpl) bw hfreq, hfind,
    pure_bind]
  change (calcPrimaryChanIdx int32 (some l) (derivedOpClass o) o.s1gChanNum n >>= _) = _
  rw [hidx, pure_bind, if_neg (by omega)]
  rfl

theorem deriveOperatingChannel_error (hint : ExactOnFits int32)
    (hfreq : ∀ c ∈ l.channels, c.centreFreqHz.toNat < 2 ^ 31)
    (hnone : ∀ p ∈ l.channels, IsPrimary p n bw → ∀ o ∈ l.channels, ¬ Spans p bw o) :
    deriveOperatingChannel int32 (some l) n bw = pure (.error .enoent) := by
  cases hprim : l.channels.find? fun c => c.s1gChanNum = n.toUInt16 with
  | none => simp only [deriveOperatingChannel, hprim]
  | some p =>
    have hpl := List.mem_of_find?_eq_some hprim
    have hpn : p.s1gChanNum = n.toUInt16 := by simpa using List.find?_some hprim
    simp only [deriveOperatingChannel, hprim]
    by_cases hbad : 2 < p.bwMhz ∨ bw < p.bwMhz
    · rw [if_pos hbad]
    · have hp : IsPrimary p n bw := by
        rw [not_or, UInt8.not_lt, UInt8.not_lt] at hbad
        exact ⟨hpn, hbad⟩
      have hfind : (l.channels.find? fun o => Spans p bw o) = none := by
        simpa using hnone p hpl hp
      rw [if_neg hbad, findOperatingChannel_eq hint (hfreq p hpl) bw hfreq, hfind, pure_bind]

end Exact

theorem exactOnFits_checked32 : ExactOnFits CInt.checked32 := fun _ => CInt.checked32_fits

theorem exactOnFits_wrap32 : ExactOnFits CInt.wrap32 := fun _ => CInt.wrap32_fits

/-- AP channel derivation succeeds exactly when a primary entry and a spanning
operating entry exist, its outputs are those of the first such entry, it fails
with `-ENOENT` only, and the checked arithmetic meets no overflow. -/
theorem deriveOperatingChannel_spec (l : ChannelList)
    (hnum : (l.channels.map S1gChannel.s1gChanNum).Nodup)
    (hfreq : ∀ c ∈ l.channels, c.centreFreqHz.toNat < 2 ^ 31) (n bw : UInt8) :
    ∃ r, deriveOperatingChannel CInt.checked32 (some l) n bw = some r ∧
      deriveOperatingChannelWrap (some l) n bw = r ∧
      ((∃ out, r = .ok out) ↔
        ∃ p ∈ l.channels, IsPrimary p n bw ∧ ∃ o ∈ l.channels, Spans p bw o) ∧
      (∀ out, r = .ok out → ∃ p ∈ l.channels, ∃ o, IsPrimary p n bw ∧
        (l.channels.find? fun o => Spans p bw o) = some o ∧
        out.s1gChanNum = o.s1gChanNum ∧ out.opClass = derivedOpClass o ∧
        out.priBwMhz = p.bwMhz ∧ (out.pri1mhzChanIdx.toNat : ℤ) = primaryIdx p o bw ∧
        0 ≤ primaryIdx p o bw ∧ primaryIdx p o bw < bw.toNat) ∧
      (∀ e, r = .error e → e = .enoent) := by
  by_cases hex : ∃ p ∈ l.channels, IsPrimary p n bw ∧ ∃ o ∈ l.channels, Spans p bw o
  · obtain ⟨p, hpl, hp, o', ho'l, ho'⟩ := hex
    obtain ⟨o, hfind⟩ : ∃ o, (l.channels.find? fun o => Spans p bw o) = some o := by
      rw [← Option.isSome_iff_exists, List.find?_isSome]
      exact ⟨o', ho'l, by simpa using ho'⟩
    have ho : Spans p bw o := by simpa using List.find?_some hfind
    have hrange := primaryIdx_range hp ho
    refine ⟨.ok (derivedChannel p o bw),
      deriveOperatingChannel_ok exactOnFits_checked32 hnum hfreq hpl hp hfind,
      deriveOperatingChannel_ok exactOnFits_wrap32 hnum hfreq hpl hp hfind,
      ⟨fun _ => ⟨p, hpl, hp, o', ho'l, ho'⟩, fun _ => ⟨_, rfl⟩⟩, ?_, fun e he => by cases he⟩
    intro out hout
    cases hout
    exact ⟨p, hpl, o, hp, hfind, rfl, rfl, rfl, primaryIdx_ofNat hp ho, hrange⟩
  · have hnone : ∀ p ∈ l.channels, IsPrimary p n bw → ∀ o ∈ l.channels, ¬ Spans p bw o :=
      fun p hpl hp o hol ho => hex ⟨p, hpl, hp, o, hol, ho⟩
    refine ⟨.error .enoent, deriveOperatingChannel_error exactOnFits_checked32 hfreq hnone,
      deriveOperatingChannel_error exactOnFits_wrap32 hfreq hnone, ?_, ?_, ?_⟩
    · constructor
      · rintro ⟨out, hout⟩
        cases hout
      · exact fun h => absurd h hex
    · intro out hout
      cases hout
    · intro e he
      cases he
      rfl

/-- Two US entries: the 1 MHz channel 1 and the 2 MHz channel 2 above it. -/
def usChannels : ChannelList where
  countryCode := ⟨0x55, 0x53⟩
  channels := [⟨902500000, 68, 1, 1, 1, 30⟩, ⟨903000000, 69, 2, 2, 2, 30⟩]

theorem deriveOperatingChannel_spec_us :
    ∃ r, deriveOperatingChannel CInt.checked32 (some usChannels) 1 2 = some r ∧
      deriveOperatingChannelWrap (some usChannels) 1 2 = r ∧
      r = .ok { opClass := 2, s1gChanNum := 2, pri1mhzChanIdx := 0, priBwMhz := 1 } := by
  obtain ⟨r, hchecked, hwrap, -⟩ := deriveOperatingChannel_spec usChannels (by decide) (by decide) 1 2
  exact ⟨r, hchecked, hwrap, by rw [← hwrap]; rfl⟩

end MmIot
