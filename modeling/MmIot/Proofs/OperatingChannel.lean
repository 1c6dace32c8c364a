import MmIot.Proofs.ApChannel
import MmIot.Lib.Loops

/-! The two lookups of the operating channel. The first goes by frequency and bandwidth and
looks at the centre of the primary channel only; the second goes by number and class. -/

namespace MmIot

/-- The entries that the first two searches select for a primary channel number. -/
structure Selected (l : ChannelList) (n bw : UInt8) (p o : S1gChannel) : Prop where
  primary : (l.channels.find? fun c => c.s1gChanNum = n.toUInt16) = some p
  operating : (l.channels.find? fun c => Spans p bw c) = some o

/-- The lookup by number and class that `calc_primary_chan_idx` makes for `o`. -/
def lookupByClass (l : ChannelList) (o : S1gChannel) : Option S1gChannel :=
  l.channels.find? fun c => c.s1gChanNum = o.s1gChanNum ∧ opClassMatches c (derivedOpClass o)

theorem Selected.spans {l : ChannelList} {n bw : UInt8} {p o : S1gChannel}
    (h : Selected l n bw p o) : Spans p bw o := by
  simpa using List.find?_some h.operating

/-- What a successful derivation has been through, on any list. -/
theorem deriveOperatingChannelWrap_ok {l : ChannelList} {n bw : UInt8} {out : OperatingChannel}
    (hfreq : ∀ c ∈ l.channels, c.centreFreqHz.toNat < 2 ^ 31)
    (h : deriveOperatingChannelWrap (some l) n bw = .ok out) :
    ∃ p o, Selected l n bw p o ∧ IsPrimary p n bw ∧ out.s1gChanNum = o.s1gChanNum ∧
      out.opClass = derivedOpClass o ∧
      out.pri1mhzChanIdx = UInt8.ofNat (calcPrimaryChanIdx CInt.wrap32 (some l) (derivedOpClass o)
        o.s1gChanNum n).run.toNat := by
  unfold deriveOperatingChannelWrap deriveOperatingChannel at h
  dsimp only at h
  cases hprim : l.channels.find? fun c => c.s1gChanNum = n.toUInt16 with
  | none =>
    rw [hprim] at h
    cases h
  | some p =>
    have hpl := List.mem_of_find?_eq_some hprim
    have hnum : p.s1gChanNum = n.toUInt16 := by simpa using List.find?_some hprim
    simp only [hprim] at h
    split at h
    · cases h
    next hbw =>
      rw [not_or, UInt8.not_lt, UInt8.not_lt] at hbw
      rw [findOperatingChannel_eq exactOnFits_wrap32 (hfreq p hpl) bw hfreq, pure_bind] at h
      cases hop : l.channels.find? fun c => Spans p bw c with
      | none =>
        rw [hop] at h
        cases h
      | some o =>
        rw [hop] at h
        refine ⟨p, o, ⟨hprim, hop⟩, ⟨hnum, hbw⟩, ?_⟩
        change (if (calcPrimaryChanIdx CInt.wrap32 (some l) (derivedOpClass o) o.s1gChanNum n).run < 0
          then Except.error Errno.enoent else .ok _) = .ok out at h
        obtain ⟨-, ⟨⟩⟩ := Loops.check_eq_ok.mp h
        exact ⟨rfl, rfl, rfl⟩

/-! ### One entry or two -/

/-- The index belongs to the entry that the first lookup selected. -/
structure IndexOfSelected (l : ChannelList) (bw : UInt8) (p o : S1gChannel)
    (out : OperatingChannel) : Prop where
  lookup : lookupByClass l o = some o
  idx : (out.pri1mhzChanIdx.toNat : ℤ) = primaryIdx p o bw
  lt : out.pri1mhzChanIdx < bw
  valid : morsemicroApChannelIsValid (some l) out.opClass out.s1gChanNum bw
    out.pri1mhzChanIdx = true

/-- No entry in front of `o` has its number and a class that passes for `o`'s. -/
def NoNamesakeBefore (l : ChannelList) (o : S1gChannel) : Prop :=
  ∃ before after, l.channels = before ++ o :: after ∧
    ∀ c ∈ before, c.s1gChanNum = o.s1gChanNum → opClassMatches c (derivedOpClass o) = false

theorem lookupByClass_eq_some_iff (l : ChannelList) (o : S1gChannel) :
    lookupByClass l o = some o ↔ NoNamesakeBefore l o := by
  simp [lookupByClass, NoNamesakeBefore, List.find?_eq_some_iff_append,
    opClassMatches_derivedOpClass, or_iff_not_imp_left]

/-- The validity check accepts any index below the bandwidth of a selected entry. -/
theorem Selected.valid {l : ChannelList} {n bw : UInt8} {p o : S1gChannel}
    (h : Selected l n bw p o) {idx : UInt8} (hidx : idx < bw) :
    morsemicroApChannelIsValid (some l) (derivedOpClass o) o.s1gChanNum bw idx = true := by
  have hne : ¬ (bw = 0 ∨ bw ≤ idx) := by
    rintro (rfl | hle)
    · exact absurd hidx (UInt8.not_lt.mpr (UInt8.zero_le))
    · exact absurd hidx (UInt8.not_lt.mpr hle)
  simp only [morsemicroApChannelIsValid, if_neg hne, List.any_eq_true]
  refine ⟨o, List.mem_of_find?_eq_some h.operating, ?_⟩
  simp [h.spans.1, opClassMatches_derivedOpClass]

/-- On any list, duplicated numbers and skip classes included, the index of a successful
derivation belongs to the selected entry if and only if no namesake stands before it. -/
theorem indexOfSelected_iff_noNamesakeBefore (l : ChannelList)
    (hfreq : ∀ c ∈ l.channels, c.centreFreqHz.toNat < 2 ^ 31) (n bw : UInt8)
    (out : OperatingChannel) (h : deriveOperatingChannelWrap (some l) n bw = .ok out) :
    ∃ p o, Selected l n bw p o ∧ (IndexOfSelected l bw p o out ↔ NoNamesakeBefore l o) := by
  obtain ⟨p, o, hsel, hp, hnum, hclass, hidx⟩ := deriveOperatingChannelWrap_ok hfreq h
  refine ⟨p, o, hsel, ?_⟩
  rw [← lookupByClass_eq_some_iff]
  refine ⟨?_, ?_⟩
  · intro hind
    exact hind.lookup
  · intro hlookup
    have hcalc := calcPrimaryChanIdx_eq exactOnFits_wrap32 hp hsel.spans
      (hfreq p (List.mem_of_find?_eq_some hsel.primary))
      (hfreq o (List.mem_of_find?_eq_some hsel.operating)) hlookup hsel.primary
    rw [hcalc] at hidx
    change out.pri1mhzChanIdx = UInt8.ofNat (primaryIdx p o bw).toNat at hidx
    have hval : (out.pri1mhzChanIdx.toNat : ℤ) = primaryIdx p o bw := by
      rw [hidx]
      exact primaryIdx_ofNat hp hsel.spans
    have hlt : out.pri1mhzChanIdx < bw := by
      have hrange := primaryIdx_range hp hsel.spans
      rw [UInt8.lt_iff_toNat_lt]
      omega
    refine ⟨hlookup, hval, hlt, ?_⟩
    rw [hclass, hnum]
    exact hsel.valid hlt

theorem usChannels_selected {p o : S1gChannel} (h : Selected usChannels 1 2 p o) :
    usChannels.channels = [p, o] := by
  have hp := h.primary
  cases hp
  have ho := h.operating
  cases ho
  rfl

theorem indexOfSelected_iff_noNamesakeBefore_us :
    ∃ out, deriveOperatingChannelWrap (some usChannels) 1 2 = .ok out ∧
      ∃ p o, Selected usChannels 1 2 p o ∧ IndexOfSelected usChannels 2 p o out := by
  refine ⟨⟨2, 2, 0, 1⟩, rfl, ?_⟩
  obtain ⟨p, o, hsel, hiff⟩ :=
    indexOfSelected_iff_noNamesakeBefore usChannels (by decide) 1 2 ⟨2, 2, 0, 1⟩ rfl
  refine ⟨p, o, hsel, hiff.mpr ?_⟩
  cases usChannels_selected hsel
  exact ⟨[_], [], rfl, by decide⟩

/-- A 4 MHz entry of any class stands before the 2 MHz entry with the same number. -/
def namesakeChannels : ChannelList where
  countryCode := ⟨0x55, 0x53⟩
  channels := [⟨902500000, 68, 1, 1, 1, 30⟩, ⟨903000000, -1, -1, 2, 4, 30⟩,
    ⟨903000000, 69, 2, 2, 2, 30⟩]

/-- The lower half of the 2 MHz channel is reported as the upper one. -/
theorem namesake_not_indexOfSelected :
    (∀ c ∈ namesakeChannels.channels, c.centreFreqHz.toNat < 2 ^ 31) ∧
      deriveOperatingChannelWrap (some namesakeChannels) 1 2 = .ok ⟨2, 2, 1, 1⟩ ∧
      ∀ p o, Selected namesakeChannels 1 2 p o → primaryIdx p o 2 = 0 ∧
        ¬ IndexOfSelected namesakeChannels 2 p o ⟨2, 2, 1, 1⟩ := by
  refine ⟨by decide, rfl, ?_⟩
  intro p o hsel
  have hp := hsel.primary
  cases hp
  have ho := hsel.operating
  cases ho
  refine ⟨rfl, ?_⟩
  intro hind
  have hidx := hind.idx
  cases hidx

/-! ### Bands -/

def S1gChannel.lowerEdge (c : S1gChannel) : ℤ := (c.centreFreqHz.toNat : ℤ) - c.bwMhz.toNat * 500000

def S1gChannel.upperEdge (c : S1gChannel) : ℤ := (c.centreFreqHz.toNat : ℤ) + c.bwMhz.toNat * 500000

/-- The band of `p` lies inside the band of `o`. -/
def BandInside (p o : S1gChannel) : Prop := o.lowerEdge ≤ p.lowerEdge ∧ p.upperEdge ≤ o.upperEdge

instance (p o : S1gChannel) : Decidable (BandInside p o) := inferInstanceAs (Decidable (_ ∧ _))

/-- ... and starts `i` MHz above its lower edge. -/
def BandInsideAt (p o : S1gChannel) (i : ℕ) : Prop :=
  BandInside p o ∧ p.lowerEdge = o.lowerEdge + i * 1000000

/-- A successful derivation returns a channel that contains the primary one at the index it
returns, and where there is none the call fails. -/
structure DerivesContaining (l : ChannelList) (n bw : UInt8) : Prop where
  inside : ∀ out, deriveOperatingChannelWrap (some l) n bw = .ok out →
    ∀ p ∈ l.channels, ∀ o ∈ l.channels, p.s1gChanNum = n.toUInt16 →
      o.s1gChanNum = out.s1gChanNum → o.bwMhz = bw ∧ BandInsideAt p o out.pri1mhzChanIdx.toNat
  fails : (∀ p ∈ l.channels, ∀ o ∈ l.channels, p.s1gChanNum = n.toUInt16 → o.bwMhz = bw →
    ∀ i, ¬ BandInsideAt p o i) → ∃ e, deriveOperatingChannelWrap (some l) n bw = .error e

/-- The first entry whose half span holds the centre of the primary channel contains its
band, a whole number of MHz from edge to edge. -/
def FirstSpanFits (l : ChannelList) (n bw : UInt8) : Prop :=
  ∀ p o, Selected l n bw p o → IsPrimary p n bw →
    BandInside p o ∧ (1000000 : ℤ) ∣ p.lowerEdge - o.lowerEdge

/-- The index is the distance of the lower edges, rounded. -/
theorem primaryIdx_eq_edges {p o : S1gChannel} {bw : UInt8} (ho : o.bwMhz = bw) :
    primaryIdx p o bw = (p.lowerEdge - o.lowerEdge).tdiv 1000000 := by
  have hdist : freqOffset p o + ((bw.toNat : ℤ) - p.bwMhz.toNat) * 500000 =
      p.lowerEdge - o.lowerEdge := by
    rw [freqOffset, S1gChannel.lowerEdge, S1gChannel.lowerEdge, ho]
    ring
  rw [primaryIdx, hdist]

/-- On a list with distinct numbers the derivation works on the two selected entries. -/
theorem deriveOperatingChannelWrap_selected {l : ChannelList} {n bw : UInt8}
    {out : OperatingChannel} (hnum : (l.channels.map S1gChannel.s1gChanNum).Nodup)
    (hfreq : ∀ c ∈ l.channels, c.centreFreqHz.toNat < 2 ^ 31)
    (h : deriveOperatingChannelWrap (some l) n bw = .ok out) :
    ∃ p o, Selected l n bw p o ∧ IsPrimary p n bw ∧ out = derivedChannel p o bw := by
  obtain ⟨p, o, hsel, hp, -⟩ := deriveOperatingChannelWrap_ok hfreq h
  refine ⟨p, o, hsel, hp, ?_⟩
  have hok := deriveOperatingChannel_ok exactOnFits_wrap32 hnum hfreq
    (List.mem_of_find?_eq_some hsel.primary) hp hsel.operating
  rw [deriveOperatingChannelWrap, hok] at h
  cases h
  rfl

/-- A selected pair is contained at its index exactly when it fits. -/
theorem bandInsideAt_iff {p o : S1gChannel} {n bw : UInt8} (hp : IsPrimary p n bw)
    (ho : Spans p bw o) :
    BandInsideAt p o (derivedChannel p o bw).pri1mhzChanIdx.toNat ↔
      BandInside p o ∧ (1000000 : ℤ) ∣ p.lowerEdge - o.lowerEdge := by
  have hidx : ((derivedChannel p o bw).pri1mhzChanIdx.toNat : ℤ) = primaryIdx p o bw :=
    primaryIdx_ofNat hp ho
  rw [primaryIdx_eq_edges ho.1] at hidx
  rw [BandInsideAt, hidx]
  refine and_congr_right fun _ => ?_
  refine ⟨?_, ?_⟩
  · intro hlower
    exact Dvd.intro_left ((p.lowerEdge - o.lowerEdge).tdiv 1000000)
      (eq_sub_of_add_eq' hlower.symm)
  · intro hdvd
    have hmul := Int.tdiv_mul_cancel hdvd
    omega

/-- On a list with distinct numbers the derived channel contains the primary one, and a
missing one fails, if and only if the first spanning entry fits. -/
theorem derivesContaining_iff_firstSpanFits (l : ChannelList)
    (hnum : (l.channels.map S1gChannel.s1gChanNum).Nodup)
    (hfreq : ∀ c ∈ l.channels, c.centreFreqHz.toNat < 2 ^ 31) (n bw : UInt8) :
    DerivesContaining l n bw ↔ FirstSpanFits l n bw := by
  refine ⟨?_, ?_⟩
  · intro h p o hsel hp
    have hpl := List.mem_of_find?_eq_some hsel.primary
    have hol := List.mem_of_find?_eq_some hsel.operating
    have hok := deriveOperatingChannel_ok exactOnFits_wrap32 hnum hfreq hpl hp hsel.operating
    have hinside := h.inside (derivedChannel p o bw) hok p hpl o hol hp.1 rfl
    exact (bandInsideAt_iff hp hsel.spans).mp hinside.2
  · intro h
    refine ⟨?_, ?_⟩
    · intro out hout p' hpl' o' hol' hpn hon
      obtain ⟨p, o, hsel, hp, rfl⟩ := deriveOperatingChannelWrap_selected hnum hfreq hout
      -- the numbers are distinct, so these are the selected entries
      obtain rfl : p' = p := List.inj_on_of_nodup_map hnum hpl'
        (List.mem_of_find?_eq_some hsel.primary) (hpn.trans hp.1.symm)
      obtain rfl : o' = o := List.inj_on_of_nodup_map hnum hol'
        (List.mem_of_find?_eq_some hsel.operating) hon
      exact ⟨hsel.spans.1, (bandInsideAt_iff hp hsel.spans).mpr (h p' o' hsel hp)⟩
    · intro hnone
      cases hout : deriveOperatingChannelWrap (some l) n bw with
      | error e => exact ⟨e, rfl⟩
      | ok out =>
        obtain ⟨p, o, hsel, hp, rfl⟩ := deriveOperatingChannelWrap_selected hnum hfreq hout
        exact absurd ((bandInsideAt_iff hp hsel.spans).mpr (h p o hsel hp))
          (hnone p (List.mem_of_find?_eq_some hsel.primary) o
            (List.mem_of_find?_eq_some hsel.operating) hp.1 hsel.spans.1 _)

theorem derivesContaining_iff_firstSpanFits_us : DerivesContaining usChannels 1 2 := by
  refine (derivesContaining_iff_firstSpanFits usChannels (by decide) (by decide) 1 2).mpr ?_
  intro p o hsel _
  cases usChannels_selected hsel
  exact ⟨by decide, by decide⟩

/-- A 2 MHz channel that begins half a MHz below the 4 MHz channel its centre lies in. -/
def staggeredChannels : ChannelList where
  countryCode := ⟨0x55, 0x53⟩
  channels := [⟨902500000, 69, 2, 1, 2, 30⟩, ⟨904000000, 70, 3, 2, 4, 30⟩]

/-- It is reported as the lowest 1 MHz of that channel. -/
theorem staggered_not_derivesContaining :
    (staggeredChannels.channels.map S1gChannel.s1gChanNum).Nodup ∧
      (∀ c ∈ staggeredChannels.channels, c.centreFreqHz.toNat < 2 ^ 31) ∧
      deriveOperatingChannelWrap (some staggeredChannels) 1 4 = .ok ⟨3, 2, 0, 2⟩ ∧
      ¬ DerivesContaining staggeredChannels 1 4 := by
  refine ⟨by decide, by decide, rfl, ?_⟩
  intro h
  have hinside := h.inside ⟨3, 2, 0, 2⟩ rfl ⟨902500000, 69, 2, 1, 2, 30⟩ (by decide)
    ⟨904000000, 70, 3, 2, 4, 30⟩ (by decide) rfl rfl
  exact absurd hinside.2.1.1 (by decide)

end MmIot
