import MmIot.Spec.ScanResult
import Mathlib.Data.Nat.Bitwise

/-! Whether a scan result gets to the application as it was received. The security is the
strongest suite in any order; the SSID is cut to 31 bytes. -/

namespace MmIot

/-- One of the suites counts as `security`, and none as more. -/
structure StrongestOf (suites : List AkmSuite) (security : ScanSecurity) : Prop where
  mem : ∃ suite ∈ suites, suite.security = security
  le : ∀ suite ∈ suites, suite.security.toNat ≤ security.toNat

/-- There is no RSN element, and its structure is cleared; or the parser accepts it. -/
def RsnParses (parsers : ElementParsers) (ies : List UInt8) : Prop :=
  parsers.rsnInformation ies = (RSN_NOT_FOUND, ⟨0, []⟩) ∨
    (parsers.rsnInformation ies).1 ≠ RSN_NOT_FOUND ∧ (parsers.rsnInformation ies).1 ≠ RSN_PARSE_ERR

/-- The report says what was received; capability bits 7 and 6 are MFPC and MFPR. -/
structure Faithful (result : MmwlanScanResult) (rsn : RsnInformation) (report : WifiScanResult) :
    Prop where
  ssidLength : report.ssidLength = result.ssid.length
  ssid : report.ssid.take report.ssidLength = result.ssid
  noSuite : rsn.akmSuites = [] → report.security = .none
  security : rsn.akmSuites ≠ [] → StrongestOf rsn.akmSuites report.security
  order : ∀ suites : List AkmSuite, suites.Perm rsn.akmSuites → akmSecurity suites = report.security
  mfp : report.mfp =
    if rsn.rsnCapabilities.toNat.testBit 7 then
      if rsn.rsnCapabilities.toNat.testBit 6 then .required else .optional
    else .disable

/-! ### Security -/

theorem ScanSecurity.toNat_injective {a b : ScanSecurity} (h : a.toNat = b.toNat) : a = b := by
  cases a <;> cases b <;> first | rfl | cases h

theorem ScanSecurity.max_toNat (a b : ScanSecurity) : (a.max b).toNat = Nat.max a.toNat b.toNat := by
  cases a <;> cases b <;> rfl

/-- The loop keeps what it started from or takes a suite, and is above both. -/
theorem foldl_max_security (suites : List AkmSuite) (start : ScanSecurity) :
    let security := suites.foldl (fun security suite => security.max suite.security) start
    (security = start ∨ ∃ suite ∈ suites, suite.security = security) ∧
      start.toNat ≤ security.toNat ∧ ∀ suite ∈ suites, suite.security.toNat ≤ security.toNat := by
  induction suites generalizing start with
  | nil => exact ⟨.inl rfl, Nat.le_refl _, nofun⟩
  | cons suite suites ih =>
    obtain ⟨hmem, hstart, hall⟩ := ih (start.max suite.security)
    rw [ScanSecurity.max_toNat] at hstart
    refine ⟨?_, (Nat.le_max_left _ _).trans hstart,
      List.forall_mem_cons.mpr ⟨(Nat.le_max_right _ _).trans hstart, hall⟩⟩
    rcases hmem with h | ⟨later, hlater, h⟩
    · rw [List.foldl_cons, h, ScanSecurity.max]
      split
      · exact .inl rfl
      · exact .inr ⟨suite, List.mem_cons_self, rfl⟩
    · exact .inr ⟨later, List.mem_cons_of_mem _ hlater, h⟩

theorem strongestOf_akmSecurity {suites : List AkmSuite} (hne : suites ≠ []) :
    StrongestOf suites (akmSecurity suites) := by
  obtain ⟨hmem, -, hall⟩ := foldl_max_security suites .none
  refine ⟨?_, hall⟩
  rcases hmem with h | h
  · -- then the first suite counts as none as well
    obtain ⟨suite, suites, rfl⟩ := List.exists_cons_of_ne_nil hne
    refine ⟨suite, List.mem_cons_self, ScanSecurity.toNat_injective (Nat.le_antisymm ?_ ?_)⟩
    · exact hall suite List.mem_cons_self
    · rw [akmSecurity, h]
      exact Nat.zero_le _
  · exact h

theorem StrongestOf.unique {suites : List AkmSuite} {a b : ScanSecurity}
    (ha : StrongestOf suites a) (hb : StrongestOf suites b) : a = b := by
  obtain ⟨suite, hsuite, rfl⟩ := ha.mem
  obtain ⟨suite', hsuite', rfl⟩ := hb.mem
  exact ScanSecurity.toNat_injective (Nat.le_antisymm (hb.le suite hsuite) (ha.le suite' hsuite'))

theorem StrongestOf.perm {suites suites' : List AkmSuite} {security : ScanSecurity}
    (h : StrongestOf suites security) (hperm : suites.Perm suites') : StrongestOf suites' security := by
  obtain ⟨suite, hsuite, hsecurity⟩ := h.mem
  exact ⟨⟨suite, hperm.mem_iff.mp hsuite, hsecurity⟩,
    fun suite' hsuite' => h.le suite' (hperm.mem_iff.mpr hsuite')⟩

theorem akmSecurity_perm {suites suites' : List AkmSuite} (h : suites.Perm suites') :
    akmSecurity suites = akmSecurity suites' := by
  by_cases hne : suites = []
  · subst hne
    rw [List.nil_perm.mp h]
  · have hne' : suites' ≠ [] := fun hnil => hne (List.perm_nil.mp (hnil ▸ h))
    exact ((strongestOf_akmSecurity hne).perm h).unique (strongestOf_akmSecurity hne')

/-! ### Management frame protection -/

theorem and_bit_ne_zero_iff (x mask : UInt16) (i : ℕ) (hmask : mask.toNat = 2 ^ i) :
    x &&& mask ≠ 0 ↔ x.toNat.testBit i := by
  rw [ne_eq, ← UInt16.toNat_inj, UInt16.toNat_and, hmask, Nat.and_two_pow]
  cases x.toNat.testBit i <;> simp

theorem rsnMfp_eq (capabilities : UInt16) :
    rsnMfp capabilities =
      if capabilities.toNat.testBit 7 then
        if capabilities.toNat.testBit 6 then .required else .optional
      else .disable := by
  simp only [rsnMfp, and_bit_ne_zero_iff _ RSN_MFPC 7 rfl, and_bit_ne_zero_iff _ RSN_MFPR 6 rfl]

/-! ### The report -/

section Report

variable {parsers : ElementParsers} {channelList : Option ChannelList} {result : MmwlanScanResult}

theorem scanCallback_isSome (hs1g : (parsers.s1gOperation result.ies).1 = 0)
    (hrsn : RsnParses parsers result.ies) (hlist : channelList ≠ none) :
    ∃ report, scanCallback parsers channelList result = some report ∧
      report.ssidLength = min result.ssid.length 31 ∧
      report.ssid = (memcpy (List.replicate 33 0) result.ssid (min result.ssid.length 31)).set 31 0 ∧
      report.security =
        (if (parsers.rsnInformation result.ies).1 = RSN_NOT_FOUND ∨
            (parsers.rsnInformation result.ies).2.akmSuites.length = 0 then .none
          else akmSecurity (parsers.rsnInformation result.ies).2.akmSuites) ∧
      report.mfp = rsnMfp (parsers.rsnInformation result.ies).2.rsnCapabilities := by
  have hparsed : (parsers.rsnInformation result.ies).1 ≠ RSN_PARSE_ERR := by
    rcases hrsn with h | h
    · rw [h]
      decide
    · exact h.2
  have hclamp : (if result.ssid.length < WIFI_SSID_MAX_LEN - 1 then result.ssid.length
      else WIFI_SSID_MAX_LEN - 1) = min result.ssid.length 31 := by
    rw [WIFI_SSID_MAX_LEN]
    split <;> omega
  unfold scanCallback
  rw [if_neg hlist, hclamp]
  dsimp only
  rw [if_neg (not_not.mpr hs1g), if_neg hparsed]
  exact ⟨_, rfl, rfl, rfl, rfl, rfl⟩

/-- The copy of a short SSID, and the terminator behind it. -/
theorem take_memcpy_set {ssid : List UInt8} (h : ssid.length ≤ 31) :
    ((memcpy (List.replicate 33 0) ssid (min ssid.length 31)).set 31 0).take
      (min ssid.length 31) = ssid := by
  rw [Nat.min_eq_left h, List.take_set_of_le h, take_memcpy _ _ (Nat.le_refl _), List.take_length]

/-- A result whose elements parse is reported faithfully if and only if the driver has a
channel list and the SSID is no longer than 31 bytes. -/
theorem scanCallback_faithful_iff (hs1g : (parsers.s1gOperation result.ies).1 = 0)
    (hrsn : RsnParses parsers result.ies) :
    (∃ report, scanCallback parsers channelList result = some report ∧
        Faithful result (parsers.rsnInformation result.ies).2 report) ↔
      channelList ≠ none ∧ result.ssid.length ≤ 31 := by
  by_cases hlist : channelList = none
  · have hnone : scanCallback parsers channelList result = none := if_pos hlist
    rw [hnone]
    exact iff_of_false (by simp) fun h => h.1 hlist
  · obtain ⟨report, hreport, hlen, hbytes, hsecurity, hmfp⟩ := scanCallback_isSome hs1g hrsn hlist
    refine ⟨?_, ?_⟩
    · rintro ⟨report', hreport', hfaithful⟩
      cases hreport.symm.trans hreport'
      have hsame := hlen.symm.trans hfaithful.ssidLength
      exact ⟨hlist, by omega⟩
    · rintro ⟨-, hshort⟩
      refine ⟨report, hreport, ?_⟩
      unfold RsnParses at hrsn
      generalize parsers.rsnInformation result.ies = parsed at hrsn hsecurity hmfp ⊢
      -- without an element there is no suite either, so the loop says it all
      have hall : report.security = akmSecurity parsed.2.akmSuites := by
        rw [hsecurity]
        split
        next h =>
          have hnil : parsed.2.akmSuites = [] := by
            rcases hrsn with hcleared | hfound
            · rw [hcleared]
            · exact List.eq_nil_of_length_eq_zero (h.resolve_left hfound.1)
          rw [hnil]
          rfl
        next => rfl
      refine ⟨hlen.trans (Nat.min_eq_left hshort), ?_, ?_, ?_, ?_, hmfp.trans (rsnMfp_eq _)⟩
      · rw [hbytes, hlen, take_memcpy_set hshort]
      · intro hnil
        rw [hall, hnil]
        rfl
      · intro hne
        rw [hall]
        exact strongestOf_akmSecurity hne
      · intro suites hperm
        rw [hall, akmSecurity_perm hperm]

end Report

/-! ### A network with two suites -/

/-- An RSN element with PSK and SAE that asks for protection, whatever the bytes are. -/
def pskSaeParsers : ElementParsers where
  s1gOperation := fun _ => (0, 36)
  rsnInformation := fun _ => (0, ⟨0x00C0, [.sae, .psk, .sae]⟩)

def someChannels : ChannelList := ⟨⟨0x55, 0x53⟩, []⟩

/-- A result whose SSID is `n` times the letter a. -/
def ssidResult (n : ℕ) : MmwlanScanResult where
  ssid := List.replicate n 0x61
  bssid := [0x0C, 0xBF, 0x74, 0, 0, 1]
  rssi := -60
  ies := []

theorem scanCallback_faithful_iff_31 :
    ∃ report, scanCallback pskSaeParsers (some someChannels) (ssidResult 31) = some report ∧
      Faithful (ssidResult 31) ⟨0x00C0, [.sae, .psk, .sae]⟩ report := by
  have hparses : RsnParses pskSaeParsers (ssidResult 31).ies := .inr ⟨by decide, by decide⟩
  exact (scanCallback_faithful_iff rfl hparses).mpr ⟨by simp, by decide⟩

/-- Of 32 bytes, 31 are reported. -/
theorem longSsid_not_faithful :
    ∃ report, scanCallback pskSaeParsers (some someChannels) (ssidResult 32) = some report ∧
      report.ssidLength = 31 ∧ report.ssid = List.replicate 31 0x61 ++ [0, 0] ∧
      ¬ Faithful (ssidResult 32) ⟨0x00C0, [.sae, .psk, .sae]⟩ report := by
  refine ⟨_, rfl, rfl, rfl, ?_⟩
  intro h
  exact absurd h.ssidLength (by decide)

end MmIot
