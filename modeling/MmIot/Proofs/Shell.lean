import MmIot.Proofs.Radio
import MmIot.Spec.Shell

/-! The bandwidth command narrows what was typed to eight bits before it is checked. -/

namespace MmIot

open Strtoul

def IsBandwidth (n : ℕ) : Prop := n = 1 ∨ n = 2 ∨ n = 4 ∨ n = 8

/-- Success stores the value, and only a bandwidth succeeds. -/
structure StoresTyped (value : ℕ) (s : State) (r : Except Errno Unit × State) : Prop where
  success : r.1 = .ok () → IsBandwidth value ∧ r.2.data.ap.s1gBwMhz.toNat = value
  failure : ¬ IsBandwidth value → r.1 ≠ .ok () ∧ r.2.data.ap.s1gBwMhz = s.data.ap.s1gBwMhz

theorem isBandwidth_toNat (bwMhz : UInt8) :
    IsBandwidth bwMhz.toNat ↔ ¬(bwMhz ≠ 1 ∧ bwMhz ≠ 2 ∧ bwMhz ≠ 4 ∧ bwMhz ≠ 8) := by
  simp only [IsBandwidth, ne_eq, ← UInt8.toNat_inj, UInt8.toNat_ofNat]
  omega

/-- The request handler checks the byte it is given. -/
theorem morsemicroMgmtS1gBandwidth_accepts {bwMhz : UInt8} (h : IsBandwidth bwMhz.toNat)
    (s : State) :
    morsemicroMgmtS1gBandwidth [bwMhz] s = (.ok (), { s with data.ap.s1gBwMhz := bwMhz }) :=
  if_neg ((isBandwidth_toNat bwMhz).mp h)

theorem morsemicroMgmtS1gBandwidth_refuses {bwMhz : UInt8} (h : ¬ IsBandwidth bwMhz.toNat)
    (s : State) : morsemicroMgmtS1gBandwidth [bwMhz] s = (.error .einval, s) :=
  if_pos (not_not.mp ((isBandwidth_toNat bwMhz).not.mp h))

theorem StoresTyped.of_error {value : ℕ} {s : State} (e : Errno) :
    StoresTyped value s (.error e, s) :=
  ⟨nofun, fun _ => ⟨nofun, rfl⟩⟩

/-- The command does as it was told if and only if there is no AP, or what was typed fits
eight bits, or its low byte is no bandwidth. -/
theorem cmdS1gBandwidth_storesTyped_iff (w : ℕ) (sap : Bool) (arg : List UInt8) (s : State) :
    StoresTyped (strtoul w arg) s (cmdS1gBandwidth w sap arg s) ↔
      sap = false ∨ strtoul w arg < 256 ∨ ¬ IsBandwidth (strtoul w arg % 256) := by
  have hlow : (UInt8.ofNat (strtoul w arg)).toNat = strtoul w arg % 256 := UInt8.toNat_ofNat'
  unfold cmdS1gBandwidth
  generalize strtoul w arg = value at hlow ⊢
  cases sap with
  | false => exact iff_of_true (.of_error .enodev) (.inl rfl)
  | true =>
    by_cases hbw : IsBandwidth (value % 256)
    · have hrun := morsemicroMgmtS1gBandwidth_accepts (hlow ▸ hbw) s
      rw [if_pos rfl, hrun]
      refine ⟨fun h => ?_, fun h => ?_⟩
      · have hstored : (UInt8.ofNat value).toNat = value := (h.success rfl).2
        exact .inr (.inl (by omega))
      · have hlt : value < 256 := by
          rcases h with h | h | h
          · exact absurd h (by decide)
          · exact h
          · exact absurd hbw h
        rw [Nat.mod_eq_of_lt hlt] at hlow hbw
        exact ⟨fun _ => ⟨hbw, hlow⟩, fun h => absurd hbw h⟩
    · have hrun := morsemicroMgmtS1gBandwidth_refuses (hlow ▸ hbw) s
      rw [if_pos rfl, hrun]
      exact iff_of_true (.of_error .einval) (.inr (.inr hbw))

/-- "257" succeeds and stores 1. -/
theorem typed257_stores1 :
    strtoul 32 [0x32, 0x35, 0x37] = 257 ∧
      (cmdS1gBandwidth 32 true [0x32, 0x35, 0x37] usBoot).1 = .ok () ∧
      (cmdS1gBandwidth 32 true [0x32, 0x35, 0x37] usBoot).2.data.ap.s1gBwMhz = 1 ∧
      ¬ StoresTyped 257 usBoot (cmdS1gBandwidth 32 true [0x32, 0x35, 0x37] usBoot) := by
  have hbandwidth : IsBandwidth (1 : UInt8).toNat := .inl rfl
  have hrun := morsemicroMgmtS1gBandwidth_accepts hbandwidth usBoot
  have htyped : strtoul 32 [0x32, 0x35, 0x37] = 257 := by decide
  have hcmd : cmdS1gBandwidth 32 true [0x32, 0x35, 0x37] usBoot =
      morsemicroMgmtS1gBandwidth [1] usBoot := by
    rw [cmdS1gBandwidth, if_pos rfl, htyped]
    rfl
  rw [hcmd, hrun]
  refine ⟨htyped, rfl, rfl, ?_⟩
  intro h
  have hbw := (h.success rfl).1
  unfold IsBandwidth at hbw
  omega

end MmIot
