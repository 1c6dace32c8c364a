import MmIot.Spec.Critical

/-! One lock key is enough for sections that do not nest, whether they yield or not. For
sections that nest it is not, and without a yield the interrupts are not unlocked again. -/

namespace MmIot

open Transition

/-- The key tells how the last section was entered. -/
structure KeyInv {T : Type} (s : CriticalState T) : Prop where
  exact : s.Exact
  key : s.irqLockKey = some s.nested ∨ s.irqLockKey = none ∧ ∀ t, s.depth t = 0

theorem KeyInv.start {T : Type} {s : CriticalState T} (h : CriticalStart s) : KeyInv s where
  exact := fun t => by simp [h.2.2 t]
  key := .inr ⟨h.1, fun t => (h.2.2 t).2⟩

variable {T : Type} [DecidableEq T] {s s' : CriticalState T}

theorem KeyInv.enter (h : KeyInv s) {t : T} (hs : criticalStep s (.enter t) = some s') :
    KeyInv s' := by
  cases hs
  refine ⟨fun u => ?_, .inl ?_⟩
  · by_cases hu : u = t
    · subst hu
      simp
    · simpa [hu] using h.exact u
  · refine congrArg some (Bool.eq_iff_iff.mpr ?_)
    rw [h.exact t, decide_eq_true_iff]

/-- A section that is left unlocks what the key says. -/
theorem KeyInv.of_exit (h : KeyInv s) {t : T} (hs : criticalStep s (.exit t) = some s') :
    0 < s.depth t ∧ s' = { s with
      locked := Function.update s.locked t s.nested
      irqLockKey := some s.nested
      depth := Function.update s.depth t (s.depth t - 1) } := by
  simp only [criticalStep] at hs
  split_ifs at hs with hdepth
  rcases h.key with hkey | ⟨-, hnone⟩
  · rw [hkey] at hs
    cases hs
    exact ⟨by omega, rfl⟩
  · exact absurd (hnone t) hdepth

theorem KeyInv.exit_exact_iff (h : KeyInv s) {t : T} (hs : criticalStep s (.exit t) = some s') :
    s'.Exact ↔ (s.nested = true ↔ 1 < s.depth t) := by
  obtain ⟨hdepth, rfl⟩ := h.of_exit hs
  constructor
  · intro h'
    have hlocked := h' t
    simp only [Function.update_self] at hlocked
    rw [hlocked]
    omega
  · intro hiff u
    by_cases hu : u = t
    · subst hu
      simp only [Function.update_self]
      rw [hiff]
      omega
    · simpa [hu] using h.exact u

/-- Entering a section does no harm, and leaving one does unless the key was found by one like
it. -/
theorem KeyInv.exact_iff (h : KeyInv s) {a : CriticalAction T} (hs : criticalStep s a = some s') :
    s'.Exact ↔ Restores s a := by
  cases a with
  | enter t => exact iff_of_true (h.enter hs).exact nofun
  | exit t =>
    rw [h.exit_exact_iff hs]
    constructor
    · intro hiff u hu
      cases hu
      exact hiff
    · exact fun hall => hall t rfl

theorem KeyInv.step_iff (h : KeyInv s) {a : CriticalAction T} (hs : criticalStep s a = some s') :
    KeyInv s' ↔ Restores s a := by
  rw [← h.exact_iff hs]
  refine ⟨KeyInv.exact, fun hexact => ?_⟩
  cases a with
  | enter t => exact h.enter hs
  | exit t =>
    obtain ⟨-, rfl⟩ := h.of_exit hs
    exact ⟨hexact, .inl rfl⟩

/-! ### Sections that do not nest -/

theorem restores_of_flat (hs : Reach CriticalStart Flat criticalStep s) :
    Reach CriticalStart Restores criticalStep s ∧ s.nested = false ∧ ∀ t, s.depth t ≤ 1 := by
  induction hs with
  | start h => exact ⟨.start h, h.2.1, fun t => by simp [h.2.2 t]⟩
  | @next s s' a _ hg hstep ih =>
    obtain ⟨hreach, hnested, hdepth⟩ := ih
    cases a with
    | enter t =>
      refine ⟨hreach.next (fun u hu => by cases hu) hstep, ?_⟩
      cases hstep
      have hzero := hg t rfl
      refine ⟨by simp [hzero], fun u => ?_⟩
      by_cases hu : u = t
      · subst hu
        simp [hzero]
      · simpa [hu] using hdepth u
    | exit t =>
      refine ⟨hreach.next (fun u _ => ?_) hstep, ?_⟩
      · have hone := hdepth u
        simp [hnested, hone]
      · simp only [criticalStep] at hstep
        split_ifs at hstep
        obtain ⟨key, -, rfl⟩ := Option.map_eq_some_iff.mp hstep
        refine ⟨hnested, fun u => ?_⟩
        by_cases hu : u = t
        · subst hu
          have hone := hdepth u
          simp only [Function.update_self]
          omega
        · simpa [hu] using hdepth u

/-! ### Sections that nest -/

/-- A key found in a section locks for good. -/
theorem locked_of_nested {t : T} (hs : Reach (fun r => r.locked t = true ∧ r.irqLockKey = some true)
    Unyielding criticalStep s) : s.locked t = true ∧ s.irqLockKey = some true := by
  induction hs with
  | start h => exact h
  | @next s s' a _ hg hstep ih =>
    obtain ⟨hlocked, hkey⟩ := ih
    rcases hg t hlocked with rfl | rfl
    · cases hstep
      simp [hlocked]
    · simp only [criticalStep, hkey] at hstep
      split_ifs at hstep
      cases hstep
      simp

/-- The interrupts are locked in the sections and nowhere else as long as each section that is
left is inside another exactly if the last one entered was, and no longer. Sections that do not
nest are all like that, whether they yield or not. Where they do not yield, the thread that has
nested one never gets its interrupts back. -/
theorem critical_exact :
    (∀ s : CriticalState T, Reach CriticalStart Restores criticalStep s → s.Exact) ∧
    (∀ (s : CriticalState T) a s', Reach CriticalStart Restores criticalStep s →
      criticalStep s a = some s' → ¬ Restores s a → ¬ s'.Exact) ∧
    (∀ s : CriticalState T, Reach CriticalStart Flat criticalStep s →
      Reach CriticalStart Restores criticalStep s) ∧
    ∀ (s : CriticalState T) t s', Reach CriticalStart Restores criticalStep s → 0 < s.depth t →
      criticalStep s (.enter t) = some s' →
      ∀ r, Reach (· = s') Unyielding criticalStep r → r.locked t = true := by
  have hinv : ∀ s : CriticalState T, Reach CriticalStart Restores criticalStep s → KeyInv s :=
    (Reach.good_iff_guard (fun _ => KeyInv.start) fun _ _ _ h => h.step_iff).1
  refine ⟨fun s hs => (hinv s hs).exact, fun s a s' hs hstep hg h => ?_,
    fun s hs => (restores_of_flat hs).1, fun s t s' hs hdepth hstep r hr => ?_⟩
  · exact hg (((hinv s hs).exact_iff hstep).mp h)
  · cases hstep
    have hlocked := ((hinv s hs).exact t).mpr hdepth
    refine (locked_of_nested (t := t) ((Reach.start ?_).trans hr)).1
    simp [hlocked]

end MmIot
