import MmIot.Spec.Semaphore

/-! The balance of a semaphore. A give that reaches the kernel at the limit returns true
and adds nothing, and nothing later makes up for it, so the count is right exactly
when no give did that. -/

namespace MmIot

/-- Every give that returned true added one, and every wait that did took one. -/
def SemBalanced (s : SemState) : Prop := (s.sem.count : ℤ) = s.initial + s.gives - s.waits

/-- `k_sem_give` is only called below the maximum. -/
def SemGuard (s : SemState) : SemAction → Prop
  | .give => s.sem.count < s.maximum
  | _ => True

structure SemInv (s : SemState) : Prop where
  limit : s.sem.limit = s.maximum
  count : s.sem.count ≤ s.maximum
  owed : s.sem.count + s.waits ≤ s.initial + s.gives

theorem semCreate_some {alloc : Bool} {maximum initialCount : ℕ} {s : SemState}
    (h : semCreate alloc maximum initialCount = some s) :
    0 < maximum ∧ initialCount ≤ maximum ∧
      s = ⟨⟨initialCount, maximum⟩, maximum, initialCount, 0, 0, 0⟩ := by
  obtain ⟨-, h⟩ := Option.ite_none_left_eq_some.mp h
  obtain ⟨sem, hsem, rfl⟩ := Option.map_eq_some_iff.mp h
  obtain ⟨hfits, ⟨⟩⟩ := Option.ite_none_left_eq_some.mp hsem
  exact ⟨by omega, by omega, rfl⟩

theorem SemCreated.fresh {s : SemState} (h : SemCreated s) : SemInv s ∧ SemBalanced s := by
  obtain ⟨alloc, maximum, initialCount, hcreate⟩ :
      ∃ alloc maximum initialCount, semCreate alloc maximum initialCount = some s := by
    cases h with
    | sem h => exact ⟨_, _, _, h⟩
    | semb h => exact ⟨_, _, _, h⟩
  obtain ⟨-, hle, rfl⟩ := semCreate_some hcreate
  exact ⟨⟨rfl, hle, Nat.le_refl _⟩, by simp [SemBalanced]⟩

/-- One step: a give outside the guard is the only one to lose the balance. -/
theorem semStep_balanced_iff {s s' : SemState} {a : SemAction} (h : SemInv s)
    (hstep : semStep s a = some s') : SemInv s' ∧ (SemBalanced s' ↔ SemBalanced s ∧ SemGuard s a) := by
  obtain ⟨hlimit, hcount, howed⟩ := h
  cases a with
  | readCount =>
    simp only [semStep] at hstep
    split at hstep <;> cases hstep <;>
      exact ⟨⟨hlimit, hcount, howed⟩, (and_iff_left trivial).symm⟩
  | give =>
    obtain ⟨-, ⟨⟩⟩ := Option.ite_none_left_eq_some.mp hstep
    simp only [KSem.give, SemBalanced, SemGuard]
    split
    next hfull =>
      exact ⟨⟨hlimit, hcount, by simp only; omega⟩, by omega⟩
    next hroom =>
      exact ⟨⟨hlimit, by simp only; omega, by simp only; omega⟩, by simp only; omega⟩
  | wait =>
    simp only [semStep] at hstep
    split at hstep
    next =>
      cases hstep
      exact ⟨⟨hlimit, hcount, howed⟩, (and_iff_left trivial).symm⟩
    next sem htake =>
      obtain ⟨hpos, ⟨⟩⟩ := Option.ite_none_left_eq_some.mp htake
      cases hstep
      simp only [SemBalanced, SemGuard, and_true]
      exact ⟨⟨hlimit, by simp only; omega, by simp only; omega⟩, by omega⟩

/-- After any steps on a new semaphore the count stays in its bounds, and it is right if
and only if every `k_sem_give` was called below the maximum. -/
theorem semBalanced_iff_guarded (s s' : SemState) (as : List SemAction) (hs : SemCreated s)
    (h : Transition.schedule semStep s as = some s') :
    (SemBalanced s' ↔ Transition.Guarded SemGuard semStep s as) ∧ s'.sem.count ≤ s'.maximum := by
  obtain ⟨hinv, hbalanced⟩ := hs.fresh
  obtain ⟨hinv', hiff⟩ := Transition.schedule_good_iff_guarded
    (fun _ _ _ => semStep_balanced_iff) hinv hbalanced h
  exact ⟨hiff, hinv'.count⟩

/-- Room for two: both gives count, also where a wait comes in between. -/
theorem semBalanced_iff_guarded_two :
    ∃ s s', mmosalSemCreate true 2 0 = some s ∧
      Transition.schedule semStep s [.readCount, .readCount, .give, .wait, .give] = some s' ∧
      s' = ⟨⟨1, 2⟩, 2, 0, 0, 2, 1⟩ ∧ SemBalanced s' ∧ s'.sem.count ≤ 2 := by
  have hrun := semBalanced_iff_guarded _ _ [.readCount, .readCount, .give, .wait, .give]
    (.sem (show mmosalSemCreate true 2 0 = some _ from rfl)) rfl
  refine ⟨_, _, rfl, rfl, rfl, hrun.1.mpr ?_, hrun.2⟩
  simp [Transition.Guarded, semStep, SemGuard, KSem.give, KSem.take]

/-- Two callers read the same free place of a binary semaphore; both are told that their
give went through. -/
theorem doubleGive_not_semBalanced :
    ∃ s s', mmosalSembCreate true = some s ∧
      Transition.schedule semStep s [.readCount, .readCount, .give, .give] = some s' ∧
      s'.toGive = 0 ∧ s'.sem.count = 1 ∧ s'.gives = 2 ∧ s'.waits = 0 ∧ ¬ SemBalanced s' := by
  refine ⟨_, _, rfl, rfl, rfl, rfl, rfl, rfl, ?_⟩
  simp [SemBalanced, KSem.give]

end MmIot
