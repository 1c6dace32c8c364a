import Mathlib.Tactic.Common

/-! Labelled transition systems with partial executable steps, and the runs of
one whose every step meets a guard. -/

namespace Transition

variable {σ α : Type*}

/-- The states a run can reach when each of its steps meets `guard`. -/
inductive Reach (init : σ → Prop) (guard : σ → α → Prop) (step : σ → α → Option σ) : σ → Prop
  | start {s : σ} : init s → Reach init guard step s
  | next {s s' : σ} {a : α} : Reach init guard step s → guard s a → step s a = some s' →
      Reach init guard step s'

/-- No restriction on the steps of a run. -/
def anyStep : σ → α → Prop := fun _ _ => True

variable {init : σ → Prop} {guard : σ → α → Prop} {step : σ → α → Option σ}

/-- The invariant rule: one step lemma gives every run. -/
theorem Reach.invariant {Inv : σ → Prop} (hinit : ∀ s, init s → Inv s)
    (hstep : ∀ s a s', Inv s → guard s a → step s a = some s' → Inv s')
    {s : σ} (h : Reach init guard step s) : Inv s := by
  induction h with
  | start hs => exact hinit _ hs
  | next _ hg hs ih => exact hstep _ _ _ ih hg hs

/-- The rule for a guard that is exact: where a step from a good state keeps `Good` exactly when
it meets the guard, the guarded runs stay good, and the first step that misses it does harm. -/
theorem Reach.good_iff_guard {Good : σ → Prop} (hinit : ∀ s, init s → Good s)
    (hstep : ∀ s a s', Good s → step s a = some s' → (Good s' ↔ guard s a)) :
    (∀ s, Reach init guard step s → Good s) ∧
      ∀ s a s', Reach init guard step s → step s a = some s' → ¬ guard s a → ¬ Good s' := by
  have hgood : ∀ s, Reach init guard step s → Good s := fun s hs =>
    hs.invariant hinit fun s a s' h hg ha => (hstep s a s' h ha).mpr hg
  exact ⟨hgood, fun s a s' hs ha hg h => hg ((hstep s a s' (hgood s hs) ha).mp h)⟩

theorem Reach.trans {s s' : σ} (h : Reach init guard step s)
    (h' : Reach (· = s) guard step s') : Reach init guard step s' := by
  induction h' with
  | start hs => exact hs ▸ h
  | next _ hg hs ih => exact ih.next hg hs

theorem Reach.mono {guard' : σ → α → Prop} (hg : ∀ s a, guard s a → guard' s a) {s : σ}
    (h : Reach init guard step s) : Reach init guard' step s := by
  induction h with
  | start hs => exact .start hs
  | next _ hguard hs ih => exact ih.next (hg _ _ hguard) hs

/-- Run a schedule, failing at the first step that is not enabled. -/
def schedule (step : σ → α → Option σ) (s : σ) (as : List α) : Option σ := as.foldlM step s

theorem Reach.of_schedule {s s' : σ} (hs : Reach init guard step s) (as : List α)
    (hg : ∀ s, ∀ a ∈ as, guard s a) (h : schedule step s as = some s') :
    Reach init guard step s' := by
  induction as generalizing s with
  | nil =>
    cases h
    exact hs
  | cons a as ih =>
    obtain ⟨t, ht, h⟩ := Option.bind_eq_some_iff.mp h
    exact ih (hs.next (hg s a List.mem_cons_self) ht)
      (fun s a ha => hg s a (List.mem_cons_of_mem _ ha)) h

/-- A schedule whose guards are evaluated along the way. -/
theorem Reach.of_guarded [∀ s a, Decidable (guard s a)] {s s' : σ}
    (hs : Reach init guard step s) (as : List α)
    (h : schedule (fun s a => if guard s a then step s a else none) s as = some s') :
    Reach init guard step s' := by
  induction as generalizing s with
  | nil =>
    cases h
    exact hs
  | cons a as ih =>
    obtain ⟨t, ht, h⟩ := Option.bind_eq_some_iff.mp h
    obtain ⟨hg, ht⟩ := Option.ite_none_right_eq_some.mp ht
    exact ih (hs.next hg ht) h

/-- Each action of a schedule that ran was enabled where it was taken. -/
theorem schedule_mem {s s' : σ} {as : List α} (h : schedule step s as = some s') {a : α}
    (ha : a ∈ as) : ∃ t t', step t a = some t' := by
  induction as generalizing s with
  | nil => cases ha
  | cons b as ih =>
    obtain ⟨t, ht, h⟩ := Option.bind_eq_some_iff.mp h
    rcases List.mem_cons.mp ha with rfl | ha
    · exact ⟨s, t, ht⟩
    · exact ih h ha

/-- Every step of a schedule meets the guard in the state it is taken from. -/
def Guarded (guard : σ → α → Prop) (step : σ → α → Option σ) : σ → List α → Prop
  | _, [] => True
  | s, a :: as => guard s a ∧ ∀ s', step s a = some s' → Guarded guard step s' as

/-- The rule for a loss that is never made good: if a step keeps `Good` exactly when it meets
the guard, and nothing restores it, a schedule keeps it exactly when all its steps do. -/
theorem schedule_good_iff_guarded {Inv Good : σ → Prop}
    (hstep : ∀ s a s', Inv s → step s a = some s' → Inv s' ∧ (Good s' ↔ Good s ∧ guard s a))
    {s s' : σ} (hinv : Inv s) (hgood : Good s) {as : List α} (h : schedule step s as = some s') :
    Inv s' ∧ (Good s' ↔ Guarded guard step s as) := by
  -- once `Good` is lost it stays lost
  have hlost : ∀ (as : List α) (s : σ), Inv s → ¬ Good s → schedule step s as = some s' →
      Inv s' ∧ ¬ Good s' := by
    intro as
    induction as with
    | nil =>
      intro s hinv hbad h
      cases h
      exact ⟨hinv, hbad⟩
    | cons a as ih =>
      intro s hinv hbad h
      obtain ⟨t, ht, h⟩ := Option.bind_eq_some_iff.mp h
      obtain ⟨hinv', hiff⟩ := hstep s a t hinv ht
      exact ih t hinv' (fun hgood => hbad (hiff.mp hgood).1) h
  induction as generalizing s with
  | nil =>
    cases h
    exact ⟨hinv, iff_of_true hgood trivial⟩
  | cons a as ih =>
    obtain ⟨t, ht, h⟩ := Option.bind_eq_some_iff.mp h
    obtain ⟨hinv', hiff⟩ := hstep s a t hinv ht
    by_cases hg : guard s a
    · obtain ⟨hend, hguarded⟩ := ih hinv' (hiff.mpr ⟨hgood, hg⟩) h
      refine ⟨hend, hguarded.trans ?_⟩
      refine ⟨?_, ?_⟩
      · intro hrest
        refine ⟨hg, ?_⟩
        intro t' ht'
        cases ht.symm.trans ht'
        exact hrest
      · rintro ⟨-, hrest⟩
        exact hrest t ht
    · obtain ⟨hend, hbad⟩ := hlost as t hinv' (fun hgood => hg (hiff.mp hgood).2) h
      exact ⟨hend, iff_of_false hbad fun hguarded => hg hguarded.1⟩

theorem anyStep_all (as : List α) : ∀ s : σ, ∀ a ∈ as, anyStep s a := fun _ _ _ => trivial

end Transition
