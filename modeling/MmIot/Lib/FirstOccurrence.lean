import Mathlib.Data.List.Basic

/-! The distinct elements of a list in the order in which they first occur. -/

namespace FirstOccurrence

variable {α : Type*} [BEq α] [LawfulBEq α]

/-- `ys` has the elements of `xs`, each of them once, in the order of their first occurrences. -/
structure FirstsOf (xs ys : List α) : Prop where
  mem : ∀ a, a ∈ ys ↔ a ∈ xs
  order : ys.Pairwise fun a b => xs.idxOf a < xs.idxOf b

theorem idxOf_filter_lt {p : α → Bool} {a b : α} (ha : p a) (hb : p b) {xs : List α}
    (h : (xs.filter p).idxOf a < (xs.filter p).idxOf b) : xs.idxOf a < xs.idxOf b := by
  induction xs with
  | nil => exact h
  | cons x xs ih =>
    by_cases hxb : x = b
    · subst hxb
      rw [List.filter_cons_of_pos hb, List.idxOf_cons_self] at h
      exact absurd h (Nat.not_lt_zero _)
    rw [List.idxOf_cons_ne _ hxb]
    by_cases hxa : x = a
    · subst hxa
      rw [List.idxOf_cons_self]
      exact Nat.succ_pos _
    rw [List.idxOf_cons_ne _ hxa]
    refine Nat.succ_lt_succ (ih ?_)
    by_cases hx : p x
    · rw [List.filter_cons_of_pos hx, List.idxOf_cons_ne _ hxa, List.idxOf_cons_ne _ hxb] at h
      exact Nat.lt_of_succ_lt_succ h
    · rwa [List.filter_cons_of_neg hx] at h

theorem firstsOf_eraseDups (xs : List α) : FirstsOf xs xs.eraseDups := by
  refine ⟨fun a => List.mem_eraseDups, ?_⟩
  induction hn : xs.length using Nat.strongRecOn generalizing xs with
  | ind n ih =>
    cases xs with
    | nil => exact .nil
    | cons x xs =>
      have hshorter : (xs.filter fun b => !b == x).length < n := by
        rw [← hn]
        exact Nat.lt_succ_of_le (List.length_filter_le _ _)
      -- what is left after the first element has none of its copies
      have hne {a : α} (ha : a ∈ (xs.filter fun b => !b == x).eraseDups) : a ≠ x := by
        rw [List.mem_eraseDups, List.mem_filter] at ha
        simpa using ha.2
      rw [List.eraseDups_cons, List.pairwise_cons]
      refine ⟨?_, (ih _ hshorter _ rfl).imp_of_mem ?_⟩
      · intro a ha
        rw [List.idxOf_cons_self, List.idxOf_cons_ne _ (hne ha).symm]
        exact Nat.succ_pos _
      · intro a b ha hb hlt
        rw [List.idxOf_cons_ne _ (hne ha).symm, List.idxOf_cons_ne _ (hne hb).symm]
        refine Nat.succ_lt_succ (idxOf_filter_lt ?_ ?_ hlt)
        · simpa using hne ha
        · simpa using hne hb

end FirstOccurrence
