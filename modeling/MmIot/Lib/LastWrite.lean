import Mathlib.Data.List.Induction

/-! A value in a state that operations act on one after the other. Some of them write it, and
what is read in the end is what the last of these wrote; where others set it back, it is so
only if none of these came later. -/

namespace LastWrite

variable {σ α β : Type*}

/-- The last value written, if any. -/
def last (write : α → Option β) (as : List α) : Option β := (as.filterMap write).getLast?

/-- The operations after the last write, newest first. -/
def since (write : α → Option β) (as : List α) : List α :=
  as.reverse.takeWhile fun a => (write a).isNone

variable {write : α → Option β}

theorem last_append_singleton (as : List α) (a : α) :
    last write (as ++ [a]) = (write a).or (last write as) := by
  unfold last
  rw [List.filterMap_append, List.filterMap_cons, List.filterMap_nil]
  cases write a <;> simp

theorem since_append_singleton (as : List α) (a : α) :
    since write (as ++ [a]) = if (write a).isNone then a :: since write as else [] := by
  unfold since
  rw [List.reverse_append, List.reverse_singleton, List.singleton_append, List.takeWhile_cons]

variable (write) (step : σ → α → σ) (read : σ → β)

/-- A value that only writes change is the last one written, or as it was at first. -/
theorem read_foldl (h : ∀ s a, read (step s a) = (write a).getD (read s)) (s : σ) (as : List α) :
    read (as.foldl step s) = (last write as).getD (read s) := by
  induction as using List.reverseRecOn with
  | nil => rfl
  | append_singleton as a ih =>
    rw [List.foldl_append, List.foldl_cons, List.foldl_nil, h, ih, last_append_singleton]
    cases write a <;> rfl

/-- Operations that meet `reset` set the value to `d`. It is the last one written, or `d` before
the first write, exactly when no reset followed the last write, unless that wrote `d`, and when
before the first write there was a reset, unless it was `d` from the start. -/
theorem read_foldl_iff {reset : α → Prop} {d : β}
    (hwrite : ∀ s a v, write a = some v → read (step s a) = v)
    (hreset : ∀ s a, write a = none → reset a → read (step s a) = d)
    (hkeep : ∀ s a, write a = none → ¬ reset a → read (step s a) = read s) (s : σ) (as : List α) :
    read (as.foldl step s) = (last write as).getD d ↔
      (∀ v, last write as = some v → (∃ a ∈ since write as, reset a) → v = d) ∧
        (last write as = none → (∃ a ∈ as, reset a) ∨ read s = d) := by
  induction as using List.reverseRecOn with
  | nil => simp [last]
  | append_singleton as a ih =>
    rw [List.foldl_append, List.foldl_cons, List.foldl_nil, last_append_singleton,
      since_append_singleton]
    cases ha : write a with
    | some v => simp [hwrite _ a v ha]
    | none =>
      by_cases hr : reset a
      · rw [hreset _ a ha hr]
        cases last write as with
        | none => simp [hr]
        | some v => simp [hr, eq_comm]
      · rw [hkeep _ a ha hr]
        simp only [Option.none_or, Option.isNone_none, if_true]
        simpa [hr] using ih

end LastWrite
