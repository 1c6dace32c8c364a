import Mathlib.Data.List.Basic

/-! Strings in buffers of a fixed size. A string is read up to the first terminator; one that
is written over another without a terminator of its own is read with what is left of it. -/

namespace Terminated

variable {α : Type*} (nul : α)

/-- A buffer read up to its first terminator. -/
def read [DecidableEq α] (buf : List α) : List α := buf.takeWhile (· ≠ nul)

/-- A string in a buffer of `n`, terminators after it. -/
def padded (w : List α) (n : ℕ) : List α := w ++ List.replicate (n - w.length) nul

/-- `src` written over the front of `w`. -/
def overlay (w src : List α) : List α := src ++ w.drop src.length

/-- What is left of `w` and of the strings written over it, one after the other. -/
def written (w : List α) (srcs : List (List α)) : List α := srcs.foldl overlay w

variable {nul}

/-! ### One string -/

theorem read_append_replicate [DecidableEq α] {w : List α} (hw : ∀ b ∈ w, b ≠ nul) (k : ℕ) :
    read nul (w ++ List.replicate k nul) = w := by
  unfold read
  rw [List.takeWhile_append_of_pos (by simpa using hw)]
  cases k <;> simp [List.replicate_succ]

theorem padded_length {w : List α} {n : ℕ} (hw : w.length ≤ n) :
    (padded nul w n).length = n := by
  rw [padded, List.length_append, List.length_replicate]
  omega

theorem take_padded {w : List α} {m n : ℕ} (hw : w.length ≤ m) (hn : m ≤ n) :
    (padded nul w n).take m = padded nul w m := by
  rw [padded, padded, List.take_append, List.take_of_length_le hw, List.take_replicate]
  congr 2
  omega

/-! ### One written over another -/

theorem overlay_length (w src : List α) : (overlay w src).length = max w.length src.length := by
  rw [overlay, List.length_append, List.length_drop]
  omega

theorem overlay_padded (w src : List α) {n : ℕ} (hsrc : src.length ≤ n) :
    overlay (padded nul w n) src = padded nul (overlay w src) n := by
  unfold padded
  rw [overlay_length, overlay, overlay, List.append_assoc, List.drop_append, List.drop_replicate]
  congr 3
  omega

theorem overlay_eq_iff (w src : List α) : overlay w src = src ↔ w.length ≤ src.length := by
  simp [overlay]

/-! ### One after the other -/

theorem written_ne {w : List α} {srcs : List (List α)} (hw : ∀ b ∈ w, b ≠ nul)
    (hsrcs : ∀ src ∈ srcs, ∀ b ∈ src, b ≠ nul) : ∀ b ∈ written w srcs, b ≠ nul := by
  induction srcs generalizing w with
  | nil => exact hw
  | cons src srcs ih =>
    refine ih ?_ fun q hq => hsrcs q (List.mem_cons_of_mem _ hq)
    intro b hb
    rcases List.mem_append.mp hb with h | h
    · exact hsrcs src List.mem_cons_self b h
    · exact hw b (List.mem_of_mem_drop h)

theorem written_length_le_iff (w : List α) (srcs : List (List α)) (n : ℕ) :
    (written w srcs).length ≤ n ↔ w.length ≤ n ∧ ∀ src ∈ srcs, src.length ≤ n := by
  induction srcs generalizing w with
  | nil => simp [written]
  | cons src srcs ih =>
    rw [written, List.foldl_cons, ← written, ih, overlay_length, Nat.max_le, List.forall_mem_cons,
      and_assoc]

/-- The last string is all there is exactly when none before it is longer. -/
theorem written_eq_last_iff (srcs : List (List α)) {src : List α}
    (hlast : srcs.getLast? = some src) :
    written [] srcs = src ↔ ∀ q ∈ srcs, q.length ≤ src.length := by
  obtain ⟨before, rfl⟩ := List.getLast?_eq_some_iff.mp hlast
  have hfold : written [] (before ++ [src]) = overlay (written [] before) src := by
    rw [written, List.foldl_append]
    rfl
  rw [hfold, overlay_eq_iff, written_length_le_iff]
  simp [or_imp, forall_and]

end Terminated
