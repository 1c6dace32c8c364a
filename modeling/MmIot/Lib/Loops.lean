import Mathlib.Tactic.Common
import Mathlib.Data.Nat.Notation

/-! Loops that may fail, and loops over the chunks of a list. -/

namespace Loops

section Fallible

universe u

variable {ε α : Type*} {σ τ : Type u}

theorem bind_eq_ok {x : Except ε σ} {f : σ → Except ε τ} {b : τ} :
    (x >>= f) = .ok b ↔ ∃ a, x = .ok a ∧ f a = .ok b := by
  cases x with
  | error e => exact ⟨nofun, fun ⟨_, h, _⟩ => nomatch h⟩
  | ok a => exact ⟨fun h => ⟨a, rfl, h⟩, fun ⟨_, h, hb⟩ => by cases h; exact hb⟩

/-- A check that raises. -/
theorem check_eq_ok {c : Prop} [Decidable c] {e : ε} {x : Except ε α} {a : α} :
    (if c then .error e else x) = .ok a ↔ ¬c ∧ x = .ok a := by
  by_cases h : c
  · rw [if_pos h]
    exact ⟨nofun, fun hx => absurd h hx.1⟩
  · rw [if_neg h]
    exact ⟨fun hx => ⟨h, hx⟩, And.right⟩

theorem bind_eq_error {x : Except ε σ} {f : σ → Except ε τ} {e : ε} :
    (x >>= f) = .error e ↔ x = .error e ∨ ∃ a, x = .ok a ∧ f a = .error e := by
  cases x with
  | error e' =>
    refine ⟨fun h => .inl (congrArg _ (Except.error.inj h)), ?_⟩
    rintro (h | ⟨a, h, -⟩)
    · exact congrArg _ (Except.error.inj h)
    · cases h
  | ok a =>
    refine ⟨fun h => .inr ⟨a, rfl, h⟩, ?_⟩
    rintro (h | ⟨a', h, he⟩)
    · cases h
    · cases h
      exact he

/-- A check that raises something else. -/
theorem check_eq_error {c : Prop} [Decidable c] {e e' : ε} {x : Except ε α} (hne : e' ≠ e) :
    (if c then .error e' else x) = .error e ↔ ¬c ∧ x = .error e := by
  by_cases h : c
  · rw [if_pos h]
    exact ⟨fun he => absurd (Except.error.inj he) hne, fun hx => absurd h hx.1⟩
  · rw [if_neg h]
    exact ⟨fun hx => ⟨h, hx⟩, And.right⟩

/-- A loop raises what a round raises to which it gets. -/
theorem foldlM_eq_error {f : σ → α → Except ε σ} {as : List α} {s : σ} {e : ε} :
    as.foldlM f s = .error e ↔
      ∃ done a rest t, as = done ++ a :: rest ∧ done.foldlM f s = .ok t ∧ f t a = .error e := by
  induction as generalizing s with
  | nil =>
    refine iff_of_false nofun ?_
    rintro ⟨done, a, rest, t, h, -⟩
    simp at h
  | cons a as ih =>
    rw [List.foldlM_cons, bind_eq_error]
    refine ⟨?_, ?_⟩
    · rintro (h | ⟨t, ht, h⟩)
      · exact ⟨[], a, as, s, rfl, rfl, h⟩
      · obtain ⟨done, b, rest, u, rfl, hdone, hb⟩ := ih.mp h
        exact ⟨a :: done, b, rest, u, rfl, bind_eq_ok.mpr ⟨t, ht, hdone⟩, hb⟩
    · rintro ⟨_ | ⟨a', done⟩, b, rest, u, heq, hdone, hb⟩
      · cases heq
        cases hdone
        exact .inl hb
      · cases heq
        obtain ⟨t, ht, hdone⟩ := bind_eq_ok.mp hdone
        exact .inr ⟨t, ht, ih.mpr ⟨done, b, rest, u, rfl, hdone, hb⟩⟩

/-- The rule for a loop that completes: what no round gives, and what a round adds
in front of the rest. -/
theorem foldlM_ok {f : σ → α → Except ε σ} {R : σ → List α → σ → Prop} (nil : ∀ s, R s [] s)
    (cons : ∀ s a s' as s'', f s a = .ok s' → R s' as s'' → R s (a :: as) s'')
    {as : List α} {s s' : σ} (h : as.foldlM f s = .ok s') : R s as s' := by
  induction as generalizing s with
  | nil =>
    cases h
    exact nil _
  | cons a as ih =>
    obtain ⟨t, ht, h⟩ := bind_eq_ok.mp h
    exact cons _ _ _ _ _ ht (ih h)

/-- The rule for when a loop completes, if no round bears on whether another one does. -/
theorem foldlM_isOk_iff {f : σ → α → Except ε σ} {I : σ → Prop} {C : α → Prop}
    (hok : ∀ s a, I s → ((∃ s', f s a = .ok s') ↔ C a))
    (hinv : ∀ s a s', I s → f s a = .ok s' → I s') {as : List α} {s : σ} (hs : I s) :
    (∃ s', as.foldlM f s = .ok s') ↔ ∀ a ∈ as, C a := by
  induction as generalizing s with
  | nil => exact iff_of_true ⟨s, rfl⟩ nofun
  | cons a as ih =>
    rw [List.forall_mem_cons, ← hok s a hs]
    refine ⟨?_, ?_⟩
    · rintro ⟨s', h⟩
      obtain ⟨t, ht, h⟩ := bind_eq_ok.mp h
      exact ⟨⟨t, ht⟩, (ih (hinv s a t hs ht)).mp ⟨s', h⟩⟩
    · rintro ⟨⟨t, ht⟩, hrest⟩
      obtain ⟨s', h⟩ := (ih (hinv s a t hs ht)).mpr hrest
      exact ⟨s', bind_eq_ok.mpr ⟨t, ht, h⟩⟩

end Fallible

section Chunks

variable {α : Type*}

/-- Python's `range(start, stop, step)`, for a positive step. -/
def range (start stop step : ℕ) : List ℕ :=
  List.range' start ((stop - start + step - 1) / step) step

/-- Python's `data[offset:offset + size]`. -/
def slice (data : List α) (offset size : ℕ) : List α := (data.drop offset).take size

theorem range_done {start stop step : ℕ} (hstep : 0 < step) (h : stop ≤ start) :
    range start stop step = [] := by
  rw [range, Nat.sub_eq_zero_of_le h, Nat.div_eq_of_lt (by omega), List.range'_zero]

theorem range_next {start stop step : ℕ} (hstep : 0 < step) (h : start < stop) :
    range start stop step = start :: range (start + step) stop step := by
  have hcount : (stop - start + step - 1) / step =
      (stop - (start + step) + step - 1) / step + 1 := by
    rcases Nat.le_total stop (start + step) with hle | hle
    · rw [Nat.sub_eq_zero_of_le hle, Nat.div_eq_of_lt (by omega : 0 + step - 1 < step),
        Nat.div_eq_sub_div hstep (by omega), Nat.div_eq_of_lt (by omega)]
    · rw [Nat.div_eq_sub_div hstep (by omega)]
      congr 2
      omega
  rw [range, hcount, List.range'_succ]
  rfl

theorem lt_of_mem_range {start stop step i : ℕ} (hstart : start ≤ stop)
    (h : i ∈ range start stop step) : i < stop := by
  obtain ⟨k, hk, rfl⟩ := List.mem_range'.mp h
  have hstep : 0 < step := by
    by_contra hzero
    simp [Nat.eq_zero_of_not_pos hzero] at hk
  have hround := (Nat.le_div_iff_mul_le hstep).mp hk
  rw [Nat.succ_mul, Nat.mul_comm] at hround
  omega

/-- Items numbered from `k` on, in two parts. -/
theorem zipIdx_take_drop (xs : List α) (size k : ℕ) :
    xs.zipIdx k = (xs.take size).zipIdx k ++ (xs.drop size).zipIdx (k + size) := by
  conv_lhs => rw [← List.take_append_drop size xs, List.zipIdx_append, List.length_take]
  rcases Nat.le_total size xs.length with h | h
  · rw [Nat.min_eq_left h]
  · rw [List.drop_eq_nil_of_le h]
    rfl

/-- The numbered items of the chunks are the numbered items of the whole. -/
theorem flatMap_slice_zipIdx (data : List α) {size : ℕ} (hsize : 0 < size) (base start : ℕ) :
    ((range start data.length size).flatMap fun offset =>
        (slice data offset size).zipIdx (base + offset)) =
      (data.drop start).zipIdx (base + start) := by
  induction hn : data.length - start using Nat.strongRecOn generalizing start with
  | ind n ih =>
    rcases Nat.lt_or_ge start data.length with hlt | hge
    · rw [range_next hsize hlt, List.flatMap_cons, ih _ (by omega) (start + size) rfl,
        zipIdx_take_drop (data.drop start) size, List.drop_drop, slice, Nat.add_assoc]
    · rw [range_done hsize hge, List.drop_eq_nil_of_le hge]
      rfl

end Chunks

end Loops
