import Mathlib.Logic.Function.Basic
import Mathlib.Data.Nat.Notation
import Mathlib.Tactic.Common

/-! Memories as functions, loaded from and stored to along a sequence of addresses
(`loc i` for the `i`-th item of a transfer), in one go or piece by piece. -/

namespace Memory

variable {α β : Type*}

def load (mem : α → β) (loc : ℕ → α) (n : ℕ) : List β := (List.range n).map fun i => mem (loc i)

def store [DecidableEq α] (mem : α → β) (loc : ℕ → α) : List β → α → β
  | [] => mem
  | b :: bs => store (Function.update mem (loc 0) b) (fun i => loc (i + 1)) bs

@[simp] theorem load_length (mem : α → β) (loc : ℕ → α) (n : ℕ) :
    (load mem loc n).length = n := by
  rw [load, List.length_map, List.length_range]

theorem load_congr (mem : α → β) {loc loc' : ℕ → α} {n : ℕ} (h : ∀ i < n, loc i = loc' i) :
    load mem loc n = load mem loc' n := by
  apply List.map_congr_left
  intro i hi
  rw [h i (List.mem_range.mp hi)]

theorem load_add (mem : α → β) (loc : ℕ → α) (m n : ℕ) :
    load mem loc (m + n) = load mem loc m ++ load mem (fun i => loc (m + i)) n := by
  rw [load, List.range_add, List.map_append, List.map_map]
  rfl

variable [DecidableEq α]

theorem store_congr (mem : α → β) {loc loc' : ℕ → α} {bs : List β}
    (h : ∀ i < bs.length, loc i = loc' i) : store mem loc bs = store mem loc' bs := by
  induction bs generalizing mem loc loc' with
  | nil => rfl
  | cons b bs ih =>
    rw [store, store, h 0 (Nat.succ_pos _)]
    exact ih _ fun i hi => h (i + 1) (Nat.succ_lt_succ hi)

theorem store_append (mem : α → β) (loc : ℕ → α) (xs ys : List β) :
    store mem loc (xs ++ ys) = store (store mem loc xs) (fun i => loc (xs.length + i)) ys := by
  induction xs generalizing mem loc with
  | nil => exact (store_congr mem fun i _ => by rw [List.length_nil, Nat.zero_add]).symm
  | cons x xs ih =>
    rw [List.cons_append, store, ih, store]
    apply store_congr
    intro i _
    rw [List.length_cons]
    congr 1
    omega

/-- A store leaves every other address alone. -/
theorem store_outside (mem : α → β) (loc : ℕ → α) (bs : List β) (a : α)
    (h : ∀ i < bs.length, loc i ≠ a) : store mem loc bs a = mem a := by
  induction bs generalizing mem loc with
  | nil => rfl
  | cons b bs ih =>
    rw [store, ih _ _ fun i hi => h (i + 1) (Nat.succ_lt_succ hi),
      Function.update_of_ne (h 0 (Nat.succ_pos _)).symm]

theorem store_inside (mem : α → β) {loc : ℕ → α} (hloc : Function.Injective loc) (bs : List β)
    (i : ℕ) (hi : i < bs.length) : store mem loc bs (loc i) = bs[i] := by
  induction bs generalizing mem loc i with
  | nil => exact absurd hi (Nat.not_lt_zero i)
  | cons b bs ih =>
    have hshift : Function.Injective fun i => loc (i + 1) :=
      fun i j h => Nat.succ.inj (hloc h)
    cases i with
    | zero =>
      rw [store, store_outside _ _ _ _ fun i _ h => absurd (hloc h) (Nat.succ_ne_zero i),
        Function.update_self]
      rfl
    | succ i => exact ih _ hshift i (Nat.lt_of_succ_lt_succ hi)

theorem load_store (mem : α → β) {loc : ℕ → α} (hloc : Function.Injective loc) (bs : List β) :
    load (store mem loc bs) loc bs.length = bs := by
  apply List.ext_getElem (load_length _ _ _)
  intro i _ hi
  simp only [load, List.getElem_map, List.getElem_range]
  exact store_inside mem hloc bs i hi

end Memory
