import Mathlib.Logic.Function.Basic
import Mathlib.Data.Nat.Notation
import Mathlib.Data.List.TakeDrop
import Mathlib.Tactic.Common

/-! Transfers along lists of optional places: an item of a missing place is the filler
when it is fetched and is dropped when it is put. Gathering reads items off a memory,
scattering leaves items in it, and the two may share places as long as no item is
fetched after something else was put in its place. -/

namespace Scatter

variable {κ β : Type*}

def fetch (filler : β) (mem : κ → β) : Option κ → β
  | none => filler
  | some a => mem a

/-- The first `n` items along `ps`, with the filler past its end. -/
def gather (filler : β) (mem : κ → β) (ps : List (Option κ)) (n : ℕ) : List β :=
  (List.range n).map fun i => fetch filler mem (ps[i]?.join)

@[simp] theorem gather_length (filler : β) (mem : κ → β) (ps : List (Option κ)) (n : ℕ) :
    (gather filler mem ps n).length = n := by
  simp [gather]

theorem gather_succ (filler : β) (mem : κ → β) (ps : List (Option κ)) (n : ℕ) :
    gather filler mem ps (n + 1) =
      gather filler mem ps n ++ [fetch filler mem (ps[n]?.join)] := by
  simp [gather, List.range_succ]

theorem eq_fetch_of_gather {filler : β} {mem : κ → β} {ps : List (Option κ)} {n i : ℕ} {b : β}
    (h : (gather filler mem ps n)[i]? = some b) : b = fetch filler mem (ps[i]?.join) := by
  have hi : i < n := by
    have hlt := (List.getElem?_eq_some_iff.mp h).1
    rwa [gather_length] at hlt
  rw [gather, List.getElem?_map, List.getElem?_range hi] at h
  exact (Option.some.inj h).symm

theorem gather_take (filler : β) (mem : κ → β) (ps : List (Option κ)) {m n : ℕ} (h : m ≤ n) :
    (gather filler mem ps n).take m = gather filler mem ps m := by
  simp [gather, ← List.map_take, List.take_range, Nat.min_eq_left h]

variable [DecidableEq κ]

def put (mem : κ → β) (p : Option κ) (b : β) : κ → β :=
  match p with
  | none => mem
  | some a => Function.update mem a b

/-- Items past the end of `ps` are dropped. -/
def scatter (mem : κ → β) : List (Option κ) → List β → κ → β
  | p :: ps, b :: bs => scatter (put mem p b) ps bs
  | _, _ => mem

@[simp] theorem scatter_nil (mem : κ → β) (ps : List (Option κ)) : scatter mem ps [] = mem := by
  cases ps <;> rfl

@[simp] theorem scatter_nil_left (mem : κ → β) (bs : List β) : scatter mem [] bs = mem := by
  cases bs <;> rfl

theorem scatter_concat (mem : κ → β) (ps : List (Option κ)) (bs : List β) (b : β) :
    scatter mem ps (bs ++ [b]) = put (scatter mem ps bs) (ps[bs.length]?.join) b := by
  induction bs generalizing mem ps with
  | nil =>
    cases ps with
    | nil => simp [put]
    | cons p ps => simp [scatter]
  | cons c bs ih =>
    cases ps with
    | nil => simp [put]
    | cons p ps => simp [scatter, ih]

theorem scatter_append (mem : κ → β) (ps : List (Option κ)) (bs cs : List β) :
    scatter mem ps (bs ++ cs) = scatter (scatter mem ps bs) (ps.drop bs.length) cs := by
  induction bs generalizing mem ps with
  | nil => simp
  | cons c bs ih =>
    cases ps with
    | nil => simp
    | cons p ps => simp [scatter, ih]

/-- What comes after the items that fill all places makes no difference. -/
theorem scatter_eq_of_prefix (mem : κ → β) {ps : List (Option κ)} {bs cs : List β}
    (h : bs <+: cs) (hlen : ps.length ≤ bs.length) : scatter mem ps bs = scatter mem ps cs := by
  obtain ⟨rest, rfl⟩ := h
  rw [scatter_append, List.drop_eq_nil_of_le hlen, scatter_nil_left]

/-- Only the places that items were put in change. -/
theorem scatter_outside (mem : κ → β) (ps : List (Option κ)) (bs : List β) (a : κ)
    (h : some a ∉ ps.take bs.length) : scatter mem ps bs a = mem a := by
  induction bs generalizing mem ps with
  | nil => simp
  | cons b bs ih =>
    cases ps with
    | nil => simp
    | cons p ps =>
      simp only [List.length_cons, List.take_succ_cons, List.mem_cons, not_or] at h
      rw [scatter, ih _ _ h.2]
      cases p with
      | none => rfl
      | some a' => exact Function.update_of_ne (by simpa using h.1) _ _

/-- No item of `ps` is fetched after one before it was put in its place along `qs`. -/
def FetchedFirst (ps qs : List (Option κ)) : Prop :=
  ∀ n a, ps[n]? = some (some a) → some a ∉ qs.take n

/-- What has been put along `qs` so far does not change the next item of `ps`. -/
theorem fetch_scatter {ps qs : List (Option κ)} (h : FetchedFirst ps qs) (filler : β)
    (mem : κ → β) {bs : List β} {n : ℕ} (hn : bs.length ≤ n) :
    fetch filler (scatter mem qs bs) (ps[n]?.join) = fetch filler mem (ps[n]?.join) := by
  rcases hp : ps[n]? with _ | _ | a
  · rfl
  · rfl
  · apply scatter_outside
    intro hmem
    exact h n a hp (List.take_subset_take_left _ hn hmem)

end Scatter
