import Mathlib.Data.Finset.Card
import Mathlib.Data.List.Nodup

/-! What a table of bounded size keeps of a log when every new key takes the place of the one
that was logged longest ago. -/

namespace Recency

variable {κ : Type*} [DecidableEq κ] {capacity : ℕ} {log : List (κ × ℕ)} {held : Finset κ}
  {k old : κ} {t : ℕ}

/-- The other keys that a log, newest first, holds from time `t` on. -/
def othersSince (log : List (κ × ℕ)) (k : κ) (t : ℕ) : Finset κ :=
  ((log.filter fun r => r.1 ≠ k ∧ t ≤ r.2).map Prod.fst).toFinset

theorem mem_othersSince {q : κ} :
    q ∈ othersSince log k t ↔ q ≠ k ∧ ∃ u, (q, u) ∈ log ∧ t ≤ u := by
  simp only [othersSince, List.mem_toFinset, List.mem_map, List.mem_filter, decide_eq_true_eq]
  constructor
  · rintro ⟨r, ⟨hr, hne, ht⟩, rfl⟩
    exact ⟨hne, r.2, hr, ht⟩
  · rintro ⟨hne, u, hu, ht⟩
    exact ⟨(q, u), ⟨hu, hne, ht⟩, rfl⟩

theorem lookup_cons_eq (q : κ) :
    List.lookup q ((k, t) :: log) = if q = k then some t else log.lookup q := by
  by_cases h : q = k
  · subst h
    simp
  · have hbeq : (q == k) = false := by simpa using h
    simp [List.lookup_cons, hbeq, h]

theorem mem_of_lookup (h : log.lookup k = some t) : (k, t) ∈ log := by
  obtain ⟨pre, post, rfl, -⟩ := List.lookup_eq_some_iff.mp h
  simp

/-- In a log whose times only grow, the newest entry of a key has its latest time. -/
theorem lookup_of_mem (hsorted : log.Pairwise fun r r' => r'.2 ≤ r.2) (h : (k, t) ∈ log) :
    ∃ u, log.lookup k = some u ∧ t ≤ u := by
  induction log with
  | nil => cases h
  | cons r log ih =>
    obtain ⟨q, u⟩ := r
    rw [List.pairwise_cons] at hsorted
    rw [lookup_cons_eq]
    split_ifs with hk
    · rcases List.mem_cons.mp h with heq | hmem
      · cases heq
        exact ⟨t, rfl, le_rfl⟩
      · exact ⟨u, rfl, hsorted.1 _ hmem⟩
    · rcases List.mem_cons.mp h with heq | hmem
      · cases heq
        exact absurd rfl hk
      · exact ih hsorted.2 hmem

/-- The table holds keys of the log, and it has given up only keys that were logged before all
of those it holds. -/
structure Retains (capacity : ℕ) (log : List (κ × ℕ)) (held : Finset κ) : Prop where
  card_le : held.card ≤ capacity
  logged : ∀ h ∈ held, ∃ u, log.lookup h = some u
  evicted : ∀ q u, log.lookup q = some u → q ∉ held →
    held.card = capacity ∧ ∀ h ∈ held, ∀ v, log.lookup h = some v → u ≤ v

theorem Retains.nil : Retains capacity ([] : List (κ × ℕ)) ∅ where
  card_le := Nat.zero_le _
  logged := by simp
  evicted := by simp

theorem logged_insert (h : Retains capacity log held) {keys : Finset κ}
    (hkeys : keys ⊆ insert k held) : ∀ q ∈ keys, ∃ u, List.lookup q ((k, t) :: log) = some u := by
  intro q hq
  rw [lookup_cons_eq]
  split_ifs with hqk
  · exact ⟨t, rfl⟩
  · exact h.logged q ((Finset.mem_insert.mp (hkeys hq)).resolve_left hqk)

/-- A key of the table is logged again. -/
theorem Retains.again (h : Retains capacity log held) (hk : k ∈ held) (hnow : ∀ r ∈ log, r.2 ≤ t) :
    Retains capacity ((k, t) :: log) held where
  card_le := h.card_le
  logged := logged_insert h (Finset.subset_insert _ _)
  evicted := by
    intro q u hq hnot
    have hne : q ≠ k := fun heq => hnot (heq ▸ hk)
    rw [lookup_cons_eq, if_neg hne] at hq
    obtain ⟨hfull, hold⟩ := h.evicted q u hq hnot
    refine ⟨hfull, fun a ha v hv => ?_⟩
    rw [lookup_cons_eq] at hv
    split_ifs at hv with hak
    · cases hv
      exact hnow _ (mem_of_lookup hq)
    · exact hold a ha v hv

/-- A new key finds room. -/
theorem Retains.insert (h : Retains capacity log held) (hk : k ∉ held)
    (hroom : held.card < capacity) : Retains capacity ((k, t) :: log) (insert k held) where
  card_le := by
    rw [Finset.card_insert_of_notMem hk]
    exact hroom
  logged := logged_insert h (Finset.Subset.refl _)
  evicted := by
    intro q u hq hnot
    rw [Finset.mem_insert, not_or] at hnot
    rw [lookup_cons_eq, if_neg hnot.1] at hq
    exact absurd (h.evicted q u hq hnot.2).1 (Nat.ne_of_lt hroom)

/-- A new key takes the place of an oldest one. -/
theorem Retains.replace (h : Retains capacity log held) (hk : k ∉ held) (hold : old ∈ held)
    (hfull : held.card = capacity) (hnow : ∀ r ∈ log, r.2 ≤ t)
    (holdest : ∀ u, log.lookup old = some u → ∀ a ∈ held, ∀ v, log.lookup a = some v → u ≤ v) :
    Retains capacity ((k, t) :: log) (Insert.insert k (held.erase old)) := by
  have hcard : (Insert.insert k (held.erase old)).card = capacity := by
    rw [Finset.card_insert_of_notMem fun hmem => hk (Finset.mem_of_mem_erase hmem),
      Finset.card_erase_of_mem hold, hfull]
    exact Nat.sub_add_cancel (hfull ▸ Finset.card_pos.mpr ⟨old, hold⟩)
  refine ⟨hcard.le, logged_insert h (Finset.insert_subset_insert _ (Finset.erase_subset _ _)), ?_⟩
  intro q u hq hnot
  rw [Finset.mem_insert, not_or] at hnot
  rw [lookup_cons_eq, if_neg hnot.1] at hq
  refine ⟨hcard, fun a ha v hv => ?_⟩
  rw [lookup_cons_eq] at hv
  split_ifs at hv with hak
  · cases hv
    exact hnow _ (mem_of_lookup hq)
  · have hheld := Finset.mem_of_mem_erase ((Finset.mem_insert.mp ha).resolve_left hak)
    by_cases hqo : q = old
    · subst hqo
      exact holdest u hq a hheld v hv
    · have hgone : q ∉ held := fun hmem => hnot.2 (Finset.mem_erase.mpr ⟨hqo, hmem⟩)
      exact (h.evicted q u hq hgone).2 a hheld v hv

/-- A key that was given up has made room for a table full of others. -/
theorem Retains.given_up (h : Retains capacity log held) (hlast : log.lookup k = some t)
    (hk : k ∉ held) : capacity ≤ (othersSince log k t).card := by
  obtain ⟨hfull, hold⟩ := h.evicted k t hlast hk
  rw [← hfull]
  apply Finset.card_le_card
  intro a ha
  obtain ⟨u, hu⟩ := h.logged a ha
  exact mem_othersSince.mpr ⟨fun heq => hk (heq ▸ ha), u, mem_of_lookup hu, hold a ha u hu⟩

/-- A key that is still held has seen fewer others than the table holds. -/
theorem Retains.kept (h : Retains capacity log held)
    (hsorted : log.Pairwise fun r r' => r'.2 ≤ r.2) (hlast : log.lookup k = some t)
    (hk : k ∈ held) : (othersSince log k (t + 1)).card < capacity := by
  have hsub : othersSince log k (t + 1) ⊆ held.erase k := by
    intro q hq
    obtain ⟨hne, u, hmem, hu⟩ := mem_othersSince.mp hq
    obtain ⟨v, hv, huv⟩ := lookup_of_mem hsorted hmem
    by_contra hnot
    have hqheld : q ∉ held := fun hq => hnot (Finset.mem_erase.mpr ⟨hne, hq⟩)
    have hvt := (h.evicted q v hv hqheld).2 k hk t hlast
    omega
  have hpos := Finset.card_pos.mpr ⟨k, hk⟩
  calc (othersSince log k (t + 1)).card ≤ (held.erase k).card := Finset.card_le_card hsub
    _ = held.card - 1 := Finset.card_erase_of_mem hk
    _ < held.card := by omega
    _ ≤ capacity := h.card_le

end Recency
