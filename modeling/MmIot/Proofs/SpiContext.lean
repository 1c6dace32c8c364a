import MmIot.Spec.SpiStm32

/-! A context that moves along a buffer set as the driver relies on: the buffers left, the
current one first, each with its address and its number of frames, which is not 0. -/

namespace MmIot

/-- Buffers left, none of them empty. -/
abbrev BufsLeft := { bufs : List (Option ℕ × ℕ) // ∀ b ∈ bufs, b.2 ≠ 0 }

namespace BufsLeft

variable (dfs : ℕ)

def setup (bufs : List SpiBuf) : BufsLeft :=
  ⟨(bufs.map fun b => (b.buf, b.len / dfs)).filter (·.2 ≠ 0),
    fun _ hb => of_decide_eq_true (List.mem_filter.mp hb).2⟩

def len (c : BufsLeft) : ℕ := (c.1.head?.map Prod.snd).getD 0

def buf (c : BufsLeft) : Option ℕ := c.1.head?.bind Prod.fst

/-- Moves on within the current buffer, or to the next one. -/
def update (c : BufsLeft) (n : ℕ) : BufsLeft :=
  match c with
  | ⟨[], h⟩ => ⟨[], h⟩
  | ⟨(a, m) :: rest, h⟩ =>
    if hn : n < m then ⟨(a.map (· + dfs * n), m - n) :: rest, by
      intro b hb
      rcases List.mem_cons.mp hb with rfl | hb
      · exact Nat.sub_ne_zero_of_lt hn
      · exact h b (List.mem_cons_of_mem _ hb)⟩
    else if n = m then ⟨rest, fun b hb => h b (List.mem_cons_of_mem _ hb)⟩
    else ⟨(a, m) :: rest, h⟩

def bufFrames (b : Option ℕ × ℕ) : List (Option ℕ) :=
  (List.range b.2).map fun i => b.1.map (· + dfs * i)

def frames (c : BufsLeft) : List (Option ℕ) := c.1.flatMap (bufFrames dfs)

theorem frames_setup (bufs : List SpiBuf) : frames dfs (setup dfs bufs) = bufSetFrames dfs bufs := by
  induction bufs with
  | nil => rfl
  | cons b bufs ih =>
    simp only [frames, setup, bufSetFrames, List.map_cons, List.filter_cons,
      List.flatMap_cons] at ih ⊢
    split_ifs with hzero
    · rw [List.flatMap_cons, ih]
      rfl
    · have hnil : b.len / dfs = 0 := by
        by_contra hne
        exact hzero (by simpa using hne)
      rw [ih]
      simp [SpiBuf.frames, hnil]

theorem len_eq_zero (c : BufsLeft) : len c = 0 ↔ frames dfs c = [] := by
  obtain ⟨_ | ⟨⟨a, m⟩, rest⟩, h⟩ := c
  · simp [len, frames]
  · have hm : m ≠ 0 := h (a, m) List.mem_cons_self
    simp [len, frames, bufFrames, hm]

theorem buf_of_len (c : BufsLeft) (hlen : len c = 0) : buf c = none := by
  obtain ⟨_ | ⟨⟨a, m⟩, rest⟩, h⟩ := c
  · rfl
  · exact absurd hlen (h (a, m) List.mem_cons_self)

theorem bufFrames_getElem (b : Option ℕ × ℕ) {i : ℕ} (hi : i < b.2) :
    (bufFrames dfs b)[i]? = some (b.1.map (· + dfs * i)) := by
  simp [bufFrames, hi]

theorem frames_getElem (c : BufsLeft) : ∀ i < len c,
    (frames dfs c)[i]? = some ((buf c).map (· + dfs * i)) := by
  intro i hi
  obtain ⟨_ | ⟨⟨a, m⟩, rest⟩, h⟩ := c
  · simp [len] at hi
  · change i < m at hi
    rw [frames, List.flatMap_cons, List.getElem?_append_left (by simpa [bufFrames] using hi)]
    exact bufFrames_getElem dfs (a, m) hi

/-- The frames of a buffer after the first `n`. -/
theorem bufFrames_drop (a : Option ℕ) (m n : ℕ) :
    bufFrames dfs (a.map (· + dfs * n), m - n) = (bufFrames dfs (a, m)).drop n := by
  apply List.ext_getElem (by simp [bufFrames])
  intro i _ _
  simp only [bufFrames, List.getElem_map, List.getElem_drop, List.getElem_range]
  cases a with
  | none => rfl
  | some a => simp [Nat.mul_add, Nat.add_assoc]

theorem frames_update (c : BufsLeft) (n : ℕ) (hn : n ≤ len c ∨ len c = 0) :
    frames dfs (update dfs c n) = (frames dfs c).drop n := by
  obtain ⟨_ | ⟨⟨a, m⟩, rest⟩, h⟩ := c
  · simp [update, frames]
  · have hm : m ≠ 0 := h (a, m) List.mem_cons_self
    have hle : n ≤ m := hn.resolve_right hm
    have hlen : (bufFrames dfs (a, m)).length = m := by simp [bufFrames]
    rw [update]
    split_ifs with hlt heq
    · rw [frames, frames, List.flatMap_cons, List.flatMap_cons, bufFrames_drop,
        List.drop_append_of_le_length (by omega)]
    · subst heq
      rw [frames, frames, List.flatMap_cons, List.drop_left' hlen]
    · omega

end BufsLeft

/-- The two halves of such a context. -/
def spiContext (dfs : ℕ) : SpiCursor dfs BufsLeft where
  setup := BufsLeft.setup dfs
  on := fun c => c.len ≠ 0
  bufOn := fun c => c.len ≠ 0 && c.buf.isSome
  len := BufsLeft.len
  buf := BufsLeft.buf
  update := BufsLeft.update dfs
  frames := BufsLeft.frames dfs
  frames_setup := BufsLeft.frames_setup dfs
  on_iff := fun _ => decide_eq_true_iff
  bufOn_iff := fun c => by
    rw [Bool.and_eq_true, decide_eq_true_iff, Option.isSome_iff_ne_none]
  len_eq_zero := BufsLeft.len_eq_zero dfs
  buf_of_len := BufsLeft.buf_of_len
  frames_getElem := BufsLeft.frames_getElem dfs
  frames_update := BufsLeft.frames_update dfs

end MmIot
