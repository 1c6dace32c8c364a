import Mathlib.Data.Nat.Notation
import Mathlib.Data.List.Basic
import Mathlib.Data.List.TakeWhile

/-! Backtracking regular expressions over lists of characters. A match is the first one in
the order in which the alternatives are tried: the left branch first, and more before fewer. -/

inductive Regex where
  | empty
  | start
  | char (p : Char → Bool)
  | seq (r s : Regex)
  | alt (r s : Regex)
  | many (min : ℕ) (p : Char → Bool)
  | group (r : Regex)
  | edge (isWord : Char → Bool)

namespace Regex

/-- The character before a position, the text behind it, and the groups closed so far. -/
structure Cursor where
  prev : Option Char
  rest : List Char
  groups : List (List Char)

/-- What lies between two positions. -/
def Cursor.upTo (i j : Cursor) : List Char := i.rest.take (i.rest.length - j.rest.length)

/-- At least `min` characters, as many as there are, then one fewer, and so on. -/
def runMany (p : Char → Bool) (groups : List (List Char)) :
    ℕ → Option Char → List Char → List Cursor
  | min, prev, [] => if min = 0 then [⟨prev, [], groups⟩] else []
  | min, prev, c :: rest =>
    (if p c then runMany p groups (min - 1) (some c) rest else []) ++
      if min = 0 then [⟨prev, c :: rest, groups⟩] else []

/-- Whether a position is between a word character and none. -/
def Cursor.atEdge (isWord : Char → Bool) (i : Cursor) : Bool :=
  i.prev.any isWord != i.rest.head?.any isWord

/-- The ends of the matches that begin at a position, in the order of preference. -/
def run : Regex → Cursor → List Cursor
  | empty, i => [i]
  | start, i => if i.prev = none then [i] else []
  | char p, i =>
    match i.rest with
    | [] => []
    | c :: rest => if p c then [{ i with prev := some c, rest }] else []
  | seq r s, i => (run r i).flatMap (run s)
  | alt r s, i => run r i ++ run s i
  | many min p, i => runMany p i.groups min i.prev i.rest
  | group r, i => (run r i).map fun j => { j with groups := j.groups ++ [i.upTo j] }
  | edge isWord, i => if i.atEdge isWord then [i] else []

/-- A literal, up to what a character may stand for. -/
def literal (same : Char → Char → Bool) (s : List Char) : Regex :=
  s.foldr (fun d r => seq (char (same · d)) r) empty

def exactly : List Char → Regex := literal (· = ·)

def times (n : ℕ) (r : Regex) : Regex := (List.replicate n r).foldr seq empty

def opt (r : Regex) : Regex := alt r empty

/-- The groups of a match at the front. -/
def matchAt (r : Regex) (s : List Char) : Option (List (List Char)) :=
  (run r ⟨none, s, []⟩).head?.map Cursor.groups

/-- The groups of the leftmost match. -/
def searchFrom (r : Regex) : Option Char → List Char → Option (List (List Char))
  | prev, [] => (run r ⟨prev, [], []⟩).head?.map Cursor.groups
  | prev, c :: rest =>
    match (run r ⟨prev, c :: rest, []⟩).head? with
    | some j => some j.groups
    | none => searchFrom r (some c) rest

def search (r : Regex) (s : List Char) : Option (List (List Char)) := searchFrom r none s

/-- What the matches hold, from the left and without overlap, with fuel for the characters.
An empty match moves on by one. -/
def findallFrom (r : Regex) : ℕ → Cursor → List (List Char)
  | 0, _ => []
  | fuel + 1, i =>
    match (run r i).head? with
    | some j =>
      i.upTo j ::
        if j.rest.length < i.rest.length then findallFrom r fuel { j with groups := [] }
        else
          match i.rest with
          | [] => []
          | c :: rest => findallFrom r fuel ⟨some c, rest, []⟩
    | none =>
      match i.rest with
      | [] => []
      | c :: rest => findallFrom r fuel ⟨some c, rest, []⟩

def findall (r : Regex) (s : List Char) : List (List Char) :=
  findallFrom r (s.length + 1) ⟨none, s, []⟩

/-! ### The rules -/

theorem run_char_of_not {p : Char → Bool} {c : Char} (h : ¬ p c) (r : Regex) (prev : Option Char)
    (rest : List Char) (groups : List (List Char)) :
    run (seq (char p) r) ⟨prev, c :: rest, groups⟩ = [] := by
  rw [run, run]
  dsimp only
  rw [if_neg h, List.flatMap_nil]

theorem run_char_of_pos {p : Char → Bool} {c : Char} (h : p c) (r : Regex) (prev : Option Char)
    (rest : List Char) (groups : List (List Char)) :
    run (seq (char p) r) ⟨prev, c :: rest, groups⟩ = run r ⟨some c, rest, groups⟩ := by
  rw [run, run]
  dsimp only
  rw [if_pos h, List.flatMap_singleton]

/-- A search moves over characters that no match begins with. -/
theorem searchFrom_char_append {p : Char → Bool} (r : Regex) {pre : List Char}
    (h : ∀ c ∈ pre, ¬ p c) (prev : Option Char) (rest : List Char) :
    ∃ prev', searchFrom (seq (char p) r) prev (pre ++ rest) =
      searchFrom (seq (char p) r) prev' rest := by
  induction pre generalizing prev with
  | nil => exact ⟨prev, rfl⟩
  | cons c pre ih =>
    rw [List.forall_mem_cons] at h
    obtain ⟨prev', hrest⟩ := ih h.2 (some c)
    refine ⟨prev', ?_⟩
    rw [List.cons_append, searchFrom, run_char_of_not h.1]
    exact hrest

/-- The longest run of characters is tried first. -/
theorem head_runMany {p : Char → Bool} (groups : List (List Char)) {min : ℕ} {prev : Option Char}
    {ds rest : List Char} (hds : ∀ c ∈ ds, p c) (hrest : ∀ c ∈ rest.head?, ¬ p c)
    (hmin : min ≤ ds.length) :
    ∃ prev', (runMany p groups min prev (ds ++ rest)).head? = some ⟨prev', rest, groups⟩ := by
  induction ds generalizing min prev with
  | nil =>
    obtain rfl := Nat.le_zero.mp hmin
    refine ⟨prev, ?_⟩
    cases rest with
    | nil => rfl
    | cons c rest =>
      rw [List.nil_append, runMany, if_neg (hrest c rfl)]
      rfl
  | cons d ds ih =>
    rw [List.forall_mem_cons] at hds
    have hpred : min - 1 ≤ ds.length := by
      rw [List.length_cons] at hmin
      omega
    obtain ⟨prev', hhead⟩ := @ih (min - 1) (some d) hds.2 hpred
    refine ⟨prev', ?_⟩
    rw [List.cons_append, runMany, if_pos hds.1, List.head?_append, hhead]
    rfl

/-- A character, and the group of the characters behind it. -/
theorem search_char_many {q p : Char → Bool} {pre ds rest : List Char} {d : Char}
    (hpre : ∀ c ∈ pre, ¬ q c) (hd : q d) (hds : ∀ c ∈ ds, p c) (hne : ds ≠ [])
    (hrest : ∀ c ∈ rest.head?, ¬ p c) :
    search (seq (char q) (group (many 1 p))) (pre ++ d :: (ds ++ rest)) = some [ds] := by
  obtain ⟨prev, hskip⟩ := searchFrom_char_append (group (many 1 p)) hpre none (d :: (ds ++ rest))
  obtain ⟨prev', hhead⟩ : ∃ prev', (runMany p [] 1 (some d) (ds ++ rest)).head? =
      some ⟨prev', rest, []⟩ := head_runMany [] hds hrest (List.length_pos_iff.mpr hne)
  have htaken : (ds ++ rest).take ((ds ++ rest).length - rest.length) = ds := by
    rw [List.length_append, Nat.add_sub_cancel, List.take_left]
  rw [search, hskip, searchFrom, run_char_of_pos hd, run, run, List.head?_map, hhead]
  simp only [Option.map_some, Cursor.upTo, htaken, List.nil_append]

/-! ### Groups in runs -/

/-- The first `n` elements, the next `n`, and so on, as long as there are as many. -/
def groupsOf (n : ℕ) (s : List Char) : List (List Char) :=
  (List.range (s.length / n)).map fun k => (s.drop (n * k)).take n

theorem groupsOf_of_lt {n : ℕ} {s : List Char} (h : s.length < n) : groupsOf n s = [] := by
  rw [groupsOf, Nat.div_eq_of_lt h, List.range_zero, List.map_nil]

theorem groupsOf_append {n : ℕ} (hn : 0 < n) {s : List Char} (h : s.length = n)
    (t : List Char) : groupsOf n (s ++ t) = s :: groupsOf n t := by
  have hlen : (s ++ t).length / n = t.length / n + 1 := by
    rw [List.length_append, h, Nat.add_comm, Nat.add_div_right _ hn]
  rw [groupsOf, hlen, List.range_succ_eq_map, List.map_cons, List.map_map]
  congr 1
  · simp [← h]
  · refine List.map_congr_left fun k _ => ?_
    have hdrop : n * (k + 1) = s.length + n * k := by rw [h, Nat.mul_succ, Nat.add_comm]
    have hnil : s.drop (s.length + n * k) = [] := List.drop_eq_nil_of_le (Nat.le_add_right _ _)
    simp only [Function.comp_apply, Nat.succ_eq_add_one, hdrop, List.drop_append, hnil]
    simp

/-- Some characters, one after the other. -/
theorem run_times {p : Char → Bool} {ds : List Char} (h : ∀ c ∈ ds, p c) (prev : Option Char)
    (rest : List Char) (groups : List (List Char)) :
    ∃ prev', run (times ds.length (char p)) ⟨prev, ds ++ rest, groups⟩ =
      [⟨prev', rest, groups⟩] := by
  induction ds generalizing prev with
  | nil => exact ⟨prev, rfl⟩
  | cons d ds ih =>
    rw [List.forall_mem_cons] at h
    obtain ⟨prev', hrun⟩ := ih h.2 (some d)
    exact ⟨prev', (run_char_of_pos h.1 _ _ _ _).trans hrun⟩

/-- There are too few of them. -/
theorem run_times_of_lt {p : Char → Bool} {ds rest : List Char} {n : ℕ} (hlt : ds.length < n)
    (h : ∀ c ∈ ds, p c) (hrest : ∀ c ∈ rest.head?, ¬ p c) (prev : Option Char)
    (groups : List (List Char)) :
    run (times n (char p)) ⟨prev, ds ++ rest, groups⟩ = [] := by
  induction ds generalizing n prev with
  | nil =>
    obtain ⟨n, rfl⟩ := Nat.exists_eq_add_of_lt hlt
    cases rest with
    | nil => rfl
    | cons c rest => exact run_char_of_not (hrest c rfl) _ _ _ _
  | cons d ds ih =>
    rw [List.forall_mem_cons] at h
    cases n with
    | zero => cases hlt
    | succ n => exact (run_char_of_pos h.1 _ _ _ _).trans (ih (Nat.lt_of_succ_lt_succ hlt) h.2 _)

/-- The first run of characters, and those behind what ends it. -/
theorem splitOnP_run {p : Char → Bool} {ds rest : List Char} (h : ∀ c ∈ ds, p c)
    (hrest : ∀ c ∈ rest.head?, ¬ p c) :
    (ds ++ rest).splitOnP (fun c => !p c) = ds :: (rest.splitOnP fun c => !p c).tail := by
  have hds : ∀ c ∈ ds, (!p c) = false := fun c hc => by rw [h c hc, Bool.not_true]
  cases rest with
  | nil => rw [List.append_nil, List.splitOnP_eq_singleton hds, List.splitOnP_nil, List.tail_cons]
  | cons c rest =>
    have hc : (!p c) = true := by simpa using hrest c rfl
    rw [List.splitOnP_append_cons_of_forall_mem hds c hc, List.splitOnP_cons_eq_if_modifyHead,
      if_pos hc, List.tail_cons]

/-- From each run of characters the groups of `n` are found, its first characters first. -/
theorem findall_times {p : Char → Bool} {n : ℕ} (hn : 0 < n) (s : List Char) :
    findall (times n (char p)) s = (s.splitOnP fun c => !p c).flatMap (groupsOf n) := by
  have hfrom : ∀ fuel (s : List Char) prev, s.length < fuel →
      findallFrom (times n (char p)) fuel ⟨prev, s, []⟩ =
        (s.splitOnP fun c => !p c).flatMap (groupsOf n) := by
    intro fuel
    induction fuel with
    | zero => exact fun s _ h => absurd h (Nat.not_lt_zero _)
    | succ fuel ih =>
      intro s prev hfuel
      obtain ⟨ds, rest, rfl, hds, hrest⟩ : ∃ ds rest, s = ds ++ rest ∧ (∀ c ∈ ds, p c) ∧
          ∀ c ∈ rest.head?, ¬ p c := by
        refine ⟨s.takeWhile p, s.dropWhile p, (List.takeWhile_append_dropWhile).symm,
          fun c hc => List.mem_takeWhile_imp hc, fun c hc => ?_⟩
        have hhead := List.head?_dropWhile_not p s
        rw [hc] at hhead
        simpa using hhead
      have hle : (ds ++ rest).length ≤ fuel := Nat.le_of_lt_succ hfuel
      rw [List.length_append] at hfuel
      rw [splitOnP_run hds hrest, List.flatMap_cons]
      by_cases hlen : n ≤ ds.length
      · -- a group is found, and the search goes on behind it
        have hpre : (ds.take n).length = n := List.length_take_of_le hlen
        obtain ⟨prev', hrun⟩ := run_times (fun c hc => hds c (List.mem_of_mem_take hc)) prev
          (ds.drop n ++ rest) []
        rw [hpre, ← List.append_assoc, List.take_append_drop] at hrun
        have hlt : (ds.drop n ++ rest).length < (ds ++ rest).length := by
          rw [List.length_append, List.length_append, List.length_drop]
          omega
        have htaken : Cursor.upTo ⟨prev, ds ++ rest, []⟩ ⟨prev', ds.drop n ++ rest, []⟩ =
            ds.take n := by
          have hsub : (ds ++ rest).length - (ds.drop n ++ rest).length = n := by
            rw [List.length_append, List.length_append, List.length_drop]
            omega
          rw [Cursor.upTo, hsub, List.take_append_of_le_length hlen]
        have hgroups : groupsOf n ds = ds.take n :: groupsOf n (ds.drop n) := by
          conv_lhs => rw [← List.take_append_drop n ds]
          exact groupsOf_append hn hpre _
        rw [findallFrom, hrun, List.head?_cons]
        dsimp only
        rw [if_pos hlt, htaken, hgroups, ih _ prev' (hlt.trans_le hle),
          splitOnP_run (fun c hc => hds c (List.mem_of_mem_drop hc)) hrest, List.flatMap_cons]
        rfl
      · -- the run is too short, and so is what follows its first character
        have hshort := Nat.lt_of_not_le hlen
        rw [findallFrom, run_times_of_lt hshort hds hrest, groupsOf_of_lt hshort, List.head?_nil]
        cases ds with
        | nil =>
          cases rest with
          | nil => rfl
          | cons c rest =>
            have hc : (!p c) = true := by simpa using hrest c rfl
            rw [List.splitOnP_cons_eq_if_modifyHead, if_pos hc]
            exact ih rest (some c) (by rw [List.length_cons] at hfuel; omega)
        | cons d ds =>
          rw [List.forall_mem_cons] at hds
          rw [List.length_cons] at hshort hfuel
          refine (ih (ds ++ rest) (some d) (by rw [List.length_append]; omega)).trans ?_
          rw [splitOnP_run hds.2 hrest, List.flatMap_cons, groupsOf_of_lt (by omega)]
  exact hfrom _ s none (Nat.lt_succ_self _)

end Regex
