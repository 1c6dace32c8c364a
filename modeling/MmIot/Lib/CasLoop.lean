import Mathlib.Data.List.Perm.Basic
import Mathlib.Order.Bounds.Basic
import Mathlib.Order.Defs.LinearOrder
import MmIot.Lib.Transition

/-! Calls that raise a shared cell by a compare-and-exchange in a loop, any number of them at
a time. The exchange is the weak one, which may also fail for no reason. -/

namespace CasLoop

open Transition

variable {α κ : Type}

/-- What a call stores, whether it wants to after it has read the cell, and how the exchange
compares. -/
structure Loop (α κ : Type) where
  value : κ → α
  wants : κ → α → Bool
  same : α → α → Bool

/-- Where a call is, with what it read last. -/
inductive Pc (α : Type) where
  | load
  | test (current : α)
  | exchange (current : α)
  | done

def Pc.isDone : Pc α → Bool
  | .done => true
  | _ => false

structure State (α κ : Type) where
  cell : α
  calls : List (κ × Pc α)

inductive Act (κ : Type) where
  | call (c : κ)
  | run (i : ℕ) (spurious : Bool)

def Loop.step (l : Loop α κ) (s : State α κ) : Act κ → Option (State α κ)
  | .call c => some { s with calls := s.calls ++ [(c, .load)] }
  | .run i spurious =>
    match s.calls[i]? with
    | some (c, .load) => some { s with calls := s.calls.set i (c, .test s.cell) }
    | some (c, .test current) =>
      let pc := if l.wants c current then .exchange current else .done
      some { s with calls := s.calls.set i (c, pc) }
    | some (c, .exchange current) =>
      if l.same s.cell current && !spurious then
        some { cell := l.value c, calls := s.calls.set i (c, .done) }
      else some { s with calls := s.calls.set i (c, .test s.cell) }
    | _ => none

def start (init : α) : State α κ := { cell := init, calls := [] }

/-- What the calls that have returned stored, or found no need to. -/
def Loop.returned (l : Loop α κ) (calls : List (κ × Pc α)) : Set α :=
  {v | ∃ c, (c, Pc.done) ∈ calls ∧ l.value c = v}

/-- The test of this step, or the comparison, is right about what it is for. -/
def Loop.right [LinearOrder α] (l : Loop α κ) (s : State α κ) : Act κ → Prop
  | .call _ => True
  | .run i _ => ∀ c current,
    (s.calls[i]? = some (c, .test current) →
      (l.wants c current = true → current ≤ l.value c) ∧
        (current < l.value c → l.wants c current = true)) ∧
    (s.calls[i]? = some (c, .exchange current) → l.same s.cell current = true → s.cell = current)

variable {l : Loop α κ} {s s' : State α κ} {a : Act κ} {init : α} {i : ℕ} {c : κ} {pc : Pc α}
  {calls : List (κ × Pc α)}

/-- The steps of a call. -/
inductive Moves (l : Loop α κ) (s : State α κ) (i : ℕ) (spurious : Bool) (c : κ) :
    Pc α → State α κ → Prop where
  | load : Moves l s i spurious c .load { s with calls := s.calls.set i (c, .test s.cell) }
  | goOn (current : α) : l.wants c current = true → Moves l s i spurious c (.test current)
      { s with calls := s.calls.set i (c, .exchange current) }
  | leave (current : α) : l.wants c current = false → Moves l s i spurious c (.test current)
      { s with calls := s.calls.set i (c, .done) }
  | store (current : α) : l.same s.cell current = true →
      Moves l s i spurious c (.exchange current)
        { cell := l.value c, calls := s.calls.set i (c, .done) }
  | again (current : α) : spurious = true ∨ l.same s.cell current = false →
      Moves l s i spurious c (.exchange current)
        { s with calls := s.calls.set i (c, .test s.cell) }

theorem step_run {spurious : Bool} (h : l.step s (.run i spurious) = some s') :
    ∃ c pc, s.calls[i]? = some (c, pc) ∧ Moves l s i spurious c pc s' := by
  cases hi : s.calls[i]? with
  | none => simp [Loop.step, hi] at h
  | some call =>
    obtain ⟨c, pc⟩ := call
    refine ⟨c, pc, rfl, ?_⟩
    cases pc with
    | load =>
      simp only [Loop.step, hi, Option.some.injEq] at h
      exact h ▸ .load
    | test current =>
      simp only [Loop.step, hi, Option.some.injEq] at h
      subst h
      cases hwants : l.wants c current with
      | true => exact .goOn current hwants
      | false => exact .leave current hwants
    | exchange current =>
      simp only [Loop.step, hi] at h
      split_ifs at h with hsame <;> cases h
      · exact .store current (Bool.and_eq_true_iff.mp hsame).1
      · refine .again current ?_
        revert hsame
        cases spurious <;> cases l.same s.cell current <;> simp
    | done => simp [Loop.step, hi] at h

/-! ### The cell holds the greatest -/

/-- One more call has returned. -/
theorem returned_set_done (hi : calls[i]? = some (c, pc)) (hpc : pc ≠ .done) :
    l.returned (calls.set i (c, .done)) = insert (l.value c) (l.returned calls) := by
  have hlt := (List.getElem?_eq_some_iff.mp hi).1
  ext v
  constructor
  · rintro ⟨c', hmem, rfl⟩
    rcases List.mem_or_eq_of_mem_set hmem with hold | hnew
    · exact .inr ⟨c', hold, rfl⟩
    · cases hnew
      exact .inl rfl
  · rintro (rfl | ⟨c', hmem, rfl⟩)
    · exact ⟨c, List.mem_set hlt _, rfl⟩
    · obtain ⟨j, hj⟩ := List.mem_iff_getElem?.mp hmem
      have hne : i ≠ j := by
        rintro rfl
        rw [hi] at hj
        cases hj
        exact hpc rfl
      rw [← List.getElem?_set_ne hne] at hj
      exact ⟨c', List.mem_of_getElem? hj, rfl⟩

theorem returned_set (hi : calls[i]? = some (c, pc)) (hpc : pc ≠ .done) (pc' : Pc α)
    (hpc' : pc' ≠ .done) : l.returned (calls.set i (c, pc')) = l.returned calls := by
  ext v
  constructor
  · rintro ⟨c', hmem, rfl⟩
    rcases List.mem_or_eq_of_mem_set hmem with hold | hnew
    · exact ⟨c', hold, rfl⟩
    · cases hnew
      exact absurd rfl hpc'
  · rintro ⟨c', hmem, rfl⟩
    obtain ⟨j, hj⟩ := List.mem_iff_getElem?.mp hmem
    have hne : i ≠ j := by
      rintro rfl
      rw [hi] at hj
      cases hj
      exact hpc rfl
    rw [← List.getElem?_set_ne hne] at hj
    exact ⟨c', List.mem_of_getElem? hj, rfl⟩

section Raise

variable [LinearOrder α]

/-- What a call has read was in the cell, and is not above what it is about to store. -/
def Loop.Seen (l : Loop α κ) (cell : α) : κ × Pc α → Prop
  | (_, .test current) => current ≤ cell
  | (c, .exchange current) => current ≤ cell ∧ current ≤ l.value c
  | _ => True

theorem Loop.Seen.mono {cell cell' : α} {x : κ × Pc α} (h : l.Seen cell x)
    (hle : cell ≤ cell') : l.Seen cell' x := by
  obtain ⟨c, pc⟩ := x
  cases pc with
  | test current => exact le_trans h hle
  | exchange current => exact ⟨le_trans h.1 hle, h.2⟩
  | _ => trivial

theorem seen_set {cell cell' : α} {x : κ × Pc α} (h : ∀ y ∈ calls, l.Seen cell y)
    (hle : cell ≤ cell') (hx : l.Seen cell' x) : ∀ y ∈ calls.set i x, l.Seen cell' y := by
  intro y hy
  rcases List.mem_or_eq_of_mem_set hy with hold | rfl
  · exact (h y hold).mono hle
  · exact hx

structure Inv (l : Loop α κ) (init : α) (s : State α κ) : Prop where
  greatest : IsGreatest (insert init (l.returned s.calls)) s.cell
  seen : ∀ x ∈ s.calls, l.Seen s.cell x

theorem inv_start : Inv l init (start init) where
  greatest := by
    have hnone : l.returned (start init).calls = ∅ := by
      ext v
      simp [Loop.returned, start]
    rw [hnone]
    exact ⟨Set.mem_insert init ∅, by simp [start]⟩
  seen := by simp [start]

theorem isGreatest_insert_le {S : Set α} {x v : α} (h : IsGreatest (insert init S) x)
    (hv : v ≤ x) : IsGreatest (insert init (insert v S)) x := by
  rw [Set.insert_comm]
  refine ⟨Set.mem_insert_of_mem v h.1, ?_⟩
  rintro y (rfl | hy)
  · exact hv
  · exact h.2 hy

theorem isGreatest_insert_ge {S : Set α} {x v : α} (h : IsGreatest (insert init S) x)
    (hv : x ≤ v) : IsGreatest (insert init (insert v S)) v := by
  rw [Set.insert_comm]
  refine ⟨Set.mem_insert v _, ?_⟩
  rintro y (rfl | hy)
  · exact le_rfl
  · exact (h.2 hy).trans hv

theorem Inv.step (hinv : Inv l init s) (hg : l.right s a) (h : l.step s a = some s') :
    Inv l init s' ∧ s.cell ≤ s'.cell := by
  cases a with
  | call c =>
    cases h
    have hsame : l.returned (s.calls ++ [(c, .load)]) = l.returned s.calls := by
      ext v
      simp [Loop.returned]
    refine ⟨⟨hsame ▸ hinv.greatest, fun x hx => ?_⟩, le_rfl⟩
    rcases List.mem_append.mp hx with hold | hnew
    · exact hinv.seen x hold
    · rw [List.mem_singleton.mp hnew]
      trivial
  | run i spurious =>
    obtain ⟨c, pc, hi, hmoves⟩ := step_run h
    have hseen := hinv.seen _ (List.mem_of_getElem? hi)
    cases hmoves with
    | load | again current =>
      have hsame := returned_set (l := l) hi (by simp) (.test s.cell) (by simp)
      exact ⟨⟨hsame ▸ hinv.greatest, seen_set hinv.seen le_rfl le_rfl⟩, le_rfl⟩
    | goOn current hwants =>
      have hsame := returned_set (l := l) hi (by simp) (.exchange current) (by simp)
      refine ⟨⟨hsame ▸ hinv.greatest, seen_set hinv.seen le_rfl ?_⟩, le_rfl⟩
      exact ⟨hseen, ((hg c current).1 hi).1 hwants⟩
    | leave current hwants =>
      -- it leaves because it read no less than what it would have stored
      have hle : l.value c ≤ current := by
        refine not_lt.mp fun hlt => ?_
        rw [((hg c current).1 hi).2 hlt] at hwants
        cases hwants
      refine ⟨⟨?_, seen_set hinv.seen le_rfl trivial⟩, le_rfl⟩
      rw [returned_set_done hi (by simp)]
      exact isGreatest_insert_le hinv.greatest (hle.trans hseen)
    | store current hsame =>
      have hle : s.cell ≤ l.value c := (hg c current).2 hi hsame ▸ hseen.2
      refine ⟨⟨?_, seen_set hinv.seen hle trivial⟩, hle⟩
      rw [returned_set_done hi (by simp)]
      exact isGreatest_insert_ge hinv.greatest hle

/-- The cell holds the greatest of what was there and of what the calls that have returned
were for. -/
theorem inv_of_reach (hs : Reach (· = start init) l.right l.step s) : Inv l init s :=
  hs.invariant (fun _ h => h ▸ inv_start) fun _ _ _ hinv hg h => (hinv.step hg h).1

end Raise

/-! ### How long a call takes -/

/-- The steps a call has left if no other one runs. -/
def Loop.left (l : Loop α κ) (cell : α) : Option (κ × Pc α) → ℕ
  | some (_, .test current) => if l.same cell current then 2 else 4
  | some (_, .exchange current) => if l.same cell current then 1 else 3
  | some (_, .done) => 0
  | _ => 3

/-- The other calls that have returned. -/
def State.othersDone (s : State α κ) (i : ℕ) : ℕ :=
  (s.calls.eraseIdx i).countP fun x => x.2.isDone

/-- All calls that have returned are the others and perhaps this one. -/
theorem othersDone_add (s : State α κ) (i : ℕ) :
    s.othersDone i + (if s.calls[i]?.any fun x => x.2.isDone then 1 else 0) =
      s.calls.countP fun x => x.2.isDone := by
  rcases Nat.lt_or_ge i s.calls.length with hlt | hge
  · rw [← (List.getElem_cons_eraseIdx_perm hlt).countP_eq, List.countP_cons,
      List.getElem?_eq_getElem hlt]
    rfl
  · rw [State.othersDone, List.eraseIdx_of_length_le hge, List.getElem?_eq_none hge]
    rfl

theorem left_le_of_cell (cell cell' : α) (x : Option (κ × Pc α)) :
    l.left cell' x ≤ l.left cell x + 2 := by
  rcases x with _ | ⟨c, pc⟩
  · simp [Loop.left]
  · cases pc with
    | test current | exchange current =>
      simp only [Loop.left]
      split_ifs <;> omega
    | _ => simp [Loop.left]

theorem countP_set_add {β : Type} {p : β → Bool} {xs : List β} {x : β} (hi : xs[i]? = some x)
    (y : β) : (xs.set i y).countP p + (if p x then 1 else 0) =
      xs.countP p + if p y then 1 else 0 := by
  obtain ⟨hlt, rfl⟩ := List.getElem?_eq_some_iff.mp hi
  rw [List.countP_set hlt]
  split_ifs with hx <;> try rfl
  all_goals
    have hpos : 0 < xs.countP p := List.countP_pos_iff.mpr ⟨_, List.getElem_mem hlt, hx⟩
    omega

/-- A call's own step is none of the others'. -/
theorem othersDone_set (s : State α κ) (i : ℕ) (x : κ × Pc α) (cell : α) :
    State.othersDone { cell, calls := s.calls.set i x } i = s.othersDone i := by
  rw [State.othersDone, List.eraseIdx_set_eq, State.othersDone]

theorem othersDone_set_ne {j : ℕ} (hne : j ≠ i) (hj : s.calls[j]? = some (c, pc))
    (hpc : pc.isDone = false) (pc' : Pc α) (cell : α) :
    State.othersDone { cell, calls := s.calls.set j (c, pc') } i =
      s.othersDone i + if pc'.isDone then 1 else 0 := by
  have hcount := countP_set_add (p := fun x : κ × Pc α => x.2.isDone) hj (c, pc')
  have hold := othersDone_add s i
  have hnew := othersDone_add { cell, calls := s.calls.set j (c, pc') } i
  dsimp only at hnew
  rw [List.getElem?_set_ne hne] at hnew
  simp only [hpc, Bool.false_eq_true, if_false] at hcount
  omega

theorem Moves.isDone {spurious : Bool} (h : Moves l s i spurious c pc s') : pc.isDone = false := by
  cases h <;> rfl

/-- Its own step brings a call nearer its end. -/
theorem left_own (hrefl : ∀ x, l.same x x = true) (h : l.step s (.run i false) = some s') :
    l.left s'.cell s'.calls[i]? + 1 ≤ l.left s.cell s.calls[i]? ∧
      s'.othersDone i = s.othersDone i := by
  obtain ⟨c, pc, hi, hmoves⟩ := step_run h
  have hlt := (List.getElem?_eq_some_iff.mp hi).1
  have hdones := othersDone_set s i
  rw [hi]
  cases hmoves with
  | load => simp [Loop.left, List.getElem?_set_self hlt, hrefl, hdones]
  | goOn current _ =>
    simp only [Loop.left, List.getElem?_set_self hlt, hdones]
    split_ifs <;> simp
  | leave current _ =>
    simp only [Loop.left, List.getElem?_set_self hlt, hdones]
    split_ifs <;> simp
  | store current hsame => simp [Loop.left, List.getElem?_set_self hlt, hdones, hsame]
  | again current hfailed =>
    have hsame := hfailed.resolve_left (by simp)
    simp [Loop.left, List.getElem?_set_self hlt, hdones, hsame, hrefl]

/-- A step of another call takes it back at most one round, and then that one returns. -/
theorem left_other {j : ℕ} {spurious : Bool} (hne : j ≠ i)
    (h : l.step s (.run j spurious) = some s') :
    l.left s'.cell s'.calls[i]? + 2 * s.othersDone i ≤
      l.left s.cell s.calls[i]? + 2 * s'.othersDone i := by
  obtain ⟨c, pc, hj, hmoves⟩ := step_run h
  have hdones := fun pc' cell => othersDone_set_ne hne hj hmoves.isDone pc' cell
  cases hmoves with
  | store current _ =>
    rw [List.getElem?_set_ne hne, hdones]
    have hle := left_le_of_cell (l := l) s.cell (l.value c) s.calls[i]?
    simp only [Pc.isDone, if_true]
    omega
  | _ =>
    rw [List.getElem?_set_ne hne, hdones]
    exact Nat.add_le_add_left (Nat.mul_le_mul_left 2 (Nat.le_add_right _ _)) _

theorem left_call (c : κ) (h : l.step s (.call c) = some s') :
    l.left s'.cell s'.calls[i]? = l.left s.cell s.calls[i]? ∧
      s'.othersDone i = s.othersDone i := by
  cases h
  rcases Nat.lt_trichotomy i s.calls.length with hlt | rfl | hgt
  · refine ⟨by rw [List.getElem?_append_left hlt], ?_⟩
    simp [State.othersDone, List.eraseIdx_append_of_lt_length hlt, Pc.isDone]
  · simp [Loop.left, State.othersDone, List.eraseIdx_append_of_length_le, List.eraseIdx_of_length_le]
  · rw [List.getElem?_eq_none (by simp; omega), List.getElem?_eq_none (by omega)]
    have hlen : (s.calls ++ [(c, Pc.load)]).length ≤ i := by
      rw [List.length_append]
      exact hgt
    simp [State.othersDone, List.eraseIdx_of_length_le hlen, List.eraseIdx_of_length_le hgt.le,
      Pc.isDone]

/-- The steps of call `i` in a schedule. -/
def stepsOf (i : ℕ) (as : List (Act κ)) : ℕ :=
  as.countP fun a => match a with
    | .run j _ => j == i
    | .call _ => false

/-- A call whose exchanges do not fail for no reason goes round once more for each other call
that returns meanwhile. -/
theorem stepsOf_le (hrefl : ∀ x, l.same x x = true) {as : List (Act κ)}
    (has : .run i true ∉ as) (h : schedule l.step s as = some s') :
    stepsOf i as + l.left s'.cell s'.calls[i]? + 2 * s.othersDone i ≤
      l.left s.cell s.calls[i]? + 2 * s'.othersDone i := by
  induction as generalizing s with
  | nil =>
    cases h
    simp [stepsOf]
  | cons a as ih =>
    obtain ⟨t, ht, h⟩ := Option.bind_eq_some_iff.mp h
    rw [List.mem_cons, not_or] at has
    have hrest := ih has.2 h
    cases a with
    | call c =>
      obtain ⟨hleft, hdones⟩ := left_call (i := i) c ht
      simp only [stepsOf, List.countP_cons] at hrest ⊢
      simp only [Bool.false_eq_true, if_false]
      omega
    | run j spurious =>
      rcases eq_or_ne j i with rfl | hne
      · cases spurious with
        | true => exact absurd rfl has.1
        | false =>
          obtain ⟨hleft, hdones⟩ := left_own hrefl ht
          simp only [stepsOf, List.countP_cons] at hrest ⊢
          simp only [beq_self_eq_true, if_true]
          omega
      · have hleft := left_other hne ht
        have hbeq : (j == i) = false := beq_eq_false_iff_ne.mpr hne
        simp only [stepsOf, List.countP_cons] at hrest ⊢
        simp only [hbeq, Bool.false_eq_true, if_false]
        omega

end CasLoop
