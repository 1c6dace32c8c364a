import MmIot.Lib.Transition
import Mathlib.Data.Finset.Basic
import Mathlib.Logic.Function.Basic
import Mathlib.Order.Disjoint

/-! Programs that acquire, use and release resources, any number of them at a time, each
resource with its contents. A program that is right about what it owns on its own is right
between all others. -/

namespace Ownership

open Transition

variable {κ β ω α Q μ : Type} {Ans : Q → Type}

/-- Resources have a kind and a number. A program may be refused one, looks at what is in one
and changes it, may ask what it then depends on, and emits what others are to see; it ends with
a result. -/
inductive Prog (κ β ω α : Type) (Q : Type) (Ans : Q → Type) : Type where
  | ret (a : α)
  | acquire (k : κ) (next : Option ℕ → Prog κ β ω α Q Ans)
  | ask (q : Q) (next : Ans q → Prog κ β ω α Q Ans)
  | use (r : κ × ℕ) (change : β → β) (next : β → Prog κ β ω α Q Ans)
  | release (r : κ × ℕ) (next : Prog κ β ω α Q Ans)
  | emit (o : ω) (next : Prog κ β ω α Q Ans)

/-- A use whose contents do not matter. -/
def Prog.touch (r : κ × ℕ) (next : Prog κ β ω α Q Ans) : Prog κ β ω α Q Ans :=
  .use r id fun _ => next

def Prog.load (r : κ × ℕ) (next : β → Prog κ β ω α Q Ans) : Prog κ β ω α Q Ans := .use r id next

def Prog.store (r : κ × ℕ) (v : β) (next : Prog κ β ω α Q Ans) : Prog κ β ω α Q Ans :=
  .use r (fun _ => v) fun _ => next

section Meets

variable [DecidableEq κ]

/-- The result of a program on its own, given what it is given and answered. -/
def Prog.result (given : κ → Option ℕ) (ans : ∀ q, Ans q) :
    Prog κ β ω α Q Ans → (κ × ℕ → β) → α
  | .ret a, _ => a
  | .acquire k next, mem => (next (given k)).result given ans mem
  | .ask q next, mem => (next (ans q)).result given ans mem
  | .use r change next, mem =>
    (next (mem r)).result given ans (Function.update mem r (change (mem r)))
  | .release _ next, mem | .emit _ next, mem => next.result given ans mem

/-- However a program goes on that owns `own` with the contents `mem` and has emitted `es`, it
uses and releases only what it owns, and `post` holds in the end, if the answers are `ok`. -/
def Meets (ok : ∀ q, Ans q → Prop) (post : α → Finset (κ × ℕ) → List ω → Prop) :
    Prog κ β ω α Q Ans → Finset (κ × ℕ) → (κ × ℕ → β) → List ω → Prop
  | .ret a, own, _, es => post a own es
  | .acquire k next, own, mem, es => Meets ok post (next none) own mem es ∧
      ∀ n, (k, n) ∉ own → ∀ v,
        Meets ok post (next (some n)) (insert (k, n) own) (Function.update mem (k, n) v) es
  | .ask q next, own, mem, es => ∀ a, ok q a → Meets ok post (next a) own mem es
  | .use r change next, own, mem, es =>
    r ∈ own ∧ Meets ok post (next (mem r)) own (Function.update mem r (change (mem r))) es
  | .release r next, own, mem, es => r ∈ own ∧ Meets ok post next (own.erase r) mem es
  | .emit o next, own, mem, es => Meets ok post next own mem (es ++ [o])

variable {ok : ∀ q, Ans q → Prop} {post : α → Finset (κ × ℕ) → List ω → Prop}
  {own : Finset (κ × ℕ)} {mem mem' : κ × ℕ → β} {es : List ω}

@[simp] theorem meets_ret {a : α} :
    Meets ok post (.ret a : Prog κ β ω α Q Ans) own mem es ↔ post a own es := Iff.rfl

@[simp] theorem meets_acquire {k : κ} {next : Option ℕ → Prog κ β ω α Q Ans} :
    Meets ok post (.acquire k next) own mem es ↔ Meets ok post (next none) own mem es ∧
      ∀ n, (k, n) ∉ own → ∀ v, Meets ok post (next (some n)) (insert (k, n) own)
        (Function.update mem (k, n) v) es := Iff.rfl

@[simp] theorem meets_ask {q : Q} {next : Ans q → Prog κ β ω α Q Ans} :
    Meets ok post (.ask q next) own mem es ↔ ∀ a, ok q a → Meets ok post (next a) own mem es :=
  Iff.rfl

@[simp] theorem meets_load {r : κ × ℕ} {next : β → Prog κ β ω α Q Ans} :
    Meets ok post (.load r next) own mem es ↔
      r ∈ own ∧ Meets ok post (next (mem r)) own mem es := by
  rw [Prog.load, Meets, id, Function.update_eq_self]

@[simp] theorem meets_touch {r : κ × ℕ} {next : Prog κ β ω α Q Ans} :
    Meets ok post (.touch r next) own mem es ↔ r ∈ own ∧ Meets ok post next own mem es :=
  meets_load

@[simp] theorem meets_store {r : κ × ℕ} {v : β} {next : Prog κ β ω α Q Ans} :
    Meets ok post (.store r v next) own mem es ↔
      r ∈ own ∧ Meets ok post next own (Function.update mem r v) es := Iff.rfl

@[simp] theorem meets_release {r : κ × ℕ} {next : Prog κ β ω α Q Ans} :
    Meets ok post (.release r next) own mem es ↔
      r ∈ own ∧ Meets ok post next (own.erase r) mem es := Iff.rfl

@[simp] theorem meets_emit {o : ω} {next : Prog κ β ω α Q Ans} :
    Meets ok post (.emit o next) own mem es ↔ Meets ok post next own mem (es ++ [o]) := Iff.rfl

theorem update_congr {r : κ × ℕ} {v : β} (hmem : ∀ q ∈ own, mem' q = mem q) :
    ∀ q ∈ insert r own, Function.update mem' r v q = Function.update mem r v q := by
  intro q hq
  rcases eq_or_ne q r with rfl | hne
  · rw [Function.update_self, Function.update_self]
  · rw [Function.update_of_ne hne, Function.update_of_ne hne]
    exact hmem q ((Finset.mem_insert.mp hq).resolve_left hne)

/-- What a program does depends on the contents of what it owns only. -/
theorem Meets.congr {p : Prog κ β ω α Q Ans} (h : Meets ok post p own mem es)
    (hmem : ∀ r ∈ own, mem' r = mem r) : Meets ok post p own mem' es := by
  induction p generalizing own mem mem' es with
  | ret a => exact h
  | acquire k next ih =>
    exact ⟨ih none h.1 hmem, fun n hn v => ih (some n) (h.2 n hn v) (update_congr hmem)⟩
  | ask q next ih => exact fun a ha => ih a (h a ha) hmem
  | use r change next ih =>
    obtain ⟨hr, hnext⟩ := h
    refine ⟨hr, ?_⟩
    rw [hmem r hr]
    exact ih _ hnext fun q hq => update_congr hmem q (Finset.mem_insert_of_mem hq)
  | release r next ih =>
    exact ⟨h.1, ih h.2 fun q hq => hmem q (Finset.mem_of_mem_erase hq)⟩
  | emit o next ih => exact ih h hmem

end Meets

/-! ### Many programs -/

/-- The live resources, what is in each, the programs, what each has emitted, and whether one
used or released a resource that was not live. -/
structure Pool (κ β ω α : Type) (Q : Type) (Ans : Q → Type) where
  live : Finset (κ × ℕ)
  mem : κ × ℕ → β
  progs : List (Prog κ β ω α Q Ans)
  out : List (ℕ × ω)
  fault : Bool

/-- A program starts, or one that has ended goes on with a call; one is given a resource or
refused it; one is answered; one takes a step of its own. -/
inductive Act (κ β ω α : Type) (Q : Type) (Ans : Q → Type) (μ : Type) where
  | start (p : Prog κ β ω α Q Ans)
  | call (i : ℕ) (m : μ)
  | acquire (i : ℕ) (n : Option ℕ)
  | answer (i : ℕ) (q : Q) (a : Ans q)
  | run (i : ℕ)

def Pool.empty (mem : κ × ℕ → β) : Pool κ β ω α Q Ans := ⟨∅, mem, [], [], false⟩

def Pool.emitted (s : Pool κ β ω α Q Ans) (i : ℕ) : List ω :=
  (s.out.filter fun e => e.1 = i).map Prod.snd

theorem emitted_append (s : Pool κ β ω α Q Ans) (i j : ℕ) (o : ω) :
    Pool.emitted { s with out := s.out ++ [(i, o)] } j =
      if i = j then s.emitted j ++ [o] else s.emitted j := by
  split_ifs with hij <;> simp [Pool.emitted, hij]

variable [DecidableEq κ]

/-- A resource is only given out when it is not live, with what was left in it. -/
def Pool.step [DecidableEq Q] (next : α → μ → Option (Prog κ β ω α Q Ans)) (s : Pool κ β ω α Q Ans) :
    Act κ β ω α Q Ans μ → Option (Pool κ β ω α Q Ans)
  | .start p => some { s with progs := s.progs ++ [p] }
  | .call i m =>
    match s.progs[i]? with
    | some (.ret a) => (next a m).map fun p => { s with progs := s.progs.set i p }
    | _ => none
  | .acquire i n =>
    match s.progs[i]?, n with
    | some (.acquire _ cont), none => some { s with progs := s.progs.set i (cont none) }
    | some (.acquire k cont), some n =>
      if (k, n) ∈ s.live then none
      else some { s with
        live := insert (k, n) s.live
        progs := s.progs.set i (cont (some n)) }
    | _, _ => none
  | .answer i q a =>
    match s.progs[i]? with
    | some (.ask q' cont) =>
      if h : q = q' then some { s with progs := s.progs.set i (cont (h ▸ a)) } else none
    | _ => none
  | .run i =>
    match s.progs[i]? with
    | some (.use r change cont) => some { s with
        mem := Function.update s.mem r (change (s.mem r))
        progs := s.progs.set i (cont (s.mem r))
        fault := s.fault || r ∉ s.live }
    | some (.release r cont) => some { s with
        live := s.live.erase r
        progs := s.progs.set i cont
        fault := s.fault || r ∉ s.live }
    | some (.emit o cont) => some { s with
        progs := s.progs.set i cont
        out := s.out ++ [(i, o)] }
    | _ => none

variable {ok : ∀ q, Ans q → Prop} {post : α → Finset (κ × ℕ) → List ω → Prop}
  {s s' : Pool κ β ω α Q Ans} {own : ℕ → Finset (κ × ℕ)} {i : ℕ} {p : Prog κ β ω α Q Ans}

/-- Each live resource is one program's, and each program is right about its own. -/
structure Pool.Owned (ok : ∀ q, Ans q → Prop) (post : α → Finset (κ × ℕ) → List ω → Prop)
    (s : Pool κ β ω α Q Ans) (own : ℕ → Finset (κ × ℕ)) : Prop where
  meets : ∀ i p, s.progs[i]? = some p → Meets ok post p (own i) s.mem (s.emitted i)
  unused : ∀ i, s.progs.length ≤ i → own i = ∅ ∧ s.emitted i = []
  disjoint : ∀ i j r, r ∈ own i → r ∈ own j → i = j
  live : ∀ r, r ∈ s.live ↔ ∃ i, r ∈ own i
  fault : s.fault = false

theorem Pool.Owned.empty (mem : κ × ℕ → β) :
    (Pool.empty mem : Pool κ β ω α Q Ans).Owned ok post fun _ => ∅ where
  meets := by simp [Pool.empty]
  unused := by simp [Pool.empty, Pool.emitted]
  disjoint := by simp
  live := by simp [Pool.empty]
  fault := rfl

/-- A program starts with nothing. -/
theorem Pool.Owned.start (h : s.Owned ok post own) (hp : Meets ok post p ∅ s.mem []) :
    ({ s with progs := s.progs ++ [p] } : Pool κ β ω α Q Ans).Owned ok post own where
  meets := by
    intro i q hq
    rcases Nat.lt_trichotomy i s.progs.length with hlt | rfl | hgt
    · rw [List.getElem?_append_left hlt] at hq
      exact h.meets i q hq
    · obtain ⟨hown, hout⟩ := h.unused _ le_rfl
      rw [List.getElem?_concat_length] at hq
      cases hq
      rw [hown]
      exact hout.symm ▸ hp
    · have hnone : (s.progs ++ [p])[i]? = none :=
        List.getElem?_eq_none (by rw [List.length_append]; exact hgt)
      cases hnone.symm.trans hq
  unused := by
    intro i hi
    rw [List.length_append] at hi
    exact h.unused i (by omega)
  disjoint := h.disjoint
  live := h.live
  fault := h.fault

/-- One program takes a step: what it owns changes, and what the others own does not. -/
theorem Pool.Owned.local (h : s.Owned ok post own) (hi : s.progs[i]? = some p)
    (hprogs : ∃ p', s'.progs = s.progs.set i p' ∧
      ∃ o, Meets ok post p' o s'.mem (s'.emitted i) ∧ (∀ r ∈ o, ∀ j, j ≠ i → r ∉ own j) ∧
        ∀ r, r ∈ s'.live ↔ r ∈ o ∨ ∃ j, j ≠ i ∧ r ∈ own j)
    (hmem : ∀ j, j ≠ i → ∀ r ∈ own j, s'.mem r = s.mem r)
    (hout : ∀ j, j ≠ i → s'.emitted j = s.emitted j) (hfault : s'.fault = false) :
    ∃ own', s'.Owned ok post own' := by
  obtain ⟨p', hset, o, hp', hother, hlive⟩ := hprogs
  have hlen : i < s.progs.length := (List.getElem?_eq_some_iff.mp hi).1
  refine ⟨Function.update own i o, ?_, ?_, ?_, ?_, hfault⟩
  · intro j q hq
    rw [hset] at hq
    by_cases hj : j = i
    · subst hj
      rw [List.getElem?_set_self hlen] at hq
      cases hq
      rw [Function.update_self]
      exact hp'
    · rw [List.getElem?_set_ne (Ne.symm hj)] at hq
      rw [Function.update_of_ne hj, hout j hj]
      exact (h.meets j q hq).congr (hmem j hj)
  · intro j hj
    rw [hset, List.length_set] at hj
    have hne : j ≠ i := by omega
    rw [Function.update_of_ne hne, hout j hne]
    exact h.unused j hj
  · intro j k r hj hk
    by_cases hji : j = i <;> by_cases hki : k = i
    · rw [hji, hki]
    · subst hji
      rw [Function.update_self] at hj
      rw [Function.update_of_ne hki] at hk
      exact absurd hk (hother r hj k hki)
    · subst hki
      rw [Function.update_of_ne hji] at hj
      rw [Function.update_self] at hk
      exact absurd hj (hother r hk j hji)
    · rw [Function.update_of_ne hji] at hj
      rw [Function.update_of_ne hki] at hk
      exact h.disjoint j k r hj hk
  · intro r
    rw [hlive]
    constructor
    · rintro (hr | ⟨j, hj, hr⟩)
      · exact ⟨i, by rwa [Function.update_self]⟩
      · exact ⟨j, by rwa [Function.update_of_ne hj]⟩
    · rintro ⟨j, hr⟩
      by_cases hj : j = i
      · subst hj
        rw [Function.update_self] at hr
        exact .inl hr
      · rw [Function.update_of_ne hj] at hr
        exact .inr ⟨j, hj, hr⟩

theorem Pool.Owned.live_iff (h : s.Owned ok post own) (i : ℕ) (r : κ × ℕ) :
    r ∈ s.live ↔ r ∈ own i ∨ ∃ j, j ≠ i ∧ r ∈ own j := by
  rw [h.live]
  constructor
  · rintro ⟨j, hr⟩
    by_cases hj : j = i
    · exact .inl (hj ▸ hr)
    · exact .inr ⟨j, hj, hr⟩
  · rintro (hr | ⟨j, -, hr⟩)
    · exact ⟨i, hr⟩
    · exact ⟨j, hr⟩

/-- The step of a program that owns the same after it. -/
theorem Pool.Owned.keep (h : s.Owned ok post own) (hi : s.progs[i]? = some p)
    (mem : κ × ℕ → β) (out : List (ℕ × ω)) {p' : Prog κ β ω α Q Ans}
    (hp' : Meets ok post p' (own i) mem (Pool.emitted { s with out } i))
    (hmem : ∀ j, j ≠ i → ∀ r ∈ own j, mem r = s.mem r)
    (hout : ∀ j, j ≠ i → Pool.emitted { s with out } j = s.emitted j) :
    ∃ own', ({ s with mem, progs := s.progs.set i p', out } : Pool κ β ω α Q Ans).Owned
      ok post own' :=
  h.local hi ⟨p', rfl, own i, hp', fun r hr j hj hr' => hj (h.disjoint j i r hr' hr),
    h.live_iff i⟩ hmem hout h.fault

/-- Every step keeps the programs right about what they own. -/
theorem Pool.Owned.step [DecidableEq Q] {next : α → μ → Option (Prog κ β ω α Q Ans)}
    (h : s.Owned ok post own)
    (hnext : ∀ a m p own mem es, next a m = some p → post a own es →
      Meets ok post p own mem es)
    {a : Act κ β ω α Q Ans μ} (hstart : ∀ p, a = .start p → Meets ok post p ∅ s.mem [])
    (hanswer : ∀ i q x, a = .answer i q x → ok q x)
    (hs : s.step next a = some s') : ∃ own', s'.Owned ok post own' := by
  cases a with
  | start p =>
    cases hs
    exact ⟨own, h.start (hstart p rfl)⟩
  | call i m =>
    simp only [Pool.step] at hs
    split at hs
    next a hi =>
      obtain ⟨p, hp, rfl⟩ := Option.map_eq_some_iff.mp hs
      exact h.keep hi s.mem s.out (hnext a m p _ _ _ hp (h.meets i _ hi)) (fun _ _ _ _ => rfl)
        fun _ _ => rfl
    next => cases hs
  | acquire i n =>
    simp only [Pool.step] at hs
    split at hs
    next k cont hi =>
      cases hs
      exact h.keep hi s.mem s.out (h.meets i _ hi).1 (fun _ _ _ _ => rfl) fun _ _ => rfl
    next k cont n hi =>
      split_ifs at hs with hlive
      cases hs
      have hfresh : ∀ j, (k, n) ∉ own j := fun j hj => hlive ((h.live _).mpr ⟨j, hj⟩)
      have hcont := (h.meets i _ hi).2 n (hfresh i) (s.mem (k, n))
      rw [Function.update_eq_self] at hcont
      refine h.local hi ⟨_, rfl, insert (k, n) (own i), hcont, ?_, ?_⟩ (fun _ _ _ _ => rfl)
        (fun _ _ => rfl) h.fault
      · intro r hr j hj hr'
        rcases Finset.mem_insert.mp hr with rfl | hr
        · exact hfresh j hr'
        · exact hj (h.disjoint j i r hr' hr)
      · intro r
        rw [Finset.mem_insert, Finset.mem_insert, h.live_iff i, or_assoc]
    next => cases hs
  | answer i q a =>
    simp only [Pool.step] at hs
    split at hs
    next q' cont hi =>
      split_ifs at hs with hq
      cases hs
      subst hq
      exact h.keep hi s.mem s.out (h.meets i _ hi a (hanswer i _ a rfl)) (fun _ _ _ _ => rfl)
        fun _ _ => rfl
    next => cases hs
  | run i =>
    simp only [Pool.step] at hs
    split at hs
    next r change cont hi =>
      cases hs
      obtain ⟨hr, hcont⟩ := h.meets i _ hi
      have hlive : r ∈ s.live := (h.live r).mpr ⟨i, hr⟩
      have hothers : ∀ j, j ≠ i → ∀ q ∈ own j,
          Function.update s.mem r (change (s.mem r)) q = s.mem q := by
        intro j hj q hq
        refine Function.update_of_ne ?_ _ _
        rintro rfl
        exact hj (h.disjoint j i q hq hr)
      obtain ⟨own', hown⟩ := h.keep hi _ s.out hcont hothers fun _ _ => rfl
      simpa [hlive] using ⟨own', hown⟩
    next r cont hi =>
      cases hs
      obtain ⟨hr, hcont⟩ := h.meets i _ hi
      have hlive : r ∈ s.live := (h.live r).mpr ⟨i, hr⟩
      refine h.local hi ⟨cont, rfl, (own i).erase r, hcont, ?_, ?_⟩ (fun _ _ _ _ => rfl)
        (fun _ _ => rfl) (by simp [h.fault, hlive])
      · intro q hq j hj hq'
        exact hj (h.disjoint j i q hq' (Finset.mem_of_mem_erase hq))
      · intro q
        rw [Finset.mem_erase, Finset.mem_erase, h.live_iff i]
        constructor
        · rintro ⟨hne, hq | hq⟩
          · exact .inl ⟨hne, hq⟩
          · exact .inr hq
        · rintro (⟨hne, hq⟩ | ⟨j, hj, hq⟩)
          · exact ⟨hne, .inl hq⟩
          · exact ⟨fun heq => hj (h.disjoint j i r (heq ▸ hq) hr), .inr ⟨j, hj, hq⟩⟩
    next o cont hi =>
      cases hs
      refine h.keep hi s.mem (s.out ++ [(i, o)]) ?_ (fun _ _ _ _ => rfl) fun j hj => ?_
      · rw [emitted_append, if_pos rfl]
        exact h.meets i _ hi
      · rw [emitted_append, if_neg (Ne.symm hj)]
    next => cases hs

/-- The rule for any number of programs: if each is right about what it owns, whatever it
starts with and is called with, nothing is used or released that is not live, and what is live
is theirs. -/
theorem Pool.owned_of_reach [DecidableEq Q] {next : α → μ → Option (Prog κ β ω α Q Ans)}
    {guard : Pool κ β ω α Q Ans → Act κ β ω α Q Ans μ → Prop}
    {mem₀ : κ × ℕ → β} (hstart : ∀ s p mem, guard s (.start p) → Meets ok post p ∅ mem [])
    (hnext : ∀ a m p own mem es, next a m = some p → post a own es →
      Meets ok post p own mem es)
    (hanswer : ∀ s i q a, guard s (.answer i q a) → ok q a)
    (hs : Reach (· = Pool.empty mem₀) guard (Pool.step next) s) : ∃ own, s.Owned ok post own := by
  induction hs with
  | start hs => exact ⟨_, hs ▸ Pool.Owned.empty mem₀⟩
  | next _ hg hstep ih =>
    obtain ⟨own, hown⟩ := ih
    exact hown.step hnext (fun p hp => hstart _ p _ (hp ▸ hg))
      (fun i q x hx => hanswer _ i q x (hx ▸ hg)) hstep

end Ownership
