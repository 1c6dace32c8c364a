import Mathlib.Algebra.BigOperators.Group.List.Basic
import Mathlib.Algebra.Order.BigOperators.Group.List
import Mathlib.Tactic.Linarith
import Mathlib.Tactic.Ring
import MmIot.Spec.SpiPower

/-! Each transfer holds its own references as long as no thread turns the flag off under
another one. Without DMA none ever does; `transceive_dma` can, after it has released the
context. -/

namespace MmIot

open Transition

variable {cfg : PmConfig} {sh : PmShared} {ok : Bool} {pc pc' : PmPc} {next : PmShared × PmPc}
  {s s' : PmState} {a : ℕ × Bool} {r : PmRef}

/-! ### What one statement does -/

/-- The statements that run, each with what it found. -/
inductive PmStatement (cfg : PmConfig) (sh : PmShared) (ok : Bool) :
    PmPc → PmShared × PmPc → Prop where
  | lock : sh.locked = false → PmStatement cfg sh ok .idle ({ sh with locked := true }, .get)
  | isOn : sh.on = true → PmStatement cfg sh ok .get (sh, .configure)
  | isOff : sh.on = false → PmStatement cfg sh ok .get (sh, .turnOn)
  | turnOn : PmStatement cfg sh ok .turnOn ({ sh with on := true }, .getting cfg.gets)
  | got : PmStatement cfg sh ok (.getting []) (sh, .configure)
  | take (r : PmRef) (rs : List PmRef) : PmStatement cfg sh ok (.getting (r :: rs))
      ({ sh with count := Function.update sh.count r (sh.count r + 1) }, .getting rs)
  | ready : ok = true → PmStatement cfg sh ok .configure (sh, .transfer)
  | failed : ok = false → PmStatement cfg sh ok .configure (sh, .release)
  | transferred : PmStatement cfg sh ok .transfer (sh, .put false)
  | foundOn (last : Bool) : sh.on = true → PmStatement cfg sh ok (.put last) (sh, .turnOff last)
  | foundOff (last : Bool) : sh.on = false →
      PmStatement cfg sh ok (.put last) (sh, .afterPut last)
  | turnOff (last : Bool) :
      PmStatement cfg sh ok (.turnOff last) ({ sh with on := false }, .putting last cfg.puts)
  | gave (last : Bool) : PmStatement cfg sh ok (.putting last []) (sh, .afterPut last)
  | give (last : Bool) (r : PmRef) (rs : List PmRef) :
      PmStatement cfg sh ok (.putting last (r :: rs))
        ({ sh with count := Function.update sh.count r (sh.count r - 1) }, .putting last rs)
  | unlock : cfg.dma = false →
      PmStatement cfg sh ok .release ({ sh with locked := false }, .idle)
  | unlockDma : cfg.dma = true →
      PmStatement cfg sh ok .release ({ sh with locked := false }, .put true)

theorem cpu_statement (h : sh.cpu cfg ok pc = some next) : PmStatement cfg sh ok pc next := by
  cases pc with
  | idle =>
    simp only [PmShared.cpu, Option.ite_none_left_eq_some, Option.some.injEq] at h
    obtain ⟨hfree, rfl⟩ := h
    exact .lock (Bool.eq_false_iff.mpr hfree)
  | get =>
    cases h
    cases hon : sh.on with
    | true => exact .isOn hon
    | false => exact .isOff hon
  | turnOn => cases h; exact .turnOn
  | getting rs =>
    cases rs with
    | nil => cases h; exact .got
    | cons r rs => cases h; exact .take r rs
  | configure =>
    cases h
    cases ok with
    | true => exact .ready rfl
    | false => exact .failed rfl
  | transfer => cases h; exact .transferred
  | put last =>
    cases h
    cases hon : sh.on with
    | true => exact .foundOn last hon
    | false => exact .foundOff last hon
  | turnOff last => cases h; exact .turnOff last
  | putting last rs =>
    cases rs with
    | nil => cases h; exact .gave last
    | cons r rs => cases h; exact .give last r rs
  | release =>
    cases h
    cases hdma : cfg.dma with
    | true => exact .unlockDma hdma
    | false => exact .unlock hdma

theorem pmStep_cases (h : pmStep cfg s a = some s') :
    ∃ pc next, s.threads[a.1]? = some pc ∧ PmStatement cfg s.shared a.2 pc next ∧
      s' = { shared := next.1, threads := s.threads.set a.1 next.2 } := by
  obtain ⟨pc, hpc, h⟩ := Option.bind_eq_some_iff.mp h
  obtain ⟨next, hnext, rfl⟩ := Option.map_eq_some_iff.mp h
  exact ⟨pc, next, hpc, cpu_statement hnext, rfl⟩

theorem set_cases {threads : List PmPc} {i j : ℕ} (h : (threads.set i pc')[j]? = some pc) :
    (j = i ∧ pc = pc') ∨ (j ≠ i ∧ threads[j]? = some pc) := by
  rcases eq_or_ne j i with rfl | hne
  · obtain ⟨hlt, hget⟩ := List.getElem?_eq_some_iff.mp h
    rw [List.getElem_set_self] at hget
    exact .inl ⟨rfl, hget.symm⟩
  · rw [List.getElem?_set_ne (Ne.symm hne)] at h
    exact .inr ⟨hne, h⟩

/-! ### The account of a reference -/

/-- What a thread still has to give back, less what it still has to take. -/
def PmPc.debt (r : PmRef) : PmPc → ℤ
  | .getting rs => -rs.count r
  | .putting _ rs => rs.count r
  | _ => 0

/-- What the flag stands for. -/
def PmShared.flag (sh : PmShared) : ℤ := if sh.on then 1 else 0

/-- What is held of a reference beyond the flag and the debts. -/
def PmState.surplus (s : PmState) (r : PmRef) : ℤ :=
  s.shared.count r - s.shared.flag - (s.threads.map (PmPc.debt r)).sum

theorem count_gets (hr : r ∈ cfg.gets) : cfg.gets.count r = 1 := by
  obtain ⟨_ | _, dma⟩ := cfg <;> cases r <;> revert hr <;> simp [PmConfig.gets]

theorem count_puts (hr : r ∈ cfg.gets) : cfg.puts.count r = 1 := by
  obtain ⟨_ | _, dma⟩ := cfg <;> cases r <;> revert hr <;> simp [PmConfig.gets, PmConfig.puts]

/-- Only a thread that turns the flag off when it is off gives back what is not held. -/
theorem PmStatement.account (h : PmStatement cfg sh ok pc next) (hr : r ∈ cfg.gets)
    (hon : pc = .turnOn → sh.on = false) :
    next.1.count r - next.1.flag - next.2.debt r = sh.count r - sh.flag - pc.debt r -
      if (∃ last, pc = .turnOff last) ∧ sh.on = false then 1 else 0 := by
  cases h with
  | turnOn => simp [PmPc.debt, PmShared.flag, count_gets hr, hon rfl]
  | turnOff last => cases hoff : sh.on <;> simp [PmPc.debt, PmShared.flag, count_puts hr, hoff]
  | take r' rs =>
    by_cases hrr : r' = r
    · subst hrr
      simp [PmPc.debt, PmShared.flag]
      ring
    · simp [PmPc.debt, PmShared.flag, List.count_cons_of_ne hrr,
        Function.update_of_ne (Ne.symm hrr)]
  | give last r' rs =>
    by_cases hrr : r' = r
    · subst hrr
      simp [PmPc.debt, PmShared.flag]
      ring
    · simp [PmPc.debt, PmShared.flag, List.count_cons_of_ne hrr,
        Function.update_of_ne (Ne.symm hrr)]
  | foundOff last | gave last => cases last <;> simp [PmPc.debt, PmPc.afterPut]
  | _ => simp [PmPc.debt, PmShared.flag]

theorem sum_debt_set {threads : List PmPc} {i : ℕ} (hi : threads[i]? = some pc) (pc' : PmPc)
    (r : PmRef) : ((threads.set i pc').map (PmPc.debt r)).sum =
      (threads.map (PmPc.debt r)).sum - pc.debt r + pc'.debt r := by
  obtain ⟨hlt, rfl⟩ := List.getElem?_eq_some_iff.mp hi
  have hlt' : i < (threads.map (PmPc.debt r)).length := by rwa [List.length_map]
  rw [List.map_set, List.sum_set', dif_pos hlt', List.getElem_map]
  ring

theorem surplus_step (hpc : s.threads[a.1]? = some pc)
    (h : PmStatement cfg s.shared a.2 pc next) (hr : r ∈ cfg.gets)
    (hon : pc = .turnOn → s.shared.on = false) :
    PmState.surplus { shared := next.1, threads := s.threads.set a.1 next.2 } r =
      s.surplus r - if (∃ last, pc = .turnOff last) ∧ s.shared.on = false then 1 else 0 := by
  have haccount := h.account hr hon
  simp only [PmState.surplus, sum_debt_set hpc]
  linarith

/-! ### The context -/

/-- A thread that has the context. -/
def PmPc.inside : PmPc → Bool
  | .idle | .put true | .turnOff true | .putting true _ => false
  | _ => true

/-- The thread that has the context, if there is one, is `holder`. -/
structure PmLockInv (cfg : PmConfig) (s : PmState) (holder : Option ℕ) : Prop where
  locked : s.shared.locked = holder.isSome
  inside : ∀ (i : ℕ) (pc : PmPc), s.threads[i]? = some pc → (pc.inside = true ↔ holder = some i)
  turnOn : ∀ i : ℕ, s.threads[i]? = some .turnOn → s.shared.on = false
  getting : ∀ (i : ℕ) (rs : List PmRef), s.threads[i]? = some (.getting rs) → rs <:+ cfg.gets

theorem PmLockInv.alone {holder : Option ℕ} (hinv : PmLockInv cfg s holder) {i j : ℕ}
    (hi : s.threads[i]? = some pc) (hj : s.threads[j]? = some pc') (hin : pc.inside = true)
    (hin' : pc'.inside = true) : i = j :=
  Option.some.inj (((hinv.inside i pc hi).mp hin).symm.trans ((hinv.inside j pc' hj).mp hin'))

theorem pmStart_idle {n i : ℕ} (hi : (pmStart n).threads[i]? = some pc) : pc = .idle :=
  List.eq_of_mem_replicate (List.mem_of_getElem? hi)

theorem pmLockInv_start (n : ℕ) : PmLockInv cfg (pmStart n) none where
  locked := rfl
  inside := by
    intro i pc hi
    rw [pmStart_idle hi]
    simp [PmPc.inside]
  turnOn := by
    intro i hi
    exact absurd (pmStart_idle hi) (by simp)
  getting := by
    intro i rs hi
    exact absurd (pmStart_idle hi) (by simp)

/-- A statement enters or leaves the context, or stays on its side of it. -/
theorem PmStatement.lock_cases (h : PmStatement cfg sh ok pc next) :
    (pc.inside = false ∧ sh.locked = false ∧ next.1.locked = true ∧ next.2.inside = true) ∨
      (pc.inside = true ∧ next.1.locked = false ∧ next.2.inside = false) ∨
      (next.1.locked = sh.locked ∧ next.2.inside = pc.inside) := by
  cases h with
  | lock hfree => exact .inl ⟨rfl, hfree, rfl, rfl⟩
  | unlock | unlockDma => exact .inr (.inl ⟨rfl, rfl, rfl⟩)
  | foundOn last | foundOff last | turnOff last | gave last | give last =>
    cases last <;> exact .inr (.inr ⟨rfl, rfl⟩)
  | _ => exact .inr (.inr ⟨rfl, rfl⟩)

/-- Only the thread that turns it on makes the flag true. -/
theorem PmStatement.on_of (h : PmStatement cfg sh ok pc next) (hon : next.1.on = true) :
    sh.on = true ∨ pc = .turnOn := by
  cases h with
  | turnOn => exact .inr rfl
  | turnOff last => cases hon
  | _ => exact .inl hon

/-- Only a thread that turns it off makes the flag false. -/
theorem PmStatement.on_stays (h : PmStatement cfg sh ok pc next)
    (hpc : ∀ last, pc ≠ .turnOff last) (hon : sh.on = true) : next.1.on = true := by
  cases h with
  | turnOn => rfl
  | turnOff last => exact absurd rfl (hpc last)
  | _ => exact hon

theorem PmLockInv.step {holder : Option ℕ} (hinv : PmLockInv cfg s holder)
    (h : pmStep cfg s a = some s') : ∃ holder', PmLockInv cfg s' holder' := by
  obtain ⟨pc, next, hpc, hstep, rfl⟩ := pmStep_cases h
  have hturnOn : ∀ j : ℕ, (s.threads.set a.1 next.2)[j]? = some .turnOn →
      next.1.on = false := by
    intro j hj
    rcases set_cases hj with ⟨-, hself⟩ | ⟨hne, hj⟩
    · cases hstep with
      | isOff hoff => exact hoff
      | foundOff last | gave last => cases last <;> cases hself
      | _ => cases hself
    · refine Bool.eq_false_iff.mpr fun htrue => ?_
      rcases hstep.on_of htrue with hbefore | rfl
      · exact absurd (hinv.turnOn j hj) (by simp [hbefore])
      · -- the other thread would have the context too
        exact hne (hinv.alone hj hpc rfl rfl)
  have hgetting : ∀ (j : ℕ) (rs : List PmRef),
      (s.threads.set a.1 next.2)[j]? = some (.getting rs) → rs <:+ cfg.gets := by
    intro j rs hj
    rcases set_cases hj with ⟨-, hself⟩ | ⟨-, hj⟩
    · cases hstep with
      | turnOn => cases hself; exact List.suffix_rfl
      | take r =>
        cases hself
        exact (List.suffix_cons r rs).trans (hinv.getting _ _ hpc)
      | foundOff last | gave last => cases last <;> cases hself
      | _ => cases hself
    · exact hinv.getting j rs hj
  have hothers : ∀ (j : ℕ) (pc' : PmPc), j ≠ a.1 → s.threads[j]? = some pc' →
      pc.inside = true → pc'.inside = false := by
    intro j pc' hne hj hin
    exact Bool.eq_false_iff.mpr fun hin' => hne (hinv.alone hj hpc hin' hin)
  rcases hstep.lock_cases with ⟨hout, hfree, hlocked, hin⟩ | ⟨hin, hlocked, hout⟩ | ⟨hlocked, hsame⟩
  · refine ⟨some a.1, hlocked, ?_, hturnOn, hgetting⟩
    intro j pc' hj
    rcases set_cases hj with ⟨rfl, rfl⟩ | ⟨hne, hj⟩
    · simp [hin]
    · have hnone : holder = none := by
        rw [← Option.not_isSome_iff_eq_none, ← hinv.locked, hfree]
        exact Bool.false_ne_true
      rw [hinv.inside j pc' hj, hnone]
      simp [Ne.symm hne]
  · refine ⟨none, hlocked, ?_, hturnOn, hgetting⟩
    intro j pc' hj
    rcases set_cases hj with ⟨rfl, rfl⟩ | ⟨hne, hj⟩
    · simp [hout]
    · simp [hothers j pc' hne hj hin]
  · refine ⟨holder, hlocked.trans hinv.locked, ?_, hturnOn, hgetting⟩
    intro j pc' hj
    rcases set_cases hj with ⟨rfl, rfl⟩ | ⟨-, hj⟩
    · rw [hsame]
      exact hinv.inside _ _ hpc
    · exact hinv.inside j pc' hj

/-! ### Runs in which no thread turns the flag off under another -/

structure PmInv (cfg : PmConfig) (s : PmState) : Prop where
  lock : ∃ holder, PmLockInv cfg s holder
  surplus : ∀ r ∈ cfg.gets, s.surplus r = 0
  relies : ∀ pc ∈ s.threads, pc.relies = true → s.shared.on = true

theorem pmInv_start (n : ℕ) : PmInv cfg (pmStart n) where
  lock := ⟨none, pmLockInv_start n⟩
  surplus := by
    intro r hr
    simp [PmState.surplus, pmStart, PmShared.flag, PmPc.debt]
  relies := by
    intro pc hpc hrelies
    rw [List.eq_of_mem_replicate hpc] at hrelies
    cases hrelies

theorem PmStatement.relies_of (h : PmStatement cfg sh ok pc next) (hnext : next.2.relies = true)
    (hpc : pc.relies = true → sh.on = true) : next.1.on = true := by
  cases h with
  | isOn hon => exact hon
  | turnOn => rfl
  | got | take | ready => exact hpc rfl
  | foundOff last | gave last => cases last <;> cases hnext
  | _ => cases hnext

theorem PmInv.step (hinv : PmInv cfg s) (hg : pmGuard s a) (h : pmStep cfg s a = some s') :
    PmInv cfg s' := by
  obtain ⟨holder, hlock⟩ := hinv.lock
  refine ⟨hlock.step h, ?_, ?_⟩
  · obtain ⟨pc, next, hpc, hstep, rfl⟩ := pmStep_cases h
    intro r hr
    rw [surplus_step hpc hstep hr fun hon => hlock.turnOn a.1 (hon ▸ hpc), hinv.surplus r hr,
      if_neg, sub_zero]
    rintro ⟨⟨last, rfl⟩, hoff⟩
    rw [(hg last hpc).1] at hoff
    cases hoff
  · obtain ⟨pc, next, hpc, hstep, rfl⟩ := pmStep_cases h
    intro pc' hpc' hrelies
    rcases List.mem_or_eq_of_mem_set hpc' with hmem | rfl
    · refine hstep.on_stays (fun last hlast => ?_) (hinv.relies pc' hmem hrelies)
      subst hlast
      rw [(hg last hpc).2 pc' hmem] at hrelies
      cases hrelies
    · exact hstep.relies_of hrelies (hinv.relies pc (List.mem_of_getElem? hpc))

/-! ### What is held -/

theorem debt_nonneg (hget : ∀ rs, pc ≠ .getting rs) : 0 ≤ pc.debt r := by
  cases pc with
  | getting rs => exact absurd rfl (hget rs)
  | putting last rs => exact Int.natCast_nonneg _
  | _ => exact le_rfl

theorem debt_nonpos (hput : ∀ last rs, pc ≠ .putting last rs) : pc.debt r ≤ 0 := by
  cases pc with
  | getting rs => exact neg_nonpos.mpr (Int.natCast_nonneg _)
  | putting last rs => exact absurd rfl (hput last rs)
  | _ => exact le_rfl

theorem sum_debt_nonneg {threads : List PmPc} (h : ∀ pc ∈ threads, ∀ rs, pc ≠ .getting rs) :
    0 ≤ (threads.map (PmPc.debt r)).sum := by
  refine List.sum_nonneg fun d hd => ?_
  obtain ⟨pc, hpc, rfl⟩ := List.mem_map.mp hd
  exact debt_nonneg (h pc hpc)

theorem count_eq (s : PmState) (r : PmRef) :
    s.shared.count r = s.surplus r + s.shared.flag + (s.threads.map (PmPc.debt r)).sum := by
  simp only [PmState.surplus]
  ring

theorem PmInv.awake (hinv : PmInv cfg s) : s.Awake cfg := by
  obtain ⟨holder, hlock⟩ := hinv.lock
  have hcount : ∀ r ∈ cfg.gets, s.shared.count r =
      s.shared.flag + (s.threads.map (PmPc.debt r)).sum := by
    intro r hr
    rw [count_eq, hinv.surplus r hr, zero_add]
  refine ⟨fun r hr => ?_, fun htransfer r hr => ?_⟩
  · rw [hcount r hr]
    by_cases hgetting : ∃ (i : ℕ) (rs : List PmRef), s.threads[i]? = some (.getting rs)
    · -- the one thread that is taking references takes each at most once
      obtain ⟨i, rs, hi⟩ := hgetting
      have hon := hinv.relies _ (List.mem_of_getElem? hi) rfl
      have honce : rs.count r ≤ 1 := by
        rw [← count_gets hr]
        exact (hlock.getting i rs hi).sublist.count_le r
      have hrest : 0 ≤ ((s.threads.set i .idle).map (PmPc.debt r)).sum := by
        refine sum_debt_nonneg fun pc hpc rs' hget => ?_
        subst hget
        obtain ⟨j, hj⟩ := List.mem_iff_getElem?.mp hpc
        rcases set_cases hj with ⟨-, hself⟩ | ⟨hne, hj⟩
        · cases hself
        · exact hne (hlock.alone hj hi rfl rfl)
      rw [sum_debt_set hi] at hrest
      simp only [PmPc.debt, PmShared.flag, hon, if_true] at hrest ⊢
      omega
    · have hsum : 0 ≤ (s.threads.map (PmPc.debt r)).sum := by
        refine sum_debt_nonneg fun pc hpc rs hget => hgetting ?_
        obtain ⟨i, hi⟩ := List.mem_iff_getElem?.mp hpc
        exact ⟨i, rs, hget ▸ hi⟩
      have hflag : 0 ≤ s.shared.flag := by
        unfold PmShared.flag
        split_ifs <;> simp
      exact Int.add_nonneg hflag hsum
  · rw [hcount r hr]
    have hon := hinv.relies _ htransfer rfl
    have hsum : 0 ≤ (s.threads.map (PmPc.debt r)).sum := by
      refine sum_debt_nonneg fun pc hpc rs hget => ?_
      subst hget
      obtain ⟨i, hi⟩ := List.mem_iff_getElem?.mp hpc
      obtain ⟨j, hj⟩ := List.mem_iff_getElem?.mp htransfer
      cases hlock.alone hi hj rfl rfl
      rw [hi] at hj
      cases hj
    simp only [PmShared.flag, hon, if_true]
    omega

/-! ### Without DMA -/

/-- No put is made outside the context, and the one inside finds the flag on. -/
structure PmPolledInv (s : PmState) : Prop where
  inside : ∀ pc ∈ s.threads, pc = .idle ∨ pc.inside = true
  turnOff : ∀ last, .turnOff last ∈ s.threads → s.shared.on = true

theorem PmPolledInv.step {holder : Option ℕ} (hdma : cfg.dma = false) (hinv : PmPolledInv s)
    (hlock : PmLockInv cfg s holder) (h : pmStep cfg s a = some s') : PmPolledInv s' := by
  obtain ⟨pc, next, hpc, hstep, rfl⟩ := pmStep_cases h
  have hin := hinv.inside pc (List.mem_of_getElem? hpc)
  constructor
  · intro pc' hpc'
    rcases List.mem_or_eq_of_mem_set hpc' with hmem | rfl
    · exact hinv.inside pc' hmem
    · cases hstep with
      | unlock => exact .inl rfl
      | unlockDma htrue => exact absurd htrue (by simp [hdma])
      | foundOn last | foundOff last | turnOff last | gave last | give last =>
        cases last with
        | false => exact .inr rfl
        | true => rcases hin with hidle | hin <;> contradiction
      | _ => exact .inr rfl
  · intro last hlast
    obtain ⟨j, hj⟩ := List.mem_iff_getElem?.mp hlast
    rcases set_cases hj with ⟨-, hself⟩ | ⟨hne, hj⟩
    · cases hstep with
      | foundOn _ hon => exact hon
      | foundOff last | gave last => cases last <;> cases hself
      | _ => cases hself
    · have hmem := List.mem_of_getElem? hj
      refine hstep.on_stays (fun last' hlast' => hne ?_) (hinv.turnOff last hmem)
      subst hlast'
      exact hlock.alone hj hpc ((hinv.inside _ hmem).resolve_left (by simp))
        (hin.resolve_left (by simp))

theorem inside_of_relies (h : pc.relies = true) : pc.inside = true := by
  cases pc with
  | getting | configure | transfer => rfl
  | _ => cases h

theorem PmPolledInv.guard {holder : Option ℕ} (hinv : PmPolledInv s)
    (hlock : PmLockInv cfg s holder) (a : ℕ × Bool) : pmGuard s a := by
  intro last hi
  have hmem := List.mem_of_getElem? hi
  refine ⟨hinv.turnOff last hmem, fun pc hpc => Bool.eq_false_iff.mpr fun hrelies => ?_⟩
  obtain ⟨j, hj⟩ := List.mem_iff_getElem?.mp hpc
  cases hlock.alone hi hj ((hinv.inside _ hmem).resolve_left (by simp)) (inside_of_relies hrelies)
  rw [hi] at hj
  cases hj
  cases hrelies

theorem guarded_of_polled {n : ℕ} (hdma : cfg.dma = false)
    (hs : Reach (· = pmStart n) anyStep (pmStep cfg) s) :
    Reach (· = pmStart n) pmGuard (pmStep cfg) s ∧ PmPolledInv s ∧
      ∃ holder, PmLockInv cfg s holder := by
  induction hs with
  | start h =>
    subst h
    refine ⟨.start rfl, ⟨fun pc hpc => .inl (List.eq_of_mem_replicate hpc), ?_⟩,
      none, pmLockInv_start n⟩
    intro last hlast
    cases List.eq_of_mem_replicate hlast
  | next _ _ h ih =>
    obtain ⟨hreach, hinv, holder, hlock⟩ := ih
    exact ⟨hreach.next (hinv.guard hlock _) h, hinv.step hdma hlock h, hlock.step h⟩

/-! ### At rest -/

def PmState.AtRest (s : PmState) : Prop := ∀ pc ∈ s.threads, pc = .idle

/-- A thread that will come to a put. -/
def PmPc.willPut (dma : Bool) : PmPc → Bool
  | .getting _ | .configure | .transfer | .put _ | .turnOff _ => true
  | .putting false _ | .release => dma
  | _ => false

theorem PmStatement.willPut (h : PmStatement cfg sh ok pc next)
    (hok : cfg.dma = true ∨ ok = true) (hpc : pc.willPut cfg.dma = true)
    (hon : next.1.on = true) : next.2.willPut cfg.dma = true := by
  cases h with
  | lock | isOff | turnOn => cases hpc
  | failed hfail => exact hok.resolve_right (by simp [hfail])
  | foundOff last hoff => exact absurd hon (by simp [hoff])
  | turnOff last => cases hon
  | unlock hdma => exact absurd (hdma.symm.trans hpc) (by simp)
  | gave last | give last =>
    cases last with
    | false => exact hpc
    | true => cases hpc
  | _ => rfl

theorem willPut_of_on {n : ℕ}
    (hs : Reach (· = pmStart n) (fun _ a => cfg.dma = true ∨ a.2 = true) (pmStep cfg) s)
    (hon : s.shared.on = true) : ∃ pc ∈ s.threads, pc.willPut cfg.dma = true := by
  induction hs with
  | start h =>
    subst h
    cases hon
  | @next s s' a _ hok h ih =>
    obtain ⟨pc, next, hpc, hstep, rfl⟩ := pmStep_cases h
    have hself : next.2 ∈ s.threads.set a.1 next.2 :=
      List.mem_set (List.getElem?_eq_some_iff.mp hpc).1 next.2
    rcases hstep.on_of hon with hbefore | rfl
    · obtain ⟨pc', hpc', hwill⟩ := ih hbefore
      obtain ⟨j, hj⟩ := List.mem_iff_getElem?.mp hpc'
      rcases eq_or_ne j a.1 with rfl | hne
      · cases hj.symm.trans hpc
        exact ⟨next.2, hself, hstep.willPut hok hwill hon⟩
      · rw [← List.getElem?_set_ne (Ne.symm hne)] at hj
        exact ⟨pc', List.mem_of_getElem? hj, hwill⟩
    · cases hstep
      exact ⟨_, hself, rfl⟩

/-! ### When a thread turns the flag off under another -/

/-- A run in which the flag and the account stay as they are. -/
structure Settles (cfg : PmConfig) (s t : PmState) : Prop where
  reach : Reach (· = s) anyStep (pmStep cfg) t
  on : t.shared.on = s.shared.on
  surplus : ∀ r ∈ cfg.gets, t.surplus r = s.surplus r

theorem Settles.refl (s : PmState) : Settles cfg s s := ⟨.start rfl, rfl, fun _ _ => rfl⟩

theorem Settles.trans {t u : PmState} (h : Settles cfg s t) (h' : Settles cfg t u) :
    Settles cfg s u :=
  ⟨h.reach.trans h'.reach, h'.on.trans h.on,
    fun r hr => (h'.surplus r hr).trans (h.surplus r hr)⟩

variable (cfg)

theorem Settles.statement {i : ℕ} (hi : s.threads[i]? = some pc)
    (hcpu : s.shared.cpu cfg true pc = some next) (hon : next.1.on = s.shared.on)
    (hpc : pc ≠ .turnOn ∧ ∀ last, pc ≠ .turnOff last) :
    ∃ t, Settles cfg s t ∧ t.threads = s.threads.set i next.2 := by
  refine ⟨{ shared := next.1, threads := s.threads.set i next.2 }, ⟨?_, hon, ?_⟩, rfl⟩
  · have hstep : pmStep cfg s (i, true) =
        some { shared := next.1, threads := s.threads.set i next.2 } := by
      simp [pmStep, hi, hcpu]
    exact .next (.start rfl) trivial hstep
  · intro r hr
    have h := surplus_step (a := (i, true)) hi (cpu_statement hcpu) hr fun h => absurd h hpc.1
    rw [h, if_neg, sub_zero]
    rintro ⟨⟨last, hlast⟩, -⟩
    exact hpc.2 last hlast

theorem settles_putting {i : ℕ} {last : Bool} {rs : List PmRef}
    (hi : s.threads[i]? = some (.putting last rs)) :
    ∃ t, Settles cfg s t ∧ t.threads = s.threads.set i (.putting last []) := by
  induction rs generalizing s with
  | nil =>
    obtain ⟨hlt, hget⟩ := List.getElem?_eq_some_iff.mp hi
    exact ⟨s, .refl s, by rw [← hget, List.set_getElem_self]⟩
  | cons r rs ih =>
    have hlt := (List.getElem?_eq_some_iff.mp hi).1
    obtain ⟨t, ht, hthreads⟩ := Settles.statement cfg hi rfl rfl (by simp)
    have hi' : t.threads[i]? = some (.putting last rs) := by
      rw [hthreads, List.getElem?_set_self hlt]
    obtain ⟨u, hu, hthreads'⟩ := ih hi'
    exact ⟨u, ht.trans hu, by rw [hthreads', hthreads, List.set_set]⟩

theorem settles_configure {i : ℕ} (hi : s.threads[i]? = some .configure) :
    ∃ t, Settles cfg s t ∧ t.threads[i]? = some .transfer := by
  obtain ⟨t, ht, hthreads⟩ := Settles.statement cfg hi rfl rfl (by simp)
  refine ⟨t, ht, ?_⟩
  rw [hthreads]
  exact List.getElem?_set_self (List.getElem?_eq_some_iff.mp hi).1

theorem settles_getting {i : ℕ} {rs : List PmRef} (hi : s.threads[i]? = some (.getting rs)) :
    ∃ t, Settles cfg s t ∧ t.threads[i]? = some .transfer := by
  induction rs generalizing s with
  | nil =>
    obtain ⟨t, ht, hthreads⟩ := Settles.statement cfg hi rfl rfl (by simp)
    have hi' : t.threads[i]? = some .configure := by
      rw [hthreads]
      exact List.getElem?_set_self (List.getElem?_eq_some_iff.mp hi).1
    obtain ⟨u, hu, htransfer⟩ := settles_configure cfg hi'
    exact ⟨u, ht.trans hu, htransfer⟩
  | cons r rs ih =>
    obtain ⟨t, ht, hthreads⟩ := Settles.statement cfg hi rfl rfl (by simp)
    have hi' : t.threads[i]? = some (.getting rs) := by
      rw [hthreads]
      exact List.getElem?_set_self (List.getElem?_eq_some_iff.mp hi).1
    obtain ⟨u, hu, htransfer⟩ := ih hi'
    exact ⟨u, ht.trans hu, htransfer⟩

/-- A thread that counts on the references comes to its transfer. -/
theorem settles_relies {i : ℕ} (hi : s.threads[i]? = some pc) (hrelies : pc.relies = true) :
    ∃ t, Settles cfg s t ∧ t.threads[i]? = some .transfer := by
  cases pc with
  | getting rs => exact settles_getting cfg hi
  | configure => exact settles_configure cfg hi
  | transfer => exact ⟨s, .refl s, hi⟩
  | _ => cases hrelies

/-- The threads that are giving references back end doing so. -/
theorem settles_all (s : PmState) : ∃ t, Settles cfg s t ∧
    (∀ i : ℕ, s.threads[i]? = some .transfer → t.threads[i]? = some .transfer) ∧
    ∀ pc ∈ t.threads, pc.debt .device ≤ 0 := by
  induction hn : s.threads.countP (fun pc => decide (0 < pc.debt .device)) generalizing s with
  | zero =>
    refine ⟨s, .refl s, fun _ h => h, fun pc hpc => ?_⟩
    have hnone := List.countP_eq_zero.mp hn pc hpc
    simpa using hnone
  | succ n ih =>
    have hpos : 0 < s.threads.countP (fun pc => decide (0 < pc.debt .device)) := by
      rw [hn]
      exact Nat.succ_pos n
    obtain ⟨pc, hmem, howes⟩ := List.countP_pos_iff.mp hpos
    obtain ⟨i, hi⟩ := List.mem_iff_getElem?.mp hmem
    obtain ⟨hlt, hget⟩ := List.getElem?_eq_some_iff.mp hi
    obtain ⟨last, rs, rfl⟩ : ∃ last rs, pc = .putting last rs := by
      by_contra hput
      push Not at hput
      exact absurd (of_decide_eq_true howes) (not_lt.mpr (debt_nonpos hput))
    obtain ⟨t, ht, hthreads⟩ := settles_putting cfg hi
    have hcount : t.threads.countP (fun pc => decide (0 < pc.debt .device)) = n := by
      rw [hthreads, List.countP_set hlt, hget, if_pos howes, hn]
      simp [PmPc.debt]
    obtain ⟨u, hu, hkeeps, hnone⟩ := ih t hcount
    refine ⟨u, ht.trans hu, fun j hj => hkeeps j ?_, hnone⟩
    rw [hthreads, List.getElem?_set_ne, hj]
    rintro rfl
    rw [hi] at hj
    cases hj

variable {cfg}

theorem count_le (hnone : ∀ pc ∈ s.threads, pc.debt r ≤ 0) :
    s.shared.count r ≤ s.surplus r + s.shared.flag := by
  have hsum : (s.threads.map (PmPc.debt r)).sum ≤ 0 := by
    have hle := List.sum_le_card_nsmul (s.threads.map (PmPc.debt r)) 0 fun d hd => by
      obtain ⟨pc, hpc, rfl⟩ := List.mem_map.mp hd
      exact hnone pc hpc
    rwa [nsmul_zero] at hle
  rw [count_eq]
  linarith

theorem device_mem_gets : .device ∈ cfg.gets := by
  obtain ⟨_ | _, dma⟩ := cfg <;> simp [PmConfig.gets]

/-- After such a step the other threads can be left without their references, or the account
below zero. -/
theorem PmInv.not_awake (hinv : PmInv cfg s) (hg : ¬ pmGuard s a) (h : pmStep cfg s a = some s') :
    ∃ t, Reach (· = s') anyStep (pmStep cfg) t ∧ ¬ t.Awake cfg := by
  obtain ⟨holder, hlock⟩ := hinv.lock
  obtain ⟨pc, next, hpc, hstep, rfl⟩ := pmStep_cases h
  unfold pmGuard at hg
  push Not at hg
  obtain ⟨last, hlast, hg⟩ := hg
  cases hpc.symm.trans hlast
  cases hstep
  have hoff : PmStatement cfg s.shared a.2 (.turnOff last)
      ({ s.shared with on := false }, .putting last cfg.puts) := .turnOff last
  have hsurplus := surplus_step hpc hoff device_mem_gets (by simp)
  rw [hinv.surplus _ device_mem_gets] at hsurplus
  cases hon : s.shared.on with
  | false =>
    rw [if_pos ⟨⟨last, rfl⟩, hon⟩] at hsurplus
    obtain ⟨t, ht, -, hnone⟩ := settles_all cfg
      { shared := { s.shared with on := false }
        threads := s.threads.set a.1 (.putting last cfg.puts) }
    refine ⟨t, ht.reach, fun hawake => ?_⟩
    have hle := count_le (hnone)
    rw [ht.surplus _ device_mem_gets, hsurplus, PmShared.flag, ht.on] at hle
    have hge := hawake.balanced _ device_mem_gets
    simp at hle
    omega
  | true =>
    obtain ⟨pc', hmem, hrelies⟩ := hg hon
    rw [if_neg (by simp [hon])] at hsurplus
    obtain ⟨j, hj⟩ := List.mem_iff_getElem?.mp hmem
    have hne : a.1 ≠ j := by
      rintro rfl
      rw [hpc] at hj
      cases hj
      exact hrelies rfl
    rw [← List.getElem?_set_ne hne] at hj
    obtain ⟨t, ht, htransfer⟩ := settles_relies cfg
      (s := { shared := { s.shared with on := false }
              threads := s.threads.set a.1 (.putting last cfg.puts) }) hj (by simpa using hrelies)
    obtain ⟨u, hu, hkeeps, hnone⟩ := settles_all cfg t
    refine ⟨u, (ht.trans hu).reach, fun hawake => ?_⟩
    have hle := count_le hnone
    rw [(ht.trans hu).surplus _ device_mem_gets, hsurplus, PmShared.flag, (ht.trans hu).on] at hle
    have hgt := hawake.held (List.mem_of_getElem? (hkeeps j htransfer)) _ device_mem_gets
    simp at hle
    omega

/-! ### With DMA -/

/-- Threads that stay outside are in no other's way. -/
theorem pmStep_append (h : pmStep cfg s a = some s') (idle : List PmPc) :
    pmStep cfg { s with threads := s.threads ++ idle } a =
      some { s' with threads := s'.threads ++ idle } := by
  obtain ⟨pc, hpc, h⟩ := Option.bind_eq_some_iff.mp h
  obtain ⟨next, hnext, rfl⟩ := Option.map_eq_some_iff.mp h
  have hlt := (List.getElem?_eq_some_iff.mp hpc).1
  simp [pmStep, List.getElem?_append_left hlt, hpc, hnext, List.set_append_left _ _ hlt]

theorem reach_append {n : ℕ} (m : ℕ) (hs : Reach (· = pmStart n) anyStep (pmStep cfg) s) :
    Reach (· = pmStart (n + m)) anyStep (pmStep cfg)
      { s with threads := s.threads ++ List.replicate m .idle } := by
  induction hs with
  | start h =>
    subst h
    exact .start (by simp [pmStart, List.replicate_append_replicate])
  | next _ _ h ih => exact ih.next trivial (pmStep_append h _)

/-- Two transfers: the put after the first one gives back the references of the second. -/
def lastPutRun (cfg : PmConfig) : List (ℕ × Bool) :=
  let refs := cfg.gets.length
  List.replicate (2 * refs + 10) (0, true) ++ List.replicate (refs + 5) (1, true) ++
    List.replicate (refs + 2) (0, true)

/-- A transfer is under way that holds nothing. -/
def PmState.unheld (cfg : PmConfig) (s : PmState) : Bool :=
  s.threads.contains .transfer && cfg.gets.all fun r => s.shared.count r = 0

theorem lastPutRun_unheld (s2ram : Bool) :
    (schedule (pmStep ⟨s2ram, true⟩) (pmStart 2) (lastPutRun ⟨s2ram, true⟩)).any
      (PmState.unheld ⟨s2ram, true⟩) = true := by
  cases s2ram <;> decide +kernel

theorem exists_unheld {n : ℕ} (hdma : cfg.dma = true) (hn : 2 ≤ n) :
    ∃ s, Reach (· = pmStart n) anyStep (pmStep cfg) s ∧ .transfer ∈ s.threads ∧
      ∀ r ∈ cfg.gets, s.shared.count r = 0 := by
  obtain ⟨s2ram, dma⟩ := cfg
  cases hdma
  obtain ⟨m, rfl⟩ := Nat.exists_eq_add_of_le hn
  obtain ⟨s, hs, hunheld⟩ := (Option.any_eq_true _ _).mp (lastPutRun_unheld s2ram)
  simp only [PmState.unheld, Bool.and_eq_true, List.contains_iff_mem, List.all_eq_true,
    decide_eq_true_eq] at hunheld
  have hreach : Reach (· = pmStart 2) anyStep (pmStep ⟨s2ram, true⟩) s :=
    .of_schedule (.start rfl) _ (anyStep_all _) hs
  exact ⟨_, reach_append m hreach, List.mem_append_left _ hunheld.1, hunheld.2⟩

theorem pmInv_of_reach {n : ℕ} (hs : Reach (· = pmStart n) pmGuard (pmStep cfg) s) :
    PmInv cfg s :=
  hs.invariant (fun _ h => h ▸ pmInv_start n) fun _ _ _ hinv hg h => hinv.step hg h

theorem PmInv.atRest (hinv : PmInv cfg s) (hrest : s.AtRest) (hr : r ∈ cfg.gets) :
    s.shared.count r = s.shared.flag := by
  have hzero : (s.threads.map (PmPc.debt r)).sum = 0 := by
    refine List.sum_eq_zero fun d hd => ?_
    obtain ⟨pc, hpc, rfl⟩ := List.mem_map.mp hd
    rw [hrest pc hpc]
    rfl
  rw [count_eq, hinv.surplus r hr, hzero, zero_add, add_zero]

/-- A transfer holds its references as long as no thread turns the flag off under another, and
needs it: after any step that does, some thread may be without them. Without DMA no thread ever
does; with it two threads are enough. At rest nothing is held unless a transfer failed before
its start without DMA. -/
theorem pmRefs_held (cfg : PmConfig) (n : ℕ) :
    (∀ s, Reach (· = pmStart n) pmGuard (pmStep cfg) s →
      s.Awake cfg ∧ (s.AtRest → ∀ r ∈ cfg.gets, s.shared.count r = s.shared.flag)) ∧
    (∀ s a s', Reach (· = pmStart n) pmGuard (pmStep cfg) s → pmStep cfg s a = some s' →
      ¬ pmGuard s a → ∃ t, Reach (· = s') anyStep (pmStep cfg) t ∧ ¬ t.Awake cfg) ∧
    (cfg.dma = false → ∀ s, Reach (· = pmStart n) anyStep (pmStep cfg) s →
      Reach (· = pmStart n) pmGuard (pmStep cfg) s) ∧
    (cfg.dma = true → 2 ≤ n → ∃ s, Reach (· = pmStart n) anyStep (pmStep cfg) s ∧
      .transfer ∈ s.threads ∧ ∀ r ∈ cfg.gets, s.shared.count r = 0) ∧
    ∀ s, Reach (· = pmStart n) (fun _ a => cfg.dma = true ∨ a.2 = true) (pmStep cfg) s →
      s.AtRest → s.shared.on = false := by
  refine ⟨fun s hs => ?_, fun s a s' hs h hg => ?_, fun hdma s hs => ?_, exists_unheld,
    fun s hs hrest => ?_⟩
  · have hinv := pmInv_of_reach hs
    exact ⟨hinv.awake, fun hrest r hr => hinv.atRest hrest hr⟩
  · exact (pmInv_of_reach hs).not_awake hg h
  · exact (guarded_of_polled hdma hs).1
  · refine Bool.eq_false_iff.mpr fun hon => ?_
    obtain ⟨pc, hpc, hwill⟩ := willPut_of_on hs hon
    rw [hrest pc hpc] at hwill
    cases hwill

end MmIot
