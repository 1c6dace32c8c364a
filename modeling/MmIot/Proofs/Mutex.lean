import MmIot.Spec.Mutex

/-! When the `owner` field of a mutex tells who holds it. A release clears it without
looking at the lock count and after the kernel may have passed the mutex on, and it
is right for as long as no release does either. -/

namespace MmIot

variable {τ : Type*} [DecidableEq τ]

/-- The answer is right for every task that is not inside a call. -/
def TellsTruth (s : MutexState τ) : Prop :=
  ∀ t, (s.tasks t).pc = .idle →
    (s.isHeldByActiveTask t = true ↔ (s.tasks t).releases < (s.tasks t).gets)

/-- The field is cleared only when no task that is done with its get holds the mutex,
the releasing task itself included. -/
def MutexGuard (s : MutexState τ) : MutexAction τ → Prop
  | .clearOwner t => ∀ u, s.kernel.owner = some u → u ≠ t ∧ (s.tasks u).pc ≠ .idle
  | _ => True

/-- What the state says of one task. -/
structure MutexTaskInv (s : MutexState τ) (t : τ) : Prop where
  balance : (s.tasks t).gets + (if (s.tasks t).pc = .locked then 1 else 0) =
    (s.tasks t).releases + (if (s.tasks t).pc = .unlocked then 1 else 0) +
      (if s.kernel.owner = some t then s.kernel.lockCount else 0)
  locked : (s.tasks t).pc = .locked → s.kernel.owner = some t
  waiting : (s.tasks t).pc = .waiting → s.kernel.owner ≠ some t
  queued : t ∈ s.kernel.waiters → (s.tasks t).pc = .waiting
  owner : s.owner = some t → s.kernel.owner = some t ∨ (s.tasks t).pc = .unlocked
  held : s.kernel.owner = some t → (s.tasks t).pc = .idle → s.owner = some t

structure MutexInv (s : MutexState τ) : Prop where
  task : ∀ t, MutexTaskInv s t
  count : ∀ t, s.kernel.owner = some t → 0 < s.kernel.lockCount
  free : s.kernel.owner = none → s.kernel.lockCount = 0

theorem MutexInv.tellsTruth {s : MutexState τ} (h : MutexInv s) : TellsTruth s := by
  intro t hidle
  have ht := h.task t
  have hbalance := ht.balance
  simp only [hidle, reduceCtorEq, if_false, Nat.add_zero] at hbalance
  simp only [MutexState.isHeldByActiveTask, decide_eq_true_eq]
  constructor
  · intro howner
    have hheld : s.kernel.owner = some t := (ht.owner howner).resolve_right (by simp [hidle])
    have hcount := h.count t hheld
    rw [if_pos hheld] at hbalance
    omega
  · intro hlt
    by_cases hheld : s.kernel.owner = some t
    · exact ht.held hheld hidle
    · rw [if_neg hheld] at hbalance
      omega

theorem mutexInv_create : MutexInv (mutexCreate : MutexState τ) :=
  ⟨fun _ => ⟨rfl, nofun, nofun, nofun, nofun, nofun⟩, nofun, fun _ => rfl⟩

/-! ### The steps

Each step is looked at from one task `v` and the acting task `t`; the facts of the
two together decide every field. -/

theorem setPc_tasks (s : MutexState τ) (t v : τ) (pc : MutexPc) :
    (s.setPc t pc).tasks v = if v = t then { s.tasks t with pc } else s.tasks v := by
  simp only [MutexState.setPc, Function.update_apply]

@[simp] theorem setPc_kernel (s : MutexState τ) (t : τ) (pc : MutexPc) :
    (s.setPc t pc).kernel = s.kernel := rfl

@[simp] theorem setPc_owner (s : MutexState τ) (t : τ) (pc : MutexPc) :
    (s.setPc t pc).owner = s.owner := rfl

theorem MutexInv.acquire {s : MutexState τ} (h : MutexInv s) {t : τ}
    (hidle : (s.tasks t).pc = .idle) (hfree : s.kernel.owner = none ∨ s.kernel.owner = some t) :
    MutexInv ({ s with kernel.owner := some t,
                       kernel.lockCount := s.kernel.lockCount + 1 }.setPc t .locked) := by
  refine ⟨fun v => ?_, fun _ _ => Nat.succ_pos _, nofun⟩
  have hv := h.task v
  have hcount := h.free
  constructor <;> simp only [setPc_tasks, setPc_kernel, setPc_owner] <;> grind [MutexTaskInv]

theorem MutexInv.block {s : MutexState τ} (h : MutexInv s) {t : τ}
    (hidle : (s.tasks t).pc = .idle) (hfree : ¬ (s.kernel.owner = none ∨ s.kernel.owner = some t)) :
    MutexInv ({ s with kernel.waiters := t :: s.kernel.waiters }.setPc t .waiting) := by
  refine ⟨fun v => ?_, h.count, h.free⟩
  have hv := h.task v
  constructor <;> simp only [setPc_tasks, setPc_kernel, setPc_owner] <;> grind [MutexTaskInv]

theorem MutexInv.timeout {s : MutexState τ} (h : MutexInv s) {t : τ}
    (hwaiting : (s.tasks t).pc = .waiting) :
    MutexInv ({ s with kernel.waiters := s.kernel.waiters.filter (· ≠ t) }.setPc t .idle) := by
  refine ⟨fun v => ?_, h.count, h.free⟩
  have hv := h.task v
  constructor <;> simp only [setPc_tasks, setPc_kernel, setPc_owner] <;> grind [MutexTaskInv]

theorem MutexInv.setOwner {s : MutexState τ} (h : MutexInv s) {t : τ}
    (hlocked : (s.tasks t).pc = .locked) :
    MutexInv { s with
      owner := some t
      tasks := Function.update s.tasks t
        { s.tasks t with pc := .idle, gets := (s.tasks t).gets + 1 } } := by
  refine ⟨fun v => ?_, h.count, h.free⟩
  have hv := h.task v
  have ht := h.task t
  constructor <;> simp only [Function.update_apply] <;> grind [MutexTaskInv]

theorem MutexInv.unlockOnce {s : MutexState τ} (h : MutexInv s) {t : τ}
    (hidle : (s.tasks t).pc = .idle) (hheld : s.kernel.owner = some t)
    (hcount : 1 < s.kernel.lockCount) :
    MutexInv ({ s with kernel.lockCount := s.kernel.lockCount - 1 }.setPc t .unlocked) := by
  refine ⟨fun v => ?_, fun _ _ => Nat.sub_pos_of_lt hcount, fun hnone => by simp [hheld] at hnone⟩
  have hv := h.task v
  constructor <;> simp only [setPc_tasks, setPc_kernel, setPc_owner] <;> grind [MutexTaskInv]

theorem MutexInv.unlockFree {s : MutexState τ} (h : MutexInv s) {t : τ}
    (hidle : (s.tasks t).pc = .idle) (hheld : s.kernel.owner = some t)
    (hcount : s.kernel.lockCount = 1) :
    MutexInv ({ s with kernel.owner := none, kernel.lockCount := 0 }.setPc t .unlocked) := by
  refine ⟨fun v => ?_, nofun, fun _ => rfl⟩
  have hv := h.task v
  constructor <;> simp only [setPc_tasks, setPc_kernel, setPc_owner] <;> grind [MutexTaskInv]

theorem MutexInv.unlockHandOver {s : MutexState τ} (h : MutexInv s) {t u : τ}
    (hidle : (s.tasks t).pc = .idle) (hheld : s.kernel.owner = some t)
    (hcount : s.kernel.lockCount = 1) (hu : u ∈ s.kernel.waiters) :
    MutexInv (({ s with kernel := ⟨some u, 1, s.kernel.waiters.filter (· ≠ u)⟩ }.setPc t
      .unlocked).setPc u .locked) := by
  refine ⟨fun v => ?_, fun _ _ => Nat.one_pos, nofun⟩
  have hv := h.task v
  have hwaiting := (h.task u).queued hu
  have hbalance := (h.task u).balance
  constructor <;> simp only [setPc_tasks, setPc_kernel, setPc_owner] <;> grind [MutexTaskInv]

/-- The one step that needs the guard: no holder loses its mark. -/
theorem MutexInv.clearOwner {s : MutexState τ} (h : MutexInv s) {t : τ}
    (hunlocked : (s.tasks t).pc = .unlocked) (hg : MutexGuard s (.clearOwner t)) :
    MutexInv { s with
      owner := none
      tasks := Function.update s.tasks t
        { s.tasks t with pc := .idle, releases := (s.tasks t).releases + 1 } } := by
  refine ⟨fun v => ?_, h.count, h.free⟩
  have hv := h.task v
  have hgv := hg v
  constructor <;> simp only [Function.update_apply] <;> grind [MutexTaskInv]

/-- The last unlock of a holder, with the next one that the kernel picks. -/
theorem MutexInv.unlockLast {s s' : MutexState τ} (h : MutexInv s) {t : τ} {next : Option τ}
    {kernel : KMutex τ} (hidle : (s.tasks t).pc = .idle) (hheld : s.kernel.owner = some t)
    (hcount : s.kernel.lockCount = 1) (hnext : s.kernel.handOver next = some kernel)
    (hs' : s' = (match next with
      | none => { s with kernel }.setPc t .unlocked
      | some u => ({ s with kernel }.setPc t .unlocked).setPc u .locked)) : MutexInv s' := by
  cases next with
  | none =>
    obtain ⟨-, ⟨⟩⟩ := Option.ite_none_right_eq_some.mp hnext
    rw [hs']
    exact h.unlockFree hidle hheld hcount
  | some u =>
    obtain ⟨hu, ⟨⟩⟩ := Option.ite_none_right_eq_some.mp hnext
    rw [hs']
    exact h.unlockHandOver hidle hheld hcount hu

theorem MutexInv.step {s s' : MutexState τ} {a : MutexAction τ} (h : MutexInv s)
    (hg : MutexGuard s a) (hstep : mutexStep s a = some s') : MutexInv s' := by
  cases a with
  | lock t =>
    obtain ⟨hidle, hstep⟩ := Option.ite_none_left_eq_some.mp hstep
    by_cases hfree : s.kernel.owner = none ∨ s.kernel.owner = some t
    · simp only [KMutex.lock, hfree, if_true] at hstep
      cases hstep
      exact h.acquire (not_not.mp hidle) hfree
    · simp only [KMutex.lock, hfree, if_false] at hstep
      cases hstep
      exact h.block (not_not.mp hidle) hfree
  | timeout t =>
    obtain ⟨hwaiting, ⟨⟩⟩ := Option.ite_none_left_eq_some.mp hstep
    exact h.timeout (not_not.mp hwaiting)
  | setOwner t =>
    obtain ⟨hlocked, ⟨⟩⟩ := Option.ite_none_left_eq_some.mp hstep
    exact h.setOwner (not_not.mp hlocked)
  | unlock t next =>
    obtain ⟨hidle, hstep⟩ := Option.ite_none_left_eq_some.mp hstep
    by_cases hheld : s.kernel.owner = some t
    · rw [if_neg (not_not.mpr hheld)] at hstep
      by_cases hcount : 1 < s.kernel.lockCount
      · rw [if_pos hcount] at hstep
        cases hstep
        exact h.unlockOnce (not_not.mp hidle) hheld hcount
      · have hone : s.kernel.lockCount = 1 := by
          have hpos := h.count t hheld
          omega
        rw [if_neg hcount] at hstep
        cases hnext : s.kernel.handOver next with
        | none =>
          rw [hnext] at hstep
          cases hstep
        | some kernel =>
          rw [hnext] at hstep
          apply h.unlockLast (not_not.mp hidle) hheld hone hnext
          cases next <;> exact (Option.some.inj hstep).symm
    · rw [if_pos hheld] at hstep
      cases hstep
      exact h
  | clearOwner t =>
    obtain ⟨hunlocked, ⟨⟩⟩ := Option.ite_none_left_eq_some.mp hstep
    exact h.clearOwner (not_not.mp hunlocked) hg

theorem mutexInv_of_reach {s : MutexState τ}
    (h : Transition.Reach (· = mutexCreate) MutexGuard mutexStep s) : MutexInv s :=
  h.invariant (fun _ hs => hs ▸ mutexInv_create) fun _ _ _ hinv hg hstep => hinv.step hg hstep

/-- A release outside the guard leaves a holder that is told it holds nothing. -/
theorem MutexInv.guard_of_tellsTruth {s s' : MutexState τ} {a : MutexAction τ} (h : MutexInv s)
    (hstep : mutexStep s a = some s') (htruth : TellsTruth s') : MutexGuard s a := by
  cases a with
  | clearOwner t =>
    obtain ⟨hunlocked, ⟨⟩⟩ := Option.ite_none_left_eq_some.mp hstep
    intro u hu
    have hbalance := (h.task u).balance
    have hcount := h.count u hu
    have htruth := htruth u
    simp only [MutexState.isHeldByActiveTask, Function.update_apply] at htruth
    constructor <;> grind
  | _ => trivial

/-- In a run whose releases all meet the guard every answer is right, and the first
release that does not meet it makes one wrong. -/
theorem tellsTruth_iff_mutexGuard (s : MutexState τ)
    (h : Transition.Reach (· = mutexCreate) MutexGuard mutexStep s) :
    TellsTruth s ∧ ∀ a s', mutexStep s a = some s' → (TellsTruth s' ↔ MutexGuard s a) := by
  have hinv := mutexInv_of_reach h
  exact ⟨hinv.tellsTruth, fun a s' hstep =>
    ⟨hinv.guard_of_tellsTruth hstep, fun hg => (hinv.step hg hstep).tellsTruth⟩⟩

/-- Task 0 hands the mutex to task 1 and clears the field before task 1 sets it. -/
theorem tellsTruth_iff_mutexGuard_handOver :
    ∃ s : MutexState ℕ, Transition.schedule mutexStep mutexCreate
        [.lock 0, .setOwner 0, .lock 1, .unlock 0 (some 1), .clearOwner 0, .setOwner 1] = some s ∧
      s.isHeldByActiveTask 1 = true ∧ s.isHeldByActiveTask 0 = false ∧ TellsTruth s := by
  have hunlocked : Transition.Reach (· = (mutexCreate : MutexState ℕ)) MutexGuard mutexStep _ :=
    .of_schedule (.start rfl) [.lock 0, .setOwner 0, .lock 1, .unlock 0 (some 1)]
      (by simp [MutexGuard]) rfl
  refine ⟨_, rfl, rfl, rfl, (tellsTruth_iff_mutexGuard _ ?_).1⟩
  refine .next (.next hunlocked (a := .clearOwner 0) (fun u hu => ?_) rfl) (a := .setOwner 1)
    trivial rfl
  cases hu
  decide

/-- Two ways to be wrong. A task that got the mutex twice and released it once is told
that it does not hold it; and so is a task that was handed the mutex and marked itself
before the releasing task went on. -/
theorem release_not_tellsTruth :
    (∃ s : MutexState ℕ, Transition.Reach (· = mutexCreate) Transition.anyStep mutexStep s ∧
      s.tasks 0 = ⟨.idle, 2, 1⟩ ∧ s.isHeldByActiveTask 0 = false ∧ ¬ TellsTruth s) ∧
    ∃ s : MutexState ℕ, Transition.Reach (· = mutexCreate) Transition.anyStep mutexStep s ∧
      s.tasks 1 = ⟨.idle, 1, 0⟩ ∧ s.isHeldByActiveTask 1 = false ∧ ¬ TellsTruth s := by
  constructor
  · refine ⟨_, .of_schedule (.start rfl) [.lock 0, .setOwner 0, .lock 0, .setOwner 0,
      .unlock 0 none, .clearOwner 0] (Transition.anyStep_all _) rfl, rfl, rfl, fun htruth => ?_⟩
    have hheld := (htruth 0 rfl).mpr (by decide)
    cases hheld
  · refine ⟨_, .of_schedule (.start rfl) [.lock 0, .setOwner 0, .lock 1, .unlock 0 (some 1),
      .setOwner 1, .clearOwner 0] (Transition.anyStep_all _) rfl, rfl, rfl, fun htruth => ?_⟩
    have hheld := (htruth 1 rfl).mpr (by decide)
    cases hheld

end MmIot
