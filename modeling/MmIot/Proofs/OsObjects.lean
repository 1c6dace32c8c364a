import MmIot.Spec.OsObjects

/-! Whatever calls of the shims are under way, and wherever memory runs out, each block of
memory belongs to one object or to one call. Only a queue must not be NULL when it is deleted. -/

namespace MmIot

open Ownership Transition

/-- A queue's buffer is not the queue. -/
def OsObject.Apart : OsObject → Prop
  | .queue b buffer => b ≠ buffer
  | _ => True

attribute [simp] OsObject.memory OsObject.Apart

/-- A call ends with just the memory of the object it returns. -/
def KeepsMemory (o : OsObject) (own : Finset (OsMem × ℕ)) (_ : List Empty) : Prop :=
  own = o.memory ∧ o.Apart

@[simp] theorem keepsMemory_iff {o : OsObject} {own : Finset (OsMem × ℕ)} {es : List Empty} :
    KeepsMemory o own es ↔ own = o.memory ∧ o.Apart := Iff.rfl

/-! ### The calls one by one -/

variable {mem : OsMem × ℕ → Unit}

/-- Any result of a kernel call is possible. -/
def anyAnswer (_ : OsCall) (_ : ℤ) : Prop := True

/-- A call keeps to the memory it has. -/
abbrev KeepsTo (p : OsProg) (own : Finset (OsMem × ℕ)) (mem : OsMem × ℕ → Unit) : Prop :=
  Meets anyAnswer KeepsMemory p own mem []

theorem keepsMemory_null : KeepsMemory .null ∅ [] := ⟨rfl, trivial⟩

theorem meets_mutexCreate : KeepsTo mmosalMutexCreateProg ∅ mem := by
  refine ⟨keepsMemory_null, fun n _ _ => ⟨by simp, fun err _ => ?_⟩⟩
  dsimp only
  split_ifs with herr
  · simp
  · simp

theorem meets_mutexDelete (b : ℕ) :
    KeepsTo (mmosalMutexDeleteProg (some b)) {(.heap, b)} mem := by
  refine ⟨by simp, fun err _ => ?_⟩
  dsimp only
  split_ifs with herr
  · simp
  · simp

theorem meets_semCreate {object : ℕ → OsObject}
    (hobject : ∀ b, (object b).memory = {(.heap, b)} ∧ (object b).Apart) :
    KeepsTo (semCreateProg object) ∅ mem := by
  refine ⟨keepsMemory_null, fun n _ _ => ⟨by simp, fun err _ => ?_⟩⟩
  dsimp only
  split_ifs with herr
  · simp
  · exact ⟨(insert_empty_eq _).trans (hobject n).1.symm, (hobject n).2⟩

theorem meets_resetAndFree (b : ℕ) : KeepsTo (resetAndFree (some b)) {(.heap, b)} mem := by
  simp [resetAndFree]

theorem meets_queueCreate : KeepsTo mmosalQueueCreateProg ∅ mem := by
  refine ⟨keepsMemory_null, fun n _ _ => ⟨?_, fun m hm _ => ?_⟩⟩
  · simp
  · have hne : n ≠ m := by
      rintro rfl
      simp at hm
    simp [Finset.pair_comm, hne]

theorem meets_queueDelete {b buffer : ℕ} (hne : b ≠ buffer) :
    KeepsTo (mmosalQueueDeleteProg (some (b, buffer))) {(.heap, b), (.heap, buffer)} mem := by
  have herase : ({(.heap, b), (.heap, buffer)} : Finset (OsMem × ℕ)).erase (.heap, buffer) =
      {(.heap, b)} := by
    rw [Finset.pair_comm, Finset.erase_insert (by simpa using hne.symm)]
  simp [mmosalQueueDeleteProg, hne, herase]

theorem meets_timerCreate : KeepsTo mmosalTimerCreateProg ∅ mem := by
  refine ⟨keepsMemory_null, fun n _ _ => ?_⟩
  simp

theorem meets_taskCreate : KeepsTo mmosalTaskCreateProg ∅ mem := by
  refine ⟨keepsMemory_null, fun n _ _ => ⟨by simp, ?_, fun m _ _ => ?_⟩⟩
  · simp
  · simp [Finset.pair_comm]

theorem meets_threadAbortHook (data stack : ℕ) :
    KeepsTo (threadAbortHook (.mmosal data stack)) {(.heap, data), (.stack, stack)} mem := by
  have herase : ({(.heap, data), (.stack, stack)} : Finset (OsMem × ℕ)).erase (.stack, stack) =
      {(.heap, data)} := by
    rw [Finset.pair_comm, Finset.erase_insert (by simp)]
  simp [threadAbortHook, herase]

theorem meets_otherEnds (other : Bool) : KeepsTo (threadAbortHook (.ofOther other)) ∅ mem := by
  cases other <;> exact keepsMemory_null

theorem meets_start {o : OsStart} (ho : o ≠ .queueDeleteNull) : KeepsTo o.prog ∅ mem := by
  cases o with
  | mutexCreate => exact meets_mutexCreate
  | semCreate => exact meets_semCreate fun _ => ⟨rfl, trivial⟩
  | sembCreate => exact meets_semCreate fun _ => ⟨rfl, trivial⟩
  | queueCreate => exact meets_queueCreate
  | timerCreate => exact meets_timerCreate
  | taskCreate => exact meets_taskCreate
  | queueDeleteNull => exact absurd rfl ho
  | mutexDeleteNull | semDeleteNull | sembDeleteNull | timerDeleteNull => exact keepsMemory_null
  | taskDeleteNull other => exact meets_otherEnds other
  | threadEnds other => exact meets_otherEnds other

theorem meets_delete {o : OsObject} {p : OsProg} {m : OsEnd} (h : o.delete m = some p)
    {own : Finset (OsMem × ℕ)} (hown : KeepsMemory o own []) : KeepsTo p own mem := by
  obtain ⟨rfl, hapart⟩ := hown
  cases o with
  | null => cases m <;> cases h
  | mutex b => cases m <;> cases h; exact meets_mutexDelete b
  | sem b => cases m <;> cases h; exact meets_resetAndFree b
  | semb b => cases m <;> cases h; exact meets_resetAndFree b
  | queue b buffer => cases m <;> cases h; exact meets_queueDelete hapart
  | timer b => cases m <;> cases h; exact meets_resetAndFree b
  | task data stack =>
    cases m with
    | delete =>
      cases h
      exact meets_touch.mpr ⟨by simp, meets_threadAbortHook data stack⟩
    | taskDeleteNull => cases h; exact meets_threadAbortHook data stack
    | threadEnds => cases h; exact meets_threadAbortHook data stack

/-! ### All of them -/

/-- All memory is an object's or a call's. -/
theorem osOwned_of_reach {s : OsPool} (hs : Reach (· = osBoot) osGuard osStep s) :
    ∃ own, s.Owned anyAnswer KeepsMemory own := by
  refine Pool.owned_of_reach (fun s p mem hp => ?_) (fun o m p own mem es h hpost => ?_)
    (fun _ _ _ _ _ => trivial) hs
  · obtain ⟨o, ho, rfl⟩ := hp p rfl
    exact meets_start ho
  · cases es with
    | nil => exact meets_delete h hpost
    | cons e _ => exact e.elim

theorem null_notMem_memory (o : OsObject) (b : ℕ) : (.null, b) ∉ o.memory := by
  cases o <;> simp

/-- A queue that is NULL is read where there is nothing. -/
theorem queueDeleteNull_faults {s : OsPool} (hnull : (.null, 0) ∉ s.live) :
    ∃ s', schedule osStep s [.start (OsStart.prog .queueDeleteNull), .run s.progs.length] =
      some s' ∧ s'.fault = true := by
  simp [schedule, osStep, Pool.step, OsStart.prog, mmosalQueueDeleteProg, Prog.touch, hnull]

/-- No block of memory is used or freed that is not allocated, no two objects share one, and
while no call is under way, the blocks allocated are those of the objects there are. To delete
a queue that is NULL reads through NULL. -/
theorem osObjects_accounted {s : OsPool} (hs : Reach (· = osBoot) osGuard osStep s) :
    s.fault = false ∧
      (∀ (i j : ℕ) (o o' : OsObject), s.progs[i]? = some (Prog.ret o) →
        s.progs[j]? = some (Prog.ret o') → ∀ r, r ∈ o.memory → r ∈ o'.memory → i = j) ∧
      ((∀ p ∈ s.progs, ∃ o, p = Prog.ret o) →
        (∀ r, r ∈ s.live ↔ ∃ o, Prog.ret o ∈ s.progs ∧ r ∈ o.memory) ∧
          ∃ s', schedule osStep s [.start (OsStart.prog .queueDeleteNull), .run s.progs.length] =
            some s' ∧ s'.fault = true) := by
  obtain ⟨own, hown⟩ := osOwned_of_reach hs
  have hmemory : ∀ i o, s.progs[i]? = some (.ret o) → own i = o.memory :=
    fun i o hi => (hown.meets i _ hi).1
  have hlive : (∀ p ∈ s.progs, ∃ o, p = Prog.ret o) →
      ∀ r, r ∈ s.live ↔ ∃ o, Prog.ret o ∈ s.progs ∧ r ∈ o.memory := by
    intro hrest r
    rw [hown.live]
    constructor
    · rintro ⟨i, hr⟩
      have hi : i < s.progs.length := by
        by_contra hge
        rw [(hown.unused i (Nat.le_of_not_lt hge)).1] at hr
        exact absurd hr (Finset.notMem_empty r)
      obtain ⟨o, ho⟩ := hrest _ (List.getElem_mem hi)
      have hget : s.progs[i]? = some (.ret o) := by rw [List.getElem?_eq_getElem hi, ho]
      exact ⟨o, List.mem_of_getElem? hget, hmemory i o hget ▸ hr⟩
    · rintro ⟨o, ho, hr⟩
      obtain ⟨i, hi⟩ := List.mem_iff_getElem?.mp ho
      exact ⟨i, hmemory i o hi ▸ hr⟩
  refine ⟨hown.fault, ?_, fun hrest => ⟨hlive hrest, queueDeleteNull_faults fun hnull => ?_⟩⟩
  · intro i j o o' hi hj r hr hr'
    exact hown.disjoint i j r (hmemory i o hi ▸ hr) (hmemory j o' hj ▸ hr')
  · obtain ⟨o, -, hr⟩ := (hlive hrest _).mp hnull
    exact null_notMem_memory o 0 hr

/-- The second allocation of a queue fails while a task is made. -/
def queueRun : List OsAct :=
  [.start mmosalQueueCreateProg, .start mmosalTaskCreateProg, .acquire 0 (some 1), .acquire 1 (some 2),
    .acquire 0 none, .run 1, .run 0, .acquire 1 (some 1), .run 0, .run 1, .run 1, .run 1]

theorem osObjects_accounted_queueRun :
    ∃ s, schedule osStep osBoot queueRun = some s ∧ s.fault = false ∧
      s.live = {(.heap, 2), (.stack, 1)} := by
  refine ⟨_, rfl, (osObjects_accounted (.of_schedule (.start rfl) queueRun ?_ rfl)).1, by decide⟩
  intro s a ha p hp
  subst hp
  simp [queueRun] at ha
  rcases ha with rfl | rfl
  · exact ⟨.queueCreate, by simp, rfl⟩
  · exact ⟨.taskCreate, by simp, rfl⟩

end MmIot
