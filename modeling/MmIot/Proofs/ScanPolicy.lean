import MmIot.Spec.ScanPolicy

/-! No call shortens a hold that another one asked for, whatever the order of their loads and
exchanges, and no two scans are queued at a time. -/

namespace MmIot

open Transition CasLoop

/-! ### Holding scans off -/

variable {c : ScanDefer} {init d t : ℕ} {s s' : CasLoop.State ℕ ScanDefer}
  {a : CasLoop.Act ScanDefer}

theorem scanDeferWants_iff (h : c.Near d) :
    edgezScanDefer.wants c d = true ↔ d ≤ c.now ∨ d < c.now + c.duration := by
  obtain ⟨hlt, hgt⟩ := h
  have hnow := CInt.toInt32_sub_ofNat (x := d) (y := c.now) hlt (by omega)
  have hproposed := CInt.toInt32_sub_ofNat (x := c.now + c.duration) (y := d) (by omega) (by omega)
  simp only [edgezScanDefer, scanDeferWants, ← UInt32.ofNat_add, hnow, hproposed,
    Bool.or_eq_true, decide_eq_true_eq]
  omega

theorem right_of_scanWindow (h : scanWindow s a) : edgezScanDefer.right s a := by
  cases a with
  | call c => trivial
  | run i spurious =>
    intro c current
    refine ⟨fun htest => ?_, fun hexchange hsame => ?_⟩
    · rw [scanDeferWants_iff (h c current (.inl htest)).1]
      simp only [edgezScanDefer]
      omega
    · obtain ⟨⟨hlt, hgt⟩, hlt', hgt'⟩ := h c current (.inr hexchange)
      -- they are less than a whole turn apart
      have hmod : s.cell % 2 ^ 32 = current % 2 ^ 32 := by
        have heq := congrArg UInt32.toNat (beq_iff_eq.mp hsame)
        rwa [UInt32.toNat_ofNat', UInt32.toNat_ofNat'] at heq
      omega

theorem edgezScanHeld_iff {peers : ℕ} (hlt : d < t + 2 ^ 31) (hle : t ≤ d + 2 ^ 31) :
    edgezScanHeld (UInt32.ofNat t) (UInt32.ofNat d) peers = true ↔ peers ≠ 0 ∨ t < d := by
  simp only [edgezScanHeld, CInt.toInt32_sub_ofNat hlt hle, Bool.or_eq_true, bne_iff_ne,
    decide_eq_true_eq]
  omega

/-- The deadline is the greatest of the one there was at first and of all that calls which have
returned asked for, it is never lowered, and a scan is held off just until then. -/
theorem scanHold_kept (hs : Reach (· = CasLoop.start init) scanWindow edgezScanDefer.step s) :
    IsGreatest (insert init {d | ∃ c : ScanDefer, (c, Pc.done) ∈ s.calls ∧
      c.now + c.duration = d}) s.cell ∧
    (∀ a s', scanWindow s a → edgezScanDefer.step s a = some s' → s.cell ≤ s'.cell) ∧
    ∀ t peers, s.cell < t + 2 ^ 31 → t ≤ s.cell + 2 ^ 31 →
      (edgezScanHeld (UInt32.ofNat t) (UInt32.ofNat s.cell) peers = true ↔
        peers ≠ 0 ∨ t < s.cell) := by
  have hinv : CasLoop.Inv edgezScanDefer init s :=
    inv_of_reach (hs.mono fun _ _ => right_of_scanWindow)
  refine ⟨hinv.greatest, fun a s' hg h => ?_, fun t peers hlt hle => edgezScanHeld_iff hlt hle⟩
  exact (hinv.step (right_of_scanWindow hg) h).2

/-- Every deadline of a run whose calls are within half a turn of each other. -/
structure InHalfTurn (first : ℕ) (s : CasLoop.State ℕ ScanDefer) : Prop where
  cell : first ≤ s.cell ∧ s.cell < first + 2 ^ 31
  calls : ∀ c pc, (c, pc) ∈ s.calls → first ≤ c.now ∧ c.now + c.duration < first + 2 ^ 31
  current : ∀ c current, (c, .test current) ∈ s.calls ∨ (c, .exchange current) ∈ s.calls →
    first ≤ current ∧ current < first + 2 ^ 31

theorem InHalfTurn.window {first : ℕ} (h : InHalfTurn first s) (a : CasLoop.Act ScanDefer) :
    scanWindow s a := by
  cases a with
  | call c => trivial
  | run i spurious =>
    intro c current hi
    have hcurrent := h.current c current (hi.imp List.mem_of_getElem? List.mem_of_getElem?)
    have hcall : first ≤ c.now ∧ c.now + c.duration < first + 2 ^ 31 := by
      rcases hi with hi | hi <;> exact h.calls c _ (List.mem_of_getElem? hi)
    have hcell := h.cell
    simp only [ScanDefer.Near]
    omega

theorem InHalfTurn.step {first : ℕ} (h : InHalfTurn first s)
    (hcall : ∀ c, a = .call c → first ≤ c.now ∧ c.now + c.duration < first + 2 ^ 31)
    (hstep : edgezScanDefer.step s a = some s') : InHalfTurn first s' := by
  cases a with
  | call c =>
    cases hstep
    refine ⟨h.cell, fun c' pc hmem => ?_, fun c' current hmem => ?_⟩
    · rcases List.mem_append.mp hmem with hold | hnew
      · exact h.calls c' pc hold
      · cases List.mem_singleton.mp hnew
        exact hcall c rfl
    · exact h.current c' current (by simpa using hmem)
  | run i spurious =>
    obtain ⟨c, pc, hi, hmoves⟩ := step_run hstep
    have hmem := List.mem_of_getElem? hi
    have hself := h.calls c pc hmem
    have hcalls : ∀ pc' c' pc'', (c', pc'') ∈ s.calls.set i (c, pc') →
        first ≤ c'.now ∧ c'.now + c'.duration < first + 2 ^ 31 := by
      intro pc' c' pc'' hmem'
      rcases List.mem_or_eq_of_mem_set hmem' with hold | hnew
      · exact h.calls c' pc'' hold
      · cases hnew
        exact hself
    have hcurrent : ∀ pc', (∀ d, pc' = .test d ∨ pc' = .exchange d →
        first ≤ d ∧ d < first + 2 ^ 31) → ∀ c' d,
        (c', .test d) ∈ s.calls.set i (c, pc') ∨ (c', .exchange d) ∈ s.calls.set i (c, pc') →
          first ≤ d ∧ d < first + 2 ^ 31 := by
      intro pc' hnew c' d hmem'
      rcases hmem' with hmem' | hmem' <;>
        rcases List.mem_or_eq_of_mem_set hmem' with hold | heq
      · exact h.current c' d (.inl hold)
      · cases heq
        exact hnew d (.inl rfl)
      · exact h.current c' d (.inr hold)
      · cases heq
        exact hnew d (.inr rfl)
    cases hmoves with
    | load | again current =>
      refine ⟨h.cell, hcalls _, hcurrent _ fun d hd => ?_⟩
      rcases hd with hd | hd <;> cases hd
      exact h.cell
    | goOn current _ =>
      refine ⟨h.cell, hcalls _, hcurrent _ fun d hd => ?_⟩
      rcases hd with hd | hd <;> cases hd
      exact h.current c current (.inl hmem)
    | leave current _ => exact ⟨h.cell, hcalls _, hcurrent _ (by simp)⟩
    | store current _ =>
      refine ⟨⟨hself.1.trans (Nat.le_add_right _ _), hself.2⟩, hcalls _, hcurrent _ (by simp)⟩

/-- Calls within half a turn of the clock need no watching. -/
theorem scanWindow_of_halfTurn {first : ℕ} (hfirst : first ≤ init) (hinit : init < first + 2 ^ 31)
    (hs : Reach (· = CasLoop.start init)
      (fun _ a => ∀ c, a = .call c → first ≤ c.now ∧ c.now + c.duration < first + 2 ^ 31)
      edgezScanDefer.step s) :
    Reach (· = CasLoop.start init) scanWindow edgezScanDefer.step s ∧ InHalfTurn first s := by
  induction hs with
  | start h =>
    subst h
    exact ⟨.start rfl, ⟨hfirst, hinit⟩, by simp [CasLoop.start], by simp [CasLoop.start]⟩
  | next _ hcall h ih => exact ⟨ih.1.next (ih.2.window _) h, ih.2.step hcall h⟩

/-- A shorter hold is stored between the load and the exchange of a longer one. -/
def twoDefers : List (CasLoop.Act ScanDefer) :=
  [.call ⟨10, 1000⟩, .call ⟨15, 20⟩, .run 0 false, .run 1 false, .run 0 false, .run 1 false,
    .run 1 false, .run 0 false, .run 0 false, .run 0 true, .run 0 false, .run 0 false]

theorem scanHold_kept_twoDefers :
    ∃ s, schedule edgezScanDefer.step (CasLoop.start 0) twoDefers = some s ∧
      IsGreatest (insert 0 {d | ∃ c : ScanDefer, (c, Pc.done) ∈ s.calls ∧
        c.now + c.duration = d}) s.cell ∧ s.cell = 1010 := by
  refine ⟨_, rfl, (scanHold_kept (scanWindow_of_halfTurn (Nat.zero_le 0) (by simp)
    (.of_schedule (.start rfl) twoDefers ?_ rfl)).1).1, rfl⟩
  rintro - a ha c rfl
  simp [twoDefers] at ha
  rcases ha with rfl | rfl <;> simp

/-- A call that reads a deadline more than half a turn back takes it for one ahead: it returns
without a hold, and until the clock comes round scans are held off without a call. -/
theorem scanDefer_lost (hlate : d + 2 ^ 31 < c.now) (hearly : c.now + c.duration < d + 2 ^ 32) :
    schedule edgezScanDefer.step { cell := d, calls := [(c, .load)] }
        [.run 0 false, .run 0 false] = some { cell := d, calls := [(c, .done)] } ∧
      ∀ t, d + 2 ^ 31 < t → t < d + 2 ^ 32 →
        edgezScanHeld (UInt32.ofNat t) (UInt32.ofNat d) 0 = true := by
  have hturn : UInt32.ofNat d = UInt32.ofNat (d + 2 ^ 32) := by
    apply UInt32.toNat_inj.mp
    rw [UInt32.toNat_ofNat', UInt32.toNat_ofNat', Nat.add_mod_right]
  have hahead : ∀ t, d + 2 ^ 31 < t → t < d + 2 ^ 32 →
      CInt.toInt32 (UInt32.ofNat d - UInt32.ofNat t) = (d + 2 ^ 32 : ℕ) - (t : ℤ) := by
    intro t hlt hgt
    rw [hturn]
    exact CInt.toInt32_sub_ofNat (by omega) (by omega)
  have hwants : edgezScanDefer.wants c d = false := by
    have hproposed := CInt.toInt32_sub_ofNat (x := c.now + c.duration) (y := d + 2 ^ 32)
      (by omega) (by omega)
    simp only [edgezScanDefer, scanDeferWants, ← UInt32.ofNat_add, hahead c.now hlate (by omega)]
    rw [hturn, hproposed]
    simp
    omega
  refine ⟨by simp [schedule, Loop.step, hwants], fun t hlt hgt => ?_⟩
  simp only [edgezScanHeld, hahead t hlt hgt]
  simp
  omega

/-- However many calls there are, each takes three steps and two more for every other call that
returns meanwhile, as long as its exchanges do not fail for no reason. -/
theorem scanDefer_steps {i : ℕ} {as : List (CasLoop.Act ScanDefer)} (hnew : s.calls.length ≤ i)
    (has : .run i true ∉ as) (h : schedule edgezScanDefer.step s as = some s') :
    stepsOf i as + 2 * s.othersDone i ≤ 3 + 2 * s'.othersDone i := by
  have hle := stepsOf_le (fun x => beq_self_eq_true (UInt32.ofNat x)) has h
  rw [List.getElem?_eq_none hnew] at hle
  simp only [Loop.left] at hle
  omega

/-- The shorter hold, while the longer one is on its way. -/
theorem scanDefer_steps_twoDefers :
    stepsOf 1 twoDefers + 2 * (CasLoop.start 0 : CasLoop.State ℕ ScanDefer).othersDone 1 ≤
      3 + 2 * 1 :=
  scanDefer_steps (Nat.zero_le 1) (by simp [twoDefers])
    (rfl : schedule edgezScanDefer.step (CasLoop.start 0) twoDefers =
      some { cell := 1010, calls := [(⟨10, 1000⟩, .done), (⟨15, 20⟩, .done)] })

/-! ### One scan at a time -/

variable {r r' : SubmitState} {b : SubmitAct} {busyStatus : ℤ}

/-- A call that has the flag and no scan queued. -/
def SubmitPc.holds : SubmitPc → Bool
  | .enqueue | .refused _ => true
  | _ => false

/-- The flag is set for one scan that is queued, or for one call. -/
def SubmitState.Exclusive (r : SubmitState) : Prop :=
  r.queued + r.calls.countP SubmitPc.holds = r.busy.toNat

theorem SubmitState.Exclusive.step (hinv : r.Exclusive) (hg : submitGuard r b)
    (h : submitStep busyStatus r b = some r') : r'.Exclusive := by
  unfold SubmitState.Exclusive at *
  have hone := r.busy.toNat_le
  cases b with
  | submit =>
    cases h
    simpa [SubmitPc.holds] using hinv
  | callback =>
    cases h
    have hqueued := hg rfl
    simp only [Bool.toNat_false]
    omega
  | run i status =>
    cases hi : r.calls[i]? with
    | none => simp [submitStep, hi] at h
    | some pc =>
      have hset := countP_set_add (p := SubmitPc.holds) hi
      cases pc with
      | exchange =>
        cases hbusy : r.busy with
        | false =>
          have hcount := hset .enqueue
          simp only [submitStep, hi, hbusy, Bool.false_eq_true, if_false, Option.some.injEq] at h
          subst h
          simp only [SubmitPc.holds, if_true, Bool.false_eq_true, if_false] at hcount
          simp only [SubmitState.set, hbusy, Bool.toNat_false, Bool.toNat_true] at hinv ⊢
          omega
        | true =>
          have hcount := hset (.done busyStatus)
          simp only [submitStep, hi, hbusy, if_true, Option.some.injEq] at h
          subst h
          simp only [SubmitPc.holds, Bool.false_eq_true, if_false] at hcount
          simp only [SubmitState.set]
          omega
      | enqueue =>
        simp only [submitStep, hi] at h
        split_ifs at h with hstatus <;> cases h
        · have hcount := hset (.refused status)
          simp only [SubmitPc.holds, if_true] at hcount
          simp only [SubmitState.set]
          omega
        · have hcount := hset .queued
          simp only [SubmitPc.holds, if_true, Bool.false_eq_true, if_false] at hcount
          simp only [SubmitState.set]
          omega
      | queued =>
        simp only [submitStep, hi, Option.some.injEq] at h
        subst h
        have hcount := hset (.done 0)
        simp only [SubmitPc.holds, Bool.false_eq_true, if_false] at hcount
        simp only [SubmitState.set]
        omega
      | refused status =>
        simp only [submitStep, hi, Option.some.injEq] at h
        subst h
        have hcount := hset (.done status)
        simp only [SubmitPc.holds, if_true, Bool.false_eq_true, if_false] at hcount
        simp only [SubmitState.set, Bool.toNat_false]
        omega
      | done status' => simp [submitStep, hi] at h

variable (busyStatus) in
/-- From a free flag a new call queues its scan. -/
theorem submit_queues (hfree : r.busy = false) :
    ∃ t, Reach (· = r) anyStep (submitStep busyStatus) t ∧ t.busy = true ∧
      t.queued = r.queued + 1 ∧ t.calls = r.calls ++ [.queued] := by
  have hset : ∀ pc pc' : SubmitPc,
      (r.calls ++ [pc]).set r.calls.length pc' = r.calls ++ [pc'] := by simp
  refine ⟨⟨true, r.queued + 1, r.calls ++ [.queued]⟩, ?_, rfl, rfl, rfl⟩
  have hcome : submitStep busyStatus r .submit = some ⟨r.busy, r.queued, r.calls ++ [.exchange]⟩ :=
    rfl
  have htake : submitStep busyStatus ⟨r.busy, r.queued, r.calls ++ [.exchange]⟩
      (.run r.calls.length 0) = some ⟨true, r.queued, r.calls ++ [.enqueue]⟩ := by
    simp [submitStep, SubmitState.set, hset, hfree]
  have hqueue : submitStep busyStatus ⟨true, r.queued, r.calls ++ [.enqueue]⟩
      (.run r.calls.length 0) = some ⟨true, r.queued + 1, r.calls ++ [.queued]⟩ := by
    simp [submitStep, SubmitState.set, hset]
  exact .next (.next (.next (.start rfl) trivial hcome) trivial htake) trivial hqueue

/-- The call that still has the flag's scan lets another one in. -/
theorem submit_overlaps {i : ℕ} {pc : SubmitPc} (hi : r.calls[i]? = some pc)
    (hpc : pc.holds = true) (hfree : r.busy = false) :
    ∃ t, Reach (· = r) anyStep (submitStep busyStatus) t ∧ 2 ≤ t.queued := by
  obtain ⟨t, ht, hbusy, hqueued, hcalls⟩ := submit_queues busyStatus hfree
  have hlt := (List.getElem?_eq_some_iff.mp hi).1
  have hi' : t.calls[i]? = some pc := by rw [hcalls, List.getElem?_append_left hlt, hi]
  cases pc with
  | enqueue =>
    have hnext : submitStep busyStatus t (.run i 0) =
        some ({ t with queued := t.queued + 1 }.set i .queued) := by
      simp [submitStep, hi']
    exact ⟨_, ht.next trivial hnext, by simp [SubmitState.set, hqueued]⟩
  | refused status =>
    -- it clears the flag of the scan that has just been queued
    have hnext : submitStep busyStatus t (.run i 0) =
        some ({ t with busy := false }.set i (.done status)) := by
      simp [submitStep, hi']
    obtain ⟨u, hu, -, hqueued', -⟩ := submit_queues busyStatus
      (r := { t with busy := false }.set i (.done status)) rfl
    exact ⟨u, (ht.next trivial hnext).trans hu, by simp [hqueued', SubmitState.set, hqueued]⟩
  | _ => cases hpc

/-- Scans do not overlap, and the flag is free as soon as none is queued or about to be, as
long as each callback is for a scan that was queued. One more callback while a call has the
flag can let two scans in. -/
theorem scanSubmit_exclusive (busyStatus : ℤ) :
    (∀ r, Reach (· = submitStart) submitGuard (submitStep busyStatus) r →
      r.queued + r.calls.countP SubmitPc.holds = r.busy.toNat) ∧
    ∀ r r', Reach (· = submitStart) submitGuard (submitStep busyStatus) r → r.busy = true →
      submitStep busyStatus r .callback = some r' → ¬ submitGuard r .callback →
        ∃ t, Reach (· = r') anyStep (submitStep busyStatus) t ∧ 2 ≤ t.queued := by
  have hexclusive : ∀ r, Reach (· = submitStart) submitGuard (submitStep busyStatus) r →
      r.Exclusive := by
    intro r hr
    induction hr with
    | start h =>
      subst h
      rfl
    | next _ hg h ih => exact ih.step hg h
  refine ⟨hexclusive, fun r r' hr hbusy h hstray => ?_⟩
  cases h
  have hnone : r.queued = 0 := by
    by_contra hne
    exact hstray fun _ => Nat.pos_of_ne_zero hne
  have hone := hexclusive r hr
  rw [SubmitState.Exclusive, hnone, hbusy, Bool.toNat_true, Nat.zero_add] at hone
  obtain ⟨pc, hmem, hpc⟩ := List.countP_pos_iff.mp (hone ▸ Nat.one_pos)
  obtain ⟨i, hi⟩ := List.mem_iff_getElem?.mp hmem
  exact submit_overlaps (r := { r with busy := false, queued := r.queued - 1 }) hi hpc rfl

end MmIot
