import MmIot.Spec.DeepSleep

/-! The veto word and the busy flag. Each of the two writes to the flag acts on what
its call saw earlier; where neither comes too late, the two pieces of state agree. -/

namespace MmIot

/-- At least one veto is held. -/
def VetoState.Vetoed (s : VetoState) : Prop := ∃ vetoId : Fin 32, s.deepSleepVetos.getLsbD vetoId

/-- The flag and the answer to a suspend request both follow the vetos. -/
structure VetoAgrees (s : VetoState) : Prop where
  busy : s.busy = true ↔ s.Vetoed
  suspend : morsemicroPmAction s .suspend = .error .ebusy ↔ s.Vetoed

/-- The flag is cleared while no veto is held or a set call has yet to set it, and set
while one is held or a clear call has yet to look. -/
def VetoGuard (s : VetoState) : VetoAction → Prop
  | .busySet => s.Vetoed ∨ 0 < s.toRead ∨ 0 < s.toBusyClear
  | .busyClear => s.Vetoed → 0 < s.toBusySet
  | _ => True

theorem vetoed_iff {s : VetoState} : s.Vetoed ↔ s.deepSleepVetos ≠ 0#32 := by
  refine ⟨?_, ?_⟩
  · rintro ⟨vetoId, hbit⟩ hzero
    simp [hzero] at hbit
  · intro hne
    by_contra hnone
    apply hne
    apply BitVec.eq_of_getLsbD_eq
    intro i hi
    simpa using fun hbit => hnone ⟨⟨i, hi⟩, hbit⟩

theorem suspend_iff (s : VetoState) :
    morsemicroPmAction s .suspend = .error .ebusy ↔ s.Vetoed := by
  rw [vetoed_iff, morsemicroPmAction, mmhalGetDeepSleepVeto]
  split_ifs with hveto <;> simp [hveto]

theorem vetoed_fetchOr (v : BitVec 32) (vetoId : Fin 32) : v ||| BitVec.twoPow 32 vetoId ≠ 0#32 := by
  intro hzero
  have hbit := congrArg (BitVec.getLsbD · vetoId) hzero
  simp at hbit

/-- Where the two disagree, a call is under way that makes them agree. -/
structure VetoInv (s : VetoState) : Prop where
  vetoed : s.Vetoed → s.busy = true ∨ 0 < s.toBusySet
  free : ¬ s.Vetoed → s.busy = true → 0 < s.toRead ∨ 0 < s.toBusyClear

theorem VetoInv.vetoAgrees {s : VetoState} (h : VetoInv s) (hq : s.Quiescent) : VetoAgrees s := by
  refine ⟨⟨?_, ?_⟩, suspend_iff s⟩
  · intro hbusy
    by_contra hfree
    have hcall := h.free hfree hbusy
    simp [hq.toRead, hq.toBusyClear] at hcall
  · intro hveto
    simpa [hq.toBusySet] using h.vetoed hveto

theorem vetoInv_init : VetoInv vetoInit := by
  constructor <;> simp [vetoed_iff, vetoInit]

theorem VetoInv.step {s s' : VetoState} {a : VetoAction} (h : VetoInv s) (hg : VetoGuard s a)
    (hstep : vetoStep s a = some s') : VetoInv s' := by
  obtain ⟨hvetoed, hfree⟩ := h
  rw [vetoed_iff] at hvetoed hfree
  cases a with
  | fetchOr vetoId =>
    cases hstep
    constructor <;> rw [vetoed_iff]
    · intro _
      exact .inr (Nat.succ_pos _)
    · intro hzero
      exact absurd (vetoed_fetchOr _ _) hzero
  | busySet =>
    obtain ⟨-, ⟨⟩⟩ := Option.ite_none_left_eq_some.mp hstep
    simp only [VetoGuard, vetoed_iff] at hg
    constructor <;> rw [vetoed_iff]
    · intro _
      exact .inl rfl
    · intro hzero _
      exact hg.resolve_left hzero
  | fetchAnd vetoId =>
    cases hstep
    constructor <;> rw [vetoed_iff]
    · intro hne
      apply hvetoed
      rintro hzero
      simp [hzero] at hne
    · intro _ _
      exact .inl (Nat.succ_pos _)
  | read =>
    obtain ⟨-, hstep⟩ := Option.ite_none_left_eq_some.mp hstep
    split at hstep <;> cases hstep <;> constructor <;> simp only [vetoed_iff]
    · exact hvetoed
    · intro hzero
      contradiction
    · exact hvetoed
    · intro _ _
      exact .inr (Nat.succ_pos _)
  | busyClear =>
    obtain ⟨-, ⟨⟩⟩ := Option.ite_none_left_eq_some.mp hstep
    simp only [VetoGuard, vetoed_iff] at hg
    constructor <;> simp only [vetoed_iff]
    · intro hne
      exact .inr (hg hne)
    · simp

/-! ### Outside the guard -/

/-- A step of a call that was under way before. -/
def VetoAction.Continues : VetoAction → Prop
  | .busySet | .read | .busyClear => True
  | .fetchOr _ | .fetchAnd _ => False

/-- The two disagree, and no call under way will change the flag. -/
def VetoState.Stuck (s : VetoState) : Prop :=
  (s.deepSleepVetos ≠ 0#32 ∧ s.busy = false ∧ s.toBusySet = 0) ∨
    (s.deepSleepVetos = 0#32 ∧ s.busy = true ∧ s.toRead = 0 ∧ s.toBusyClear = 0)

theorem VetoState.Stuck.not_vetoAgrees {s : VetoState} (h : s.Stuck) : ¬ VetoAgrees s := by
  intro hagrees
  have hbusy := hagrees.busy
  rw [vetoed_iff] at hbusy
  rcases h with ⟨hveto, hfree, -⟩ | ⟨hzero, hset, -⟩
  · simp [hfree, hveto] at hbusy
  · simp [hset, hzero] at hbusy

/-- While calls are under way, one of them can take a step, and it changes nothing. -/
theorem VetoState.Stuck.continue {s : VetoState} (h : s.Stuck)
    (hcalls : s.toBusySet + s.toRead + s.toBusyClear ≠ 0) :
    ∃ a s', a.Continues ∧ vetoStep s a = some s' ∧ s'.Stuck ∧
      s'.toBusySet + s'.toRead + s'.toBusyClear < s.toBusySet + s.toRead + s.toBusyClear := by
  rcases h with ⟨hveto, hfree, hset⟩ | ⟨hzero, hset, hread, hclear⟩
  · rcases Nat.eq_zero_or_pos s.toRead with hread | hread
    · have hclear : s.toBusyClear ≠ 0 := by omega
      refine ⟨.busyClear, _, trivial, if_neg hclear, .inl ⟨hveto, rfl, hset⟩, ?_⟩
      simp only
      omega
    · refine ⟨.read, _, trivial, (if_neg hread.ne').trans (if_pos hveto),
        .inl ⟨hveto, hfree, hset⟩, ?_⟩
      simp only
      omega
  · have hcall : s.toBusySet ≠ 0 := by omega
    refine ⟨.busySet, _, trivial, if_neg hcall, .inr ⟨hzero, rfl, hread, hclear⟩, ?_⟩
    simp only
    omega

/-- Once stuck, the calls under way return and leave the two disagreeing. -/
theorem VetoState.Stuck.returns {s : VetoState} (h : s.Stuck) :
    ∃ as s', (∀ a ∈ as, a.Continues) ∧ Transition.schedule vetoStep s as = some s' ∧
      s'.Quiescent ∧ ¬ VetoAgrees s' := by
  induction hn : s.toBusySet + s.toRead + s.toBusyClear using Nat.strongRecOn generalizing s with
  | ind n ih =>
    by_cases hzero : n = 0
    · subst hzero
      exact ⟨[], s, by simp, rfl, ⟨by omega, by omega, by omega⟩, h.not_vetoAgrees⟩
    · obtain ⟨a, t, ha, hstep, ht, hlt⟩ := h.continue (hn ▸ hzero)
      obtain ⟨as, s', has, hsched, hend⟩ := ih _ (hn ▸ hlt) ht rfl
      refine ⟨a :: as, s', ?_, ?_, hend⟩
      · simpa [ha] using has
      · simpa [Transition.schedule, hstep] using hsched

theorem stuck_of_not_vetoGuard {s s' : VetoState} {a : VetoAction}
    (hstep : vetoStep s a = some s') (hg : ¬ VetoGuard s a) : s'.Stuck := by
  cases a with
  | busySet =>
    obtain ⟨-, ⟨⟩⟩ := Option.ite_none_left_eq_some.mp hstep
    simp only [VetoGuard, vetoed_iff, not_or, not_not, Nat.not_lt, Nat.le_zero] at hg
    exact .inr ⟨hg.1, rfl, hg.2⟩
  | busyClear =>
    obtain ⟨-, ⟨⟩⟩ := Option.ite_none_left_eq_some.mp hstep
    simp only [VetoGuard, vetoed_iff, Classical.not_imp, Nat.not_lt, Nat.le_zero] at hg
    exact .inl ⟨hg.1, rfl, hg.2⟩
  | _ => exact absurd trivial hg

/-! ### Runs -/

/-- In a run whose steps meet the guard the flag and the vetos agree whenever no call is
half way. A step outside the guard is not made good by the calls under way. -/
theorem vetoAgrees_of_vetoGuard (s : VetoState)
    (h : Transition.Reach (· = vetoInit) VetoGuard vetoStep s) :
    (s.Quiescent → VetoAgrees s) ∧ ∀ a s', vetoStep s a = some s' → ¬ VetoGuard s a →
      ∃ as s'', (∀ b ∈ as, b.Continues) ∧ Transition.schedule vetoStep s' as = some s'' ∧
        s''.Quiescent ∧ ¬ VetoAgrees s'' := by
  have hinv : VetoInv s :=
    h.invariant (fun _ hs => hs ▸ vetoInv_init) fun _ _ _ hinv hg hstep => hinv.step hg hstep
  refine ⟨hinv.vetoAgrees, ?_⟩
  intro a s' hstep hg
  exact (stuck_of_not_vetoGuard hstep hg).returns

/-- One veto set and cleared, another one held. -/
theorem vetoAgrees_of_vetoGuard_held :
    ∃ s, Transition.schedule vetoStep vetoInit
        [.fetchOr 0, .busySet, .fetchAnd 0, .read, .busyClear, .fetchOr 1, .busySet] = some s ∧
      s.busy = true ∧ VetoAgrees s := by
  have hclear : Transition.Reach (· = vetoInit) VetoGuard vetoStep _ :=
    .next (.next (.next (.next (.start rfl) (a := .fetchOr 0) trivial rfl) (a := .busySet)
      (.inl ⟨0, by decide⟩) rfl) (a := .fetchAnd 0) trivial rfl) (a := .read) trivial rfl
  refine ⟨_, rfl, rfl, (vetoAgrees_of_vetoGuard _ ?_).1 ⟨rfl, rfl, rfl⟩⟩
  refine .next (.next (.next hclear (a := .busyClear) ?_ rfl) (a := .fetchOr 1) trivial rfl)
    (a := .busySet) (.inl ⟨1, by decide⟩) rfl
  rw [VetoGuard, vetoed_iff]
  intro hveto
  exact absurd rfl hveto

/-- A veto set after a clear call read zero loses its busy mark to that call. -/
theorem lateClear_not_vetoAgrees :
    ∃ s, Transition.Reach (· = vetoInit) Transition.anyStep vetoStep s ∧ s.Quiescent ∧
      s.deepSleepVetos.getLsbD 1 = true ∧ s.busy = false ∧ ¬ VetoAgrees s := by
  refine ⟨_, .of_schedule (.start rfl) [.fetchOr 0, .busySet, .fetchAnd 0, .read, .fetchOr 1,
    .busySet, .busyClear] (Transition.anyStep_all _) rfl, ⟨rfl, rfl, rfl⟩, by decide, rfl, ?_⟩
  intro hagrees
  have hbusy := hagrees.busy.mpr ⟨1, by decide⟩
  cases hbusy

end MmIot
