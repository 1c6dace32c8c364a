import MmIot.Spec.BusIrq

/-! No interrupt is lost while it is enabled, except in the window that the SPI back
end leaves open between sampling the line and arming the edge interrupt. -/

namespace MmIot

/-- Once a call with `true` has returned, an active line has been handled. -/
def NoneLost (s : IrqState) : Prop :=
  s.todo = [] → s.enabled = true → s.line = true → s.handled = true

/-- The chip leaves its line alone while the SPI back end only has to arm. -/
def IrqGuard (backend : BusBackend) (s : IrqState) (a : IrqAction) : Prop :=
  backend = .spi → s.todo = [.arm] → s.armed = false → a ≠ .assert

/-- What holds at each point of a call. -/
inductive IrqInv : BusBackend → IrqState → Prop
  | idle {b : BusBackend} {s : IrqState} (htodo : s.todo = [])
      (h : s.enabled = true → s.armed = true ∧ (s.line = true → s.handled = true)) : IrqInv b s
  | spiSample {s : IrqState} (htodo : s.todo = [.sample, .arm]) : IrqInv .spi s
  | spiHandler {s : IrqState} (htodo : s.todo = [.callHandler, .arm]) : IrqInv .spi s
  | spiArm {s : IrqState} (htodo : s.todo = [.arm]) (h : s.line = true → s.handled = true) :
      IrqInv .spi s
  | sdioArm {s : IrqState} (htodo : s.todo = [.arm, .sample]) : IrqInv .sdio s
  | sdioSample {s : IrqState} (htodo : s.todo = [.sample]) (h : s.armed = true) : IrqInv .sdio s
  | sdioHandler {s : IrqState} (htodo : s.todo = [.callHandler]) (h : s.armed = true) :
      IrqInv .sdio s

theorem IrqInv.noneLost {b : BusBackend} {s : IrqState} (h : IrqInv b s) : NoneLost s := by
  intro hidle henabled
  cases h with
  | idle _ h => exact (h henabled).2
  | spiSample htodo | spiHandler htodo | spiArm htodo | sdioArm htodo | sdioSample htodo
  | sdioHandler htodo => simp [hidle] at htodo

/-- The line falling keeps every fact of the invariant. -/
theorem IrqInv.deassert {b : BusBackend} {s : IrqState} (h : IrqInv b s) :
    IrqInv b { s with line := false } := by
  cases h with
  | idle htodo h => exact .idle htodo fun he => ⟨(h he).1, nofun⟩
  | spiSample htodo => exact .spiSample htodo
  | spiHandler htodo => exact .spiHandler htodo
  | spiArm htodo h => exact .spiArm htodo nofun
  | sdioArm htodo => exact .sdioArm htodo
  | sdioSample htodo h => exact .sdioSample htodo h
  | sdioHandler htodo h => exact .sdioHandler htodo h

/-- The line rising is handled by the armed interrupt, or by a sample still to come. -/
theorem IrqInv.assert {b : BusBackend} {s : IrqState} (h : IrqInv b s)
    (hreg : s.registered = true) (hg : IrqGuard b s .assert) :
    IrqInv b { s with line := true, handled := s.armed && s.registered } := by
  cases h with
  | idle htodo h => exact .idle htodo fun he => ⟨(h he).1, fun _ => by simp [(h he).1, hreg]⟩
  | spiSample htodo => exact .spiSample htodo
  | spiHandler htodo => exact .spiHandler htodo
  | spiArm htodo h =>
    refine .spiArm htodo ?_
    intro _
    cases harmed : s.armed with
    | false => exact absurd rfl (hg rfl htodo harmed)
    | true => simp [hreg]
  | sdioArm htodo => exact .sdioArm htodo
  | sdioSample htodo h => exact .sdioSample htodo h
  | sdioHandler htodo h => exact .sdioHandler htodo h

theorem IrqInv.advance {b : BusBackend} {s s' : IrqState} (h : IrqInv b s)
    (hreg : s.registered = true) (hstep : s.advance = some s') : IrqInv b s' := by
  unfold IrqState.advance at hstep
  cases h with
  | idle htodo => simp [htodo] at hstep
  | spiSample htodo =>
    rw [htodo] at hstep
    cases hstep
    cases hline : s.line with
    | false => exact .spiArm (by simp [IrqStep.exec, hline]) (by simp [IrqStep.exec, hline])
    | true => exact .spiHandler (by simp [IrqStep.exec, hline])
  | spiHandler htodo =>
    rw [htodo] at hstep
    cases hstep
    exact .spiArm rfl fun _ => by simp [IrqStep.exec, hreg]
  | spiArm htodo h =>
    rw [htodo] at hstep
    cases hstep
    exact .idle rfl fun _ => ⟨rfl, h⟩
  | sdioArm htodo =>
    rw [htodo] at hstep
    cases hstep
    exact .sdioSample rfl rfl
  | sdioSample htodo h =>
    rw [htodo] at hstep
    cases hstep
    cases hline : s.line with
    | false => exact .idle (by simp [IrqStep.exec, hline]) fun _ => ⟨h, by simp [IrqStep.exec, hline]⟩
    | true => exact .sdioHandler (by simp [IrqStep.exec, hline]) h
  | sdioHandler htodo h =>
    rw [htodo] at hstep
    cases hstep
    exact .idle rfl fun _ => ⟨h, fun _ => by simp [IrqStep.exec, hreg]⟩

theorem IrqInv.setEnabled {b : BusBackend} {s : IrqState} (hidle : s.todo = []) (enabled : Bool) :
    IrqInv b (if enabled then { s with todo := b.enableSteps }
      else { s with armed := false, enabled := false }) := by
  cases enabled with
  | false => exact .idle hidle nofun
  | true =>
    cases b with
    | spi => exact .spiSample rfl
    | sdio => exact .sdioArm rfl

theorem advance_registered {s s' : IrqState} (h : s.advance = some s') :
    s'.registered = s.registered := by
  unfold IrqState.advance at h
  split at h
  · cases h
  next step rest _ =>
    cases h
    cases step <;> rfl

theorem irqInv_step {b : BusBackend} {s s' : IrqState} {a : IrqAction}
    (h : s.registered = true ∧ IrqInv b s) (hg : IrqGuard b s a)
    (hstep : irqStep b s a = some s') : s'.registered = true ∧ IrqInv b s' := by
  obtain ⟨hreg, hinv⟩ := h
  cases a with
  | assert =>
    obtain ⟨-, ⟨⟩⟩ := Option.ite_none_left_eq_some.mp hstep
    exact ⟨hreg, hinv.assert hreg hg⟩
  | deassert =>
    obtain ⟨-, ⟨⟩⟩ := Option.ite_none_right_eq_some.mp hstep
    exact ⟨hreg, hinv.deassert⟩
  | setEnabled enabled =>
    obtain ⟨hidle, hstep⟩ := Option.ite_none_left_eq_some.mp hstep
    have hset := IrqInv.setEnabled (b := b) (not_not.mp hidle) enabled
    cases enabled <;> cases hstep <;> exact ⟨hreg, hset⟩
  | advance => exact ⟨(advance_registered hstep).trans hreg, hinv.advance hreg hstep⟩

/-- Within the guard no interrupt is lost on either bus; and once the line rises
outside it, the call's last step leaves it active and not handled. -/
theorem noneLost_of_irqGuard (b : BusBackend) (s : IrqState)
    (h : Transition.Reach IrqStart (IrqGuard b) (irqStep b) s) :
    NoneLost s ∧ ∀ a s', irqStep b s a = some s' → ¬ IrqGuard b s a →
      ∃ s'', irqStep b s' .advance = some s'' ∧ ¬ NoneLost s'' := by
  have hinv : s.registered = true ∧ IrqInv b s :=
    h.invariant (fun _ hs => ⟨hs.registered, .idle hs.todo fun he => by simp [hs.enabled] at he⟩)
      fun _ _ _ => irqInv_step
  refine ⟨hinv.2.noneLost, ?_⟩
  intro a s' hstep hg
  simp only [IrqGuard, not_forall, not_not] at hg
  obtain ⟨rfl, htodo, harmed, rfl⟩ := hg
  obtain ⟨-, ⟨⟩⟩ := Option.ite_none_left_eq_some.mp hstep
  refine ⟨_, by simp only [irqStep, IrqState.advance, htodo]; rfl, ?_⟩
  intro hlost
  have hhandled := hlost rfl (by simp [IrqStep.exec]) rfl
  simp [IrqStep.exec, harmed] at hhandled

/-- Before the first call, the line inactive. -/
def irqBoot : IrqState where
  todo := []
  line := false
  armed := false
  registered := true
  enabled := false
  handled := false

theorem irqBoot_start : IrqStart irqBoot := ⟨rfl, rfl, rfl, rfl⟩

theorem noneLost_of_irqGuard_sdio :
    ∃ s, Transition.schedule (irqStep .sdio) irqBoot
        [.setEnabled true, .advance, .assert, .advance, .advance] = some s ∧
      s.line = true ∧ s.todo = [] ∧ NoneLost s := by
  refine ⟨_, rfl, rfl, rfl, (noneLost_of_irqGuard .sdio _ ?_).1⟩
  exact .of_schedule (.start irqBoot_start) [.setEnabled true, .advance, .assert, .advance, .advance]
    (fun _ _ _ => nofun) rfl

/-- On SPI: the line is sampled inactive, rises, and only then the edge interrupt is
armed. The call has returned, the line is active and nothing was called. -/
theorem spiWindow_not_noneLost :
    ∃ s, Transition.Reach IrqStart Transition.anyStep (irqStep .spi) s ∧
      s.todo = [] ∧ s.enabled = true ∧ s.line = true ∧ s.handled = false ∧ ¬ NoneLost s := by
  refine ⟨_, .of_schedule (.start irqBoot_start) [.setEnabled true, .advance, .assert, .advance]
    (Transition.anyStep_all _) rfl, rfl, rfl, rfl, rfl, fun hlost => ?_⟩
  have hhandled := hlost rfl rfl rfl
  cases hhandled

end MmIot
