import MmIot.Spec.LinkEvents
import MmIot.Proofs.Radio

/-! How often a lost link is announced. The callback raises its event only when the status
is `inactive` already, so the callback that takes an established link down raises none,
and each callback or disconnect request after it raises one. -/

namespace MmIot

/-- In the actions `as`, `a` takes the link down after `before`, and `window` follows up to
the next link-up or the end. -/
structure Loss (run : LinkRun) (as before : List LinkAction) (a : LinkAction)
    (window after : List LinkAction) : Prop where
  split : as = before ++ a :: (window ++ after)
  up : (run.execAll before).up = true
  down : a ≠ .link .up
  noUp : ∀ b ∈ window, b ≠ .link .up
  next : ∀ b ∈ after.head?, b = .link .up

/-- Each loss raises one disconnect-result event before the next link-up, and each link-up
one connect-result event. -/
structure AnnouncedOnce (run : LinkRun) (as : List LinkAction) : Prop where
  losses : ∀ before a window after, Loss run as before a window after →
    (run.execAll (before ++ a :: window)).disconnects = (run.execAll before).disconnects + 1
  linkUps : ∀ before after, as = before ++ .link .up :: after →
    (run.execAll (before ++ [.link .up])).connects = (run.execAll before).connects + 1

/-- A loss through the access point is followed by one more link-down callback or disconnect
request before the next link-up, a loss through a disconnect request by none. -/
def FollowedUp (run : LinkRun) (as : List LinkAction) : Prop :=
  ∀ before a window after, Loss run as before a window after →
    window.length = if a = .link .down then 1 else 0

/-- The status tells whether the link is up. -/
structure LinkInv (run : LinkRun) : Prop where
  mmwlanState : run.driver.data.mmwlanState = .initialized
  status : run.driver.data.sta.status = if run.up then .completed else .inactive

/-- A disconnect request raises its event after what the callback did. -/
theorem disconnect_served (shutdownBlocked : Bool) {s : State}
    (h : s.data.mmwlanState = .initialized) :
    (morsemicroMgmtDisconnect (if shutdownBlocked then .shutdownBlocked else .success) s).2 =
      (s.forward .staDisable).raise (.disconnectResult true) := by
  cases shutdownBlocked <;> simp [morsemicroMgmtDisconnect, h, disableErrno, mmwlanErrToErrno]

/-- How many disconnect-result events an action raises. -/
def LinkAction.announces (up : Bool) : LinkAction → ℕ
  | .link .up => 0
  | .link .down => if up then 0 else 1
  | .disconnect _ => 1

/-- What one action does to the link and to the events. -/
structure LinkStep (run run' : LinkRun) (a : LinkAction) : Prop where
  inv : LinkInv run'
  up : run'.up = decide (a = .link .up)
  disconnects : run'.disconnects = run.disconnects + a.announces run.up
  connects : run'.connects = run.connects + if a = .link .up then 1 else 0

/-- The callback inside a disconnect request finds the link up, and raises nothing. -/
theorem LinkInv.lowered {run : LinkRun} (h : LinkInv run) :
    ∃ s : State, (if run.up then mmnetifVifState .sta .down run.driver else run.driver) = s ∧
      s.data.mmwlanState = .initialized ∧ s.data.sta.status = .inactive ∧
      s.events = run.driver.events := by
  obtain ⟨hinit, hstatus⟩ := h
  cases hup : run.up with
  | true =>
    have hne : run.driver.data.sta.status ≠ .inactive := by simp [hstatus, hup]
    exact ⟨_, rfl, by simp [mmnetifVifState, hne, hinit], rfl, by simp [mmnetifVifState, hne]⟩
  | false => exact ⟨_, rfl, hinit, by simp [hstatus, hup], rfl⟩

theorem LinkInv.step {run : LinkRun} (h : LinkInv run) (a : LinkAction) :
    LinkStep run (run.exec a) a := by
  obtain ⟨hinit, hstatus⟩ := h
  cases a with
  | link link =>
    cases link with
    | up =>
      refine ⟨?_, ?_, ?_, ?_⟩
      · exact ⟨hinit, rfl⟩
      · rfl
      · rfl
      · simp [LinkRun.connects, LinkRun.exec, mmnetifVifState, State.raise]
    | down =>
      cases hup : run.up with
      | true =>
        have hne : run.driver.data.sta.status ≠ .inactive := by simp [hstatus, hup]
        constructor <;>
          simp [LinkRun.exec, mmnetifVifState, hne, LinkRun.disconnects, LinkRun.connects,
            LinkAction.announces, hup]
        exact ⟨hinit, rfl⟩
      | false =>
        have heq : run.driver.data.sta.status = .inactive := by simp [hstatus, hup]
        constructor <;>
          simp [LinkRun.exec, mmnetifVifState, heq, LinkRun.disconnects, LinkRun.connects,
            LinkAction.announces, hup, State.raise, List.countP_cons, WifiEvent.isDisconnectResult]
        exact ⟨hinit, rfl⟩
  | disconnect shutdownBlocked =>
    obtain ⟨s, hs, hinit', hstatus', hevents⟩ := LinkInv.lowered ⟨hinit, hstatus⟩
    simp only [LinkRun.exec, hs, disconnect_served shutdownBlocked hinit']
    refine ⟨?_, ?_, ?_, ?_⟩
    · exact ⟨hinit', hstatus'⟩
    · simp
    · simp [LinkRun.disconnects, State.raise, State.forward, hevents, LinkAction.announces,
        List.countP_cons, WifiEvent.isDisconnectResult]
    · simp [LinkRun.connects, State.raise, State.forward, hevents]

theorem LinkStarted.inv {run : LinkRun} (h : LinkStarted run) : LinkInv run :=
  ⟨h.mmwlanState, by simp [h.status, h.up]⟩

theorem LinkInv.execAll {run : LinkRun} (h : LinkInv run) (as : List LinkAction) :
    LinkInv (run.execAll as) := by
  induction as generalizing run with
  | nil => exact h
  | cons a as ih => exact ih (h.step a).inv

/-- With the link down, each action but a link-up raises one event. -/
theorem LinkInv.window {run : LinkRun} (h : LinkInv run) (hup : run.up = false)
    {window : List LinkAction} (hnoUp : ∀ b ∈ window, b ≠ .link .up) :
    (run.execAll window).disconnects = run.disconnects + window.length := by
  induction window generalizing run with
  | nil => rfl
  | cons b window ih =>
    have hstep := h.step b
    have hb : b ≠ .link .up := hnoUp b List.mem_cons_self
    have hone : b.announces run.up = 1 := by
      rcases b with (_ | _) | _
      · simp [LinkAction.announces, hup]
      · contradiction
      · rfl
    have hrest := ih hstep.inv (by simp [hstep.up, hb])
      fun b' hb' => hnoUp b' (List.mem_cons_of_mem _ hb')
    rw [LinkRun.execAll, List.foldl_cons, ← LinkRun.execAll, hrest, hstep.disconnects, hone,
      List.length_cons]
    omega

/-- The events of a loss: one if it was asked for, and one for each action after it. -/
theorem Loss.disconnects {run : LinkRun} (hinv : LinkInv run) {as before window after : List LinkAction}
    {a : LinkAction} (h : Loss run as before a window after) :
    (run.execAll (before ++ a :: window)).disconnects =
      (run.execAll before).disconnects + (if a = .link .down then 0 else 1) + window.length := by
  have hbefore := hinv.execAll before
  have hstep := hbefore.step a
  have hfirst : a.announces (run.execAll before).up = if a = .link .down then 0 else 1 := by
    have hdown := h.down
    rcases a with (_ | _) | _
    · simp [LinkAction.announces, h.up]
    · contradiction
    · rfl
  have hwindow := hstep.inv.window (by simp [hstep.up, h.down]) h.noUp
  rw [← hfirst, ← hstep.disconnects, ← hwindow]
  simp [LinkRun.execAll, List.foldl_append]

/-- In every run from the started interface each loss is announced once, and each link-up
too, if and only if every loss is followed up. -/
theorem announcedOnce_iff_followedUp (run : LinkRun) (as : List LinkAction)
    (hstart : LinkStarted run) : AnnouncedOnce run as ↔ FollowedUp run as := by
  have hinv := hstart.inv
  refine ⟨?_, ?_⟩
  · intro h before a window after hloss
    have hone := h.losses before a window after hloss
    rw [hloss.disconnects hinv] at hone
    split at hone <;> split <;> first | omega | contradiction
  · intro h
    refine ⟨?_, ?_⟩
    · intro before a window after hloss
      have hlen := h before a window after hloss
      rw [hloss.disconnects hinv, hlen]
      split <;> omega
    · intro before after _
      have hstep := (hinv.execAll before).step (.link .up)
      rw [LinkRun.execAll, List.foldl_append]
      exact hstep.connects

/-- The US driver after its start. -/
def usLink : LinkRun := ⟨(exec usConfig setUs usBoot).2, false⟩

theorem usLink_started : LinkStarted usLink := ⟨rfl, rfl, rfl⟩

theorem announcedOnce_iff_followedUp_us :
    AnnouncedOnce usLink [.link .up, .disconnect false] ∧
      (usLink.execAll [.link .up, .disconnect false]).disconnects = 1 := by
  refine ⟨(announcedOnce_iff_followedUp usLink _ usLink_started).mpr ?_, rfl⟩
  rintro before a window after ⟨hsplit, -, hdown, -, -⟩
  -- the loss is the second action, with nothing after it
  rcases before with _ | ⟨b, _ | ⟨c, before⟩⟩
  · simp only [List.nil_append, List.cons.injEq] at hsplit
    exact absurd hsplit.1.symm hdown
  · simp only [List.cons_append, List.nil_append, List.cons.injEq] at hsplit
    obtain ⟨-, rfl, hnil⟩ := hsplit
    simp [List.nil_eq_append_iff.mp hnil]
  · simp at hsplit

/-- The access point drops the link, and no event tells of it. -/
theorem linkLoss_not_announcedOnce :
    (usLink.execAll [.link .up, .link .down]).up = false ∧
      (usLink.execAll [.link .up, .link .down]).connects = 1 ∧
      (usLink.execAll [.link .up, .link .down]).disconnects = 0 ∧
      ¬ AnnouncedOnce usLink [.link .up, .link .down] := by
  refine ⟨rfl, rfl, rfl, ?_⟩
  intro h
  have hone := h.losses [.link .up] (.link .down) [] [] ⟨rfl, rfl, by decide, by simp, by simp⟩
  cases hone

end MmIot
