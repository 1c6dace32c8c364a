import MmIot.Spec.ApStations
import MmIot.Lib.Transition
import Mathlib.Data.Finset.Card

/-! The join and leave events of an access point's stations. The callback only sees where a
station arrives, so its events tell the stations that are connected exactly as long as each one
comes to `unknown` when it leaves `authorized`, and from nowhere else. -/

namespace MmIot

def ApStaEvent.other : ApStaEvent → ApStaEvent
  | .connected => .disconnected
  | .disconnected => .connected

/-- The first event is `e`, and each one after it is the other one than the one before. -/
def AlternatesFrom : ApStaEvent → List ApStaEvent → Prop
  | _, [] => True
  | e, e' :: es => e' = e ∧ AlternatesFrom e.other es

/-- Nothing but connected, disconnected, connected and so on is said of a station. -/
def StationRun.Alternates (mac : MacAddr) (run : StationRun) : Prop :=
  AlternatesFrom .connected (run.eventsOf mac)

/-- What an application counts is the number of stations that are authorized. -/
def StationRun.Counts (run : StationRun) : Prop :=
  ∃ connected : Finset MacAddr, (∀ mac, mac ∈ connected ↔ run.state mac = .authorized) ∧
    run.stations = connected.card

/-- The events of every station alternate, and their count is right. -/
structure StationRun.EventsTell (run : StationRun) : Prop where
  alternates : ∀ mac, run.Alternates mac
  counts : run.Counts

/-- A station that is authorized goes nowhere but to unknown, and no other goes there. -/
def LeavesForUnknown (run : StationRun) (st : ApStaStatus) : Prop :=
  st.state = .unknown ↔ run.state st.macAddr = .authorized

instance (run : StationRun) (st : ApStaStatus) : Decidable (LeavesForUnknown run st) :=
  inferInstanceAs (Decidable (_ ↔ _))

/-! ### Alternation -/

/-- What comes next after the events `es`. -/
def ApStaEvent.after (e : ApStaEvent) (es : List ApStaEvent) : ApStaEvent :=
  es.foldl (fun e _ => e.other) e

theorem ApStaEvent.after_append_singleton (e x : ApStaEvent) (es : List ApStaEvent) :
    e.after (es ++ [x]) = (e.after es).other := by
  simp [ApStaEvent.after]

theorem alternatesFrom_append_singleton (e x : ApStaEvent) (es : List ApStaEvent) :
    AlternatesFrom e (es ++ [x]) ↔ AlternatesFrom e es ∧ x = e.after es := by
  induction es generalizing e with
  | nil => simp [AlternatesFrom, ApStaEvent.after]
  | cons e' es ih =>
    simp only [List.cons_append, AlternatesFrom, ih, and_assoc]
    rfl

/-! ### One callback -/

/-- The event of an arrival. -/
def ApStaState.event : ApStaState → Option ApStaEvent
  | .authorized => some .connected
  | .unknown => some .disconnected
  | .authenticated | .associated => none

theorem morsemicroApStaStatusCb_eq (st : ApStaStatus) :
    morsemicroApStaStatusCb st =
      st.state.event.map fun e => (e, ⟨List.ofFn st.macAddr, WIFI_MAC_ADDR_LEN, .unknown⟩) := by
  have hmac : memcpy (List.replicate WIFI_MAC_ADDR_LEN 0) (List.ofFn st.macAddr)
      WIFI_MAC_ADDR_LEN = List.ofFn st.macAddr := by
    simp [memcpy, List.take_of_length_le]
  unfold morsemicroApStaStatusCb
  rw [hmac]
  cases st.state <;> rfl

theorem stationStep_eq {run run' : StationRun} {st : ApStaStatus}
    (h : stationStep run st = some run') :
    (run.state st.macAddr).MovesTo st.state ∧ run' = {
      state := Function.update run.state st.macAddr st.state
      events := run.events ++ (morsemicroApStaStatusCb st).toList } := by
  obtain ⟨hmoves, heq⟩ := Option.ite_none_right_eq_some.mp h
  exact ⟨hmoves, (Option.some.inj heq).symm⟩

theorem stationStep_eventsOf {run run' : StationRun} {st : ApStaStatus}
    (h : stationStep run st = some run') (mac : MacAddr) :
    run'.eventsOf mac =
      run.eventsOf mac ++ if st.macAddr = mac then st.state.event.toList else [] := by
  obtain ⟨-, rfl⟩ := stationStep_eq h
  unfold StationRun.eventsOf
  rw [morsemicroApStaStatusCb_eq, List.filter_append, List.map_append]
  congr 1
  cases st.state.event with
  | none => simp
  | some e => by_cases hmac : st.macAddr = mac <;> simp [List.ofFn_inj, hmac]

def ApStaEvent.sign : ApStaEvent → ℤ
  | .connected => 1
  | .disconnected => -1

theorem stationStep_stations {run run' : StationRun} {st : ApStaStatus}
    (h : stationStep run st = some run') :
    run'.stations = run.stations + (st.state.event.map ApStaEvent.sign).getD 0 := by
  obtain ⟨-, rfl⟩ := stationStep_eq h
  unfold StationRun.stations
  rw [morsemicroApStaStatusCb_eq]
  cases st.state.event with
  | none => simp
  | some e => cases e <;> simp [ApStaEvent.sign] <;> omega

/-- What a callback is about: a station that gets on or stays out, one that joins, one that
leaves, one that falls back, or one that is gone without having been there. -/
inductive StationCases (old new : ApStaState) : Prop
  | silent (hold : old ≠ .authorized) (hnew : new ≠ .authorized) (hevent : new.event = none)
  | joins (hold : old ≠ .authorized) (hnew : new = .authorized)
  | leaves (hold : old = .authorized) (hnew : new = .unknown)
  | fallsBack (hold : old = .authorized) (hnew : new ≠ .authorized) (hevent : new.event = none)
  | fails (hold : old ≠ .authorized) (hnew : new = .unknown)

theorem ApStaState.MovesTo.cases {old new : ApStaState} (h : old.MovesTo new) :
    StationCases old new := by
  unfold ApStaState.MovesTo at h
  by_cases hold : old = .authorized
  · subst hold
    cases new with
    | unknown => exact .leaves rfl rfl
    | authenticated => exact .fallsBack rfl nofun rfl
    | associated => exact .fallsBack rfl nofun rfl
    | authorized => simp [ApStaState.rank] at h
  · cases new with
    | unknown => exact .fails hold rfl
    | authenticated => exact .silent hold nofun rfl
    | associated => exact .silent hold nofun rfl
    | authorized => exact .joins hold rfl

/-! ### All stations -/

/-- A leave is due exactly from the stations that are authorized. -/
structure StationInv (run : StationRun) : Prop extends run.EventsTell where
  next : ∀ mac, ApStaEvent.connected.after (run.eventsOf mac) = .disconnected ↔
    run.state mac = .authorized

theorem stationInv_start : StationInv .start := by
  refine ⟨⟨fun _ => trivial, ∅, ?_, rfl⟩, ?_⟩
  · intro mac
    simp [StationRun.start]
  · intro mac
    simp [StationRun.start, StationRun.eventsOf, ApStaEvent.after]

/-- An event in turn keeps a station's events alternating. -/
theorem StationInv.raise {run run' : StationRun} {st : ApStaStatus} {e : ApStaEvent}
    (hinv : StationInv run) (h : stationStep run st = some run')
    (hevent : st.state.event = some e) :
    (run'.Alternates st.macAddr ↔
      e = ApStaEvent.connected.after (run.eventsOf st.macAddr)) ∧
    ApStaEvent.connected.after (run'.eventsOf st.macAddr) =
      (ApStaEvent.connected.after (run.eventsOf st.macAddr)).other := by
  have hevents : run'.eventsOf st.macAddr = run.eventsOf st.macAddr ++ [e] := by
    rw [stationStep_eventsOf h, if_pos rfl, hevent, Option.toList_some]
  rw [StationRun.Alternates, hevents, alternatesFrom_append_singleton,
    ApStaEvent.after_append_singleton]
  exact ⟨and_iff_right (hinv.alternates _), rfl⟩

/-- The other stations, and the one that calls back silently, have the events they had. -/
theorem stationStep_quiet {run run' : StationRun} {st : ApStaStatus}
    (h : stationStep run st = some run') {mac : MacAddr}
    (hquiet : st.macAddr = mac → st.state.event = none) :
    run'.eventsOf mac = run.eventsOf mac := by
  rw [stationStep_eventsOf h]
  split_ifs with hmac
  · rw [hquiet hmac, Option.toList_none, List.append_nil]
  · rw [List.append_nil]

/-- Who is authorized after a callback. -/
theorem stationStep_authorized {run run' : StationRun} {st : ApStaStatus}
    (h : stationStep run st = some run') (mac : MacAddr) :
    run'.state mac = .authorized ↔
      if mac = st.macAddr then st.state = .authorized else run.state mac = .authorized := by
  obtain ⟨-, rfl⟩ := stationStep_eq h
  dsimp only
  split_ifs with hmac
  · rw [hmac, Function.update_self]
  · rw [Function.update_of_ne hmac]

/-- It is enough to look at the station that calls back. -/
theorem StationInv.of_caller {run run' : StationRun} {st : ApStaStatus} (hinv : StationInv run)
    (h : stationStep run st = some run') (halt : run'.Alternates st.macAddr)
    (hnext : ApStaEvent.connected.after (run'.eventsOf st.macAddr) = .disconnected ↔
      st.state = .authorized) (hcounts : run'.Counts) : StationInv run' := by
  have hothers : ∀ mac, mac ≠ st.macAddr → run'.eventsOf mac = run.eventsOf mac :=
    fun mac hmac => stationStep_quiet h fun heq => absurd heq.symm hmac
  refine ⟨⟨fun mac => ?_, hcounts⟩, fun mac => ?_⟩
  · by_cases hmac : mac = st.macAddr
    · exact hmac ▸ halt
    · rw [StationRun.Alternates, hothers mac hmac]
      exact hinv.alternates mac
  · rw [stationStep_authorized h]
    split_ifs with hmac
    · rw [hmac]
      exact hnext
    · rw [hothers mac hmac]
      exact hinv.next mac

/-- A step that meets the condition keeps the events and the count right. -/
theorem StationInv.step {run run' : StationRun} {st : ApStaStatus} (hinv : StationInv run)
    (hguard : LeavesForUnknown run st) (h : stationStep run st = some run') :
    StationInv run' := by
  obtain ⟨connected, hmem, hcard⟩ := hinv.counts
  have hmem' := stationStep_authorized h
  have hstations := stationStep_stations h
  have hnext := hinv.next st.macAddr
  rcases (stationStep_eq h).1.cases with
    ⟨hold, hnew, hevent⟩ | ⟨hold, hnew⟩ | ⟨hold, hnew⟩ | ⟨hold, hnew, hevent⟩ | ⟨hold, hnew⟩
  · have hquiet : run'.eventsOf st.macAddr = run.eventsOf st.macAddr :=
      stationStep_quiet h fun _ => hevent
    refine hinv.of_caller h ?_ ?_ ⟨connected, fun mac => ?_, ?_⟩
    · rw [StationRun.Alternates, hquiet]
      exact hinv.alternates _
    · rw [hquiet, hnext]
      exact iff_of_false hold hnew
    · rw [hmem', hmem]
      split_ifs with hmac
      · exact iff_of_false (hmac ▸ hold) hnew
      · exact Iff.rfl
    · rw [hstations, hevent, hcard]
      exact Int.add_zero _
  · obtain ⟨halt, hafter⟩ := hinv.raise h (e := .connected) (by rw [hnew]; rfl)
    have hdue : ApStaEvent.connected.after (run.eventsOf st.macAddr) = .connected := by
      cases hlast : ApStaEvent.connected.after (run.eventsOf st.macAddr) with
      | connected => rfl
      | disconnected => exact absurd (hnext.mp hlast) hold
    have hnot : st.macAddr ∉ connected := fun hin => hold ((hmem _).mp hin)
    refine hinv.of_caller h (halt.mpr hdue.symm) ?_ ⟨insert st.macAddr connected, fun mac => ?_, ?_⟩
    · rw [hafter, hdue]
      exact iff_of_true rfl hnew
    · rw [hmem', Finset.mem_insert, hmem]
      split_ifs with hmac
      · exact iff_of_true (.inl hmac) hnew
      · exact or_iff_right hmac
    · rw [hstations, hnew, hcard, Finset.card_insert_of_notMem hnot]
      rfl
  · obtain ⟨halt, hafter⟩ := hinv.raise h (e := .disconnected) (by rw [hnew]; rfl)
    have hdue := hnext.mpr hold
    have hin : st.macAddr ∈ connected := (hmem _).mpr hold
    have hpos := Finset.card_pos.mpr ⟨_, hin⟩
    refine hinv.of_caller h (halt.mpr hdue.symm) ?_ ⟨connected.erase st.macAddr, fun mac => ?_, ?_⟩
    · rw [hafter, hdue, hnew]
      simp [ApStaEvent.other]
    · rw [hmem', Finset.mem_erase, hmem]
      split_ifs with hmac
      · exact iff_of_false (fun hne => hne.1 hmac) (by rw [hnew]; nofun)
      · exact and_iff_right hmac
    · rw [hstations, hnew, hcard, Finset.card_erase_of_mem hin]
      simp only [ApStaState.event, ApStaEvent.sign, Option.map_some, Option.getD_some]
      omega
  · exact absurd (hguard.mpr hold) fun hunknown => by rw [hunknown] at hevent; cases hevent
  · exact absurd (hguard.mp hnew) hold

/-- A step that misses the condition does not. -/
theorem StationInv.not_eventsTell {run run' : StationRun} {st : ApStaStatus}
    (hinv : StationInv run) (hguard : ¬ LeavesForUnknown run st)
    (h : stationStep run st = some run') : ¬ run'.EventsTell := by
  obtain ⟨connected, hmem, hcard⟩ := hinv.counts
  have hnext := hinv.next st.macAddr
  unfold LeavesForUnknown at hguard
  rintro ⟨halternates, connected', hmem', hcard'⟩
  rcases (stationStep_eq h).1.cases with
    ⟨hold, hnew, hevent⟩ | ⟨hold, hnew⟩ | ⟨hold, hnew⟩ | ⟨hold, hnew, hevent⟩ | ⟨hold, hnew⟩
  · exact hguard (iff_of_false (fun hunknown => by rw [hunknown] at hevent; cases hevent) hold)
  · exact hguard (iff_of_false (by rw [hnew]; nofun) hold)
  · exact hguard (iff_of_true hnew hold)
  · -- the count stays, and there is one station less
    have herase : connected' = connected.erase st.macAddr := by
      ext mac
      rw [hmem', stationStep_authorized h, Finset.mem_erase, hmem]
      split_ifs with hmac
      · exact iff_of_false hnew fun hne => hne.1 hmac
      · exact (and_iff_right hmac).symm
    have hin : st.macAddr ∈ connected := (hmem _).mpr hold
    have hpos := Finset.card_pos.mpr ⟨_, hin⟩
    rw [stationStep_stations h, hevent, hcard, herase, Finset.card_erase_of_mem hin] at hcard'
    simp only [Option.map_none, Option.getD_none] at hcard'
    omega
  · obtain ⟨halt, -⟩ := hinv.raise h (e := .disconnected) (by rw [hnew]; rfl)
    exact hold (hnext.mp (halt.mp (halternates _)).symm)

/-- In every interleaving in which stations leave for unknown, and only once they were
authorized, the events of each station alternate, starting with connected, and an application
counts the stations that are authorized; the first callback that is not so ends this. -/
theorem eventsTell_iff_leavesForUnknown (run : StationRun)
    (h : Transition.Reach (· = StationRun.start) LeavesForUnknown stationStep run) :
    run.EventsTell ∧ ∀ st run', stationStep run st = some run' →
      (run'.EventsTell ↔ LeavesForUnknown run st) := by
  have hinv : StationInv run :=
    h.invariant (fun _ hs => hs ▸ stationInv_start) fun _ _ _ hs hg hstep => hs.step hg hstep
  refine ⟨hinv.toEventsTell, fun st run' hstep => ⟨fun htell => ?_, fun hguard => ?_⟩⟩
  · by_contra hguard
    exact hinv.not_eventsTell hguard hstep htell
  · exact (hinv.step hguard hstep).toEventsTell

/-- A station joins and leaves, and joins again while another one comes and goes. -/
def twoStations : List ApStaStatus :=
  let first : MacAddr := fun _ => 1
  let second : MacAddr := fun _ => 2
  [⟨first, .authenticated⟩, ⟨second, .authenticated⟩, ⟨first, .associated⟩, ⟨first, .authorized⟩,
    ⟨second, .associated⟩, ⟨second, .authorized⟩, ⟨first, .unknown⟩, ⟨second, .unknown⟩,
    ⟨first, .authenticated⟩, ⟨first, .associated⟩, ⟨first, .authorized⟩]

theorem eventsTell_iff_leavesForUnknown_two :
    ∃ run, Transition.schedule stationStep .start twoStations = some run ∧
      run.eventsOf (fun _ => 1) = [.connected, .disconnected, .connected] ∧
      run.stations = 1 ∧ run.EventsTell := by
  refine ⟨_, rfl, rfl, rfl, (eventsTell_iff_leavesForUnknown _ ?_).1⟩
  exact .of_guarded (.start rfl) twoStations rfl

/-- An authentication that fails is announced as a leave; a station that falls back is still
counted, and joins twice when it is authorized again. -/
theorem fallBack_not_eventsTell :
    (∃ run, Transition.schedule stationStep .start
        [⟨fun _ => 1, .authenticated⟩, ⟨fun _ => 1, .unknown⟩] = some run ∧
      ¬ run.Alternates (fun _ => 1) ∧ run.stations = -1) ∧
    (∃ run, Transition.schedule stationStep .start
        [⟨fun _ => 1, .authenticated⟩, ⟨fun _ => 1, .associated⟩, ⟨fun _ => 1, .authorized⟩,
          ⟨fun _ => 1, .authenticated⟩] = some run ∧
      ¬ run.Counts ∧ run.stations = 1) ∧
    ∃ run, Transition.schedule stationStep .start
        [⟨fun _ => 1, .authenticated⟩, ⟨fun _ => 1, .associated⟩, ⟨fun _ => 1, .authorized⟩,
          ⟨fun _ => 1, .associated⟩, ⟨fun _ => 1, .authorized⟩] = some run ∧
      ¬ run.Alternates (fun _ => 1) ∧ run.stations = 2 := by
  refine ⟨⟨_, rfl, ?_, rfl⟩, ⟨_, rfl, ?_, rfl⟩, ⟨_, rfl, ?_, rfl⟩⟩
  · rintro ⟨hfirst, -⟩
    cases hfirst
  · rintro ⟨connected, hmem, hcard⟩
    have hone : connected.card = 1 := by
      have hstations : (1 : ℤ) = connected.card := hcard
      omega
    obtain ⟨mac, rfl⟩ := Finset.card_eq_one.mp hone
    have hauth := (hmem mac).mp (Finset.mem_singleton_self mac)
    by_cases hmac : mac = fun _ => 1
    · subst hmac
      cases hauth
    · simp [StationRun.start, hmac] at hauth
  · rintro ⟨-, hsecond, -⟩
    cases hsecond

end MmIot
