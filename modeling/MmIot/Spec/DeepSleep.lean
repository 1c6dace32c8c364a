import MmIot.Spec.Channel
import MmIot.Lib.Transition

/-! The deep-sleep vetos of `mmhal_core.c` beside the device's busy flag: a set or
clear call is two or three steps, and the steps of different calls interleave freely. -/

namespace MmIot

/-- `deep_sleep_vetos` and the busy flag of the power management. The counters tell how
many calls stand before `pm_device_busy_set`, before the second read of the word and
before `pm_device_busy_clear`. -/
structure VetoState where
  deepSleepVetos : BitVec 32
  busy : Bool
  toBusySet : ℕ
  toRead : ℕ
  toBusyClear : ℕ
  deriving DecidableEq

/-- The steps of `mmhal_set_deep_sleep_veto`, then those of `mmhal_clear_deep_sleep_veto`. -/
inductive VetoAction where
  | fetchOr (vetoId : Fin 32)
  | busySet
  | fetchAnd (vetoId : Fin 32)
  | read
  | busyClear

def vetoStep (s : VetoState) : VetoAction → Option VetoState
  | .fetchOr vetoId => some { s with
      deepSleepVetos := s.deepSleepVetos ||| BitVec.twoPow 32 vetoId
      toBusySet := s.toBusySet + 1 }
  | .busySet =>
    if s.toBusySet = 0 then none
    else some { s with busy := true, toBusySet := s.toBusySet - 1 }
  | .fetchAnd vetoId => some { s with
      deepSleepVetos := s.deepSleepVetos &&& ~~~ BitVec.twoPow 32 vetoId
      toRead := s.toRead + 1 }
  | .read =>
    if s.toRead = 0 then none
    -- a call that finds a veto returns
    else if s.deepSleepVetos ≠ 0#32 then some { s with toRead := s.toRead - 1 }
    else some { s with toRead := s.toRead - 1, toBusyClear := s.toBusyClear + 1 }
  | .busyClear =>
    if s.toBusyClear = 0 then none
    else some { s with busy := false, toBusyClear := s.toBusyClear - 1 }

def mmhalGetDeepSleepVeto (s : VetoState) : BitVec 32 := s.deepSleepVetos

/-- `enum pm_device_action` -/
inductive PmDeviceAction where
  | suspend | resume | turnOff | turnOn

def morsemicroPmAction (s : VetoState) : PmDeviceAction → Except Errno Unit
  | .suspend => if mmhalGetDeepSleepVeto s ≠ 0#32 then .error .ebusy else .ok ()
  | .resume | .turnOff | .turnOn => .ok ()

/-- Before the first call: no veto, not busy. -/
def vetoInit : VetoState := ⟨0, false, 0, 0, 0⟩

/-- No set or clear call is half way. -/
structure VetoState.Quiescent (s : VetoState) : Prop where
  toBusySet : s.toBusySet = 0
  toRead : s.toRead = 0
  toBusyClear : s.toBusyClear = 0

end MmIot
