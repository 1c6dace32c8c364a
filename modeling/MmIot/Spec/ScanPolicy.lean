import MmIot.Lib.CInt
import MmIot.Lib.CasLoop

/-! `edgez_scan_policy.h` and `edgez_scan_request.h`: how long scans are held off, and which
request may scan. Any number of threads call both, and the scans end when they do. -/

namespace MmIot

/-! ### Holding scans off -/

/-- A call of `edgez_scan_defer`. The ticks are counted on where the `uint32_t` wraps. -/
structure ScanDefer where
  now : ℕ
  duration : ℕ

/-- The condition of the loop. -/
def scanDeferWants (now proposed current : UInt32) : Bool :=
  CInt.toInt32 (current - now) ≤ 0 || 0 < CInt.toInt32 (proposed - current)

/-- `edgez_scan_defer`: the cell is the deadline, of which the code has the lower 32 bits. -/
def edgezScanDefer : CasLoop.Loop ℕ ScanDefer where
  value c := c.now + c.duration
  wants c current :=
    let now := UInt32.ofNat c.now
    scanDeferWants now (now + UInt32.ofNat c.duration) (UInt32.ofNat current)
  same a b := UInt32.ofNat a == UInt32.ofNat b

/-- `edgez_scan_held` -/
def edgezScanHeld (now deadline : UInt32) (authorizedPeers : ℕ) : Bool :=
  authorizedPeers != 0 || 0 < CInt.toInt32 (deadline - now)

/-- A deadline less than half a turn of the clock from what a call asks for. -/
def ScanDefer.Near (c : ScanDefer) (deadline : ℕ) : Prop :=
  deadline < c.now + 2 ^ 31 ∧ c.now + c.duration < deadline + 2 ^ 31

/-- The call that runs is near the deadline it read and the one there is. -/
def scanWindow (s : CasLoop.State ℕ ScanDefer) : CasLoop.Act ScanDefer → Prop
  | .call _ => True
  | .run i _ => ∀ c current,
    s.calls[i]? = some (c, .test current) ∨ s.calls[i]? = some (c, .exchange current) →
      c.Near current ∧ c.Near s.cell

/-! ### One scan at a time -/

/-- Where a call of `edgez_scan_submit` is: at the exchange, in `enqueue`, past it with the
scan queued, or refused with a status, or back with what it returns. -/
inductive SubmitPc where
  | exchange | enqueue | queued
  | refused (status : ℤ)
  | done (status : ℤ)
  deriving DecidableEq

/-- `queued` counts the scans that were queued and have not ended. -/
structure SubmitState where
  busy : Bool
  queued : ℕ
  calls : List SubmitPc

/-- A call comes; one runs, with the status of `enqueue`; a completion or abort callback. -/
inductive SubmitAct where
  | submit
  | run (i : ℕ) (status : ℤ)
  | callback

def SubmitState.set (s : SubmitState) (i : ℕ) (pc : SubmitPc) : SubmitState :=
  { s with calls := s.calls.set i pc }

/-- `edgez_scan_submit`, and the callbacks, each of which clears the flag. -/
def submitStep (busyStatus : ℤ) (s : SubmitState) : SubmitAct → Option SubmitState
  | .submit => some { s with calls := s.calls ++ [.exchange] }
  | .callback => some { s with busy := false, queued := s.queued - 1 }
  | .run i status =>
    match s.calls[i]? with
    | some .exchange =>
      if s.busy then some (s.set i (.done busyStatus))
      else some ({ s with busy := true }.set i .enqueue)
    | some .enqueue =>
      if status ≠ 0 then some (s.set i (.refused status))
      else some ({ s with queued := s.queued + 1 }.set i .queued)
    | some .queued => some (s.set i (.done 0))
    | some (.refused status) => some ({ s with busy := false }.set i (.done status))
    | _ => none

def submitStart : SubmitState := { busy := false, queued := 0, calls := [] }

/-- Each callback is for a scan that was queued. -/
def submitGuard (s : SubmitState) (a : SubmitAct) : Prop := a = .callback → 0 < s.queued

end MmIot
