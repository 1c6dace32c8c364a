import MmIot.Lib.CInt

/-! `mmosal_task_sleep` and hostap's `os_sleep`, as the arguments of the `k_msleep` calls
that they make. The kernel's parameter is an `int32_t`. -/

namespace MmIot

def INT32_MAX : UInt32 := 0x7FFFFFFF

/-- How long `k_msleep` sleeps: not at all for a negative number. -/
def kMsleep (ms : ℤ) : ℤ := max ms 0

def mmosalTaskSleep (durationMs : UInt32) : List ℤ :=
  if INT32_MAX < durationMs then CInt.toInt32 INT32_MAX :: mmosalTaskSleep (durationMs - INT32_MAX)
  else [CInt.toInt32 durationMs]
termination_by durationMs.toNat
decreasing_by
  next h =>
    have hle : INT32_MAX ≤ durationMs := UInt32.le_of_lt h
    have hmax : INT32_MAX.toNat = 0x7FFFFFFF := rfl
    rw [UInt32.lt_iff_toNat_lt] at h
    rw [UInt32.toNat_sub_of_le _ _ hle]
    omega

/-- The sum is an `int64_t`. -/
def osSleep (sec usec : ℤ) : List ℤ :=
  let milliseconds := sec * 1000 + (usec + 999).tdiv 1000
  if 0 < milliseconds then [Int.bmod milliseconds (2 ^ 32)] else []

/-- What the calls sleep in all. -/
def slept (calls : List ℤ) : ℤ := (calls.map kMsleep).sum

end MmIot
