import MmIot.Lib.Strtoul
import MmIot.Spec.WifiMgmt

/-! `morsemicro_shell.c`: the command that stages the bandwidth of the next AP. It is only
built with the request handler it calls. -/

namespace MmIot

open Strtoul

/-- The interface is the AP's, if there is one; an unsigned long has `w` bits. -/
def cmdS1gBandwidth (w : ℕ) (sap : Bool) (arg : List UInt8) (s : State) :
    Except Errno Unit × State :=
  if sap then
    let bwMhz := UInt8.ofNat (strtoul w arg)
    morsemicroMgmtS1gBandwidth [bwMhz] s
  else (.error .enodev, s)

end MmIot
