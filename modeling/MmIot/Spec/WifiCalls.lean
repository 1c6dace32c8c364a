import MmIot.Lib.Latch
import MmIot.Lib.Transition
import MmIot.Spec.WifiMgmt

/-! The blocking calls that the samples make in `wifi.c`, on top of the driver: each makes a
request and waits on a semaphore, which the handler of the driver's events gives. -/

namespace MmIot

/-- What a call waits for: `wifi_conn_sem`, `wifi_disconn_sem` or `wifi_scan_sem`. -/
inductive WifiWait where
  | connect | disconnect | scan
  deriving DecidableEq

/-- `wifi_connect_blocking`, `wifi_disconnect_blocking` and `wifi_scan_blocking`, with what
mmwlan makes of the request. -/
inductive WifiCall where
  | connect (p : ConnectReqParams) (status : MmwlanStatus)
  | disconnect (status : MmwlanStatus)
  | scan (cb : ℕ) (status : MmwlanStatus)

def WifiCall.op : WifiCall → Op
  | .connect p status => .connect p status
  | .disconnect status => .disconnect status
  | .scan cb status => .scan cb status

def WifiCall.wait : WifiCall → WifiWait
  | .connect .. => .connect
  | .disconnect _ => .disconnect
  | .scan .. => .scan

/-- The semaphore that `wifi_mgmt_event` gives. The driver reports a connection only when it
succeeds. -/
def WifiEvent.wait : WifiEvent → Option WifiWait
  | .connectResult => some .connect
  | .disconnectResult _ => some .disconnect
  | .scanDone (some _) _ => some .scan
  | _ => none

/-- An event with its place among all that the driver has raised. -/
abbrev StampedEvent := WifiEvent × ℕ

def StampedEvent.wait (e : StampedEvent) : Option WifiWait := e.1.wait

/-- How many events that give a semaphore the driver has raised. -/
def State.raised (k : WifiWait) (s : State) : ℕ := Latch.countOf WifiEvent.wait k s.events

/-- The events of an operation, oldest first. -/
def State.newEvents (s s' : State) : List StampedEvent :=
  (s'.events.take (s'.events.length - s.events.length)).reverse.zipIdx s.events.length

/-- `box` holds the events that were not handled yet and the semaphores, each with the event it
was given for; `waiting` is what the thread of the sample waits for, and `returned` counts the
calls that have returned 0. -/
structure WifiRun where
  driver : State
  box : Latch.Box StampedEvent WifiWait
  waiting : Option WifiWait
  returned : WifiWait → ℕ

/-- An operation of anyone on the driver, or a callback of mmwlan. -/
def WifiRun.serve (cfg : Config) (op : Op) (r : WifiRun) : Except Errno Unit × WifiRun :=
  let (ret, driver) := exec cfg op r.driver
  (ret, { r with driver := driver, box := r.box.post (r.driver.newEvents driver) })

/-- Such an operation, the next event that is handled or lost, and the calls of the sample,
which end when a semaphore is taken or the time is over. -/
inductive WifiAction where
  | serve (op : Op)
  | deliver (lost : Bool)
  | call (c : WifiCall)
  | wake
  | timeout

def wifiStep (cfg : Config) (r : WifiRun) : WifiAction → Option WifiRun
  | .serve op => some (r.serve cfg op).2
  | .deliver lost => (r.box.deliver StampedEvent.wait lost).map fun box => { r with box := box }
  | .call c =>
    match r.waiting with
    | some _ => none
    | none =>
      match r.serve cfg c.op with
      | (.error _, r) => some r
      | (.ok _, r) => some { r with waiting := some c.wait }
  | .wake => r.waiting.bind fun k => (r.box.take k).map fun box =>
      { r with
        box := box
        waiting := none
        returned := Function.update r.returned k (r.returned k + 1) }
  | .timeout => r.waiting.bind fun k =>
      if (r.box.latch k).isSome then none else some { r with waiting := none }

/-- `init_net_mgmt` has been called. -/
def WifiStart (r : WifiRun) : Prop :=
  r.box.queue = [] ∧ (∀ k, r.box.latch k = none) ∧ r.waiting = none ∧ ∀ k, r.returned k = 0

/-- The call that waits goes on waiting. -/
def StillWaiting (_ : WifiRun) : WifiAction → Prop
  | .serve _ | .deliver _ => True
  | _ => False

/-- And no event is lost. -/
def StillWaitingLossless (_ : WifiRun) : WifiAction → Prop
  | .serve _ | .deliver false => True
  | _ => False

end MmIot
