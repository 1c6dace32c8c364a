import MmIot.Spec.WifiMgmt

/-! The STA link as callbacks and disconnect requests move it, beside the events that
the driver raises for it. -/

namespace MmIot

/-- The driver, and whether the link is up. -/
structure LinkRun where
  driver : State
  up : Bool

/-- A link-state callback, or a disconnect request that mmwlan serves; a blocked shutdown
counts as served. -/
inductive LinkAction where
  | link (link : LinkState)
  | disconnect (shutdownBlocked : Bool)
  deriving DecidableEq

/-- `mmwlan_sta_disable` delivers the link-down callback, if the link is up, before it
returns. -/
def LinkRun.exec (run : LinkRun) : LinkAction → LinkRun
  | .link link => ⟨mmnetifVifState .sta link run.driver, link = .up⟩
  | .disconnect shutdownBlocked =>
    let driver := if run.up then mmnetifVifState .sta .down run.driver else run.driver
    let status : MmwlanStatus := if shutdownBlocked then .shutdownBlocked else .success
    ⟨(morsemicroMgmtDisconnect status driver).2, false⟩

def LinkRun.execAll (run : LinkRun) (as : List LinkAction) : LinkRun := as.foldl LinkRun.exec run

/-- The interface was started; the link is down and no scan is on. -/
structure LinkStarted (run : LinkRun) : Prop where
  mmwlanState : run.driver.data.mmwlanState = .initialized
  status : run.driver.data.sta.status = .inactive
  up : run.up = false

def WifiEvent.isDisconnectResult : WifiEvent → Bool
  | .disconnectResult _ => true
  | _ => false

/-- The disconnect-result events raised so far. -/
def LinkRun.disconnects (run : LinkRun) : ℕ := run.driver.events.countP WifiEvent.isDisconnectResult

/-- The connect-result events raised so far. -/
def LinkRun.connects (run : LinkRun) : ℕ := run.driver.events.count .connectResult

end MmIot
