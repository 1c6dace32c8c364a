import MmIot.Spec.WifiMgmt

/-! Scans taken apart: mmwlan accepts a request, and the status is saved and then
marked only afterwards, while completions, link callbacks and `00` requests come in
at any point. Beside the driver runs a copy that takes the same steps without scans. -/

namespace MmIot

/-- What last wrote the status of the copy. -/
inductive StatusWrite where
  | start
  | link (link : LinkState)
  | disable
  deriving DecidableEq

/-- `toSave` and `toMark` count the calls of `morsemicro_mgmt_scan` that stand before
each of the two assignments, `outstanding` the accepted scans still to complete. -/
structure ScanState where
  driver : State
  quiet : State
  toSave : ℕ
  toMark : ℕ
  outstanding : ℕ
  lastWrite : StatusWrite

inductive ScanAction where
  | accept (cb : ℕ)
  | save
  | mark
  | complete (success : Bool)
  | link (link : LinkState)
  | disable (r : RegDomainSet)

/-- The request to set `00`, whatever else it carries. -/
def RegDomainSet.toWorld (r : RegDomainSet) : RegDomainSet := { r with countryCode := worldDomain }

/-- A `00` request that gets past the shutdown on a started driver. -/
def Disables (r : RegDomainSet) (s : State) : Prop :=
  r.shutdown = .success ∧ s.data.mmwlanState = .initialized

instance (r : RegDomainSet) (s : State) : Decidable (Disables r s) :=
  inferInstanceAs (Decidable (_ ∧ _))

def scanStep (cfg : Config) (s : ScanState) : ScanAction → Option ScanState
  | .accept cb =>
    if s.driver.data.mmwlanState = .uninitialized then none
    else some { s with
      driver := { s.driver with data.sta.scanCb := some cb }.forward .scanRequest
      toSave := s.toSave + 1
      outstanding := s.outstanding + 1 }
  | .save =>
    if s.toSave = 0 then none
    else some { s with
      driver.data.sta := s.driver.data.sta.saveStatus
      toSave := s.toSave - 1
      toMark := s.toMark + 1 }
  | .mark =>
    if s.toMark = 0 then none
    else some { s with
      driver.data.sta := s.driver.data.sta.markScanning
      toMark := s.toMark - 1 }
  | .complete success =>
    if s.outstanding = 0 then none
    else some { s with
      driver := scanCompleteCallback success s.driver
      outstanding := s.outstanding - 1 }
  | .link link => some { s with
      driver := mmnetifVifState .sta link s.driver
      quiet := mmnetifVifState .sta link s.quiet
      lastWrite := .link link }
  | .disable r => some { s with
      driver := (morsemicroMgmtRegDomainSet cfg r.toWorld s.driver).2
      quiet := (morsemicroMgmtRegDomainSet cfg r.toWorld s.quiet).2
      lastWrite := if Disables r s.driver then .disable else s.lastWrite }

/-- No scan is on, and the status is one that a start leaves. -/
structure ScanStart (s : ScanState) : Prop where
  quiet : s.quiet = s.driver
  status : s.driver.data.sta.status = .inactive ∨ s.driver.data.sta.status = .interfaceDisabled
  toSave : s.toSave = 0
  toMark : s.toMark = 0
  outstanding : s.outstanding = 0
  lastWrite : s.lastWrite = .start

/-- Every accepted scan has completed and no call is half way. -/
structure Quiescent (s : ScanState) : Prop where
  toSave : s.toSave = 0
  toMark : s.toMark = 0
  outstanding : s.outstanding = 0

end MmIot
