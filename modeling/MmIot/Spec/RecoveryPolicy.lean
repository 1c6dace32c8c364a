import MmIot.Lib.CInt
import MmIot.Lib.Recency
import Mathlib.Data.Vector.Basic

/-! `edgez_mesh_recovery_policy.h`: when the state of a mesh peer that is heard without being
known is built up again. A table of fixed size holds each peer off for a while. -/

namespace MmIot

def EDGEZ_MESH_ADDR_LEN : ℕ := 6

abbrev MeshAddr := List.Vector UInt8 EDGEZ_MESH_ADDR_LEN

/-- `edgez_mesh_recovery_peer_t` -/
structure RecoveryPeer where
  addr : MeshAddr
  retryAfterMs : UInt32
  valid : Bool
  deriving DecidableEq

/-- `edgez_mesh_recovery_policy_t`; its capacity is the length of the table. -/
structure RecoveryPolicy where
  peers : List RecoveryPeer
  cooldownMs : UInt32

/-- `edgez_mesh_unknown_peer_t` -/
structure UnknownPeer where
  transmitter : MeshAddr
  nowMs : UInt32
  meshMode : Bool
  protectedFrame : Bool
  dataFrame : Bool
  multicastTransmitter : Bool

def retryAfterMs (peers : List RecoveryPeer) (slot : ℕ) : UInt32 :=
  (peers[slot]?.map RecoveryPeer.retryAfterMs).getD 0

/-- The loop from peer `i` on: the peer's own slot unless it is held off, the first free one, or
the one whose time is the earliest. -/
def recoverySlot (peers : List RecoveryPeer) (event : UnknownPeer) :
    List RecoveryPeer → ℕ → ℕ → Option ℕ
  | [], _, slot => some slot
  | peer :: rest, i, slot =>
    if peer.valid && peer.addr == event.transmitter then
      if CInt.toInt32 (event.nowMs - peer.retryAfterMs) < 0 then none else some i
    else if !peer.valid then some i
    else if CInt.toInt32 (peer.retryAfterMs - retryAfterMs peers slot) < 0 then
      recoverySlot peers event rest (i + 1) i
    else recoverySlot peers event rest (i + 1) slot

/-- `edgez_mesh_should_recover_unknown_peer` and what it leaves in the table. -/
def edgezMeshShouldRecoverUnknownPeer (policy : RecoveryPolicy) (event : UnknownPeer) :
    Bool × RecoveryPolicy :=
  if policy.peers.length = 0 ∨ !event.meshMode ∨ !event.protectedFrame ∨ !event.dataFrame ∨
      event.multicastTransmitter then (false, policy)
  else
    match recoverySlot policy.peers event policy.peers 0 0 with
    | none => (false, policy)
    | some slot =>
      let selected := {
        addr := event.transmitter
        retryAfterMs := event.nowMs + policy.cooldownMs
        valid := true }
      (true, { policy with peers := policy.peers.set slot selected })

/-! ### Runs -/

/-- A frame of a peer that is not known, at a time that the clock of 32 bits may have wrapped at. -/
structure Heard where
  transmitter : MeshAddr
  time : ℕ
  meshMode : Bool
  protectedFrame : Bool
  dataFrame : Bool
  multicastTransmitter : Bool
  deriving DecidableEq

def Heard.event (h : Heard) : UnknownPeer where
  transmitter := h.transmitter
  nowMs := UInt32.ofNat h.time
  meshMode := h.meshMode
  protectedFrame := h.protectedFrame
  dataFrame := h.dataFrame
  multicastTransmitter := h.multicastTransmitter

/-- The frames that the policy is for. -/
def Heard.Counts (h : Heard) : Prop :=
  h.meshMode = true ∧ h.protectedFrame = true ∧ h.dataFrame = true ∧
    h.multicastTransmitter = false

instance (h : Heard) : Decidable h.Counts := by
  unfold Heard.Counts
  infer_instance

/-- The policy, and the recoveries it let happen, newest first. -/
structure RecoveryRun where
  policy : RecoveryPolicy
  log : List (MeshAddr × ℕ)

/-- The answer to a frame in a run. -/
def RecoveryRun.recovers (r : RecoveryRun) (h : Heard) : Bool :=
  (edgezMeshShouldRecoverUnknownPeer r.policy h.event).1

def RecoveryRun.hear (r : RecoveryRun) (h : Heard) : RecoveryRun where
  policy := (edgezMeshShouldRecoverUnknownPeer r.policy h.event).2
  log := if r.recovers h then (h.transmitter, h.time) :: r.log else r.log

/-- The caller's storage with no peer in it. -/
def freshPolicy (capacity : ℕ) (cooldownMs : UInt32) : RecoveryPolicy where
  peers := List.replicate capacity ⟨List.Vector.replicate 6 0, 0, false⟩
  cooldownMs := cooldownMs

def recoveryRun (capacity : ℕ) (cooldownMs : UInt32) (heard : List Heard) : RecoveryRun :=
  heard.foldl RecoveryRun.hear ⟨freshPolicy capacity cooldownMs, []⟩

end MmIot
