import MmIot.Lib.Ownership
import MmIot.Spec.NetMgmt

/-! The packet buffers of `net_mgmt.c`: transmissions and receptions, one call of mmwlan or of
the network stack at a time, any number of them under way. -/

namespace MmIot

open Ownership

/-- The packets of mmwlan and those of the network stack. -/
inductive PktMem where
  | mmpkt | netPkt
  deriving DecidableEq

/-- `net_pkt_read` has a packet of the network stack with the bytes `pkt`, and `net_pkt_write`
the bytes `data` to write. -/
inductive PktCall where
  | waitUntilReady
  | netPktRead (pkt : List UInt8)
  | txPkt
  | netPktWrite (data : List UInt8)
  | netRecvData
  deriving DecidableEq

/-- `net_pkt_read` and `net_pkt_write` leave bytes in the buffer that they fill. -/
@[reducible] def PktCall.Ans : PktCall → Type
  | .waitUntilReady | .txPkt => MmwlanStatus
  | .netPktRead _ | .netPktWrite _ => Except Errno Unit × List UInt8
  | .netRecvData => Except Errno Unit

/-- When they succeed, they have copied all. -/
def PktCall.Copies : (q : PktCall) → q.Ans → Prop
  | .netPktRead bytes, ⟨ret, filled⟩ | .netPktWrite bytes, ⟨ret, filled⟩ =>
    ret = .ok () → filled = bytes
  | .waitUntilReady, _ | .txPkt, _ | .netRecvData, _ => True

/-- Bytes that mmwlan is given to transmit, or that the network stack receives. -/
inductive PktEvent where
  | tx (vif : Vif) (bytes : List UInt8)
  | rx (vif : Vif) (bytes : List UInt8)

/-- How a call returned, and the bytes that it was called with. -/
inductive PktResult where
  | idle
  | tx (vif : Vif) (bytes : List UInt8) (ret : Except Errno Unit)
  | rx (vif : Vif) (bytes : List UInt8) (delivered : Bool)

abbrev PktProg := Prog PktMem (List UInt8) PktEvent PktResult PktCall PktCall.Ans

/-- `mmnetif_vif_tx` of a packet with the bytes `pkt`. `mmwlan_tx_pkt` takes the buffer over
whatever it returns. -/
def mmnetifVifTxProg (vif : Vif) (pkt : List UInt8) : PktProg :=
  .ask .waitUntilReady fun status =>
    match mmwlanErrToErrno status with
    | .error e => .ret (.tx vif pkt (.error e))
    | .ok _ =>
      .acquire .mmpkt fun
        | none => .ret (.tx vif pkt (.error .enomem))
        | some txPkt =>
          .touch (.mmpkt, txPkt) <| .ask (.netPktRead pkt) fun (ret, filled) =>
            .store (.mmpkt, txPkt) filled <| .touch (.mmpkt, txPkt) <|
              match ret with
              | .error e => .release (.mmpkt, txPkt) (.ret (.tx vif pkt (.error e)))
              | .ok _ =>
                .load (.mmpkt, txPkt) fun bytes =>
                  .emit (.tx vif bytes) <| .release (.mmpkt, txPkt) <| .ask .txPkt fun status =>
                    .ret (.tx vif pkt (mmwlanErrToErrno status))

/-- `mmnetif_tx` and `mmnetif_tx_ap` -/
def mmnetifTxProg (cfg : Config) (state : MmwlanState) (vif : Vif) (pkt : List UInt8) : PktProg :=
  if state = .uninitialized then .ret (.tx vif pkt (.error .enodev))
  else if cfg.ethMaxFrameSize < pkt.length then .ret (.tx vif pkt (.error .enomem))
  else mmnetifVifTxProg vif pkt

/-- The `done` of `mmnetif_rx`. -/
def mmnetifRxDoneProg (mmpkt : ℕ) (result : PktResult) : PktProg :=
  .touch (.mmpkt, mmpkt) <| .release (.mmpkt, mmpkt) (.ret result)

/-- `mmnetif_rx` of a packet for an interface that may not be there. `result` names the call,
with whether it delivered the packet. -/
def mmnetifRxProg (vif : Vif) (iface : Bool) (mmpkt : ℕ) (result : Bool → PktResult) : PktProg :=
  if ¬ iface then .release (.mmpkt, mmpkt) (.ret (result false))
  else
    .touch (.mmpkt, mmpkt) <| .acquire .netPkt fun
      | none => mmnetifRxDoneProg mmpkt (result false)
      | some pkt =>
        .load (.mmpkt, mmpkt) fun data => .ask (.netPktWrite data) fun (ret, filled) =>
          .store (.netPkt, pkt) filled <|
            match ret with
            | .error _ => .release (.netPkt, pkt) (mmnetifRxDoneProg mmpkt (result false))
            | .ok _ => .ask .netRecvData fun
              | .error _ => .release (.netPkt, pkt) (mmnetifRxDoneProg mmpkt (result false))
              | .ok _ =>
                .load (.netPkt, pkt) fun bytes => .emit (.rx vif bytes) <|
                  .release (.netPkt, pkt) (mmnetifRxDoneProg mmpkt (result true))

/-- The network stack sends a packet, or mmwlan has received one, which it puts in a buffer of
its own. -/
inductive PktStart where
  | tx (state : MmwlanState) (vif : Vif) (pkt : List UInt8)
  | rx (vif : Vif) (iface : Bool) (data : List UInt8)

def PktStart.prog (cfg : Config) : PktStart → PktProg
  | .tx state vif pkt => mmnetifTxProg cfg state vif pkt
  | .rx vif iface data => .acquire .mmpkt fun
    | none => .ret .idle
    | some mmpkt => .store (.mmpkt, mmpkt) data <| mmnetifRxProg vif iface mmpkt (.rx vif data)

abbrev PktPool := Pool PktMem (List UInt8) PktEvent PktResult PktCall PktCall.Ans

abbrev PktAct := Act PktMem (List UInt8) PktEvent PktResult PktCall PktCall.Ans Empty

def pktStep : PktPool → PktAct → Option PktPool := Pool.step fun _ m => m.elim

/-- Only the driver's own code starts, and copies are what was to be copied. -/
structure PktGuard (cfg : Config) (_ : PktPool) (a : PktAct) : Prop where
  start : ∀ p, a = .start p → ∃ o : PktStart, p = o.prog cfg
  answer : ∀ i q ans, a = .answer i q ans → q.Copies ans

/-- A call passed on the bytes that it was called with: once if it succeeded, and at most once
if not. -/
def PktResult.Emits : PktResult → List PktEvent → Prop
  | .idle, es => es = []
  | .tx vif bytes ret, es =>
    (es = [] ∨ es = [.tx vif bytes]) ∧ (ret = .ok () → es = [.tx vif bytes])
  | .rx vif bytes delivered, es => es = if delivered then [.rx vif bytes] else []

end MmIot
