import MmIot.Lib.CInt

/-! The channel searches of `wifi_mgmt.c`: from the primary channel and the
bandwidth a user asks for to the S1G operating channel an access point is
started on. The arithmetic is written over `int32`, see `CInt`. -/

namespace MmIot

/-- The errno values the driver returns. -/
inductive Errno where
  | einval | enoent | enodev | eagain | echrng | enomem | etimedout | eio | enotsup | ebusy
  deriving DecidableEq, Repr

/-- `MMWLAN_SKIP_OP_CLASS_CHECK` -/
def SKIP_OP_CLASS_CHECK : Int16 := -1

/-- `struct mmwlan_s1g_channel`: one regulatory database entry. -/
structure S1gChannel where
  centreFreqHz : UInt32
  globalOperatingClass : Int16
  s1gOperatingClass : Int16
  s1gChanNum : UInt16
  bwMhz : UInt8
  maxTxEirpDbm : Int8
  deriving DecidableEq, Repr

/-- A two-letter country code. -/
structure Country where
  fst : UInt8
  snd : UInt8
  deriving DecidableEq, Repr

/-- `struct mmwlan_s1g_channel_list`; its length is `num_channels`. -/
structure ChannelList where
  countryCode : Country
  channels : List S1gChannel
  deriving DecidableEq, Repr

/-- The class comparison shared by both lookups by number and class. -/
def opClassMatches (chan : S1gChannel) (opClass : UInt16) : Bool :=
  chan.globalOperatingClass = SKIP_OP_CLASS_CHECK ∨
  chan.s1gOperatingClass = SKIP_OP_CLASS_CHECK ∨
  chan.globalOperatingClass = opClass.toInt16 ∨
  chan.s1gOperatingClass = opClass.toInt16

def morsemicroApChannelIsValid (channelList : Option ChannelList) (opClass chanNum : UInt16)
    (bwMhz pri1mhzChanIdx : UInt8) : Bool :=
  match channelList with
  | none => false
  | some l =>
    if bwMhz = 0 ∨ bwMhz ≤ pri1mhzChanIdx then false
    else l.channels.any fun chan =>
      chan.s1gChanNum = chanNum ∧ chan.bwMhz = bwMhz ∧ opClassMatches chan opClass

/-- What `derive_operating_channel` writes through its output pointers. -/
structure OperatingChannel where
  opClass : UInt16
  s1gChanNum : UInt16
  pri1mhzChanIdx : UInt8
  priBwMhz : UInt8
  deriving DecidableEq, Repr

section Arithmetic

variable {m : Type → Type} [Monad m] (int32 : ℤ → m ℤ)

/-- The index, or a negative number: `-2` is `-ENOENT`. -/
def calcPrimaryChanIdx (channelList : Option ChannelList) (opClass chanNum : UInt16)
    (s1gPrimaryChannel : UInt8) : m ℤ :=
  match channelList with
  | none => pure (-2)
  | some l =>
    -- one loop in the source: each search keeps the first entry it meets
    let opChan := l.channels.find? fun chan =>
      chan.s1gChanNum = chanNum ∧ opClassMatches chan opClass
    let primaryChan := l.channels.find? fun chan =>
      chan.s1gChanNum = s1gPrimaryChannel.toUInt16
    match opChan, primaryChan with
    | some op, some pri =>
      if 2 < pri.bwMhz ∨ op.bwMhz < pri.bwMhz then pure (-1)
      else do
        let freqDeltaHz ← int32 (CInt.toInt32 pri.centreFreqHz - CInt.toInt32 op.centreFreqHz)
        let bwDiff ← int32 (op.bwMhz.toNat - pri.bwMhz.toNat)
        let bwMarginHz ← int32 (bwDiff * 500000)
        let sum ← int32 (freqDeltaHz + bwMarginHz)
        let idx ← int32 (sum.tdiv 1000000)
        if idx < 0 ∨ (op.bwMhz.toNat : ℤ) ≤ idx then pure (-1) else pure idx
    | _, _ => pure (-1)

def findOperatingChannel (primaryChan : S1gChannel) (bwMhz : UInt8) :
    List S1gChannel → m (Option S1gChannel)
  | [] => pure none
  | chan :: rest => do
    let spanHz ← int32 (bwMhz.toNat * 1000000)
    let halfSpanHz ← int32 (spanHz.tdiv 2)
    let freqDeltaHz ←
      int32 (CInt.toInt32 primaryChan.centreFreqHz - CInt.toInt32 chan.centreFreqHz)
    let negHalfSpanHz ← int32 (-halfSpanHz)
    if chan.bwMhz = bwMhz ∧ negHalfSpanHz < freqDeltaHz ∧ freqDeltaHz < halfSpanHz then
      pure (some chan)
    else findOperatingChannel primaryChan bwMhz rest

def deriveOperatingChannel (channelList : Option ChannelList) (s1gPrimaryChannel bwMhz : UInt8) :
    m (Except Errno OperatingChannel) :=
  match channelList with
  | none => pure (.error .enoent)
  | some l =>
    match l.channels.find? fun chan => chan.s1gChanNum = s1gPrimaryChannel.toUInt16 with
    | none => pure (.error .enoent)
    | some priChan =>
      if 2 < priChan.bwMhz ∨ bwMhz < priChan.bwMhz then pure (.error .enoent)
      else do
        match ← findOperatingChannel int32 priChan bwMhz l.channels with
        | none => pure (.error .enoent)
        | some opChan =>
          let opClass :=
            if opChan.s1gOperatingClass ≠ SKIP_OP_CLASS_CHECK then opChan.s1gOperatingClass.toUInt16
            else opChan.globalOperatingClass.toUInt16
          let idx ← calcPrimaryChanIdx int32 (some l) opClass opChan.s1gChanNum s1gPrimaryChannel
          if idx < 0 then pure (.error .enoent)
          else pure (.ok { opClass, s1gChanNum := opChan.s1gChanNum,
                           pri1mhzChanIdx := UInt8.ofNat idx.toNat,
                           priBwMhz := priChan.bwMhz })

end Arithmetic

/-- `derive_operating_channel` with the machine's wrapping arithmetic. -/
def deriveOperatingChannelWrap (channelList : Option ChannelList)
    (s1gPrimaryChannel bwMhz : UInt8) : Except Errno OperatingChannel :=
  (deriveOperatingChannel CInt.wrap32 channelList s1gPrimaryChannel bwMhz).run

end MmIot
