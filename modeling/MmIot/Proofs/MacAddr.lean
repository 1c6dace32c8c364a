import Mathlib.Data.List.TakeWhile
import MmIot.Lib.Crc32
import MmIot.Spec.MacAddr

/-! The fallback address over two boots, and within one. The CRC counts eight bytes of a buffer
of which a device id may fill fewer; and a number of 0 reads as one not yet computed. -/

namespace MmIot

/-- The source that answers, and its bytes. -/
inductive Identity where
  | eui64 (bytes : List.Vector UInt8 8)
  | deviceId (id : DeviceId)

/-- The EUI-64 is asked first. -/
def HwInfo.identity (hw : HwInfo) : Option Identity :=
  match hw.eui64 with
  | some eui64 => some (.eui64 eui64)
  | none => hw.deviceId.map .deviceId

/-- The identity fills the buffer. -/
def Identity.Full : Identity → Prop
  | .eui64 _ => True
  | .deviceId id => id.bytes.length = 8

/-- Six bytes, of which the first has the local bit set and the group bit clear. -/
def IsLocalUnicast (addr : List UInt8) : Prop :=
  ∃ b rest, addr = b :: rest ∧ rest.length = 5 ∧ b &&& 2 = 2 ∧ b &&& 1 = 0

/-- Two inputs that differ in one byte have different CRCs. -/
def DetectsByte (crc : List UInt8 → BitVec 32) : Prop :=
  ∀ xs ys x y, crc (xs ++ x :: ys) = crc (xs ++ y :: ys) → x = y

def MacEnv.fallback (env : MacEnv) (uid : BitVec 32) : List UInt8 :=
  [0x02, 0x00] ++ env.order.bytes uid

theorem ByteOrder.bytes_length (order : ByteOrder) (n : BitVec 32) :
    (order.bytes n).length = 4 := by
  cases order with
  | little => exact LittleEndian.encode_length 4 _
  | big => exact List.length_reverse.trans (LittleEndian.encode_length 4 _)

theorem ByteOrder.bytes_injective (order : ByteOrder) : Function.Injective order.bytes := by
  have hlittle {m n : BitVec 32} (h : LittleEndian.encode 4 m.toNat = LittleEndian.encode 4 n.toNat) :
      m = n := by
    have hdecode := congrArg LittleEndian.decode h
    rw [LittleEndian.decode_encode m.isLt, LittleEndian.decode_encode n.isLt] at hdecode
    exact BitVec.eq_of_toNat_eq hdecode
  intro m n h
  cases order with
  | little => exact hlittle h
  | big => exact hlittle (List.reverse_injective h)

section MacAddr

variable (env : MacEnv) (hw : HwInfo)

theorem MacEnv.fallback_injective : Function.Injective env.fallback := by
  intro m n h
  exact env.order.bytes_injective (List.append_cancel_left h)

theorem MacEnv.fallback_isLocalUnicast (uid : BitVec 32) : IsLocalUnicast (env.fallback uid) := by
  refine ⟨0x02, 0x00 :: env.order.bytes uid, rfl, ?_, by decide, by decide⟩
  rw [List.length_cons, ByteOrder.bytes_length]

/-! ### The calls of one boot -/

/-- Whether a call leaves its buffer alone. -/
def MacEnv.accepts (c : MacCall) : Bool := env.isAddrValid c.macAddr.toList

theorem filled_cons (c : MacCall) (cs : List MacCall) (uid : BitVec 32) :
    filled env hw (c :: cs) uid =
      if env.accepts c then filled env hw cs (mmhalReadDeviceUid env hw c uid)
      else env.fallback (mmhalReadDeviceUid env hw c uid) ::
        filled env hw cs (mmhalReadDeviceUid env hw c uid) := by
  rw [filled, mmhalReadMacAddr, MacEnv.accepts]
  split <;> rfl

theorem filled_eq_nil_iff (calls : List MacCall) (uid : BitVec 32) :
    filled env hw calls uid = [] ↔ ∀ c ∈ calls, env.accepts c := by
  induction calls generalizing uid with
  | nil => exact iff_of_true rfl nofun
  | cons c cs ih =>
    rw [filled_cons, List.forall_mem_cons]
    split
    next h => rw [ih, and_iff_right h]
    next h => exact iff_of_false (List.cons_ne_nil _ _) fun hall => h hall.1

/-- Numbers that are kept give the same address. -/
theorem filled_of_kept {calls : List MacCall} {uid : BitVec 32}
    (h : ∀ c ∈ calls, mmhalReadDeviceUid env hw c uid = uid) :
    ∀ a ∈ filled env hw calls uid, a = env.fallback uid := by
  induction calls with
  | nil => exact nofun
  | cons c cs ih =>
    rw [List.forall_mem_cons] at h
    rw [filled_cons, h.1]
    split
    · exact ih h.2
    · exact List.forall_mem_cons.mpr ⟨rfl, ih h.2⟩

theorem readDeviceUid_of_ne {uid : BitVec 32} (huid : uid ≠ 0) (c : MacCall) :
    mmhalReadDeviceUid env hw c uid = uid :=
  if_pos huid

theorem readDeviceUid_zero (c : MacCall) : mmhalReadDeviceUid env hw c 0 = newUid env hw c :=
  if_neg (not_not.mpr rfl)

/-- From the first number on that is not 0. -/
theorem filled_of_first {c : MacCall} (h : newUid env hw c ≠ 0) (cs : List MacCall) :
    ∀ a ∈ filled env hw (c :: cs) 0, a = env.fallback (newUid env hw c) := by
  have hrest := filled_of_kept env hw fun c' (_ : c' ∈ cs) => readDeviceUid_of_ne env hw h c'
  rw [filled_cons, readDeviceUid_zero]
  split
  · exact hrest
  · exact List.forall_mem_cons.mpr ⟨rfl, hrest⟩

/-- Before it. -/
theorem filled_of_zeros {calls : List MacCall} (h : ∀ c ∈ calls, newUid env hw c = 0) :
    ∀ a ∈ filled env hw calls 0, a = env.fallback 0 :=
  filled_of_kept env hw fun c hc => (readDeviceUid_zero env hw c).trans (h c hc)

theorem filled_append {pre : List MacCall} (h : ∀ c ∈ pre, newUid env hw c = 0)
    (post : List MacCall) :
    filled env hw (pre ++ post) 0 = filled env hw pre 0 ++ filled env hw post 0 := by
  induction pre with
  | nil => rfl
  | cons c cs ih =>
    rw [List.forall_mem_cons] at h
    rw [List.cons_append, filled_cons, filled_cons, readDeviceUid_zero, h.1, ih h.2]
    split <;> rfl

/-- The calls that are given 0, and the others. -/
def zeroCalls (calls : List MacCall) : List MacCall := calls.takeWhile (newUid env hw · = 0)

def laterCalls (calls : List MacCall) : List MacCall := calls.dropWhile (newUid env hw · = 0)

theorem zeroCalls_zero (calls : List MacCall) :
    ∀ c ∈ zeroCalls env hw calls, newUid env hw c = 0 := by
  intro c hc
  have hzero := List.mem_takeWhile_imp (p := (newUid env hw · = 0)) hc
  exact of_decide_eq_true hzero

theorem filled_split (calls : List MacCall) :
    filled env hw calls 0 =
      filled env hw (zeroCalls env hw calls) 0 ++ filled env hw (laterCalls env hw calls) 0 := by
  rw [← filled_append env hw (zeroCalls_zero env hw calls), zeroCalls, laterCalls,
    List.takeWhile_append_dropWhile]

/-- All the calls behind the zeros give one address, of another number. -/
theorem filled_laterCalls (calls : List MacCall) :
    ∃ uid, uid ≠ 0 ∧
      ∀ a ∈ filled env hw (laterCalls env hw calls) 0, a = env.fallback uid := by
  cases hlater : laterCalls env hw calls with
  | nil => exact ⟨1, by decide, nofun⟩
  | cons c cs =>
    have hne : laterCalls env hw calls ≠ [] := hlater ▸ List.cons_ne_nil c cs
    have hfirst := List.head_dropWhile_not (newUid env hw · = 0) hne
    simp only [laterCalls] at hlater
    simp only [hlater, List.head_cons, decide_eq_false_iff_not] at hfirst
    exact ⟨_, hfirst, filled_of_first env hw hfirst cs⟩

/-! ### Two boots -/

/-- What the CRC is of, once the identity fills the buffer. -/
def Identity.buffer : Identity → List UInt8
  | .eui64 bytes => bytes.toList
  | .deviceId id => id.bytes

variable {hw} in
/-- An identity that fills the buffer gives every call the same number. -/
theorem newUid_of_full {i : Identity} (hi : hw.identity = some i) (hfull : i.Full) (c : MacCall) :
    newUid env hw c = env.crc32Ieee i.buffer := by
  obtain ⟨eui64, deviceId⟩ := hw
  cases eui64 with
  | some bytes =>
    cases hi
    rfl
  | none =>
    cases deviceId with
    | none => exact absurd hi nofun
    | some id =>
      cases hi
      have hstack : c.stack.toList.drop id.bytes.length = [] := by
        apply List.drop_eq_nil_of_le
        rw [List.Vector.toList_length]
        exact Nat.le_of_eq (Eq.symm hfull)
      rw [newUid]
      dsimp only
      rw [hstack, List.append_nil]
      rfl

variable {hw} in
theorem filled_of_full {i : Identity} (hi : hw.identity = some i) (hfull : i.Full)
    (calls : List MacCall) :
    ∀ a ∈ filled env hw calls 0, a = env.fallback (env.crc32Ieee i.buffer) := by
  have hnew := newUid_of_full env hi hfull
  cases calls with
  | nil => exact nofun
  | cons c cs =>
    by_cases hzero : env.crc32Ieee i.buffer = 0
    · rw [hzero]
      exact filled_of_zeros env hw fun c _ => (hnew c).trans hzero
    · rw [← hnew c] at hzero ⊢
      exact filled_of_first env hw hzero cs

/-- A call that finds zeros in its buffer, behind them one byte of its stack's own. -/
def zeroBufferCall (b : UInt8) : MacCall :=
  ⟨⟨List.replicate 7 0 ++ [b], rfl⟩, 0, ⟨List.replicate 6 0, rfl⟩⟩

theorem filled_zeroBufferCall (hzero : env.isAddrValid (List.replicate 6 0) = false) (b : UInt8) :
    filled env hw [zeroBufferCall b] 0 = [env.fallback (newUid env hw (zeroBufferCall b))] := by
  have hrefuses : ¬ env.accepts (zeroBufferCall b) := by
    rw [MacEnv.accepts]
    exact Bool.eq_false_iff.mp hzero
  rw [filled_cons, if_neg hrefuses, readDeviceUid_zero]
  rfl

/-- A short device id leaves the last byte of the buffer to the stack. -/
theorem newUid_of_short {id : DeviceId} (hshort : id.bytes.length < 8) (b : UInt8) :
    newUid env ⟨none, some id⟩ (zeroBufferCall b) =
      env.crc32Ieee (id.bytes ++ List.replicate (7 - id.bytes.length) 0 ++ b :: []) := by
  have hstack : (zeroBufferCall b).stack.toList = List.replicate 7 0 ++ [b] := rfl
  rw [newUid]
  dsimp only
  rw [hstack, List.drop_append_of_le_length (by rw [List.length_replicate]; omega),
    List.drop_replicate, List.append_assoc]

end MacAddr

/-- On every two boots with one identity, the buffers that are filled are filled alike. -/
def SameOnEveryBoot (env : MacEnv) (i : Identity) : Prop :=
  ∀ hw hw' : HwInfo, ∀ calls calls', hw.identity = some i → hw'.identity = some i →
    ∀ a ∈ filled env hw calls 0, IsLocalUnicast a ∧ ∀ a' ∈ filled env hw' calls' 0, a = a'

def SameWithinBoot (env : MacEnv) (hw : HwInfo) (calls : List MacCall) : Prop :=
  ∀ a ∈ filled env hw calls 0, ∀ a' ∈ filled env hw calls 0, a = a'

theorem sameOnEveryBoot_iff {env : MacEnv} (hcrc : DetectsByte env.crc32Ieee)
    (hzero : env.isAddrValid (List.replicate 6 0) = false) (i : Identity) :
    SameOnEveryBoot env i ↔ i.Full := by
  refine ⟨fun h => ?_, fun hfull => ?_⟩
  · cases i with
    | eui64 bytes => trivial
    | deviceId id =>
      by_contra hnot
      have hshort : id.bytes.length < 8 := lt_of_le_of_ne id.le hnot
      have hboot (b : UInt8) := filled_zeroBufferCall env ⟨none, some id⟩ hzero b
      have hsame := (h ⟨none, some id⟩ ⟨none, some id⟩ [zeroBufferCall 0] [zeroBufferCall 1] rfl rfl
        _ (hboot 0 ▸ List.mem_cons_self)).2 _ (hboot 1 ▸ List.mem_cons_self)
      have huid := env.fallback_injective hsame
      rw [newUid_of_short env hshort, newUid_of_short env hshort] at huid
      exact absurd (hcrc _ _ _ _ huid) (by decide)
  · intro hw hw' calls calls' hi hi' a ha
    have haddr := filled_of_full env hi hfull calls a ha
    refine ⟨haddr ▸ env.fallback_isLocalUnicast _, fun a' ha' => ?_⟩
    exact haddr.trans (filled_of_full env hi' hfull calls' a' ha').symm

theorem sameWithinBoot_iff (env : MacEnv) (hw : HwInfo) (calls : List MacCall) :
    SameWithinBoot env hw calls ↔
      (∀ c ∈ zeroCalls env hw calls, env.accepts c) ∨
        ∀ c ∈ laterCalls env hw calls, env.accepts c := by
  have hzeros := filled_of_zeros env hw (zeroCalls_zero env hw calls)
  obtain ⟨uid, huid, hlater⟩ := filled_laterCalls env hw calls
  rw [SameWithinBoot, filled_split, ← filled_eq_nil_iff env hw _ 0, ← filled_eq_nil_iff env hw _ 0]
  generalize filled env hw (zeroCalls env hw calls) 0 = zeros at hzeros ⊢
  generalize filled env hw (laterCalls env hw calls) 0 = later at hlater ⊢
  refine ⟨fun h => ?_, fun h => ?_⟩
  · by_contra hboth
    obtain ⟨hne, hne'⟩ := not_or.mp hboth
    obtain ⟨a, ha⟩ := List.exists_mem_of_ne_nil zeros hne
    obtain ⟨a', ha'⟩ := List.exists_mem_of_ne_nil later hne'
    have hsame := h a (List.mem_append_left _ ha) a' (List.mem_append_right _ ha')
    rw [hzeros a ha, hlater a' ha'] at hsame
    exact huid (env.fallback_injective hsame).symm
  · rcases h with rfl | rfl
    · intro a ha a' ha'
      exact (hlater a ha).trans (hlater a' ha').symm
    · rw [List.append_nil]
      intro a ha a' ha'
      exact (hzeros a ha).trans (hzeros a' ha').symm

/-- The fallback address depends on the identity alone if and only if the identity fills the
buffer. Within one boot it stays the same if and only if no buffer is filled before the first
number that is not 0, or none from there on. -/
theorem fallbackAddress_iff {env : MacEnv} (hcrc : DetectsByte env.crc32Ieee)
    (hzero : env.isAddrValid (List.replicate 6 0) = false) :
    (∀ i, SameOnEveryBoot env i ↔ i.Full) ∧
      ∀ hw calls, SameWithinBoot env hw calls ↔
        (∀ c ∈ zeroCalls env hw calls, env.accepts c) ∨
          ∀ c ∈ laterCalls env hw calls, env.accepts c :=
  ⟨sameOnEveryBoot_iff hcrc hzero, sameWithinBoot_iff env⟩

/-- Neither unspecified nor a group address. -/
def isEthAddrValid (addr : List UInt8) : Bool :=
  addr ≠ List.replicate 6 0 ∧ (addr.headD 0) &&& 1 = 0

def ieeeEnv : MacEnv := ⟨Crc32.crc32, isEthAddrValid, .little⟩

theorem ieeeEnv_detectsByte : DetectsByte ieeeEnv.crc32Ieee :=
  fun xs ys _ _ h => Crc32.crc32_byte xs ys h

/-- An EUI-64 gives the same address on every boot. -/
theorem fallbackAddress_iff_eui64 :
    SameOnEveryBoot ieeeEnv (.eui64 ⟨[0x0C, 0xBF, 0x74, 0, 0, 1, 2, 3], rfl⟩) := by
  have hzero : ieeeEnv.isAddrValid (List.replicate 6 0) = false := by decide
  exact ((fallbackAddress_iff ieeeEnv_detectsByte hzero).1 _).mpr trivial

/-- A device id of four bytes, and two boots that find other bytes on the stack. -/
def shortId : DeviceId := ⟨[1, 2, 3, 4], by decide, by decide⟩

theorem shortId_not_same :
    HwInfo.identity ⟨none, some shortId⟩ = some (.deviceId shortId) ∧
      filled ieeeEnv ⟨none, some shortId⟩ [zeroBufferCall 0] 0 ≠
        filled ieeeEnv ⟨none, some shortId⟩ [zeroBufferCall 1] 0 ∧
      ¬ SameOnEveryBoot ieeeEnv (.deviceId shortId) := by
  have hzero : ieeeEnv.isAddrValid (List.replicate 6 0) = false := by decide
  have hshort : shortId.bytes.length < 8 := by decide
  refine ⟨rfl, fun h => ?_, fun h => ?_⟩
  · rw [filled_zeroBufferCall _ _ hzero, filled_zeroBufferCall _ _ hzero] at h
    have huid := ieeeEnv.fallback_injective (List.head_eq_of_cons_eq h)
    rw [newUid_of_short ieeeEnv hshort, newUid_of_short ieeeEnv hshort] at huid
    exact absurd (ieeeEnv_detectsByte _ _ _ _ huid) (by decide)
  · have hfull : shortId.bytes.length = 8 :=
      (sameOnEveryBoot_iff ieeeEnv_detectsByte hzero (.deviceId shortId)).mp h
    exact absurd hfull (by decide)

end MmIot
