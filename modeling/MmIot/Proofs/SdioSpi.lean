import Mathlib.Algebra.Order.Ring.Nat
import MmIot.Spec.SdioSpi

/-! Bulk write, then bulk read on a bus without faults. Each CMD53 moves the bytes at
its own addresses, and the rounds of both loops cover the range without gap or overlap. -/

namespace MmIot

/-! ### What a transfer moves -/

/-- Moving `n` bytes between the front of a buffer and the addresses from `a` on. -/
def moved (d : SdioDirection) (mem : ℕ → UInt8) (a n : ℕ) (data : List UInt8) :
    List UInt8 × (ℕ → UInt8) :=
  match d with
  | .read => (Memory.load mem (a + ·) n ++ data.drop n, mem)
  | .write => (data, Memory.store mem (a + ·) (data.take n))

theorem moved_add (d : SdioDirection) (mem : ℕ → UInt8) (a m n : ℕ) {data : List UInt8}
    (h : m ≤ data.length) :
    moved d mem a (m + n) data =
      ((moved d mem a m data).1.take m ++
        (moved d (moved d mem a m data).2 (a + m) n ((moved d mem a m data).1.drop m)).1,
      (moved d (moved d mem a m data).2 (a + m) n ((moved d mem a m data).1.drop m)).2) := by
  have hshift : (fun i => a + (m + i)) = fun i => a + m + i := by
    funext i
    omega
  cases d with
  | read =>
    have hlen : (Memory.load mem (a + ·) m).length = m := Memory.load_length _ _ _
    simp only [moved, Memory.load_add, hshift, List.take_left' hlen, List.drop_left' hlen,
      List.drop_drop, List.append_assoc]
  | write =>
    have hlen : (data.take m).length = m := by rw [List.length_take, Nat.min_eq_left h]
    simp only [moved, List.take_append_drop, List.take_add, Memory.store_append, hlen, hshift]

/-- At most 128 blocks, or 1 to 511 bytes. -/
def Cmd53.CountOk (cmd : Cmd53) : Prop :=
  cmd.mode = .block ∧ 1 ≤ cmd.count ∧ cmd.count ≤ CMD53_MAX_BLOCKS ∨
    cmd.mode = .byte ∧ 1 ≤ cmd.count ∧ cmd.count ≤ 511

/-- A command with a count it can carry, within a window and within a range. -/
structure Cmd53Record.Within (r : Cmd53Record) (address len : ℕ) : Prop where
  count : r.cmd.CountOk
  host : r.bytes = r.cmd.bytes
  window : r.cmd.address + r.bytes ≤ 0x10000
  start : address ≤ r.base + r.cmd.address
  stop : r.base + r.cmd.address + r.bytes ≤ address + len

/-- The CMD53s issued from one state to a later one stay within a range and move
so many bytes in total. -/
def Issues (address len total : ℕ) (b b' : SdioBus) : Prop :=
  ∃ new, b'.log = new ++ b.log ∧ (∀ r ∈ new, r.Within address len) ∧
    (new.map Cmd53Record.bytes).sum = total

theorem Issues.of_log_eq (address len : ℕ) {b b' : SdioBus} (h : b'.log = b.log) :
    Issues address len 0 b b' :=
  ⟨[], h, nofun, rfl⟩

theorem Issues.trans {address len m n : ℕ} {b b' b'' : SdioBus} (h : Issues address len m b b')
    (h' : Issues address len n b' b'') : Issues address len (m + n) b b'' := by
  obtain ⟨new, hlog, hwithin, hsum⟩ := h
  obtain ⟨new', hlog', hwithin', hsum'⟩ := h'
  refine ⟨new' ++ new, by rw [hlog', hlog, List.append_assoc], fun r hr => ?_, ?_⟩
  · exact (List.mem_append.mp hr).elim (hwithin' r) (hwithin r)
  · rw [List.map_append, List.sum_append, hsum, hsum', Nat.add_comm]

theorem Issues.mono {address len address' len' n : ℕ} {b b' : SdioBus}
    (h : Issues address len n b b') (hstart : address' ≤ address)
    (hstop : address + len ≤ address' + len') : Issues address' len' n b b' := by
  obtain ⟨new, hlog, hwithin, hsum⟩ := h
  refine ⟨new, hlog, fun r hr => ?_, hsum⟩
  have hr := hwithin r hr
  exact ⟨hr.count, hr.host, hr.window, Nat.le_trans hstart hr.start, Nat.le_trans hr.stop hstop⟩

/-- A transfer of `n` bytes from address `a` on that succeeded. -/
structure Moves (d : SdioDirection) (a n : ℕ) (data : List UInt8) (b : SdioBus)
    (r : SdioTransfer) : Prop where
  result : r.result = 0
  buffer : r.data = (moved d b.chip.mem a n data).1
  mem : r.bus.chip.mem = (moved d b.chip.mem a n data).2
  base : r.bus.chip.base = b.chip.base
  issues : Issues a n n b r.bus

theorem u32_of_lt {n : ℕ} (h : n < 0x100000000) : u32 n = n := Nat.mod_eq_of_lt h

theorem sub32_of_le {m n : ℕ} (hm : m < 0x100000000) (h : n ≤ m) : sub32 m n = m - n := by
  rw [sub32, u32]
  omega

section FaultFree

variable (hal : Mmhal) {outcome : ℕ → ℤ} (hok : ∀ n, outcome n = 0)

/-! ### One command -/

theorem chip_loc {c : Chip} {a n : ℕ} (hbase : c.base = a / 0x10000 * 0x10000)
    (hwindow : a % 0x10000 + n ≤ 0x10000) : ∀ i < n, c.loc (a % 0x10000) i = a + i := by
  intro i hi
  rw [Chip.loc, hbase]
  omega

include hok in
theorem sdhcRequest_moves (cmd : Cmd53) (data : List UInt8) {a n blockSize blocks : ℕ}
    {b : SdioBus} (hbase : b.chip.base = a / 0x10000 * 0x10000)
    (haddr : cmd.address = a % 0x10000) (hwindow : a % 0x10000 + n ≤ 0x10000)
    (hhost : blockSize * blocks = n) (hcard : cmd.bytes = n)
    (hcount : cmd.CountOk) :
    Moves cmd.direction a n data b
      (sdhcRequest hal outcome (hal.makeCmd53Arg cmd) blockSize blocks data b) := by
  have hmod : a % 0x10000 < 0x20000 := by omega
  have hdecode : hal.decodeCmd53 (hal.makeCmd53Arg cmd) = cmd := by
    apply hal.decode_makeCmd53 cmd (haddr ▸ hmod)
    simp only [Cmd53.CountOk, CMD53_MAX_BLOCKS] at hcount
    omega
  have hwithin : Cmd53Record.Within ⟨cmd, blockSize, blocks, b.chip.base⟩ a n := by
    refine ⟨hcount, hhost.trans hcard.symm, ?_, ?_, ?_⟩ <;>
      simp only [Cmd53Record.bytes, hhost, hbase, haddr] <;> omega
  have hissues : ∀ chip : Chip, Issues a n n b
      ⟨chip, b.requests + 1, ⟨cmd, blockSize, blocks, b.chip.base⟩ :: b.log⟩ := fun chip =>
    ⟨[_], rfl, fun r hr => List.mem_singleton.mp hr ▸ hwithin, by simp [Cmd53Record.bytes, hhost]⟩
  have hloc := chip_loc hbase hwindow
  unfold sdhcRequest
  simp only [hok, hdecode, hhost, hcard, ne_eq, not_true_eq_false, and_false, if_false]
  cases hd : cmd.direction with
  | read =>
    exact ⟨rfl, by simp only [moved, haddr, Memory.load_congr _ hloc], rfl, rfl, hissues _⟩
  | write =>
    refine ⟨rfl, rfl, ?_, rfl, hissues _⟩
    simp only [moved, haddr]
    exact Memory.store_congr _ fun i hi =>
      hloc i (Nat.lt_of_lt_of_le hi (List.length_take_le _ _))

include hok in
theorem cmd53Raw_moves (cmd : Cmd53) (data : List UInt8) {a n blockSize blocks : ℕ}
    {b : SdioBus} (hbase : b.chip.base = a / 0x10000 * 0x10000)
    (haddr : cmd.address = a % 0x10000) (hwindow : a % 0x10000 + n ≤ 0x10000)
    (hhost : (if blockSize ≠ 0 then blockSize * blocks else blocks) = n) (hcard : cmd.bytes = n)
    (hcount : cmd.CountOk) :
    Moves cmd.direction a n data b (morsemicroSdioCmd53Raw hal outcome (hal.makeCmd53Arg cmd)
      data blockSize blocks b) := by
  have hmap : morsemicroSdioMapDataError hal 0 = 0 := rfl
  unfold morsemicroSdioCmd53Raw
  split at hhost
  next hbs =>
    have h := sdhcRequest_moves hal hok cmd data hbase haddr hwindow hhost hcard hcount
    rw [if_pos hbs]
    exact ⟨by simp only [h.result, hmap], h.buffer, h.mem, h.base, h.issues⟩
  next hbs =>
    have h := sdhcRequest_moves hal hok cmd data hbase haddr hwindow
      ((Nat.mul_one blocks).trans hhost) hcard hcount
    rw [if_neg hbs]
    exact ⟨by simp only [h.result, hmap], h.buffer, h.mem, h.base, h.issues⟩

/-- Nothing more to do, or a tail of fewer than 512 bytes. -/
theorem morseCmd53Tail_zero (d : SdioDirection) (f : SdioFunction) (a : ℕ) (data : List UInt8)
    (result : ℤ) (b : SdioBus) :
    morseCmd53Tail hal outcome d f a data 0 result b = { result, bus := b, data } := rfl

include hok in
theorem morseCmd53Tail_moves (d : SdioDirection) (f : SdioFunction) {a n : ℕ} (data : List UInt8)
    {b : SdioBus} (result : ℤ) (hbase : b.chip.base = a / 0x10000 * 0x10000)
    (hwindow : a % 0x10000 + n ≤ 0x10000) (hpos : 0 < n) (hlt : n < BLOCK_SIZE_FN2) :
    Moves d a n data b (morseCmd53Tail hal outcome d f a data n result b) := by
  unfold morseCmd53Tail
  rw [if_pos hpos]
  exact cmd53Raw_moves hal hok ⟨d, f, .byte, a % 0x10000, n⟩ data hbase rfl hwindow rfl rfl
    (.inr ⟨rfl, hpos, Nat.le_of_lt_succ hlt⟩)

/-- Two transfers in a row, the second into the rest of the buffer. -/
theorem Moves.append {d : SdioDirection} {a m n : ℕ} {data : List UInt8} {b : SdioBus}
    {r rest : SdioTransfer} (h : Moves d a m data b r)
    (h' : Moves d (a + m) n (r.data.drop m) r.bus rest) (hdata : m ≤ data.length) :
    Moves d a (m + n) data b { rest with data := r.data.take m ++ rest.data } := by
  refine ⟨h'.result, ?_, ?_, h'.base.trans h.base, ?_⟩
  · rw [moved_add d _ a m n hdata, ← h.buffer, ← h.mem, ← h'.buffer]
  · rw [moved_add d _ a m n hdata, ← h.buffer, ← h.mem]
    exact h'.mem
  · exact (h.issues.mono (Nat.le_refl _) (by omega)).trans
      (h'.issues.mono (Nat.le_add_right _ _) (by omega))

include hok in
/-- The blocks of a piece, which are the first part of it. -/
theorem cmd53Blocks_moves (d : SdioDirection) {a k : ℕ} (data : List UInt8) {b : SdioBus}
    (hbase : b.chip.base = a / 0x10000 * 0x10000) (hwindow : a % 0x10000 + k * 512 ≤ 0x10000)
    (hpos : 0 < k) :
    Moves d a (k * 512) data b (morsemicroSdioCmd53Raw hal outcome
      (hal.makeCmd53Arg ⟨d, .fn2, .block, a % 0x10000, k⟩) data BLOCK_SIZE_FN2 k b) := by
  refine cmd53Raw_moves hal hok ⟨d, .fn2, .block, a % 0x10000, k⟩ data hbase rfl hwindow ?_ rfl
    (.inl ⟨rfl, hpos, ?_⟩)
  · rw [if_pos (by decide), BLOCK_SIZE_FN2, Nat.mul_comm]
  · simp only [CMD53_MAX_BLOCKS]
    omega

include hok in
/-- The blocks and the tail together move all of a piece. -/
theorem morseCmd53_moves (d : SdioDirection) (initial : ℤ) {a n : ℕ} (data : List UInt8)
    {b : SdioBus} (hbase : b.chip.base = a / 0x10000 * 0x10000)
    (hwindow : a % 0x10000 + n ≤ 0x10000) (haddr : a + n < 0x100000000) (hpos : 0 < n)
    (hdata : n ≤ data.length) :
    Moves d a n data b (morseCmd53 hal outcome d initial .fn2 a data n b) := by
  have hsize : SdioFunction.fn2.blockSize = 512 := rfl
  have hblocks : n / 512 % 0x10000 = n / 512 := Nat.mod_eq_of_lt (by omega)
  unfold morseCmd53
  simp only [hsize, hblocks]
  generalize hk : n / 512 = k
  split
  next hnum =>
    have hfirst := cmd53Blocks_moves hal hok d data hbase (a := a) (k := k) (by omega) hnum
    generalize morsemicroSdioCmd53Raw hal outcome _ data BLOCK_SIZE_FN2 k b = r at hfirst ⊢
    rw [if_neg (not_not.mpr hfirst.result), u32_of_lt (by omega)]
    by_cases hrest : n = k * 512
    · rw [hrest, sub32, Nat.add_sub_cancel_left, u32, Nat.mod_self, morseCmd53Tail_zero]
      exact ⟨hfirst.result, by rw [List.take_append_drop, hfirst.buffer], hfirst.mem,
        hfirst.base, hfirst.issues⟩
    · have hsecond := morseCmd53Tail_moves hal hok d .fn2 (a := a + k * 512) (n := n - k * 512)
        (r.data.drop (k * 512)) r.result (by rw [hfirst.base, hbase]; omega) (by omega)
        (by omega) (by simp only [BLOCK_SIZE_FN2]; omega)
      have h := hfirst.append hsecond (by omega)
      rwa [Nat.add_sub_cancel' (by omega), ← sub32_of_le (by omega) (by omega)] at h
  next hnum =>
    exact morseCmd53Tail_moves hal hok d .fn2 data initial hbase hwindow hpos
      (by simp only [BLOCK_SIZE_FN2]; omega)

include hok in
theorem morseCmd53Write_ok {a n : ℕ} (data : List UInt8) {b : SdioBus}
    (hbase : b.chip.base = a / 0x10000 * 0x10000) (hwindow : a % 0x10000 + n ≤ 0x10000)
    (haddr : a + n < 0x100000000) (hpos : 0 < n) (hdata : n ≤ data.length) :
    (morseCmd53Write hal outcome .fn2 a data n b).result = 0 ∧
      (morseCmd53Write hal outcome .fn2 a data n b).bus.chip.mem =
        Memory.store b.chip.mem (a + ·) (data.take n) ∧
      Issues a n n b (morseCmd53Write hal outcome .fn2 a data n b).bus := by
  have h := morseCmd53_moves hal hok .write hal.otherError data hbase hwindow haddr hpos hdata
  rw [morseCmd53Write]
  exact ⟨h.result, h.mem, h.issues⟩

/-! ### The keyhole -/

include hok in
theorem morseCmd52Write_ok (f : SdioFunction) {address : ℕ} (haddr : address < 0x20000)
    (data : UInt8) (b : SdioBus) :
    morseCmd52Write hal outcome address data f b =
      ⟨0, { b with chip     := b.chip.cmd52 ⟨.write, f, address, data⟩
                   requests := b.requests + 1 }⟩ := by
  rw [morseCmd52Write, mmhalWlanSdioCmd, hok, if_pos rfl, hal.decode_makeCmd52 _ haddr]
  rfl

theorem Chip.cmd52_keyhole (c : Chip) (f : SdioFunction) (low high access : UInt8) :
    ((c.cmd52 ⟨.write, f, MORSE_REG_ADDRESS_BASE, low⟩).cmd52
      ⟨.write, f, MORSE_REG_ADDRESS_BASE + 1, high⟩).cmd52
        ⟨.write, f, MORSE_REG_ADDRESS_BASE + 2, access⟩ = ⟨c.mem, low, high, access⟩ := by
  simp [Chip.cmd52]

/-- The window of address `a` is set, and nothing else changed. -/
structure SetsBase (a : ℕ) (b : SdioBus) (r : SdioResult) : Prop where
  result : r.result = 0
  base : r.bus.chip.base = a / 0x10000 * 0x10000
  mem : r.bus.chip.mem = b.chip.mem
  log : r.bus.log = b.log

theorem SetsBase.of_chip {a n : ℕ} {b : SdioBus} {low high access : UInt8}
    (hbase : (Chip.mk b.chip.mem low high access).base = a / 0x10000 * 0x10000) :
    SetsBase a b
      ⟨0, { b with chip := ⟨b.chip.mem, low, high, access⟩, requests := n }⟩ :=
  ⟨rfl, hbase, rfl, rfl⟩

include hok in
theorem morseAddressBaseSet_ok (f : SdioFunction) (access : UInt8) {a : ℕ}
    (haddr : a < 0x100000000) (b : SdioBus) :
    SetsBase a b (morseAddressBaseSet hal outcome a access f b) := by
  have haccess : MORSE_REG_ADDRESS_BASE + 2 < 0x20000 := by decide
  have hwindow1 : MORSE_REG_ADDRESS_BASE + 1 < 0x20000 := by decide
  have hwindow0 : MORSE_REG_ADDRESS_BASE < 0x20000 := by decide
  rw [morseAddressBaseSet]
  dsimp only
  rw [morseCmd52Write_ok hal hok f hwindow0]
  dsimp only
  rw [if_neg (not_not.mpr rfl), morseCmd52Write_ok hal hok f hwindow1]
  dsimp only
  rw [if_neg (not_not.mpr rfl), morseCmd52Write_ok hal hok f haccess]
  dsimp only
  rw [Chip.cmd52_keyhole]
  apply SetsBase.of_chip
  simp only [Chip.base, UInt8.toNat_ofNat']
  omega

/-! ### The rounds of the loops -/

/-- As much as is left of the range, or of the window. -/
theorem transferSize_eq {a len : ℕ} (h : a < 0xFFFF0000) :
    transferSize a len = min len (0x10000 - a % 0x10000) := by
  have hmax : BLOCK_SIZE_FN2 * CMD53_MAX_BLOCKS = 0x10000 := rfl
  have hboundary : u32 (a / 0x10000 * 0x10000 + 0x10000) = a / 0x10000 * 0x10000 + 0x10000 :=
    u32_of_lt (by omega)
  have hend : u32 (a + min len 0x10000) = a + min len 0x10000 := u32_of_lt (by omega)
  have hrest : sub32 (a / 0x10000 * 0x10000 + 0x10000) a = a / 0x10000 * 0x10000 + 0x10000 - a :=
    sub32_of_le (by omega) (by omega)
  simp only [transferSize, hmax, hboundary, hend, hrest]
  split <;> omega

theorem transferSize_le {a len : ℕ} (h : a + len ≤ 0xFFFF0000) (hpos : 0 < len) :
    0 < transferSize a len ∧ transferSize a len ≤ len ∧
      a % 0x10000 + transferSize a len ≤ 0x10000 := by
  rw [transferSize_eq (by omega)]
  omega

theorem Issues.of_setsBase {address len n a : ℕ} {b b' : SdioBus} {r : SdioResult}
    (hset : SetsBase a b r) (h : Issues address len n r.bus b') : Issues address len n b b' := by
  have hissues := (Issues.of_log_eq address len hset.log).trans h
  rwa [Nat.zero_add] at hissues

include hok in
/-- A round of the write loop moves the front of what is left. -/
theorem writeLoop_succ (fuel : ℕ) {a len : ℕ} {data : List UInt8} (result : ℤ) (b : SdioBus)
    (hrange : a + len ≤ 0xFFFF0000) (hpos : 0 < len) (hdata : data.length = len) :
    ∃ b', b'.chip.mem = Memory.store b.chip.mem (a + ·) (data.take (transferSize a len)) ∧
      Issues a (transferSize a len) (transferSize a len) b b' ∧
      writeLoop hal outcome (fuel + 1) a data len result b =
        writeLoop hal outcome fuel (a + transferSize a len) (data.drop (transferSize a len))
          (len - transferSize a len) 0 b' := by
  obtain ⟨hsize, hle, hwindow⟩ := transferSize_le hrange hpos
  have hset := morseAddressBaseSet_ok hal hok .fn2 MORSE_CONFIG_ACCESS_4BYTE (a := a)
    (by omega) b
  obtain ⟨hresult, hmem, hissues⟩ := morseCmd53Write_ok hal hok data hset.base hwindow
    (by omega) hsize (by omega)
  refine ⟨_, by rw [hmem, hset.mem], .of_setsBase hset hissues, ?_⟩
  rw [writeLoop, if_neg (by omega)]
  simp only [hset.result, hresult, ne_eq, not_true_eq_false, if_false]
  rw [u32_of_lt (by omega), sub32_of_le (by omega) hle]

/-- The pieces of a range, the first one of `n` bytes. -/
theorem Issues.append {a len n k m : ℕ} {b b' b'' : SdioBus} (hle : n ≤ len)
    (h : Issues a n k b b') (h' : Issues (a + n) (len - n) m b' b'') :
    Issues a len (k + m) b b'' :=
  (h.mono (Nat.le_refl _) (by omega)).trans (h'.mono (Nat.le_add_right _ _) (by omega))

include hok in
theorem writeLoop_ok (fuel : ℕ) {a len : ℕ} {data : List UInt8} (result : ℤ) (b : SdioBus)
    (hfuel : len ≤ fuel) (hrange : a + len ≤ 0xFFFF0000) (hdata : data.length = len)
    (hresult : len = 0 → result = 0) :
    ∃ r, writeLoop hal outcome fuel a data len result b = some r ∧ r.result = 0 ∧
      r.bus.chip.mem = Memory.store b.chip.mem (a + ·) data ∧ Issues a len len b r.bus := by
  induction fuel generalizing a len data result b with
  | zero =>
    obtain rfl := Nat.le_zero.mp hfuel
    rw [List.eq_nil_of_length_eq_zero hdata]
    exact ⟨_, rfl, hresult rfl, rfl, .of_log_eq _ _ rfl⟩
  | succ fuel ih =>
    rcases Nat.eq_zero_or_pos len with rfl | hpos
    · rw [List.eq_nil_of_length_eq_zero hdata]
      exact ⟨_, rfl, hresult rfl, rfl, .of_log_eq _ _ rfl⟩
    · obtain ⟨b', hmem, hissues, hround⟩ :=
        writeLoop_succ hal hok fuel result b hrange hpos hdata
      obtain ⟨hsize, hle, -⟩ := transferSize_le hrange hpos
      generalize transferSize a len = n at *
      have hdrop : (data.drop n).length = len - n := by rw [List.length_drop, hdata]
      obtain ⟨r, hr, hzero, hrmem, hrissues⟩ :=
        ih 0 b' (a := a + n) (by omega) (by omega) hdrop fun _ => rfl
      refine ⟨r, hround.trans hr, hzero, ?_, ?_⟩
      · have hlen : (data.take n).length = n := by rw [List.length_take, hdata, Nat.min_eq_left hle]
        have happend := Memory.store_append b.chip.mem (a + ·) (data.take n) (data.drop n)
        rw [List.take_append_drop, hlen, ← hmem] at happend
        simp only [hrmem, happend, Nat.add_assoc]
      · have h := hissues.append hle hrissues
        rwa [Nat.add_sub_cancel' hle] at h

/-- Whether a piece is long enough to compare, and starts with the same word twice. -/
def reread (mem : ℕ → UInt8) (a n : ℕ) : ℕ :=
  if 8 ≤ n ∧ firstWordRepeats (Memory.load mem (a + ·) n) then 1 else 0

/-- The pieces of a range that are reread. -/
def rereads (mem : ℕ → UInt8) : ℕ → ℕ → ℕ → ℕ
  | 0, _, _ => 0
  | rounds + 1, a, len =>
    if len = 0 then 0
    else
      reread mem a (transferSize a len) +
        rereads mem rounds (a + transferSize a len) (len - transferSize a len)

/-- The comparison looks at the first eight bytes only. -/
theorem firstWordRepeats_append {xs : List UInt8} (ys : List UInt8) (h : 8 ≤ xs.length) :
    firstWordRepeats (xs ++ ys) = firstWordRepeats xs := by
  rw [firstWordRepeats, firstWordRepeats, List.take_append_of_le_length (by omega),
    List.drop_append_of_le_length (by omega),
    List.take_append_of_le_length (by rw [List.length_drop]; omega)]

/-- Reading the front of what is already there changes nothing. -/
theorem load_append_drop (mem : ℕ → UInt8) (loc : ℕ → ℕ) {m n : ℕ} (h : m ≤ n)
    (data : List UInt8) :
    Memory.load mem loc m ++ (Memory.load mem loc n ++ data).drop m =
      Memory.load mem loc n ++ data := by
  obtain ⟨k, rfl⟩ := Nat.exists_eq_add_of_le h
  rw [Memory.load_add, List.append_assoc, List.drop_left' (Memory.load_length _ _ _)]

include hok in
/-- With or without the second read, the buffer has what is in memory. -/
theorem readPiece_ok {a n : ℕ} (data : List UInt8) {b : SdioBus}
    (hbase : b.chip.base = a / 0x10000 * 0x10000) (hwindow : a % 0x10000 + n ≤ 0x10000)
    (haddr : a + n < 0x100000000) (hpos : 0 < n) (hdata : n ≤ data.length) :
    (readPiece hal outcome a data n b).data =
        Memory.load b.chip.mem (a + ·) n ++ data.drop n ∧
      (readPiece hal outcome a data n b).bus.chip.mem = b.chip.mem ∧
      Issues a n (n + 8 * reread b.chip.mem a n) b (readPiece hal outcome a data n b).bus := by
  have hfirst := morseCmd53_moves hal hok .read (-1) data hbase hwindow haddr hpos hdata
  have hrepeats (h : 8 ≤ n) : firstWordRepeats (morseCmd53Read hal outcome .fn2 a data n b).data =
      firstWordRepeats (Memory.load b.chip.mem (a + ·) n) := by
    rw [morseCmd53Read, hfirst.buffer, moved]
    exact firstWordRepeats_append _ (by rwa [Memory.load_length])
  unfold readPiece reread
  by_cases hagain : 8 ≤ n ∧ firstWordRepeats (Memory.load b.chip.mem (a + ·) n)
  · have hsecond := morseCmd53_moves hal hok .read (-1) (n := 8)
      (morseCmd53Read hal outcome .fn2 a data n b).data (hfirst.base.trans hbase) (by omega)
      (by omega) (by omega) (by
        rw [morseCmd53Read, hfirst.buffer, moved, List.length_append, Memory.load_length]
        omega)
    rw [if_pos ⟨hagain.1, hrepeats hagain.1 ▸ hagain.2⟩, if_pos hagain]
    refine ⟨?_, hsecond.mem.trans hfirst.mem,
      hfirst.issues.trans (hsecond.issues.mono (Nat.le_refl _) (by omega))⟩
    apply hsecond.buffer.trans
    simp only [morseCmd53Read, hfirst.buffer, hfirst.mem, moved]
    exact load_append_drop _ _ hagain.1 _
  · have hnot : ¬(8 ≤ n ∧ firstWordRepeats (morseCmd53Read hal outcome .fn2 a data n b).data) :=
      fun h => hagain ⟨h.1, hrepeats h.1 ▸ h.2⟩
    rw [if_neg hnot, if_neg hagain]
    exact ⟨hfirst.buffer, hfirst.mem, hfirst.issues⟩

include hok in
/-- A round of the read loop fills the front of what is left. -/
theorem readLoop_succ (fuel : ℕ) {a len : ℕ} {data : List UInt8} (result : ℤ) (b : SdioBus)
    (hrange : a + len ≤ 0xFFFF0000) (hpos : 0 < len) (hdata : data.length = len) :
    ∃ b', b'.chip.mem = b.chip.mem ∧
      Issues a (transferSize a len)
        (transferSize a len + 8 * reread b.chip.mem a (transferSize a len)) b b' ∧
      readLoop hal outcome (fuel + 1) a data len result b =
        (readLoop hal outcome fuel (a + transferSize a len) (data.drop (transferSize a len))
          (len - transferSize a len) 0 b').map fun rest =>
            { rest with
              data := Memory.load b.chip.mem (a + ·) (transferSize a len) ++ rest.data } := by
  obtain ⟨hsize, hle, hwindow⟩ := transferSize_le hrange hpos
  have hset := morseAddressBaseSet_ok hal hok .fn2 MORSE_CONFIG_ACCESS_4BYTE (a := a)
    (by omega) b
  obtain ⟨hbuffer, hmem, hissues⟩ := readPiece_ok hal hok data hset.base hwindow
    (by omega) hsize (by omega)
  rw [hset.mem] at hbuffer hmem hissues
  refine ⟨_, hmem, .of_setsBase hset hissues, ?_⟩
  rw [readLoop, if_neg (by omega)]
  simp only [hset.result, hbuffer, ne_eq, not_true_eq_false, if_false]
  rw [u32_of_lt (by omega), sub32_of_le (by omega) hle]
  simp only [List.take_left' (Memory.load_length _ _ _), List.drop_left' (Memory.load_length _ _ _)]

include hok in
theorem readLoop_ok (fuel : ℕ) {a len : ℕ} {data : List UInt8} (result : ℤ) (b : SdioBus)
    (hfuel : len ≤ fuel) (hrange : a + len ≤ 0xFFFF0000) (hdata : data.length = len)
    (hresult : len = 0 → result = 0) :
    ∃ r, readLoop hal outcome fuel a data len result b = some r ∧ r.result = 0 ∧
      r.data = Memory.load b.chip.mem (a + ·) len ∧ r.bus.chip.mem = b.chip.mem ∧
      Issues a len (len + 8 * rereads b.chip.mem fuel a len) b r.bus := by
  induction fuel generalizing a len data result b with
  | zero =>
    obtain rfl := Nat.le_zero.mp hfuel
    rw [List.eq_nil_of_length_eq_zero hdata]
    exact ⟨_, rfl, hresult rfl, rfl, rfl, .of_log_eq _ _ rfl⟩
  | succ fuel ih =>
    rcases Nat.eq_zero_or_pos len with rfl | hpos
    · rw [List.eq_nil_of_length_eq_zero hdata]
      exact ⟨_, rfl, hresult rfl, rfl, rfl, .of_log_eq _ _ rfl⟩
    · obtain ⟨b', hmem, hissues, hround⟩ :=
        readLoop_succ hal hok fuel result b hrange hpos hdata
      obtain ⟨hsize, hle, -⟩ := transferSize_le hrange hpos
      rw [rereads, if_neg (by omega)]
      generalize transferSize a len = n at *
      have hdrop : (data.drop n).length = len - n := by rw [List.length_drop, hdata]
      obtain ⟨r, hr, hzero, hrdata, hrmem, hrissues⟩ :=
        ih 0 b' (a := a + n) (by omega) (by omega) hdrop fun _ => rfl
      refine ⟨_, hround.trans (congrArg _ hr), hzero, ?_, hrmem.trans hmem, ?_⟩
      · have hsplit := Memory.load_add b.chip.mem (a + ·) n (len - n)
        rw [Nat.add_sub_cancel' hle] at hsplit
        simp only [hrdata, hmem, hsplit, Nat.add_assoc]
      · have h := hissues.append hle hrissues
        rw [hmem] at h
        convert h using 1
        omega

end FaultFree

/-! ### Write, then read -/

/-- On a bus without faults, a bulk write changes its range and nothing else, and a bulk
read of it gives the data back. Both issue commands that keep to their windows. The
write's add up to the length, the read's have 8 bytes more for each piece reread. -/
theorem bulkTransfer_roundTrip (hal : Mmhal) {outcome : ℕ → ℤ} (hok : ∀ n, outcome n = 0)
    {fuel address len : ℕ} {data buffer : List UInt8} (b : SdioBus) (hlen : len ≠ 0)
    (hword : len % 4 = 0) (hrange : address + len ≤ 0xFFFF0000) (hdata : data.length = len)
    (hbuffer : buffer.length = len) (hfuel : len ≤ fuel) :
    ∃ w r, sdioSpiWriteMultiByte hal outcome fuel address data len b = some w ∧
      w.result = 0 ∧
      (∀ i (hi : i < data.length), w.bus.chip.mem (address + i) = data[i]) ∧
      (∀ x, x < address ∨ address + len ≤ x → w.bus.chip.mem x = b.chip.mem x) ∧
      Issues address len len b w.bus ∧
      sdioSpiReadMultiByte hal outcome fuel address buffer len w.bus = some r ∧
      r.result = 0 ∧ r.data = data ∧ r.bus.chip.mem = w.bus.chip.mem ∧
      Issues address len (len + 8 * rereads w.bus.chip.mem fuel address len) w.bus r.bus := by
  have hloc : Function.Injective (address + ·) :=
    fun i j h => Nat.add_left_cancel h
  have hvalid : ¬(len = 0 ∨ len % 4 ≠ 0) := by omega
  obtain ⟨w, hw, hwzero, hwmem, hwissues⟩ := writeLoop_ok hal hok fuel (-1) b hfuel hrange
    hdata fun h => absurd h hlen
  obtain ⟨r, hr, hrzero, hrdata, hrmem, hrissues⟩ := readLoop_ok hal hok fuel (-1) w.bus hfuel
    hrange hbuffer fun h => absurd h hlen
  refine ⟨w, r, (if_neg hvalid).trans hw, hwzero, fun i hi => ?_, fun x hx => ?_, hwissues,
    (if_neg hvalid).trans hr, hrzero, ?_, hrmem, hrissues⟩
  · rw [hwmem]
    exact Memory.store_inside _ hloc data i hi
  · rw [hwmem]
    exact Memory.store_outside _ _ _ _ fun i hi => by omega
  · rw [hrdata, hwmem, ← hdata]
    exact Memory.load_store _ hloc data

/-! ### The words of the SDIO specification -/

def SdioDirection.bit : SdioDirection → ℕ
  | .read => 0
  | .write => 1

def SdioFunction.number : SdioFunction → ℕ
  | .fn0 => 0
  | .fn1 => 1
  | .fn2 => 2

def SdioMode.bit : SdioMode → ℕ
  | .byte => 0
  | .block => 1

def SdioDirection.ofBit (n : ℕ) : SdioDirection := if n = 0 then .read else .write

def SdioFunction.ofNumber (n : ℕ) : SdioFunction :=
  if n = 0 then .fn0 else if n = 1 then .fn1 else .fn2

def SdioMode.ofBit (n : ℕ) : SdioMode := if n = 0 then .byte else .block

theorem SdioDirection.ofBit_bit (d : SdioDirection) : ofBit d.bit = d := by
  cases d <;> rfl

theorem SdioFunction.ofNumber_number (f : SdioFunction) : ofNumber f.number = f := by
  cases f <;> rfl

theorem SdioMode.ofBit_bit (m : SdioMode) : ofBit m.bit = m := by
  cases m <;> rfl

theorem SdioDirection.bit_le (d : SdioDirection) : d.bit ≤ 1 := by
  cases d <;> decide

theorem SdioFunction.number_le (f : SdioFunction) : f.number ≤ 2 := by
  cases f <;> decide

theorem SdioMode.bit_le (m : SdioMode) : m.bit ≤ 1 := by
  cases m <;> decide

/-- Direction, function, block mode, incrementing address, address, count or data. -/
def sdioWordHal : Mmhal where
  makeCmd52Arg c :=
    c.direction.bit * 0x80000000 + c.function.number * 0x10000000 + c.address % 0x20000 * 0x200 +
      c.data.toNat
  makeCmd53Arg c :=
    c.direction.bit * 0x80000000 + c.function.number * 0x10000000 + c.mode.bit * 0x8000000 +
      0x4000000 + c.address % 0x20000 * 0x200 + c.count % 0x200
  decodeCmd52 n :=
    ⟨.ofBit (n / 0x80000000), .ofNumber (n / 0x10000000 % 8), n / 0x200 % 0x20000, .ofNat n⟩
  decodeCmd53 n :=
    ⟨.ofBit (n / 0x80000000), .ofNumber (n / 0x10000000 % 8), .ofBit (n / 0x8000000 % 2),
      n / 0x200 % 0x20000, n % 0x200⟩
  decode_makeCmd52 := by
    rintro ⟨d, f, a, v⟩ ha
    have hd := d.bit_le
    have hf := f.number_le
    have hv := v.toNat_lt
    have haddr : a < 0x20000 := ha
    simp only [Cmd52.mk.injEq]
    refine ⟨?_, ?_, by omega, ?_⟩
    · rw [← d.ofBit_bit]
      congr 1
      rw [d.ofBit_bit]
      omega
    · rw [← f.ofNumber_number]
      congr 1
      rw [f.ofNumber_number]
      omega
    · rw [← UInt8.toNat_inj, UInt8.toNat_ofNat']
      omega
  decode_makeCmd53 := by
    rintro ⟨d, f, m, a, n⟩ ha hn
    have hd := d.bit_le
    have hf := f.number_le
    have hm := m.bit_le
    have haddr : a < 0x20000 := ha
    have hcount : n < 0x200 := hn
    simp only [Cmd53.mk.injEq]
    refine ⟨?_, ?_, ?_, by omega, by omega⟩
    · rw [← d.ofBit_bit]
      congr 1
      rw [d.ofBit_bit]
      omega
    · rw [← f.ofNumber_number]
      congr 1
      rw [f.ofNumber_number]
      omega
    · rw [← m.ofBit_bit]
      congr 1
      rw [m.ofBit_bit]
      omega
  invalidArgument    := -1
  cmdTimeout         := -2
  dataTimeout        := -4
  otherError         := -7
  invalidArgument_ne := by decide
  cmdTimeout_ne      := by decide
  dataTimeout_ne     := by decide
  otherError_ne      := by decide

def clearedBus : SdioBus := ⟨⟨fun _ => 0xFF, 0, 0, 0⟩, 0, []⟩

/-- Two words on each side of a window's end, the first two of them equal. -/
def crossingData : List UInt8 := [1, 2, 3, 4, 1, 2, 3, 4, 5, 6, 7, 8, 9, 10, 11, 12]

theorem bulkTransfer_roundTrip_crossing :
    ∃ w r, sdioSpiWriteMultiByte sdioWordHal (fun _ => 0) 16 0xFFF8 crossingData 16 clearedBus =
        some w ∧ w.result = 0 ∧
      sdioSpiReadMultiByte sdioWordHal (fun _ => 0) 16 0xFFF8 (List.replicate 16 0) 16 w.bus =
        some r ∧ r.result = 0 ∧ r.data = crossingData := by
  obtain ⟨w, r, hw, hwzero, -, -, -, hr, hrzero, hdata, -⟩ :=
    @bulkTransfer_roundTrip sdioWordHal (fun _ => 0) (fun _ => rfl) 16 0xFFF8 16 crossingData
      (List.replicate 16 0) clearedBus (by decide) rfl (by decide) rfl rfl (Nat.le_refl _)
  exact ⟨w, r, hw, hwzero, hr, hrzero, hdata⟩

/-- Reading eight zero bytes moves sixteen. -/
theorem zeroRead_moves_more :
    ∃ w r, sdioSpiWriteMultiByte sdioWordHal (fun _ => 0) 8 0 (List.replicate 8 0) 8 clearedBus =
        some w ∧ w.result = 0 ∧
      sdioSpiReadMultiByte sdioWordHal (fun _ => 0) 8 0 (List.replicate 8 0) 8 w.bus = some r ∧
      r.result = 0 ∧ ¬Issues 0 8 8 w.bus r.bus := by
  refine ⟨_, _, rfl, rfl, rfl, rfl, ?_⟩
  rintro ⟨new, hlog, -, hsum⟩
  have hmoved := congrArg (fun log => (log.map Cmd53Record.bytes).sum) hlog
  rw [List.map_append, List.sum_append, hsum] at hmoved
  exact absurd hmoved (by decide)

end MmIot
