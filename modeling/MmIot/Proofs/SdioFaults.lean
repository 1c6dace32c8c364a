import MmIot.Proofs.SdioSpi

/-! Bulk transfers on a bus whose operations fail. A write stops at the first failure and
reports it. A read does so only for a CMD52; it looks at the result of no CMD53. -/

namespace MmIot

/-! ### Operations up to the first failure -/

/-- `n` operations are made, or as many as it takes to meet a failure, which is reported. -/
inductive StopsAtFault (outcome : ℕ → ℤ) (n : ℕ) (b : SdioBus) (r : SdioResult) : Prop
  | done (hresult : r.result = 0) (hcount : r.bus.requests = b.requests + n)
      (hok : ∀ i < n, outcome (b.requests + i) = 0)
  | failed (k : ℕ) (hk : k < n) (hresult : r.result ≠ 0)
      (hcount : r.bus.requests = b.requests + k + 1)
      (hok : ∀ i < k, outcome (b.requests + i) = 0) (hfault : outcome (b.requests + k) ≠ 0)

/-- A failure among the operations of a transfer ends it, with a non-zero result. -/
def ReportsFaults (outcome : ℕ → ℤ) (b : SdioBus) (r : SdioResult) : Prop :=
  ∀ i, b.requests ≤ i → i < r.bus.requests → outcome i ≠ 0 →
    r.result ≠ 0 ∧ r.bus.requests = i + 1

section Stops

variable {outcome : ℕ → ℤ} {n m : ℕ} {b : SdioBus} {r r' : SdioResult}

/-- The next operations are made if the first ones succeed. -/
theorem StopsAtFault.bind (h : StopsAtFault outcome n b r)
    (h' : r.result = 0 → StopsAtFault outcome m r.bus r') :
    StopsAtFault outcome (n + m) b (if r.result ≠ 0 then r else r') := by
  cases h with
  | failed k hk hresult hcount hok hfault =>
    rw [if_pos hresult]
    exact .failed k (Nat.lt_add_right m hk) hresult hcount hok hfault
  | done hresult hcount hok =>
    have hall {k : ℕ} (hrest : ∀ i < k, outcome (r.bus.requests + i) = 0) :
        ∀ i < n + k, outcome (b.requests + i) = 0 := by
      intro i hi
      rcases Nat.lt_or_ge i n with hlt | hge
      · exact hok i hlt
      · have := hrest (i - n) (by omega)
        rwa [hcount, Nat.add_assoc, Nat.add_sub_cancel' hge] at this
    rw [if_neg (not_not.mpr hresult)]
    rcases h' hresult with ⟨hresult', hcount', hok'⟩ | ⟨k, hk, hresult', hcount', hok', hfault⟩
    · exact .done hresult' (by omega) (hall hok')
    · rw [hcount] at hfault
      refine .failed (n + k) (by omega) hresult' (by omega) (hall hok') ?_
      rwa [← Nat.add_assoc]

theorem StopsAtFault.next (h : StopsAtFault outcome n b r) (hzero : r.result = 0)
    (h' : StopsAtFault outcome m r.bus r') : StopsAtFault outcome (n + m) b r' := by
  have hbind := h.bind fun _ => h'
  rwa [if_neg (not_not.mpr hzero)] at hbind

theorem StopsAtFault.result_iff (h : StopsAtFault outcome n b r) :
    r.result = 0 ↔ ∀ i < n, outcome (b.requests + i) = 0 := by
  cases h with
  | done hresult hcount hok => exact iff_of_true hresult hok
  | failed k hk hresult hcount hok hfault => exact iff_of_false hresult fun hall => hfault (hall k hk)

theorem StopsAtFault.count_of_result (h : StopsAtFault outcome n b r) (hzero : r.result = 0) :
    r.bus.requests = b.requests + n := by
  cases h with
  | done hresult hcount hok => exact hcount
  | failed k hk hresult hcount hok hfault => exact absurd hzero hresult

theorem StopsAtFault.le (h : StopsAtFault outcome n b r) : b.requests ≤ r.bus.requests := by
  cases h <;> omega

theorem StopsAtFault.lt (h : StopsAtFault outcome n b r) (hn : 0 < n) :
    b.requests < r.bus.requests := by
  cases h <;> omega

theorem StopsAtFault.reports (h : StopsAtFault outcome n b r) : ReportsFaults outcome b r := by
  intro i hle hlt hne
  cases h with
  | done hresult hcount hok =>
    have hzero := hok (i - b.requests) (by omega)
    rw [Nat.add_sub_cancel' hle] at hzero
    exact absurd hzero hne
  | failed k hk hresult hcount hok hfault =>
    refine ⟨hresult, ?_⟩
    rcases Nat.lt_or_ge i (b.requests + k) with hbefore | hge
    · have hzero := hok (i - b.requests) (by omega)
      rw [Nat.add_sub_cancel' hle] at hzero
      exact absurd hzero hne
    · omega

end Stops

/-- The outcomes on a bus without faults. -/
def faultFree : ℕ → ℤ := fun _ => 0

theorem faultFree_ok (n : ℕ) : faultFree n = 0 := rfl

section Faults

variable (hal : Mmhal) (outcome outcome' : ℕ → ℤ)

/-! ### One command -/

theorem mapCmdError_ne {ret : ℤ} (h : ret ≠ 0) : morsemicroSdioMapCmdError hal ret ≠ 0 := by
  unfold morsemicroSdioMapCmdError
  rw [if_neg h]
  split
  · exact hal.cmdTimeout_ne
  · exact hal.otherError_ne

theorem mapDataError_ne {ret : ℤ} (h : ret ≠ 0) : morsemicroSdioMapDataError hal ret ≠ 0 := by
  unfold morsemicroSdioMapDataError
  rw [if_neg h]
  split
  · exact hal.dataTimeout_ne
  · exact hal.otherError_ne

theorem morseCmd52Write_stops (address : ℕ) (data : UInt8) (f : SdioFunction) (b : SdioBus) :
    StopsAtFault outcome 1 b (morseCmd52Write hal outcome address data f b) := by
  by_cases h : outcome b.requests = 0
  · refine .done ?_ rfl fun i hi => ?_
    · simp only [morseCmd52Write, mmhalWlanSdioCmd, h]
      rfl
    · rw [Nat.lt_one_iff.mp hi]
      exact h
  · refine .failed 0 Nat.zero_lt_one (mapCmdError_ne hal h) rfl (fun i hi => ?_) h
    exact absurd hi (Nat.not_lt_zero i)

theorem morseAddressBaseSet_stops (address : ℕ) (access : UInt8) (f : SdioFunction)
    (b : SdioBus) :
    StopsAtFault outcome 3 b (morseAddressBaseSet hal outcome address access f b) := by
  have h := morseCmd52Write_stops hal outcome
  exact (h _ _ f b).bind fun _ => (h _ _ f _).bind fun _ => h _ _ f _

theorem sdhcRequest_requests (arg blockSize blocks : ℕ) (data : List UInt8) (b : SdioBus) :
    (sdhcRequest hal outcome arg blockSize blocks data b).bus.requests = b.requests + 1 := by
  unfold sdhcRequest
  dsimp only
  split
  · rfl
  · split
    · rfl
    · cases (hal.decodeCmd53 arg).direction <;> rfl

theorem cmd53Raw_requests (arg blockSize length : ℕ) (data : List UInt8) (b : SdioBus) :
    (morsemicroSdioCmd53Raw hal outcome arg data blockSize length b).bus.requests =
      b.requests + 1 := by
  unfold morsemicroSdioCmd53Raw
  split <;> exact sdhcRequest_requests hal outcome _ _ _ data b

theorem cmd53Raw_fault (arg blockSize length : ℕ) (data : List UInt8) {b : SdioBus}
    (h : outcome b.requests ≠ 0) :
    (morsemicroSdioCmd53Raw hal outcome arg data blockSize length b).result ≠ 0 := by
  have hrequest (blockSize blocks : ℕ) :
      (sdhcRequest hal outcome arg blockSize blocks data b).result ≠ 0 := by
    unfold sdhcRequest
    simp only [h, false_and, if_false, ne_eq, not_false_eq_true, if_true]
  unfold morsemicroSdioCmd53Raw
  split <;> exact mapDataError_ne hal (hrequest _ _)

/-- A command depends on its own outcome only. -/
theorem cmd53Raw_congr (arg blockSize length : ℕ) (data : List UInt8) {b : SdioBus}
    (h : outcome b.requests = outcome' b.requests) :
    morsemicroSdioCmd53Raw hal outcome arg data blockSize length b =
      morsemicroSdioCmd53Raw hal outcome' arg data blockSize length b := by
  simp only [morsemicroSdioCmd53Raw, sdhcRequest, h]

/-- A command that moves `n` bytes if it succeeds. -/
theorem cmd53Raw_stops (d : SdioDirection) {a n : ℕ} (arg blockSize length : ℕ)
    (data : List UInt8) (b : SdioBus)
    (hmoves : Moves d a n data b
      (morsemicroSdioCmd53Raw hal faultFree arg data blockSize length b)) :
    StopsAtFault outcome 1 b
      (morsemicroSdioCmd53Raw hal outcome arg data blockSize length b).toSdioResult := by
  have hcount := cmd53Raw_requests hal outcome arg blockSize length data b
  by_cases h : outcome b.requests = 0
  · refine .done ?_ hcount fun i hi => ?_
    · rw [cmd53Raw_congr hal outcome faultFree arg blockSize length data h]
      exact hmoves.result
    · rw [Nat.lt_one_iff.mp hi]
      exact h
  · exact .failed 0 Nat.zero_lt_one (cmd53Raw_fault hal outcome arg blockSize length data h)
      hcount nofun h

/-! ### A piece -/

/-- How many commands a piece of `n` bytes takes. -/
def cmd53Count (n : ℕ) : ℕ := (if 0 < n / 512 then 1 else 0) + if 0 < n % 512 then 1 else 0

theorem morseCmd53Tail_stops (d : SdioDirection) (f : SdioFunction) {a n : ℕ} (data : List UInt8)
    {b : SdioBus} (result : ℤ) (hbase : b.chip.base = a / 0x10000 * 0x10000)
    (hwindow : a % 0x10000 + n ≤ 0x10000) (hpos : 0 < n) (hlt : n < BLOCK_SIZE_FN2) :
    StopsAtFault outcome 1 b (morseCmd53Tail hal outcome d f a data n result b).toSdioResult := by
  have hmoves := morseCmd53Tail_moves hal faultFree_ok d f data result hbase
    hwindow hpos hlt
  unfold morseCmd53Tail at hmoves ⊢
  rw [if_pos hpos] at hmoves ⊢
  exact cmd53Raw_stops hal outcome d _ _ _ data b hmoves

theorem morseCmd53_stops (d : SdioDirection) (initial : ℤ) {a n : ℕ} (data : List UInt8)
    {b : SdioBus} (hbase : b.chip.base = a / 0x10000 * 0x10000)
    (hwindow : a % 0x10000 + n ≤ 0x10000) (haddr : a + n ≤ 0x100000000) (hpos : 0 < n) :
    StopsAtFault outcome (cmd53Count n) b
      (morseCmd53 hal outcome d initial .fn2 a data n b).toSdioResult := by
  have hsize : SdioFunction.fn2.blockSize = 512 := rfl
  have hblocks : n / 512 % 0x10000 = n / 512 := Nat.mod_eq_of_lt (by omega)
  have hmod := Nat.div_add_mod n 512
  unfold morseCmd53 cmd53Count
  simp only [hsize, hblocks]
  generalize n / 512 = k at hmod ⊢
  split
  next hnum =>
    have hmoves := cmd53Blocks_moves hal faultFree_ok d data hbase
      (a := a) (k := k) (by omega) hnum
    have hfirst := cmd53Raw_stops hal outcome d _ _ _ data b hmoves
    rw [apply_ite SdioTransfer.toSdioResult]
    refine hfirst.bind fun hzero => ?_
    have hok : outcome b.requests = 0 := hfirst.result_iff.mp hzero 0 Nat.zero_lt_one
    rw [← cmd53Raw_congr hal outcome faultFree _ _ _ data hok] at hmoves
    generalize morsemicroSdioCmd53Raw hal outcome _ data BLOCK_SIZE_FN2 k b = r at hmoves ⊢
    have hleft : sub32 n (k * 512) = n - k * 512 := sub32_of_le (by omega) (by omega)
    by_cases hrest : n % 512 = 0
    · rw [hleft, show n - k * 512 = 0 by omega, morseCmd53Tail_zero, if_neg (by omega)]
      exact .done hmoves.result rfl nofun
    · rw [hleft, if_pos (Nat.pos_of_ne_zero hrest), u32_of_lt (by omega)]
      exact morseCmd53Tail_stops hal outcome d .fn2 (a := a + k * 512) (n := n - k * 512) _ _
        (by rw [hmoves.base, hbase]; omega) (by omega) (by omega) (by rw [BLOCK_SIZE_FN2]; omega)
  next hnum =>
    rw [Nat.zero_add, if_pos (by omega)]
    exact morseCmd53Tail_stops hal outcome d .fn2 data initial hbase hwindow hpos
      (by rw [BLOCK_SIZE_FN2]; omega)

/-! ### The keyhole -/

theorem morseCmd52Write_congr (address : ℕ) (data : UInt8) (f : SdioFunction) {b : SdioBus}
    (h : outcome b.requests = outcome' b.requests) :
    morseCmd52Write hal outcome address data f b = morseCmd52Write hal outcome' address data f b := by
  simp only [morseCmd52Write, mmhalWlanSdioCmd, h]

theorem morseAddressBaseSet_congr (a : ℕ) (access : UInt8) (f : SdioFunction) {b : SdioBus}
    (h : ∀ i < 3, outcome (b.requests + i) = outcome' (b.requests + i)) :
    morseAddressBaseSet hal outcome a access f b = morseAddressBaseSet hal outcome' a access f b := by
  have hwrite := morseCmd52Write_congr hal outcome outcome'
  unfold morseAddressBaseSet
  dsimp only
  rw [hwrite _ _ f (h 0 (by omega))]
  split
  · rfl
  · rw [hwrite _ _ f (h 1 (by omega))]
    split
    · rfl
    · exact hwrite _ _ f (h 2 (by omega))

theorem morseAddressBaseSet_setsBase (f : SdioFunction) (access : UInt8) {a : ℕ}
    (haddr : a < 0x100000000) {b : SdioBus}
    (h : (morseAddressBaseSet hal outcome a access f b).result = 0) :
    SetsBase a b (morseAddressBaseSet hal outcome a access f b) := by
  have hok := (morseAddressBaseSet_stops hal outcome a access f b).result_iff.mp h
  rw [morseAddressBaseSet_congr hal outcome faultFree a access f hok]
  exact morseAddressBaseSet_ok hal faultFree_ok f access haddr b

/-! ### Writes -/

/-- The loop of a bulk write stops at the first failure, wherever it is. -/
theorem writeLoop_stops (fuel : ℕ) {a len : ℕ} (data : List UInt8) (result : ℤ) (b : SdioBus)
    (hfuel : len ≤ fuel) (hrange : a + len ≤ 0xFFFF0000) (hresult : len = 0 → result = 0) :
    ∃ r n, writeLoop hal outcome fuel a data len result b = some r ∧
      StopsAtFault outcome n b r := by
  induction fuel generalizing a len data result b with
  | zero =>
    obtain rfl := Nat.le_zero.mp hfuel
    exact ⟨_, 0, rfl, .done (hresult rfl) rfl nofun⟩
  | succ fuel ih =>
    rcases Nat.eq_zero_or_pos len with rfl | hpos
    · exact ⟨_, 0, rfl, .done (hresult rfl) rfl nofun⟩
    obtain ⟨hsize, hle, hwindow⟩ := transferSize_le hrange hpos
    have hset := morseAddressBaseSet_stops hal outcome a MORSE_CONFIG_ACCESS_4BYTE .fn2 b
    rw [writeLoop, if_neg (Nat.ne_of_gt hpos)]
    dsimp only
    by_cases hzero : (morseAddressBaseSet hal outcome a MORSE_CONFIG_ACCESS_4BYTE .fn2 b).result = 0
    · have hbase := (morseAddressBaseSet_setsBase hal outcome .fn2 MORSE_CONFIG_ACCESS_4BYTE (by omega)
        hzero).base
      rw [if_neg (not_not.mpr hzero), u32_of_lt (by omega), sub32_of_le (by omega) hle]
      generalize morseAddressBaseSet hal outcome a MORSE_CONFIG_ACCESS_4BYTE .fn2 b = set at *
      generalize transferSize a len = n at *
      have hpiece := morseCmd53_stops hal outcome .write hal.otherError data hbase
        hwindow (by omega) hsize
      rw [← morseCmd53Write] at hpiece
      by_cases hwritten : (morseCmd53Write hal outcome .fn2 a data n set.bus).result = 0
      · rw [if_neg (not_not.mpr hwritten)]
        have hleft : a + n + (len - n) ≤ 0xFFFF0000 := by omega
        obtain ⟨r, m, hr, hrest⟩ := ih (data.drop n) _
          (morseCmd53Write hal outcome .fn2 a data n set.bus).bus (by omega) hleft fun _ => hwritten
        exact ⟨r, _, hr, (hset.next hzero hpiece).next hwritten hrest⟩
      · rw [if_pos hwritten]
        exact ⟨_, _, rfl, hset.next hzero hpiece⟩
    · rw [if_pos hzero]
      exact ⟨_, _, rfl, hset⟩

/-! ### Reading a piece -/

theorem morseCmd53Tail_congr (d : SdioDirection) (f : SdioFunction) (a : ℕ) (data : List UInt8)
    (len : ℕ) (result : ℤ) {b : SdioBus}
    (h : 0 < len → outcome b.requests = outcome' b.requests) :
    morseCmd53Tail hal outcome d f a data len result b =
      morseCmd53Tail hal outcome' d f a data len result b := by
  unfold morseCmd53Tail
  split
  next hpos => exact cmd53Raw_congr hal outcome outcome' _ _ _ data (h hpos)
  next => rfl

/-- A piece depends on the outcomes of its own commands. -/
theorem morseCmd53_congr (d : SdioDirection) (initial : ℤ) (a : ℕ) {n : ℕ} (data : List UInt8)
    {b : SdioBus} (hn : n ≤ 0x10000)
    (h : ∀ i < cmd53Count n, outcome (b.requests + i) = outcome' (b.requests + i)) :
    morseCmd53 hal outcome d initial .fn2 a data n b =
      morseCmd53 hal outcome' d initial .fn2 a data n b := by
  have hsize : SdioFunction.fn2.blockSize = 512 := rfl
  have hblocks : n / 512 % 0x10000 = n / 512 := Nat.mod_eq_of_lt (by omega)
  have hmod := Nat.div_add_mod n 512
  unfold cmd53Count at h
  unfold morseCmd53
  simp only [hsize, hblocks]
  generalize n / 512 = k at hmod h ⊢
  split
  next hnum =>
    rw [if_pos hnum] at h
    have hleft : sub32 n (k * 512) = n - k * 512 := sub32_of_le (by omega) (by omega)
    rw [cmd53Raw_congr hal outcome outcome' _ _ _ data (h 0 (by omega)), hleft]
    have hcount := cmd53Raw_requests hal outcome'
      (hal.makeCmd53Arg ⟨d, .fn2, .block, a % 0x10000, k⟩) BLOCK_SIZE_FN2 k data b
    rw [morseCmd53Tail_congr hal outcome outcome']
    intro hrest
    rw [hcount]
    exact h 1 (by rw [if_pos (by omega)]; omega)
  next hnum =>
    rw [if_neg hnum] at h
    exact morseCmd53Tail_congr hal outcome outcome' _ _ _ _ _ _ fun hpos =>
      h 0 (by rw [if_pos (by omega)]; omega)

/-- The comparison sees the bytes of the chip. -/
theorem reread_of_moves {a n : ℕ} {data : List UInt8} {b : SdioBus} {r : SdioTransfer}
    (hmoves : Moves .read a n data b r) :
    reread b.chip.mem a n = if 8 ≤ n ∧ firstWordRepeats r.data then 1 else 0 := by
  unfold reread
  rw [hmoves.buffer, moved]
  by_cases h : 8 ≤ n
  · rw [firstWordRepeats_append _ (by rwa [Memory.load_length])]
  · rw [if_neg fun hand => h hand.1, if_neg fun hand => h hand.1]

/-- A piece is read as on a bus without faults, or one of its commands fails. -/
inductive PieceEnds (a n : ℕ) (data : List UInt8) (b : SdioBus) : Prop
  | ok (hok : ∀ i < cmd53Count n + reread b.chip.mem a n, outcome (b.requests + i) = 0)
      (heq : readPiece hal outcome a data n b = readPiece hal faultFree a data n b)
      (hcount : (readPiece hal outcome a data n b).bus.requests =
        b.requests + (cmd53Count n + reread b.chip.mem a n))
  | fault (i : ℕ) (hi : i < cmd53Count n + reread b.chip.mem a n)
      (hfault : outcome (b.requests + i) ≠ 0)
      (hmade : b.requests + i < (readPiece hal outcome a data n b).bus.requests)

theorem morseCmd53Tail_requests_le (d : SdioDirection) (f : SdioFunction) (a : ℕ)
    (data : List UInt8) (len : ℕ) (result : ℤ) (b : SdioBus) :
    b.requests ≤ (morseCmd53Tail hal outcome d f a data len result b).bus.requests := by
  unfold morseCmd53Tail
  split
  · rw [cmd53Raw_requests]
    exact Nat.le_succ _
  · exact Nat.le_refl _

theorem SdioTransfer.requests_with_data (r : SdioTransfer) (data : List UInt8) :
    { r with data }.bus.requests = r.bus.requests := rfl

theorem morseCmd53_requests_le (d : SdioDirection) (initial : ℤ) (f : SdioFunction) (a : ℕ)
    (data : List UInt8) (len : ℕ) (b : SdioBus) :
    b.requests ≤ (morseCmd53 hal outcome d initial f a data len b).bus.requests := by
  have hraw (arg blockSize length : ℕ) : b.requests ≤
      (morsemicroSdioCmd53Raw hal outcome arg data blockSize length b).bus.requests :=
    Nat.le_of_lt (cmd53Raw_requests hal outcome arg blockSize length data b ▸ Nat.lt_succ_self _)
  unfold morseCmd53
  dsimp only
  split
  · split
    · exact hraw _ _ _
    · rw [SdioTransfer.requests_with_data]
      exact (hraw _ _ _).trans (morseCmd53Tail_requests_le hal outcome _ _ _ _ _ _ _)
  · exact morseCmd53Tail_requests_le hal outcome _ _ _ _ _ _ _

theorem readPiece_requests_le (a : ℕ) (data : List UInt8) (n : ℕ) (b : SdioBus) :
    (morseCmd53Read hal outcome .fn2 a data n b).bus.requests ≤
      (readPiece hal outcome a data n b).bus.requests := by
  unfold readPiece
  dsimp only
  split
  · exact morseCmd53_requests_le hal outcome _ _ _ _ _ _ _
  · exact Nat.le_refl _

theorem readPiece_of_first {a n : ℕ} {data : List UInt8} {b : SdioBus} {first : SdioTransfer}
    (h : morseCmd53 hal outcome .read (-1) .fn2 a data n b = first) :
    readPiece hal outcome a data n b =
      if 8 ≤ n ∧ firstWordRepeats first.data then
        morseCmd53 hal outcome .read (-1) .fn2 a first.data 8 first.bus
      else first := by
  subst h
  rfl

theorem readPiece_ends {a n : ℕ} (data : List UInt8) {b : SdioBus}
    (hbase : b.chip.base = a / 0x10000 * 0x10000) (hwindow : a % 0x10000 + n ≤ 0x10000)
    (haddr : a + n < 0x100000000) (hpos : 0 < n) (hdata : n ≤ data.length) :
    PieceEnds hal outcome a n data b := by
  have hstops := morseCmd53_stops hal outcome .read (-1) data hbase hwindow (by omega) hpos
  rcases hstops with ⟨-, hcount, hok⟩ | ⟨k, hk, -, hcount, -, hfault⟩
  · have hfree := morseCmd53_moves hal faultFree_ok .read (-1) data hbase hwindow haddr hpos hdata
    have hsame := morseCmd53_congr hal outcome faultFree .read (-1) a data (by omega) hok
    rw [hsame] at hcount
    generalize hfirst : morseCmd53 hal faultFree .read (-1) .fn2 a data n b = first at *
    have hread := readPiece_of_first hal outcome hsame
    have hreadFree := readPiece_of_first hal faultFree hfirst
    have hreread := reread_of_moves hfree
    by_cases hagain : 8 ≤ n ∧ firstWordRepeats first.data
    · rw [if_pos hagain] at hread hreadFree hreread
      have hsecond := morseCmd53_stops hal outcome .read (-1) (n := 8) first.data
        (hfree.base.trans hbase) (by omega) (by omega) (by omega)
      rw [← hread] at hsecond
      have height : cmd53Count 8 = 1 := rfl
      rcases hsecond with ⟨-, hcount', hok'⟩ | ⟨k, hk, -, hcount', -, hfault⟩
      · have hsame' := morseCmd53_congr hal outcome faultFree .read (-1) a first.data (by omega) hok'
        refine .ok ?_ (hread.trans (hsame'.trans hreadFree.symm)) ?_
        · intro i hi
          rcases Nat.lt_or_ge i (cmd53Count n) with hlt | hge
          · exact hok i hlt
          · have hzero := hok' 0 (by omega)
            rwa [hcount, Nat.add_zero, show cmd53Count n = i by omega] at hzero
        · omega
      · obtain rfl : k = 0 := by omega
        rw [hcount, Nat.add_zero] at hfault
        exact .fault (cmd53Count n) (by omega) hfault (by omega)
    · rw [if_neg hagain] at hread hreadFree hreread
      refine .ok ?_ (hread.trans hreadFree.symm) ?_
      · rwa [hreread]
      · rw [hread, hcount, hreread, Nat.add_zero]
  · have hmore := readPiece_requests_le hal outcome a data n b
    exact .fault k (Nat.lt_add_right _ hk) hfault (Nat.lt_of_lt_of_le (hcount ▸ Nat.lt_succ_self _) hmore)

/-! ### Reads -/

inductive SdioOp where
  | cmd52 | cmd53
  deriving DecidableEq

/-- The operations of a piece: the keyhole, the blocks and the tail, and reading again. -/
def pieceOps (mem : ℕ → UInt8) (a n : ℕ) : List SdioOp :=
  List.replicate 3 .cmd52 ++ List.replicate (cmd53Count n + reread mem a n) .cmd53

/-- The operations of a bulk read without faults. -/
def readOps (mem : ℕ → UInt8) : ℕ → ℕ → ℕ → List SdioOp
  | 0, _, _ => []
  | rounds + 1, a, len =>
    if len = 0 then []
    else
      pieceOps mem a (transferSize a len) ++
        readOps mem rounds (a + transferSize a len) (len - transferSize a len)

/-- The first of some operations that fails; the first one is the `n`-th on the bus. -/
def firstFault (outcome : ℕ → ℤ) : ℕ → List SdioOp → Option SdioOp
  | _, [] => none
  | n, op :: ops => if outcome n = 0 then firstFault outcome (n + 1) ops else some op

theorem firstFault_replicate_append (op : SdioOp) (k n : ℕ) (ops : List SdioOp) :
    firstFault outcome n (List.replicate k op ++ ops) =
      if ∀ i < k, outcome (n + i) = 0 then firstFault outcome (n + k) ops else some op := by
  induction k generalizing n with
  | zero => rw [if_pos nofun, List.replicate_zero, List.nil_append, Nat.add_zero]
  | succ k ih =>
    have hall : (∀ i < k + 1, outcome (n + i) = 0) ↔
        outcome n = 0 ∧ ∀ i < k, outcome (n + 1 + i) = 0 := by
      simp only [Nat.forall_lt_succ_left, Nat.add_zero, Nat.add_right_comm n 1, Nat.add_assoc]
    rw [List.replicate_succ, List.cons_append, firstFault, ih]
    by_cases h : outcome n = 0
    · simp only [hall, h, true_and, if_true, Nat.add_right_comm n 1, Nat.add_assoc]
    · simp only [hall, h, false_and, if_false]

/-- How a bulk read ends: without a failure, with one it reports, or with one it does not. -/
inductive ReadEnds (mem : ℕ → UInt8) (a len : ℕ) (ops : List SdioOp) (b : SdioBus)
    (r : SdioTransfer) : Prop
  | done (hfault : firstFault outcome b.requests ops = none) (hresult : r.result = 0)
      (hdata : r.data = Memory.load mem (a + ·) len)
      (hok : ∀ i, b.requests ≤ i → i < r.bus.requests → outcome i = 0)
  | reported (hfault : firstFault outcome b.requests ops = some .cmd52) (hresult : r.result ≠ 0)
      (hreports : ReportsFaults outcome b r.toSdioResult)
  | unnoticed (hfault : firstFault outcome b.requests ops = some .cmd53)
      (hnot : ¬ ReportsFaults outcome b r.toSdioResult)

variable {outcome} in
/-- Operations that succeed in front change nothing. -/
theorem reportsFaults_iff {b b' : SdioBus} {r : SdioResult} (hle : b.requests ≤ b'.requests)
    (hok : ∀ i, b.requests ≤ i → i < b'.requests → outcome i = 0) :
    ReportsFaults outcome b r ↔ ReportsFaults outcome b' r := by
  refine ⟨?_, ?_⟩
  · intro h i hi
    exact h i (Nat.le_trans hle hi)
  · intro h i hi hlt hne
    rcases Nat.lt_or_ge i b'.requests with hbefore | hge
    · exact absurd (hok i hi hbefore) hne
    · exact h i hge hlt hne

/-- A round in front of a read, all of whose operations succeed. -/
theorem ReadEnds.cons {mem : ℕ → UInt8} {a n len : ℕ} {ops ops' : List SdioOp} {b b' : SdioBus}
    {rest : SdioTransfer} (hle : n ≤ len)
    (hops : firstFault outcome b.requests ops = firstFault outcome b'.requests ops')
    (hcount : b.requests ≤ b'.requests)
    (hok : ∀ i, b.requests ≤ i → i < b'.requests → outcome i = 0)
    (h : ReadEnds outcome mem (a + n) (len - n) ops' b' rest) :
    ReadEnds outcome mem a len ops b
      { rest with data := Memory.load mem (a + ·) n ++ rest.data } := by
  cases h with
  | done hfault hresult hdata hrest =>
    refine .done (hops.trans hfault) hresult ?_ fun i hi hlt => ?_
    · have hsplit := Memory.load_add mem (a + ·) n (len - n)
      rw [Nat.add_sub_cancel' hle] at hsplit
      simp only [hdata, hsplit, Nat.add_assoc]
    · rcases Nat.lt_or_ge i b'.requests with hbefore | hge
      · exact hok i hi hbefore
      · exact hrest i hge hlt
  | reported hfault hresult hreports =>
    exact .reported (hops.trans hfault) hresult ((reportsFaults_iff hcount hok).mpr hreports)
  | unnoticed hfault hnot =>
    exact .unnoticed (hops.trans hfault) fun h => hnot ((reportsFaults_iff hcount hok).mp h)

/-- Rounds are made whether or not their reads succeed. -/
theorem readLoop_some (fuel : ℕ) {a len : ℕ} (data : List UInt8) (result : ℤ) (b : SdioBus)
    (hfuel : len ≤ fuel) (hrange : a + len ≤ 0xFFFF0000) :
    ∃ r, readLoop hal outcome fuel a data len result b = some r ∧
      (len = 0 → r.result = result) ∧ (0 < len → b.requests < r.bus.requests) ∧
      b.requests ≤ r.bus.requests := by
  induction fuel generalizing a len data result b with
  | zero =>
    obtain rfl := Nat.le_zero.mp hfuel
    exact ⟨_, rfl, fun _ => rfl, nofun, Nat.le_refl _⟩
  | succ fuel ih =>
    rcases Nat.eq_zero_or_pos len with rfl | hpos
    · exact ⟨_, rfl, fun _ => rfl, nofun, Nat.le_refl _⟩
    obtain ⟨hsize, hle, -⟩ := transferSize_le hrange hpos
    have hset := morseAddressBaseSet_stops hal outcome a MORSE_CONFIG_ACCESS_4BYTE .fn2 b
    have hmade := hset.lt (by decide)
    rw [readLoop, if_neg (Nat.ne_of_gt hpos)]
    dsimp only
    generalize morseAddressBaseSet hal outcome a MORSE_CONFIG_ACCESS_4BYTE .fn2 b = set at hmade ⊢
    split
    · exact ⟨_, rfl, fun h => absurd h (Nat.ne_of_gt hpos), fun _ => hmade, Nat.le_of_lt hmade⟩
    · rw [u32_of_lt (by omega), sub32_of_le (by omega) hle]
      generalize transferSize a len = n at *
      have hpiece : set.bus.requests ≤ (readPiece hal outcome a data n set.bus).bus.requests :=
        (morseCmd53_requests_le hal outcome _ _ _ _ _ _ _).trans
          (readPiece_requests_le hal outcome a data n set.bus)
      have hleft : a + n + (len - n) ≤ 0xFFFF0000 := by omega
      obtain ⟨r, hr, -, -, hrest⟩ := ih ((readPiece hal outcome a data n set.bus).data.drop n)
        set.result (readPiece hal outcome a data n set.bus).bus (by omega) hleft
      have hall := Nat.lt_of_lt_of_le hmade (hpiece.trans hrest)
      exact ⟨_, congrArg _ hr, fun h => absurd h (Nat.ne_of_gt hpos), fun _ => hall,
        Nat.le_of_lt hall⟩

/-- The loop of a bulk read reports a failed CMD52 and no failed CMD53. -/
theorem readLoop_ends (fuel : ℕ) {a len : ℕ} {data : List UInt8} (result : ℤ) (b : SdioBus)
    (hfuel : len ≤ fuel) (hrange : a + len ≤ 0xFFFF0000) (hdata : data.length = len)
    (hresult : len = 0 → result = 0) :
    ∃ r, readLoop hal outcome fuel a data len result b = some r ∧
      ReadEnds outcome b.chip.mem a len (readOps b.chip.mem fuel a len) b r := by
  induction fuel generalizing a len data result b with
  | zero =>
    obtain rfl := Nat.le_zero.mp hfuel
    rw [List.eq_nil_of_length_eq_zero hdata]
    exact ⟨_, rfl, .done rfl (hresult rfl) rfl fun i hi hlt => absurd hlt (Nat.not_lt_of_le hi)⟩
  | succ fuel ih =>
    rcases Nat.eq_zero_or_pos len with rfl | hpos
    · rw [List.eq_nil_of_length_eq_zero hdata]
      exact ⟨_, rfl, .done rfl (hresult rfl) rfl fun i hi hlt => absurd hlt (Nat.not_lt_of_le hi)⟩
    obtain ⟨hsize, hle, hwindow⟩ := transferSize_le hrange hpos
    have hset := morseAddressBaseSet_stops hal outcome a MORSE_CONFIG_ACCESS_4BYTE .fn2 b
    rw [readLoop, if_neg (Nat.ne_of_gt hpos), readOps, if_neg (Nat.ne_of_gt hpos), pieceOps,
      List.append_assoc]
    dsimp only
    by_cases hzero : (morseAddressBaseSet hal outcome a MORSE_CONFIG_ACCESS_4BYTE .fn2 b).result = 0
    · have hbase := morseAddressBaseSet_setsBase hal outcome .fn2 MORSE_CONFIG_ACCESS_4BYTE
        (by omega) hzero
      have hcount := hset.count_of_result hzero
      have hfirst := hset.result_iff.mp hzero
      rw [if_neg (not_not.mpr hzero), u32_of_lt (by omega), sub32_of_le (by omega) hle, hzero]
      generalize morseAddressBaseSet hal outcome a MORSE_CONFIG_ACCESS_4BYTE .fn2 b = set at *
      generalize transferSize a len = n at *
      have hleft : a + n + (len - n) ≤ 0xFFFF0000 := by omega
      have hpiece := readPiece_ends hal outcome data hbase.base hwindow (by omega) hsize (by omega)
      cases hpiece with
      | ok hok heq hcount' =>
        obtain ⟨hread, hmem, -⟩ := readPiece_ok hal faultFree_ok data hbase.base hwindow (by omega)
          hsize (by omega)
        rw [← heq, hbase.mem] at hread hmem
        rw [hbase.mem] at hok hcount'
        generalize readPiece hal outcome a data n set.bus = piece at *
        have hlen : (Memory.load b.chip.mem (a + ·) n).length = n := Memory.load_length _ _ _
        have hdrop : (piece.data.drop n).length = len - n := by
          rw [hread, List.drop_left' hlen, List.length_drop, hdata]
        obtain ⟨r, hr, hends⟩ := ih 0 piece.bus (by omega) hleft hdrop fun _ => rfl
        rw [hmem] at hends
        refine ⟨_, congrArg _ hr, ?_⟩
        rw [hread, List.take_left' hlen]
        refine hends.cons outcome hle ?_ (by omega) ?_
        · rw [firstFault_replicate_append, if_pos hfirst, firstFault_replicate_append, ← hcount,
            if_pos hok, ← hcount']
        · intro i hi hlt
          rcases Nat.lt_or_ge i set.bus.requests with hbefore | hge
          · have hi' := hfirst (i - b.requests) (by omega)
            rwa [Nat.add_sub_cancel' hi] at hi'
          · have hi' := hok (i - set.bus.requests) (by omega)
            rwa [Nat.add_sub_cancel' hge] at hi'
      | fault i hi hfault hmade =>
        obtain ⟨r, hr, hlast, hmore, hle'⟩ := readLoop_some hal outcome fuel
          ((readPiece hal outcome a data n set.bus).data.drop n) 0
          (readPiece hal outcome a data n set.bus).bus (by omega) hleft
        refine ⟨_, congrArg _ hr, .unnoticed ?_ ?_⟩
        · rw [hbase.mem] at hi
          rw [firstFault_replicate_append, if_pos hfirst, firstFault_replicate_append, ← hcount,
            if_neg fun hall => hfault (hall i hi)]
        · -- the loop goes on, or returns the result of setting the keyhole
          intro hreports
          obtain ⟨hresult', hend⟩ := hreports (set.bus.requests + i) (by omega)
            (Nat.lt_of_lt_of_le hmade hle') hfault
          rw [SdioTransfer.requests_with_data] at hend
          rcases Nat.eq_zero_or_pos (len - n) with hnone | hsome
          · exact hresult' (hlast hnone)
          · have := hmore hsome
            omega
    · rw [if_pos hzero]
      refine ⟨_, rfl, .reported ?_ hzero hset.reports⟩
      rw [firstFault_replicate_append, if_neg]
      exact fun hall => hzero (hset.result_iff.mpr hall)

end Faults

/-- What a bulk read returns: a failed operation ends it and is reported, and 0 means that
all of them succeeded and the buffer holds what the chip has. -/
structure ReadTellsTruth (outcome : ℕ → ℤ) (address len : ℕ) (b : SdioBus) (r : SdioTransfer) :
    Prop where
  reports : ReportsFaults outcome b r.toSdioResult
  success : r.result = 0 → (∀ i, b.requests ≤ i → i < r.bus.requests → outcome i = 0) ∧
    r.data = Memory.load b.chip.mem (address + ·) len

theorem ReadEnds.tellsTruth_iff {outcome : ℕ → ℤ} {a len : ℕ} {ops : List SdioOp} {b : SdioBus}
    {r : SdioTransfer} (h : ReadEnds outcome b.chip.mem a len ops b r) :
    ReadTellsTruth outcome a len b r ↔ firstFault outcome b.requests ops ≠ some .cmd53 := by
  cases h with
  | done hfault hresult hdata hok =>
    rw [hfault]
    exact iff_of_true ⟨fun i hi hlt hne => absurd (hok i hi hlt) hne, fun _ => ⟨hok, hdata⟩⟩
      (by simp)
  | reported hfault hresult hreports =>
    rw [hfault]
    exact iff_of_true ⟨hreports, fun hzero => absurd hzero hresult⟩ (by simp)
  | unnoticed hfault hnot =>
    rw [hfault]
    exact iff_of_false (fun h => hnot h.reports) (not_not.mpr rfl)

/-- Whatever the outcomes, a bulk read returns and tells the truth if and only if the first
operation to fail is not a CMD53; a bulk write reports every failure. -/
theorem bulkRead_tellsTruth_iff (hal : Mmhal) (outcome : ℕ → ℤ) {fuel address len : ℕ}
    {buffer : List UInt8} (b : SdioBus) (hlen : len ≠ 0) (hword : len % 4 = 0)
    (hrange : address + len ≤ 0xFFFF0000) (hbuffer : buffer.length = len) (hfuel : len ≤ fuel) :
    (∃ r, sdioSpiReadMultiByte hal outcome fuel address buffer len b = some r ∧
      (ReadTellsTruth outcome address len b r ↔
        firstFault outcome b.requests (readOps b.chip.mem fuel address len) ≠ some .cmd53)) ∧
    ∃ w, sdioSpiWriteMultiByte hal outcome fuel address buffer len b = some w ∧
      ReportsFaults outcome b w := by
  have hvalid : ¬(len = 0 ∨ len % 4 ≠ 0) := by omega
  refine ⟨?_, ?_⟩
  · obtain ⟨r, hr, hends⟩ := readLoop_ends hal outcome fuel (-1) b hfuel hrange hbuffer
      fun h => absurd h hlen
    exact ⟨r, (if_neg hvalid).trans hr, hends.tellsTruth_iff⟩
  · obtain ⟨w, n, hw, hstops⟩ := writeLoop_stops hal outcome fuel buffer (-1) b hfuel hrange
      fun h => absurd h hlen
    exact ⟨w, (if_neg hvalid).trans hw, hstops.reports⟩

/-- Only the `k`-th operation fails, with a timeout. -/
def faultAt (k i : ℕ) : ℤ := if i = k then -ETIMEDOUT else 0

/-- A keyhole write that fails is reported. -/
theorem bulkRead_tellsTruth_iff_keyhole :
    ∃ r, sdioSpiReadMultiByte sdioWordHal (faultAt 1) 4 0 [0, 0, 0, 0] 4 clearedBus = some r ∧
      ReadTellsTruth (faultAt 1) 0 4 clearedBus r := by
  have hbuffer : ([0, 0, 0, 0] : List UInt8).length = 4 := rfl
  have hrange : 0 + 4 ≤ 0xFFFF0000 := by decide
  obtain ⟨⟨r, hr, hiff⟩, -⟩ := bulkRead_tellsTruth_iff sdioWordHal (faultAt 1) clearedBus
    (by decide) rfl hrange hbuffer (Nat.le_refl 4)
  exact ⟨r, hr, hiff.mpr (by decide)⟩

/-- The only CMD53 of a read fails: the result is 0, and the buffer as it was. -/
theorem failedCmd53_not_tellsTruth :
    ∃ r, sdioSpiReadMultiByte sdioWordHal (faultAt 3) 4 0 [0, 0, 0, 0] 4 clearedBus = some r ∧
      r.result = 0 ∧ r.data = [0, 0, 0, 0] ∧
      Memory.load clearedBus.chip.mem (0 + ·) 4 = [0xFF, 0xFF, 0xFF, 0xFF] ∧
      ¬ ReadTellsTruth (faultAt 3) 0 4 clearedBus r := by
  refine ⟨_, rfl, rfl, rfl, rfl, ?_⟩
  intro h
  exact (h.reports 3 (by decide) (by decide) (by decide)).1 rfl

end MmIot
