import MmIot.Proofs.SdioFaults

/-! Bulk transfers at the end of the address space, on a bus without faults. A range that
ends inside the last window is never done: the last round takes more than is left, and what
is left wraps. -/

namespace MmIot

/-- A round of a bulk transfer: where it is, what is left, and how much it transfers. -/
structure Piece where
  address : ℕ
  left : ℕ
  size : ℕ

/-- The rounds of either loop, with fuel. -/
def pieces : ℕ → ℕ → ℕ → Option (List Piece)
  | 0, _, len => if len = 0 then some [] else none
  | fuel + 1, address, len =>
    if len = 0 then some []
    else
      let size := transferSize address len
      (pieces fuel (u32 (address + size)) (sub32 len size)).map (⟨address, len, size⟩ :: ·)

section Rounds

variable (hal : Mmhal) (outcome : ℕ → ℤ)

/-- The keyhole set for a round. -/
def setWindow (address : ℕ) (b : SdioBus) : SdioResult :=
  morseAddressBaseSet hal outcome address MORSE_CONFIG_ACCESS_4BYTE .fn2 b

/-- Rounds of a write one after the other. -/
def writePieces : List Piece → List UInt8 → ℤ → SdioBus → SdioResult
  | [], _, result, b => ⟨result, b⟩
  | ⟨address, _, size⟩ :: ps, data, _, b =>
    let r := morseCmd53Write hal outcome .fn2 address data size (setWindow hal outcome address b).bus
    writePieces ps (data.drop size) r.result r.bus

/-- Rounds of a read one after the other. -/
def readPieces : List Piece → List UInt8 → ℤ → SdioBus → SdioTransfer
  | [], data, result, b => { result, bus := b, data }
  | ⟨address, _, size⟩ :: ps, data, _, b =>
    let set := setWindow hal outcome address b
    let piece := readPiece hal outcome address data size set.bus
    let rest := readPieces ps (piece.data.drop size) set.result piece.bus
    { rest with data := piece.data.take size ++ rest.data }

theorem writePieces_cons (a len n : ℕ) (ps : List Piece) (data : List UInt8) (result : ℤ)
    (b : SdioBus) :
    writePieces hal outcome (⟨a, len, n⟩ :: ps) data result b =
      writePieces hal outcome ps (data.drop n)
        (morseCmd53Write hal outcome .fn2 a data n (setWindow hal outcome a b).bus).result
        (morseCmd53Write hal outcome .fn2 a data n (setWindow hal outcome a b).bus).bus := rfl

theorem readPieces_cons (a len n : ℕ) (ps : List Piece) (data : List UInt8) (result : ℤ)
    (b : SdioBus) :
    readPieces hal outcome (⟨a, len, n⟩ :: ps) data result b =
      { readPieces hal outcome ps
          ((readPiece hal outcome a data n (setWindow hal outcome a b).bus).data.drop n)
          (setWindow hal outcome a b).result
          (readPiece hal outcome a data n (setWindow hal outcome a b).bus).bus with
        data := (readPiece hal outcome a data n (setWindow hal outcome a b).bus).data.take n ++
          (readPieces hal outcome ps
            ((readPiece hal outcome a data n (setWindow hal outcome a b).bus).data.drop n)
            (setWindow hal outcome a b).result
            (readPiece hal outcome a data n (setWindow hal outcome a b).bus).bus).data } := rfl

/-- Both transfers return, each of their rounds takes no more than what is left, and all
rounds together take what was asked for. -/
def TransfersExactly (address len : ℕ) (buffer : List UInt8) (b : SdioBus) : Prop :=
  ∃ fuel ps, pieces fuel address len = some ps ∧ (∀ p ∈ ps, 1 ≤ p.size ∧ p.size ≤ p.left) ∧
    (ps.map Piece.size).sum = len ∧
    sdioSpiReadMultiByte hal outcome fuel address buffer len b =
      some (readPieces hal outcome ps buffer (-1) b) ∧
    sdioSpiWriteMultiByte hal outcome fuel address buffer len b =
      some (writePieces hal outcome ps buffer (-1) b)

end Rounds

/-! ### Sizes -/

theorem u32_lt (n : ℕ) : u32 n < 0x100000000 := Nat.mod_lt _ (by decide)

/-- In the last window a round always takes the rest of the window. -/
theorem transferSize_last {a len : ℕ} (h : 0xFFFF0000 ≤ a) (ha : a < 0x100000000)
    (hpos : 0 < len) : transferSize a len = 0x100000000 - a := by
  have hmax : BLOCK_SIZE_FN2 * CMD53_MAX_BLOCKS = 0x10000 := rfl
  have hboundary : u32 (a / 0x10000 * 0x10000 + 0x10000) = 0 := by
    rw [u32]
    omega
  have hrest : sub32 0 a = 0x100000000 - a := by
    rw [sub32, u32]
    omega
  simp only [transferSize, hmax, hboundary, hrest]
  rw [u32]
  split <;> omega

theorem transferSize_window {a len : ℕ} (ha : a < 0x100000000) (hpos : 0 < len) :
    0 < transferSize a len ∧ a % 0x10000 + transferSize a len ≤ 0x10000 := by
  rcases Nat.lt_or_ge a 0xFFFF0000 with h | h
  · rw [transferSize_eq h]
    omega
  · rw [transferSize_last h ha hpos]
    omega

/-! ### The loops are their rounds -/

section FaultFree

variable (hal : Mmhal) {outcome : ℕ → ℤ} (hok : ∀ n, outcome n = 0)

include hok

theorem setWindow_result (a : ℕ) (b : SdioBus) : (setWindow hal outcome a b).result = 0 :=
  (morseAddressBaseSet_stops hal outcome _ _ _ b).result_iff.mpr fun _ _ => hok _

/-- A round of a write succeeds, also behind the end of the buffer. -/
theorem writePiece_result {a n : ℕ} (data : List UInt8) (b : SdioBus)
    (ha : a < 0x100000000) (hpos : 0 < n) (hwindow : a % 0x10000 + n ≤ 0x10000) :
    (morseCmd53Write hal outcome .fn2 a data n (setWindow hal outcome a b).bus).result = 0 := by
  have hbase := (morseAddressBaseSet_setsBase hal outcome .fn2 MORSE_CONFIG_ACCESS_4BYTE ha
    (setWindow_result hal hok a b)).base
  exact (morseCmd53_stops hal outcome .write hal.otherError data hbase hwindow (by omega)
    hpos).result_iff.mpr fun _ _ => hok _

theorem writeLoop_eq_pieces (fuel : ℕ) {a len : ℕ} (data : List UInt8) (result : ℤ) (b : SdioBus)
    (ha : a < 0x100000000) :
    writeLoop hal outcome fuel a data len result b =
      (pieces fuel a len).map fun ps => writePieces hal outcome ps data result b := by
  induction fuel generalizing a len data result b with
  | zero =>
    rw [writeLoop, pieces]
    split <;> rfl
  | succ fuel ih =>
    rw [writeLoop, pieces]
    by_cases hlen : len = 0
    · rw [if_pos hlen, if_pos hlen]
      rfl
    obtain ⟨hpos, hwindow⟩ := transferSize_window ha (Nat.pos_of_ne_zero hlen)
    rw [if_neg hlen, if_neg hlen, ← setWindow]
    dsimp only
    generalize transferSize a len = n at *
    rw [if_neg (not_not.mpr (setWindow_result hal hok a b)),
      if_neg (not_not.mpr (writePiece_result hal hok data b ha hpos hwindow)), ih _ _ _ (u32_lt _),
      Option.map_map]
    exact Option.map_congr fun ps _ => (writePieces_cons hal outcome a len n ps data result b).symm

theorem readLoop_eq_pieces (fuel : ℕ) {a len : ℕ} (data : List UInt8) (result : ℤ) (b : SdioBus) :
    readLoop hal outcome fuel a data len result b =
      (pieces fuel a len).map fun ps => readPieces hal outcome ps data result b := by
  induction fuel generalizing a len data result b with
  | zero =>
    rw [readLoop, pieces]
    split <;> rfl
  | succ fuel ih =>
    rw [readLoop, pieces]
    by_cases hlen : len = 0
    · rw [if_pos hlen, if_pos hlen]
      rfl
    rw [if_neg hlen, if_neg hlen, ← setWindow]
    dsimp only
    generalize transferSize a len = n
    rw [if_neg (not_not.mpr (setWindow_result hal hok a b)), ih, Option.map_map, Option.map_map]
    exact Option.map_congr fun ps _ => (readPieces_cons hal outcome a len n ps data result b).symm

end FaultFree

/-! ### Where the rounds end -/

/-- The ends of a range that its last round meets exactly. -/
def EndsAtWindow (address len : ℕ) : Prop :=
  address + len ≤ 0xFFFF0000 ∨ address + len = 0x100000000

/-- A round of such a range leaves such a range, or nothing. -/
theorem EndsAtWindow.round {a len : ℕ} (h : EndsAtWindow a len) (hpos : 0 < len) :
    0 < transferSize a len ∧ transferSize a len ≤ len ∧
      sub32 len (transferSize a len) = len - transferSize a len ∧
      (transferSize a len = len ∨
        u32 (a + transferSize a len) = a + transferSize a len ∧
          EndsAtWindow (a + transferSize a len) (len - transferSize a len)) := by
  unfold EndsAtWindow at *
  rcases Nat.lt_or_ge a 0xFFFF0000 with hlt | hge
  · rw [transferSize_eq hlt]
    refine ⟨by omega, by omega, ?_, .inr ⟨u32_of_lt (by omega), by omega⟩⟩
    rw [sub32, u32]
    omega
  · rw [transferSize_last hge (by omega) hpos]
    refine ⟨by omega, by omega, ?_, .inl (by omega)⟩
    rw [sub32, u32]
    omega

theorem exists_pieces (fuel : ℕ) {a len : ℕ} (hfuel : len ≤ fuel)
    (h : 0 < len → EndsAtWindow a len) :
    ∃ ps, pieces fuel a len = some ps ∧ (∀ p ∈ ps, 1 ≤ p.size ∧ p.size ≤ p.left) ∧
      (ps.map Piece.size).sum = len := by
  induction fuel generalizing a len with
  | zero =>
    obtain rfl := Nat.le_zero.mp hfuel
    exact ⟨[], rfl, nofun, rfl⟩
  | succ fuel ih =>
    rcases Nat.eq_zero_or_pos len with rfl | hpos
    · exact ⟨[], rfl, nofun, rfl⟩
    obtain ⟨hsize, hle, hsub, hnext⟩ := (h hpos).round hpos
    rw [pieces, if_neg (Nat.ne_of_gt hpos)]
    dsimp only
    generalize transferSize a len = n at *
    have hends : 0 < len - n → EndsAtWindow (u32 (a + n)) (len - n) := by
      intro hleft
      rcases hnext with hall | ⟨haddr, hends⟩
      · omega
      · rwa [haddr]
    obtain ⟨ps, hps, hsizes, hsum⟩ := ih (by omega) hends
    rw [hsub, hps]
    refine ⟨_, rfl, List.forall_mem_cons.mpr ⟨⟨hsize, hle⟩, hsizes⟩, ?_⟩
    rw [List.map_cons, List.sum_cons, hsum, Nat.add_sub_cancel' hle]

/-- From a range that ends inside the last window a round leads to one with the same end,
around the end of the address space if it has to. -/
theorem pieces_none {e : ℕ} (hlast : 0xFFFF0000 < e) (he : e < 0x100000000) (fuel : ℕ) {a len : ℕ}
    (hend : a + len = e) (hpos : 0 < len) : pieces fuel a len = none := by
  induction fuel generalizing a len with
  | zero => rw [pieces, if_neg (Nat.ne_of_gt hpos)]
  | succ fuel ih =>
    rw [pieces, if_neg (Nat.ne_of_gt hpos)]
    dsimp only
    rcases Nat.lt_or_ge a 0xFFFF0000 with hlt | hge
    · rw [transferSize_eq hlt, u32_of_lt (by omega), sub32_of_le (by omega) (by omega),
        ih (by omega) (by omega)]
      rfl
    · have haddr : u32 (a + (0x100000000 - a)) = 0 := by
        rw [u32]
        omega
      have hleft : sub32 len (0x100000000 - a) = e := by
        rw [sub32, u32]
        omega
      rw [transferSize_last hge (by omega) hpos, haddr, hleft, ih (by omega) (by omega)]
      rfl

/-- On a bus without faults, both bulk transfers of a range return and take it exactly if
and only if it ends at the end of the last window or in front of it. -/
theorem transfersExactly_iff (hal : Mmhal) {outcome : ℕ → ℤ} (hok : ∀ n, outcome n = 0)
    {address len : ℕ} (buffer : List UInt8) (b : SdioBus) (hlen : len ≠ 0) (hword : len % 4 = 0)
    (haddr : address < 0x100000000) (hrange : address + len ≤ 0x100000000) :
    TransfersExactly hal outcome address len buffer b ↔ EndsAtWindow address len := by
  have hvalid : ¬(len = 0 ∨ len % 4 ≠ 0) := by omega
  have hpos := Nat.pos_of_ne_zero hlen
  refine ⟨?_, ?_⟩
  · rintro ⟨fuel, ps, hps, -⟩
    by_contra hinside
    unfold EndsAtWindow at hinside
    rw [pieces_none (e := address + len) (by omega) (by omega) fuel rfl hpos] at hps
    cases hps
  · intro h
    obtain ⟨ps, hps, hsizes, hsum⟩ := exists_pieces len (Nat.le_refl _) fun _ => h
    refine ⟨len, ps, hps, hsizes, hsum, ?_, ?_⟩
    · rw [sdioSpiReadMultiByte, if_neg hvalid, readLoop_eq_pieces hal hok, hps]
      rfl
    · rw [sdioSpiWriteMultiByte, if_neg hvalid, writeLoop_eq_pieces hal hok _ _ _ _ haddr, hps]
      rfl

theorem transfersExactly_iff_last :
    TransfersExactly sdioWordHal faultFree 0xFFFFFFFC 4 [1, 2, 3, 4] clearedBus :=
  (transfersExactly_iff sdioWordHal faultFree_ok [1, 2, 3, 4] clearedBus (by decide) rfl
    (by decide) (by decide)).mpr (.inr rfl)

/-- Four bytes at the start of the last window: the first round takes all of the window, and
neither transfer ever returns. -/
theorem lastWindow_not_transfersExactly :
    transferSize 0xFFFF0000 4 = 0x10000 ∧
      (∀ fuel,
        sdioSpiReadMultiByte sdioWordHal faultFree fuel 0xFFFF0000 [0, 0, 0, 0] 4 clearedBus = none ∧
        sdioSpiWriteMultiByte sdioWordHal faultFree fuel 0xFFFF0000 [0, 0, 0, 0] 4 clearedBus =
          none) ∧
      ¬ TransfersExactly sdioWordHal faultFree 0xFFFF0000 4 [0, 0, 0, 0] clearedBus := by
  have hnone (fuel : ℕ) : pieces fuel 0xFFFF0000 4 = none :=
    pieces_none (e := 0xFFFF0004) (by decide) (by decide) fuel rfl (by decide)
  have hvalid : ¬(4 = 0 ∨ 4 % 4 ≠ 0) := by decide
  refine ⟨by decide, fun fuel => ⟨?_, ?_⟩, ?_⟩
  · rw [sdioSpiReadMultiByte, if_neg hvalid, readLoop_eq_pieces _ faultFree_ok, hnone]
    rfl
  · rw [sdioSpiWriteMultiByte, if_neg hvalid, writeLoop_eq_pieces _ faultFree_ok _ _ _ _ (by decide),
      hnone]
    rfl
  · rintro ⟨fuel, ps, hps, -⟩
    rw [hnone] at hps
    cases hps

end MmIot
