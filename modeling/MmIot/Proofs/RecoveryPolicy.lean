import MmIot.Spec.RecoveryPolicy

/-! A peer is held off for its cooldown as long as the table has room for the peers heard
since, and what the wrapping clock makes of one that was silent for long. -/

namespace MmIot

open Recency

/-! ### The clock of 32 bits -/

/-- How the code compares the present with the end of a cooldown. -/
theorem heldOff_iff (now last : ℕ) (cooldownMs : UInt32) :
    CInt.toInt32 (UInt32.ofNat now - (UInt32.ofNat last + cooldownMs)) < 0 ↔
      2 ^ 31 ≤ ((now : ℤ) - (last + cooldownMs.toNat)) % 2 ^ 32 := by
  apply CInt.toInt32_neg_iff
  rw [UInt32.toNat_sub, UInt32.toNat_add, UInt32.toNat_ofNat', UInt32.toNat_ofNat']
  have := cooldownMs.toNat_lt
  omega

/-- How it compares the ends of two cooldowns. -/
theorem older_iff {u v : ℕ} (cooldownMs : UInt32) (huv : u < v + 2 ^ 31) (hvu : v < u + 2 ^ 31) :
    CInt.toInt32 (UInt32.ofNat u + cooldownMs - (UInt32.ofNat v + cooldownMs)) < 0 ↔ u < v := by
  have := cooldownMs.toNat_lt
  rw [CInt.toInt32_neg_iff (y := (u : ℤ) - v)]
  · omega
  · rw [UInt32.toNat_sub, UInt32.toNat_add, UInt32.toNat_add, UInt32.toNat_ofNat',
      UInt32.toNat_ofNat']
    omega

/-! ### The loop -/

variable {peers pre rest post : List RecoveryPeer} {peer : RecoveryPeer} {event : UnknownPeer}
  {i slot : ℕ}

theorem recoverySlot_other (hvalid : peer.valid = true) (haddr : peer.addr ≠ event.transmitter) :
    recoverySlot peers event (peer :: rest) i slot =
      recoverySlot peers event rest (i + 1)
        (if CInt.toInt32 (peer.retryAfterMs - retryAfterMs peers slot) < 0 then i else slot) := by
  have hbeq : (peer.addr == event.transmitter) = false := beq_eq_false_iff_ne.mpr haddr
  by_cases hlt : CInt.toInt32 (peer.retryAfterMs - retryAfterMs peers slot) < 0 <;>
    simp [recoverySlot, hvalid, hbeq, hlt]

/-- The loop passes the slots of other peers. -/
theorem recoverySlot_skip (rest : List RecoveryPeer)
    (hpre : ∀ p ∈ pre, p.valid = true ∧ p.addr ≠ event.transmitter) :
    ∃ slot', recoverySlot peers event (pre ++ rest) i slot =
      recoverySlot peers event rest (i + pre.length) slot' := by
  induction pre generalizing i slot with
  | nil => exact ⟨slot, rfl⟩
  | cons p pre ih =>
    obtain ⟨⟨hvalid, haddr⟩, hpre⟩ := List.forall_mem_cons.mp hpre
    rw [List.cons_append, recoverySlot_other hvalid haddr, List.length_cons,
      show i + (pre.length + 1) = i + 1 + pre.length by omega]
    exact ih hpre

/-- It stops at the peer's own slot. -/
theorem recoverySlot_own (hpre : ∀ p ∈ pre, p.valid = true ∧ p.addr ≠ event.transmitter)
    (hvalid : peer.valid = true) (haddr : peer.addr = event.transmitter) :
    recoverySlot peers event (pre ++ peer :: post) i slot =
      if CInt.toInt32 (event.nowMs - peer.retryAfterMs) < 0 then none
      else some (i + pre.length) := by
  obtain ⟨slot', hskip⟩ := recoverySlot_skip (peer :: post) hpre
  rw [hskip, recoverySlot, hvalid, haddr]
  simp

/-- It stops at the first free slot. -/
theorem recoverySlot_free (hpre : ∀ p ∈ pre, p.valid = true ∧ p.addr ≠ event.transmitter)
    (hfree : peer.valid = false) :
    recoverySlot peers event (pre ++ peer :: post) i slot = some (i + pre.length) := by
  obtain ⟨slot', hskip⟩ := recoverySlot_skip (peer :: post) hpre
  rw [hskip, recoverySlot, hfree]
  simp

/-- With every slot taken by another peer it ends at one with the earliest time. -/
theorem recoverySlot_full {time : ℕ → ℕ}
    (hcmp : ∀ j < peers.length, ∀ j' < peers.length,
      (CInt.toInt32 (retryAfterMs peers j - retryAfterMs peers j') < 0 ↔ time j < time j'))
    (hslot : slot < peers.length) (hrest : peers.drop i = rest)
    (hother : ∀ p ∈ rest, p.valid = true ∧ p.addr ≠ event.transmitter) :
    ∃ s, recoverySlot peers event rest i slot = some s ∧ s < peers.length ∧
      time s ≤ time slot ∧ ∀ j, i ≤ j → j < peers.length → time s ≤ time j := by
  induction rest generalizing i slot with
  | nil =>
    rw [List.drop_eq_nil_iff] at hrest
    exact ⟨slot, rfl, hslot, le_rfl, by omega⟩
  | cons p rest ih =>
    obtain ⟨⟨hvalid, haddr⟩, hother⟩ := List.forall_mem_cons.mp hother
    have hi : i < peers.length := by
      by_contra hge
      rw [List.drop_eq_nil_of_le (Nat.le_of_not_lt hge)] at hrest
      cases hrest
    have hget := List.drop_eq_getElem_cons hi
    rw [hrest, List.cons.injEq] at hget
    have hretry : p.retryAfterMs = retryAfterMs peers i := by
      simp [retryAfterMs, hi, hget.1]
    rw [recoverySlot_other hvalid haddr, hretry]
    simp only [hcmp i hi slot hslot]
    -- whichever slot is kept, the rest of the loop only finds an earlier time
    obtain ⟨s, hs, hlen, hle, hmin⟩ := @ih (i + 1) (if time i < time slot then i else slot)
      (by split_ifs <;> assumption) hget.2.symm hother
    have hboth : time s ≤ time i ∧ time s ≤ time slot := by
      split_ifs at hle <;> omega
    refine ⟨s, hs, hlen, hboth.2, fun j hij hj => ?_⟩
    rcases Nat.eq_or_lt_of_le hij with rfl | hlt
    · exact hboth.1
    · exact hmin j hlt hj

/-! ### The table -/

/-- The slot of a peer that was last recovered when the log says. -/
def entry (cooldownMs : UInt32) (log : List (MeshAddr × ℕ)) (k : MeshAddr) : RecoveryPeer where
  addr := k
  retryAfterMs := UInt32.ofNat ((log.lookup k).getD 0) + cooldownMs
  valid := true

/-- The table holds the peers `kept`, slot by slot, and free slots after them. -/
structure RecoveryTable (capacity : ℕ) (cooldownMs : UInt32) (log : List (MeshAddr × ℕ))
    (kept : List MeshAddr) (policy : RecoveryPolicy) : Prop where
  cooldown : policy.cooldownMs = cooldownMs
  size : policy.peers.length = capacity
  nodup : kept.Nodup
  peers : ∃ free, policy.peers = kept.map (entry cooldownMs log) ++ free ∧
    ∀ p ∈ free, p.valid = false

variable {capacity : ℕ} {cooldownMs : UInt32} {log : List (MeshAddr × ℕ)}
  {kept before after : List MeshAddr} {old : MeshAddr} {policy : RecoveryPolicy}
  {r : RecoveryRun} {h : Heard} {t : ℕ}

theorem map_entry_of_notMem {ks : List MeshAddr} {k : MeshAddr} (hk : k ∉ ks) :
    ks.map (entry cooldownMs ((k, t) :: log)) = ks.map (entry cooldownMs log) := by
  refine List.map_congr_left fun q hq => ?_
  have hne : q ≠ k := fun heq => hk (heq ▸ hq)
  simp [entry, lookup_cons_eq, hne]

theorem entry_self (k : MeshAddr) :
    entry cooldownMs ((k, t) :: log) k = ⟨k, UInt32.ofNat t + cooldownMs, true⟩ := by
  simp [entry]

theorem recovers_of_slot (hsize : r.policy.peers.length ≠ 0) (hcounts : h.Counts) :
    (recoverySlot r.policy.peers h.event r.policy.peers 0 0 = none →
      r.recovers h = false ∧ (r.hear h).policy = r.policy) ∧
    ∀ slot, recoverySlot r.policy.peers h.event r.policy.peers 0 0 = some slot →
      r.recovers h = true ∧ (r.hear h).policy = { r.policy with
        peers := r.policy.peers.set slot
          ⟨h.transmitter, UInt32.ofNat h.time + r.policy.cooldownMs, true⟩ } := by
  obtain ⟨hmesh, hprotected, hdata, hmulticast⟩ := hcounts
  constructor
  · intro hnone
    simp [RecoveryRun.recovers, RecoveryRun.hear, edgezMeshShouldRecoverUnknownPeer, Heard.event,
      hsize, hmesh, hprotected, hdata, hmulticast] at hnone ⊢
    simp [hnone]
  · intro slot hsome
    simp [RecoveryRun.recovers, RecoveryRun.hear, edgezMeshShouldRecoverUnknownPeer, Heard.event,
      hsize, hmesh, hprotected, hdata, hmulticast] at hsome ⊢
    simp [hsome]

/-- One of the slots is given to a peer that none of the others has. -/
theorem RecoveryTable.set (htable : RecoveryTable capacity cooldownMs log (before ++ old :: after) policy)
    {k : MeshAddr} (hbefore : k ∉ before) (hafter : k ∉ after) :
    RecoveryTable capacity cooldownMs ((k, t) :: log) (before ++ k :: after) { policy with
      peers := policy.peers.set before.length
        ⟨k, UInt32.ofNat t + policy.cooldownMs, true⟩ } := by
  obtain ⟨hcooldown, hsize, hnodup, free, hpeers, hfree⟩ := htable
  refine ⟨hcooldown, by rw [List.length_set, hsize], ?_, free, ?_, hfree⟩
  · rw [List.nodup_middle, List.nodup_cons] at hnodup ⊢
    exact ⟨by simp [hbefore, hafter], hnodup.2⟩
  · rw [hpeers, hcooldown]
    simp [entry_self, map_entry_of_notMem hbefore, map_entry_of_notMem hafter]

/-- The first free slot is. -/
theorem RecoveryTable.append (htable : RecoveryTable capacity cooldownMs log kept policy)
    {k : MeshAddr} (hk : k ∉ kept) (hroom : kept.length < capacity) :
    RecoveryTable capacity cooldownMs ((k, t) :: log) (kept ++ [k]) { policy with
      peers := policy.peers.set kept.length
        ⟨k, UInt32.ofNat t + policy.cooldownMs, true⟩ } := by
  obtain ⟨hcooldown, hsize, hnodup, free, hpeers, hfree⟩ := htable
  cases free with
  | nil =>
    have hlen := congrArg List.length hpeers
    simp at hlen
    omega
  | cons p free =>
    refine ⟨hcooldown, by rw [List.length_set, hsize], ?_, free, ?_, ?_⟩
    · exact List.nodup_append.mpr ⟨hnodup, List.nodup_singleton k, by grind⟩
    · rw [hpeers, hcooldown]
      simp [entry_self, map_entry_of_notMem hk]
    · exact fun q hq => hfree q (List.mem_cons_of_mem _ hq)

theorem RecoveryTable.length_le (htable : RecoveryTable capacity cooldownMs log kept policy) :
    kept.length ≤ capacity := by
  obtain ⟨-, hsize, -, free, hpeers, -⟩ := htable
  rw [← hsize, hpeers]
  simp

theorem others_of_notMem {ks : List MeshAddr} (hks : h.transmitter ∉ ks) :
    ∀ p ∈ ks.map (entry cooldownMs log), p.valid = true ∧ p.addr ≠ h.event.transmitter := by
  intro p hp
  obtain ⟨k, hk, rfl⟩ := List.mem_map.mp hp
  refine ⟨rfl, fun heq => ?_⟩
  have heq : k = h.transmitter := heq
  exact hks (heq ▸ hk)

/-- Whether the code finds that the cooldown after a recovery at `t` is not over. -/
def Heard.HeldOff (h : Heard) (cooldownMs : UInt32) (t : ℕ) : Prop :=
  2 ^ 31 ≤ ((h.time : ℤ) - (t + cooldownMs.toNat)) % 2 ^ 32

instance (h : Heard) (cooldownMs : UInt32) (t : ℕ) : Decidable (h.HeldOff cooldownMs t) := by
  unfold Heard.HeldOff
  infer_instance

/-- A peer with a slot is heard. -/
theorem RecoveryTable.hear_kept (htable : RecoveryTable capacity cooldownMs log kept r.policy)
    (hcapacity : 0 < capacity) (hcounts : h.Counts) (hmem : h.transmitter ∈ kept)
    (hlast : log.lookup h.transmitter = some t) :
    (r.recovers h = true ↔ ¬ h.HeldOff cooldownMs t) ∧
      RecoveryTable capacity cooldownMs
        (if r.recovers h then (h.transmitter, h.time) :: log else log) kept
        (r.hear h).policy := by
  obtain ⟨before, after, rfl⟩ := List.append_of_mem hmem
  have hnodup := List.nodup_cons.mp (List.nodup_middle.mp htable.nodup)
  obtain ⟨hbefore, hafter⟩ := not_or.mp (mt List.mem_append.mpr hnodup.1)
  obtain ⟨free, hpeers, -⟩ := htable.peers
  have hsize : r.policy.peers.length ≠ 0 := htable.size ▸ Nat.ne_of_gt hcapacity
  obtain ⟨hnone, hsome⟩ := recovers_of_slot hsize hcounts
  have hslot : recoverySlot r.policy.peers h.event r.policy.peers 0 0 =
      if h.HeldOff cooldownMs t then none else some before.length := by
    conv_lhs => rw [hpeers, List.map_append, List.map_cons, List.append_assoc, List.cons_append]
    rw [recoverySlot_own (others_of_notMem hbefore) rfl rfl]
    simp only [Heard.event, entry, hlast, Option.getD_some, heldOff_iff, Heard.HeldOff,
      Nat.zero_add, List.length_map]
  by_cases hheld : h.HeldOff cooldownMs t
  · obtain ⟨hrec, hpolicy⟩ := hnone (hslot.trans (if_pos hheld))
    rw [hpolicy]
    simpa [hrec, hheld] using htable
  · obtain ⟨hrec, hpolicy⟩ := hsome _ (hslot.trans (if_neg hheld))
    rw [hpolicy]
    simpa [hrec, hheld] using htable.set hbefore hafter

/-- A peer without one is heard while there is a free one. -/
theorem RecoveryTable.hear_free (htable : RecoveryTable capacity cooldownMs log kept r.policy)
    (hcounts : h.Counts) (hnot : h.transmitter ∉ kept) (hroom : kept.length < capacity) :
    r.recovers h = true ∧ RecoveryTable capacity cooldownMs ((h.transmitter, h.time) :: log)
      (kept ++ [h.transmitter]) (r.hear h).policy := by
  obtain ⟨free, hpeers, hfree⟩ := htable.peers
  have hsize : r.policy.peers.length ≠ 0 := by
    rw [htable.size]
    omega
  cases free with
  | nil =>
    have hlen := congrArg List.length hpeers
    simp [htable.size] at hlen
    omega
  | cons p free =>
    have hslot : recoverySlot r.policy.peers h.event r.policy.peers 0 0 = some kept.length := by
      conv_lhs => rw [hpeers]
      rw [recoverySlot_free (others_of_notMem hnot) (hfree p List.mem_cons_self)]
      simp
    obtain ⟨hrec, hpolicy⟩ := (recovers_of_slot hsize hcounts).2 _ hslot
    rw [hpolicy]
    exact ⟨hrec, htable.append hnot hroom⟩

/-- A peer without one is heard when all are taken: it gets one whose peer was recovered first,
as far as the wrapping clock shows it. -/
theorem RecoveryTable.hear_full (htable : RecoveryTable capacity cooldownMs log kept r.policy)
    (hcapacity : 0 < capacity) (hcounts : h.Counts) (hnot : h.transmitter ∉ kept)
    (hfull : kept.length = capacity) (start : ℕ)
    (hspan : ∀ k ∈ kept, ∃ u, log.lookup k = some u ∧ start ≤ u ∧ u < start + 2 ^ 31) :
    r.recovers h = true ∧ ∃ before old after, kept = before ++ old :: after ∧
      RecoveryTable capacity cooldownMs ((h.transmitter, h.time) :: log)
        (before ++ h.transmitter :: after) (r.hear h).policy ∧
      ∀ u, log.lookup old = some u → ∀ k ∈ kept, ∀ v, log.lookup k = some v → u ≤ v := by
  obtain ⟨free, hpeers, -⟩ := htable.peers
  have hsize := htable.size
  have hfree : free = [] := by
    have hlen := congrArg List.length hpeers
    simp [hsize, hfull] at hlen
    exact hlen
  rw [hfree, List.append_nil] at hpeers
  -- the time of each slot, as the clock would show it without wrapping
  let time : ℕ → ℕ := fun j => (kept[j]?.bind fun k => log.lookup k).getD 0
  have htime : ∀ j (hj : j < kept.length), log.lookup kept[j] = some (time j) := by
    intro j hj
    obtain ⟨u, hu, -⟩ := hspan _ (List.getElem_mem hj)
    simp [time, hj, hu]
  have hretry : ∀ j < kept.length,
      retryAfterMs r.policy.peers j = UInt32.ofNat (time j) + cooldownMs := by
    intro j hj
    simp [retryAfterMs, hpeers, hj, entry, htime j hj]
  have hcmp : ∀ j < r.policy.peers.length, ∀ j' < r.policy.peers.length,
      (CInt.toInt32 (retryAfterMs r.policy.peers j - retryAfterMs r.policy.peers j') < 0 ↔
        time j < time j') := by
    intro j hj j' hj'
    rw [hsize, ← hfull] at hj hj'
    obtain ⟨u, hu, hlo, hhi⟩ := hspan _ (List.getElem_mem hj)
    obtain ⟨u', hu', hlo', hhi'⟩ := hspan _ (List.getElem_mem hj')
    cases (htime j hj).symm.trans hu
    cases (htime j' hj').symm.trans hu'
    rw [hretry j hj, hretry j' hj']
    exact older_iff cooldownMs (by omega) (by omega)
  have hother : ∀ p ∈ r.policy.peers, p.valid = true ∧ p.addr ≠ h.event.transmitter :=
    hpeers ▸ others_of_notMem hnot
  have hpos : 0 < r.policy.peers.length := hsize ▸ hcapacity
  obtain ⟨s, hslot, hs, -, hmin⟩ := recoverySlot_full hcmp hpos List.drop_zero hother
  obtain ⟨hrec, hpolicy⟩ :=
    (recovers_of_slot (hsize ▸ Nat.ne_of_gt hcapacity) hcounts).2 s hslot
  rw [hsize, ← hfull] at hs
  obtain ⟨before, after, hkept, hlen⟩ :
      ∃ before after, kept = before ++ kept[s] :: after ∧ before.length = s :=
    ⟨kept.take s, kept.drop (s + 1), by simp, List.length_take_of_le hs.le⟩
  have hothers := hkept ▸ hnot
  simp only [List.mem_append, List.mem_cons, not_or] at hothers
  refine ⟨hrec, before, kept[s], after, hkept, ?_, ?_⟩
  · rw [hpolicy, ← hlen]
    exact (hkept ▸ htable).set hothers.1 hothers.2.2
  · intro u hu k hk v hv
    obtain ⟨j, hj, rfl⟩ := List.mem_iff_getElem.mp hk
    cases (htime s hs).symm.trans hu
    cases (htime j hj).symm.trans hv
    exact hmin j (Nat.zero_le j) (by rwa [hsize, ← hfull])

/-! ### Runs -/

variable {heard : List Heard} {start : ℕ}

theorem recoveryRun_append : recoveryRun capacity cooldownMs (heard ++ [h]) =
    (recoveryRun capacity cooldownMs heard).hear h := by
  simp [recoveryRun]

theorem recoveryTable_fresh :
    RecoveryTable capacity cooldownMs [] [] (freshPolicy capacity cooldownMs) where
  cooldown := rfl
  size := by simp [freshPolicy]
  nodup := List.nodup_nil
  peers := ⟨_, (List.nil_append _).symm, fun p hp => by rw [List.eq_of_mem_replicate hp]⟩

theorem hear_of_not_counts (h' : ¬ h.Counts) : r.recovers h = false ∧ r.hear h = r := by
  have hfalse : edgezMeshShouldRecoverUnknownPeer r.policy h.event = (false, r.policy) := by
    rw [edgezMeshShouldRecoverUnknownPeer, if_pos]
    simp only [Heard.Counts, Heard.event] at h' ⊢
    grind
  simp [RecoveryRun.recovers, RecoveryRun.hear, hfalse]

/-- What has been logged was heard. -/
theorem log_heard {k : MeshAddr} (hk : (k, t) ∈ (recoveryRun capacity cooldownMs heard).log) :
    ∃ a ∈ heard, a.transmitter = k ∧ a.time = t := by
  induction heard using List.reverseRecOn with
  | nil => cases hk
  | append_singleton heard h ih =>
    rw [recoveryRun_append, RecoveryRun.hear] at hk
    have hcases : (k, t) = (h.transmitter, h.time) ∨
        (k, t) ∈ (recoveryRun capacity cooldownMs heard).log := by
      split_ifs at hk
      · exact List.mem_cons.mp hk
      · exact .inr hk
    rcases hcases with heq | hk
    · cases heq
      exact ⟨h, by simp, rfl, rfl⟩
    · obtain ⟨a, ha, hka⟩ := ih hk
      exact ⟨a, List.mem_append_left _ ha, hka⟩

/-- In the times of a run the clock does not go round. -/
def InSpan (start : ℕ) (cooldownMs : UInt32) (heard : List Heard) : Prop :=
  ∀ a ∈ heard, start ≤ a.time ∧ a.time + cooldownMs.toNat < start + 2 ^ 31

theorem heldOff_iff_lt (hspan : InSpan start cooldownMs (heard ++ [h])) (ht : t ≤ h.time)
    (hstart : start ≤ t) : h.HeldOff cooldownMs t ↔ h.time < t + cooldownMs.toNat := by
  have hlast := (hspan h (by simp)).2
  rw [Heard.HeldOff]
  omega

/-- The table keeps the peers that were recovered last. -/
structure Rationed (capacity : ℕ) (cooldownMs : UInt32) (kept : List MeshAddr)
    (r : RecoveryRun) : Prop where
  table : RecoveryTable capacity cooldownMs r.log kept r.policy
  retains : Retains capacity r.log kept.toFinset
  sorted : r.log.Pairwise fun p p' => p'.2 ≤ p.2

theorem Rationed.hear (hinv : Rationed capacity cooldownMs kept r) (hcapacity : 0 < capacity)
    (start : ℕ) (hlater : ∀ p ∈ r.log, p.2 ≤ h.time)
    (hspan : ∀ p ∈ r.log, start ≤ p.2 ∧ p.2 < start + 2 ^ 31) :
    ∃ kept', Rationed capacity cooldownMs kept' (r.hear h) := by
  by_cases hcounts : h.Counts
  swap
  · exact ⟨kept, (hear_of_not_counts hcounts).2.symm ▸ hinv⟩
  obtain ⟨htable, hretains, hsorted⟩ := hinv
  have hcons : ((h.transmitter, h.time) :: r.log).Pairwise fun p p' => p'.2 ≤ p.2 :=
    List.pairwise_cons.mpr ⟨hlater, hsorted⟩
  have hcard : kept.toFinset.card = kept.length := List.toFinset_card_of_nodup htable.nodup
  have hlog : r.recovers h = true → (r.hear h).log = (h.transmitter, h.time) :: r.log :=
    fun hrec => by simp [RecoveryRun.hear, hrec]
  by_cases hmem : h.transmitter ∈ kept
  · obtain ⟨t, ht⟩ := hretains.logged _ (List.mem_toFinset.mpr hmem)
    refine ⟨kept, (htable.hear_kept hcapacity hcounts hmem ht).2, ?_, ?_⟩
    · simp only [RecoveryRun.hear]
      split_ifs
      · exact hretains.again (List.mem_toFinset.mpr hmem) hlater
      · exact hretains
    · simp only [RecoveryRun.hear]
      split_ifs
      · exact hcons
      · exact hsorted
  have hnot : h.transmitter ∉ kept.toFinset := mt List.mem_toFinset.mp hmem
  rcases Nat.lt_or_eq_of_le htable.length_le with hroom | hfull
  · obtain ⟨hrec, htable'⟩ := htable.hear_free hcounts hmem hroom
    refine ⟨kept ++ [h.transmitter], hlog hrec ▸ htable', ?_, hlog hrec ▸ hcons⟩
    have hins : (kept ++ [h.transmitter]).toFinset = insert h.transmitter kept.toFinset := by
      ext q
      simp
    rw [hlog hrec, hins]
    exact hretains.insert hnot (hcard ▸ hroom)
  · obtain ⟨hrec, before, old, after, rfl, htable', hold⟩ :=
      htable.hear_full hcapacity hcounts hmem hfull start fun k hk => by
        obtain ⟨u, hu⟩ := hretains.logged k (List.mem_toFinset.mpr hk)
        exact ⟨u, hu, hspan _ (mem_of_lookup hu)⟩
    refine ⟨before ++ h.transmitter :: after, hlog hrec ▸ htable', ?_, hlog hrec ▸ hcons⟩
    have hnodup := (List.nodup_cons.mp (List.nodup_middle.mp htable.nodup)).1
    have hrep : (before ++ h.transmitter :: after).toFinset =
        insert h.transmitter ((before ++ old :: after).toFinset.erase old) := by
      ext q
      simp only [List.mem_toFinset, List.mem_append, List.mem_cons, Finset.mem_insert,
        Finset.mem_erase] at hnodup ⊢
      grind
    rw [hlog hrec, hrep]
    exact hretains.replace hnot (by simp) (hcard.trans hfull) hlater fun u hu a ha v hv =>
      hold u hu a (List.mem_toFinset.mp ha) v hv

theorem rationed_run (hcapacity : 0 < capacity)
    (hmono : heard.Pairwise fun a b => a.time ≤ b.time) (hspan : InSpan start cooldownMs heard) :
    ∃ kept, Rationed capacity cooldownMs kept (recoveryRun capacity cooldownMs heard) := by
  induction heard using List.reverseRecOn with
  | nil => exact ⟨[], recoveryTable_fresh, Retains.nil, List.Pairwise.nil⟩
  | append_singleton heard h ih =>
    obtain ⟨hmono, -, hlater⟩ := List.pairwise_append.mp hmono
    obtain ⟨kept, hinv⟩ := ih hmono fun a ha => hspan a (List.mem_append_left _ ha)
    rw [recoveryRun_append]
    refine hinv.hear hcapacity start ?_ fun p hp => ?_
    · intro p hp
      obtain ⟨a, ha, -, hat⟩ := log_heard hp
      exact hat ▸ hlater a ha h (List.mem_singleton_self h)
    · obtain ⟨a, ha, -, hat⟩ := log_heard hp
      have hin := hspan a (List.mem_append_left _ ha)
      omega

/-- A peer that is heard again within its cooldown is recovered again only if a table full of
other peers was recovered since, and is whenever a table full of them was recovered later. -/
theorem recovery_rationed (hcapacity : 0 < capacity) (hcounts : h.Counts)
    (hmono : (heard ++ [h]).Pairwise fun a b => a.time ≤ b.time)
    (hspan : InSpan start cooldownMs (heard ++ [h])) :
    ((recoveryRun capacity cooldownMs heard).recovers h = true →
      ∀ t, (recoveryRun capacity cooldownMs heard).log.lookup h.transmitter = some t →
        h.time < t + cooldownMs.toNat →
          capacity ≤ (othersSince (recoveryRun capacity cooldownMs heard).log
            h.transmitter t).card) ∧
      ((∀ t, (recoveryRun capacity cooldownMs heard).log.lookup h.transmitter = some t →
          h.time < t + cooldownMs.toNat →
            capacity ≤ (othersSince (recoveryRun capacity cooldownMs heard).log
              h.transmitter (t + 1)).card) →
        (recoveryRun capacity cooldownMs heard).recovers h = true) := by
  obtain ⟨hmono, -, hlater⟩ := List.pairwise_append.mp hmono
  have hspan' : InSpan start cooldownMs heard := fun a ha => hspan a (List.mem_append_left _ ha)
  obtain ⟨kept, htable, hretains, hsorted⟩ := rationed_run hcapacity hmono hspan'
  set r := recoveryRun capacity cooldownMs heard with hr
  have hwithin : ∀ k u, r.log.lookup k = some u → start ≤ u ∧ u ≤ h.time := by
    intro k u hu
    obtain ⟨a, ha, -, rfl⟩ := log_heard (mem_of_lookup hu)
    exact ⟨(hspan' a ha).1, hlater a ha h (List.mem_singleton_self h)⟩
  have hiff : ∀ t, r.log.lookup h.transmitter = some t →
      (h.HeldOff cooldownMs t ↔ h.time < t + cooldownMs.toNat) := fun t ht =>
    heldOff_iff_lt hspan (hwithin _ t ht).2 (hwithin _ t ht).1
  by_cases hmem : h.transmitter ∈ kept
  · obtain ⟨t, ht⟩ := hretains.logged _ (List.mem_toFinset.mpr hmem)
    have hdecide := (htable.hear_kept hcapacity hcounts hmem ht).1
    rw [hiff t ht] at hdecide
    refine ⟨fun hrec u hu hin => ?_, fun hmany => hdecide.mpr fun hin => ?_⟩
    · cases ht.symm.trans hu
      exact absurd hin (hdecide.mp hrec)
    · have hkept := hretains.kept hsorted ht (List.mem_toFinset.mpr hmem)
      exact absurd (hmany t ht hin) (Nat.not_le_of_lt hkept)
  · refine ⟨fun _ t ht _ => hretains.given_up ht (mt List.mem_toFinset.mp hmem), fun _ => ?_⟩
    rcases Nat.lt_or_eq_of_le htable.length_le with hroom | hfull
    · exact (htable.hear_free hcounts hmem hroom).1
    · refine (htable.hear_full hcapacity hcounts hmem hfull start fun k hk => ?_).1
      obtain ⟨u, hu⟩ := hretains.logged k (List.mem_toFinset.mpr hk)
      have hin := hwithin k u hu
      have hend := (hspan h (by simp)).2
      exact ⟨u, hu, hin.1, by omega⟩

/-- A frame of one of the peers that a test hears. -/
def sighting (peer : UInt8) (time : ℕ) : Heard where
  transmitter := List.Vector.replicate 6 peer
  time := time
  meshMode := true
  protectedFrame := true
  dataFrame := true
  multicastTransmitter := false

/-- A table of one slot forgets the first peer for the second, across a wrap of the clock. -/
theorem recovery_rationed_oneSlot :
    (recoveryRun 1 100 [sighting 1 4294967290, sighting 2 4294967300]).recovers
      (sighting 1 4294967310) = true := by
  have hlast : (recoveryRun 1 100 [sighting 1 4294967290, sighting 2 4294967300]).log.lookup
      (sighting 1 4294967310).transmitter = some 4294967290 := by decide
  have hspan : InSpan 4294967290 100
      ([sighting 1 4294967290, sighting 2 4294967300] ++ [sighting 1 4294967310]) := by
    unfold InSpan
    decide
  refine (recovery_rationed (by decide) (by decide) (by decide) hspan).2 fun t ht _ => ?_
  cases hlast.symm.trans ht
  decide

/-! ### Few peers -/

/-- The table keeps every peer that was recovered. -/
structure AllKept (capacity : ℕ) (cooldownMs : UInt32) (heard : List Heard)
    (kept : List MeshAddr) (r : RecoveryRun) : Prop where
  table : RecoveryTable capacity cooldownMs r.log kept r.policy
  mem_iff : ∀ k, k ∈ kept ↔ ∃ t, r.log.lookup k = some t
  heard : ∀ k ∈ kept, k ∈ heard.map Heard.transmitter

/-- Where there are no more peers than slots, a peer without one finds a free one. -/
theorem AllKept.room (hinv : AllKept capacity cooldownMs heard kept r)
    (hfew : ((heard ++ [h]).map Heard.transmitter).toFinset.card ≤ capacity)
    (hmem : h.transmitter ∉ kept) : kept.length < capacity := by
  have hsub : insert h.transmitter kept.toFinset ⊆
      ((heard ++ [h]).map Heard.transmitter).toFinset := by
    intro k hk
    rcases Finset.mem_insert.mp hk with rfl | hk
    · simp
    · have hk := hinv.heard k (List.mem_toFinset.mp hk)
      simp only [List.mem_toFinset, List.map_append, List.mem_append]
      exact .inl hk
  have hcard := (Finset.card_le_card hsub).trans hfew
  rw [Finset.card_insert_of_notMem (mt List.mem_toFinset.mp hmem),
    List.toFinset_card_of_nodup hinv.table.nodup] at hcard
  exact hcard

theorem AllKept.hear (hinv : AllKept capacity cooldownMs heard kept r) (hcapacity : 0 < capacity)
    (hfew : ((heard ++ [h]).map Heard.transmitter).toFinset.card ≤ capacity) :
    ∃ kept', AllKept capacity cooldownMs (heard ++ [h]) kept' (r.hear h) := by
  have hheard : ∀ k ∈ kept, k ∈ (heard ++ [h]).map Heard.transmitter := by
    intro k hk
    rw [List.map_append]
    exact List.mem_append_left _ (hinv.heard k hk)
  by_cases hcounts : h.Counts
  swap
  · exact ⟨kept, (hear_of_not_counts hcounts).2.symm ▸ ⟨hinv.table, hinv.mem_iff, hheard⟩⟩
  by_cases hmem : h.transmitter ∈ kept
  · obtain ⟨t, ht⟩ := (hinv.mem_iff _).mp hmem
    refine ⟨kept, (hinv.table.hear_kept hcapacity hcounts hmem ht).2, fun k => ?_, hheard⟩
    rw [hinv.mem_iff]
    simp only [RecoveryRun.hear]
    split_ifs
    · rw [lookup_cons_eq]
      split_ifs with heq
      · simp [heq, ht]
      · rfl
    · rfl
  · obtain ⟨hrec, htable⟩ := hinv.table.hear_free hcounts hmem (hinv.room hfew hmem)
    have hlog : (r.hear h).log = (h.transmitter, h.time) :: r.log := by
      simp [RecoveryRun.hear, hrec]
    refine ⟨kept ++ [h.transmitter], hlog ▸ htable, fun k => ?_, fun k hk => ?_⟩
    · rw [hlog, lookup_cons_eq, List.mem_append, List.mem_singleton, hinv.mem_iff]
      split_ifs with heq
      · simp [heq]
      · simp [heq]
    · rcases List.mem_append.mp hk with hk | hk
      · exact hheard k hk
      · rw [List.mem_singleton.mp hk]
        simp

theorem allKept_run (hcapacity : 0 < capacity)
    (hfew : (heard.map Heard.transmitter).toFinset.card ≤ capacity) :
    ∃ kept, AllKept capacity cooldownMs heard kept (recoveryRun capacity cooldownMs heard) := by
  induction heard using List.reverseRecOn with
  | nil => exact ⟨[], recoveryTable_fresh, by simp [recoveryRun], by simp⟩
  | append_singleton heard h ih =>
    have hsub : (heard.map Heard.transmitter).toFinset ⊆
        ((heard ++ [h]).map Heard.transmitter).toFinset := by
      intro k hk
      simp only [List.mem_toFinset, List.map_append, List.mem_append] at hk ⊢
      exact .inl hk
    obtain ⟨kept, hinv⟩ := ih ((Finset.card_le_card hsub).trans hfew)
    rw [recoveryRun_append]
    exact hinv.hear hcapacity hfew

/-- With no more peers than slots, whether a peer is recovered depends on its own last recovery
alone, at whatever times. It is refused in its cooldown, and also for the 25 days that follow
25 days of silence after it. -/
theorem recovery_of_few (hcapacity : 0 < capacity) (hcounts : h.Counts)
    (hfew : ((heard ++ [h]).map Heard.transmitter).toFinset.card ≤ capacity) :
    (recoveryRun capacity cooldownMs heard).recovers h = true ↔
      ∀ t, (recoveryRun capacity cooldownMs heard).log.lookup h.transmitter = some t →
        ((h.time : ℤ) - (t + cooldownMs.toNat)) % 2 ^ 32 < 2 ^ 31 := by
  have hsub : (heard.map Heard.transmitter).toFinset ⊆
      ((heard ++ [h]).map Heard.transmitter).toFinset := by
    intro k hk
    simp only [List.mem_toFinset, List.map_append, List.mem_append] at hk ⊢
    exact .inl hk
  obtain ⟨kept, hinv⟩ := allKept_run hcapacity ((Finset.card_le_card hsub).trans hfew)
  by_cases hmem : h.transmitter ∈ kept
  · obtain ⟨t, ht⟩ := (hinv.mem_iff _).mp hmem
    rw [(hinv.table.hear_kept hcapacity hcounts hmem ht).1, Heard.HeldOff, not_le]
    refine ⟨fun hlt u hu => ?_, fun hall => hall t ht⟩
    cases ht.symm.trans hu
    exact hlt
  · refine iff_of_true (hinv.table.hear_free hcounts hmem (hinv.room hfew hmem)).1 fun t ht => ?_
    exact absurd ((hinv.mem_iff _).mpr ⟨t, ht⟩) hmem

/-- A peer that was silent for thirty days is refused. -/
theorem recovery_of_few_silent :
    ¬ (recoveryRun 4 1000 [sighting 1 0]).recovers (sighting 1 2592000000) = true := by
  rw [recovery_of_few (by decide) (by decide) (by decide)]
  intro hall
  have hlast : (recoveryRun 4 1000 [sighting 1 0]).log.lookup
      (sighting 1 2592000000).transmitter = some 0 := by decide
  exact absurd (hall 0 hlast) (by decide)

end MmIot
