import Mathlib.Algebra.Order.Group.Nat
import Mathlib.Data.List.Basic
import Mathlib.Logic.Function.Basic

/-! Events that wait in a queue for a handler, which sets a latch for the kind of each. A latch
that is set already keeps the event that set it, so that what is pending of a kind can only be
lost, never made. -/

namespace Latch

/-- The events that were not handled yet, oldest first, and the latches. -/
structure Box (E K : Type*) where
  queue : List E
  latch : K → Option E

variable {E K : Type*} [DecidableEq K] (kind : E → Option K)

def Box.post (es : List E) (b : Box E K) : Box E K := { b with queue := b.queue ++ es }

/-- The handler sets the latch of an event. -/
def Box.handle (e : E) (b : Box E K) : Box E K :=
  match kind e with
  | none => b
  | some k => { b with latch := Function.update b.latch k ((b.latch k).or (some e)) }

/-- The oldest event is handled, or is lost. -/
def Box.deliver (lost : Bool) (b : Box E K) : Option (Box E K) :=
  match b.queue with
  | [] => none
  | e :: es =>
    let b := { b with queue := es }
    some (if lost then b else b.handle kind e)

def Box.take (k : K) (b : Box E K) : Option (Box E K) :=
  if (b.latch k).isSome then some { b with latch := Function.update b.latch k none } else none

/-- How many events of a kind are in a list. -/
def countOf (k : K) (es : List E) : ℕ := es.countP fun e => kind e = some k

/-- The events of a kind that are in the queue, and one that its latch keeps. -/
def Box.pending (k : K) (b : Box E K) : ℕ := countOf kind k b.queue + (b.latch k).isSome.toNat

/-- The one that is taken next. -/
def Box.next (k : K) (b : Box E K) : Option E :=
  (b.latch k).or (b.queue.find? fun e => kind e = some k)

variable {kind} {k k' : K} {b b' : Box E K}

theorem pending_post (es : List E) :
    (b.post es).pending kind k = b.pending kind k + countOf kind k es := by
  simp only [Box.pending, Box.post, countOf, List.countP_append]
  omega

@[simp] theorem handle_queue (e : E) : (b.handle kind e).queue = b.queue := by
  unfold Box.handle
  cases kind e <;> rfl

theorem handle_latch (e : E) :
    (b.handle kind e).latch k =
      if kind e = some k then (b.latch k).or (some e) else b.latch k := by
  unfold Box.handle
  cases hkind : kind e with
  | none => simp
  | some k' =>
    by_cases hk : k = k'
    · subst hk
      simp
    · simp [hk, Ne.symm hk]

/-- What a delivered event does. -/
theorem deliver_cases {lost : Bool} (h : b.deliver kind lost = some b') :
    ∃ e es, b.queue = e :: es ∧
      b' = if lost then { b with queue := es } else Box.handle kind e { b with queue := es } := by
  unfold Box.deliver at h
  cases hq : b.queue with
  | nil => simp [hq] at h
  | cons e es =>
    simp only [hq, Option.some.injEq] at h
    exact ⟨e, es, rfl, h.symm⟩

/-- A delivered event is in the latch, together with what was there. -/
theorem pending_deliver {lost : Bool} (h : b.deliver kind lost = some b') :
    b'.pending kind k ≤ b.pending kind k ∧
      (lost = false → 0 < b.pending kind k → 0 < b'.pending kind k) := by
  obtain ⟨e, es, hq, rfl⟩ := deliver_cases h
  cases lost with
  | true =>
    refine ⟨?_, nofun⟩
    simp only [Box.pending, countOf, hq, List.countP_cons, if_true]
    omega
  | false =>
    simp only [Box.pending, countOf, hq, List.countP_cons, Bool.false_eq_true, if_false,
      handle_queue, handle_latch]
    by_cases hk : kind e = some k
    · cases b.latch k <;> simp [hk]
    · simp [hk]

/-- Without a loss the event that is taken next stays the same. -/
theorem next_deliver (h : b.deliver kind false = some b') : b'.next kind k = b.next kind k := by
  obtain ⟨e, es, hq, rfl⟩ := deliver_cases h
  simp only [Box.next, hq, Bool.false_eq_true, if_false, handle_queue, handle_latch,
    List.find?_cons]
  by_cases hk : kind e = some k
  · cases b.latch k <;> simp [hk]
  · simp [hk]

theorem next_post {e : E} (es : List E) (h : b.next kind k = some e) :
    (b.post es).next kind k = some e := by
  rw [Box.next] at h ⊢
  rw [Box.post, List.find?_append, ← Option.or_assoc, h, Option.some_or]

theorem next_isSome_iff : (b.next kind k).isSome ↔ 0 < b.pending kind k := by
  rw [Box.next, Box.pending, countOf, Option.isSome_or, Bool.or_eq_true, List.find?_isSome]
  cases b.latch k with
  | some e => simp
  | none => simp [List.countP_pos_iff]

/-- Once the queue is empty, the next one is in the latch. -/
theorem latch_of_next (hq : b.queue = []) : b.latch k = b.next kind k := by
  rw [Box.next, hq, List.find?_nil, Option.or_none]

variable (kind) in
theorem pending_take (h : b.take k = some b') :
    b'.pending kind k + 1 = b.pending kind k ∧
      ∀ k', k' ≠ k → b'.pending kind k' = b.pending kind k' := by
  unfold Box.take at h
  split_ifs at h with hlatch
  cases h
  refine ⟨by simp [Box.pending, hlatch], fun k' hk => ?_⟩
  simp [Box.pending, hk]

/-! ### What all pending events have in common -/

variable (kind) in
/-- The events of the queue and of the latches, which are of their kinds. -/
def Box.AllPending (p : E → Prop) (b : Box E K) : Prop :=
  (∀ e ∈ b.queue, p e) ∧ ∀ k e, b.latch k = some e → kind e = some k ∧ p e

variable {p : E → Prop}

omit [DecidableEq K] in
theorem Box.AllPending.post {es : List E} (h : b.AllPending kind p) (hes : ∀ e ∈ es, p e) :
    (b.post es).AllPending kind p := by
  refine ⟨fun e he => ?_, h.2⟩
  rcases List.mem_append.mp he with hold | hnew
  · exact h.1 e hold
  · exact hes e hnew

theorem Box.AllPending.deliver {lost : Bool} (h : b.AllPending kind p)
    (hb : b.deliver kind lost = some b') : b'.AllPending kind p := by
  obtain ⟨e, es, hq, rfl⟩ := deliver_cases hb
  obtain ⟨hqueue, hlatch⟩ := h
  rw [hq, List.forall_mem_cons] at hqueue
  cases lost with
  | true => exact ⟨hqueue.2, hlatch⟩
  | false =>
    refine ⟨by simpa using hqueue.2, fun k e' he' => ?_⟩
    simp only [Bool.false_eq_true, if_false, handle_latch] at he'
    split_ifs at he' with hk
    · rcases Option.or_eq_some_iff.mp he' with hold | ⟨-, hnew⟩
      · exact hlatch k e' hold
      · cases hnew
        exact ⟨hk, hqueue.1⟩
    · exact hlatch k e' he'

theorem Box.AllPending.take (h : b.AllPending kind p) (hb : b.take k = some b') :
    b'.AllPending kind p := by
  unfold Box.take at hb
  split_ifs at hb
  cases hb
  refine ⟨h.1, fun k' e he => ?_⟩
  by_cases hk : k' = k
  · simp [hk] at he
  · dsimp only at he
    rw [Function.update_of_ne hk] at he
    exact h.2 k' e he

theorem Box.AllPending.next {e : E} (h : b.AllPending kind p) (he : b.next kind k = some e) :
    p e := by
  rcases Option.or_eq_some_iff.mp he with hlatch | ⟨-, hqueue⟩
  · exact (h.2 k e hlatch).2
  · exact h.1 e (List.mem_of_find?_eq_some hqueue)

omit [DecidableEq K] in
theorem Box.AllPending.mono {q : E → Prop} (h : b.AllPending kind p) (hpq : ∀ e, p e → q e) :
    b.AllPending kind q :=
  ⟨fun e he => hpq e (h.1 e he), fun k e he => ⟨(h.2 k e he).1, hpq e (h.2 k e he).2⟩⟩

/-- Nothing of a kind is pending but what is `p`. -/
def Box.Only (kind : E → Option K) (k : K) (p : E → Prop) (b : Box E K) : Prop :=
  (∀ e ∈ b.queue, kind e = some k → p e) ∧ ∀ e, b.latch k = some e → p e

omit [DecidableEq K] in
theorem Box.Only.post {es : List E} (h : b.Only kind k p) (hes : ∀ e ∈ es, p e) :
    (b.post es).Only kind k p := by
  refine ⟨fun e he hk => ?_, h.2⟩
  rcases List.mem_append.mp he with hold | hnew
  · exact h.1 e hold hk
  · exact hes e hnew

theorem Box.Only.deliver {lost : Bool} (h : b.Only kind k p)
    (hb : b.deliver kind lost = some b') : b'.Only kind k p := by
  obtain ⟨e, es, hq, rfl⟩ := deliver_cases hb
  obtain ⟨hqueue, hlatch⟩ := h
  rw [hq, List.forall_mem_cons] at hqueue
  cases lost with
  | true => exact ⟨hqueue.2, hlatch⟩
  | false =>
    refine ⟨by simpa using hqueue.2, fun e' he' => ?_⟩
    simp only [Bool.false_eq_true, if_false, handle_latch] at he'
    split_ifs at he' with hk
    · rcases Option.or_eq_some_iff.mp he' with hold | ⟨-, hnew⟩
      · exact hlatch e' hold
      · cases hnew
        exact hqueue.1 hk
    · exact hlatch e' he'

theorem only_of_pending (h : b.pending kind k = 0) : b.Only kind k p := by
  have hnone : b.next kind k = none := by
    rw [← Option.not_isSome_iff_eq_none, next_isSome_iff, h]
    exact Nat.lt_irrefl 0
  obtain ⟨hlatch, hqueue⟩ := Option.or_eq_none_iff.mp hnone
  refine ⟨fun e he hk => ?_, fun e he => ?_⟩
  · exact absurd (decide_eq_true hk) (List.find?_eq_none.mp hqueue e he)
  · rw [hlatch] at he
    cases he

end Latch
