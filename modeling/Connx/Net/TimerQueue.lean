import Connx.Lib.PriorityQueue
import Connx.Lib.Signed
import Connx.Net.Runtime

/-!
# `timer_queue.cc`

`TimerQueue` over any priority queue that orders by `Compare`: which of several timers with the
same deadline is on top is left open. The sorted list that the runtime uses is one such queue, and
the operations over it are those of `TimerQueue`.
-/

namespace Connx.Timers

/-- `TimerQueue::Compare`. -/
def compare (lhs rhs : TimerEvent) : Bool := rhs.deadlineMs < lhs.deadlineMs

lemma compare_eq_false_iff {a b : TimerEvent} :
    compare a b = false ↔ a.deadlineMs ≤ b.deadlineMs := by
  simp [compare]

variable (P : PriorityQueue TimerEvent compare)

/-- `Add`; an invalid id is ignored. -/
def add (q : P.Carrier) (ev : TimerEvent) : P.Carrier := if ev.id.valid then P.push q ev else q

/-- `NextTimeoutMs`. -/
def nextTimeoutMs (q : P.Carrier) (nowMs maxTimeoutMs : Int) : Int :=
  match P.top q with
  | none => maxTimeoutMs
  | some ev =>
    let diff := Signed.wrap 64 (ev.deadlineMs - nowMs)
    if diff ≤ 0 then 0 else if maxTimeoutMs < diff then maxTimeoutMs else Signed.wrap 32 diff

/-- The condition of the loop of `PopExpired`. -/
def expired (nowMs : Int) (ev : TimerEvent) : Bool := ev.deadlineMs ≤ nowMs

/-- `PopExpired`: `*out` with the expired timers behind what it held, and the queue that is left; a
null `out` leaves the queue alone. -/
def popExpired (q : P.Carrier) (nowMs : Int) (out : Option (List TimerEvent)) :
    Option (List TimerEvent) × P.Carrier :=
  match out with
  | none => (none, q)
  | some out => (some (out ++ (P.drain (expired nowMs) q).1), (P.drain (expired nowMs) q).2)

variable {P} {q : P.Carrier} {nowMs maxTimeoutMs : Int}

lemma expired_of_compare (nowMs : Int) (a b : TimerEvent) (h : compare a b = false)
    (hb : expired nowMs b = true) : expired nowMs a = true := by
  simp only [expired, decide_eq_true_eq] at hb ⊢
  exact (compare_eq_false_iff.mp h).trans hb

lemma elems_add (q : P.Carrier) (ev : TimerEvent) :
    P.elems (add P q ev) = if ev.id.valid then ev ::ₘ P.elems q else P.elems q := by
  unfold add
  split_ifs
  · exact P.elems_push q ev
  · rfl

/-- What `PopExpired` takes out and what it leaves. -/
lemma drain_expired (q : P.Carrier) (nowMs : Int) :
    ((P.drain (expired nowMs) q).1 : Multiset TimerEvent) =
        (P.elems q).filter (fun ev => ev.deadlineMs ≤ nowMs) ∧
      P.elems (P.drain (expired nowMs) q).2 =
        (P.elems q).filter (fun ev => nowMs < ev.deadlineMs) := by
  have hfilter := PriorityQueue.drain_eq_filter (P := P) (q := q) (expired_of_compare nowMs)
  simpa [expired] using hfilter

/-- The expired timers come out in the order of their deadlines. -/
lemma sorted_drain_expired (q : P.Carrier) (nowMs : Int) :
    (P.drain (expired nowMs) q).1.Pairwise fun a b => a.deadlineMs ≤ b.deadlineMs :=
  PriorityQueue.pairwise_drainFrom.imp compare_eq_false_iff.mp

/-- The timeout is within its bounds, 0 when a timer has expired, and otherwise wakes the poll
thread no later than any deadline. -/
lemma nextTimeoutMs_spec (hmax : 0 ≤ maxTimeoutMs) (hint : maxTimeoutMs < 2 ^ 31)
    (hfits : ∀ ev ∈ P.elems q, -2 ^ 63 ≤ ev.deadlineMs - nowMs ∧ ev.deadlineMs - nowMs < 2 ^ 63) :
    (0 ≤ nextTimeoutMs P q nowMs maxTimeoutMs ∧
        nextTimeoutMs P q nowMs maxTimeoutMs ≤ maxTimeoutMs) ∧
      ((∃ ev ∈ P.elems q, ev.deadlineMs ≤ nowMs) → nextTimeoutMs P q nowMs maxTimeoutMs = 0) ∧
      ((∀ ev ∈ P.elems q, nowMs < ev.deadlineMs) →
        ∀ ev ∈ P.elems q, nowMs + nextTimeoutMs P q nowMs maxTimeoutMs ≤ ev.deadlineMs) := by
  cases htop : P.top q with
  | none =>
    have hzero := P.elems_eq_zero q htop
    simp [nextTimeoutMs, htop, hzero, hmax]
  | some ev =>
    have hmem := PriorityQueue.top_mem htop
    have hleast : ∀ b ∈ P.elems q, ev.deadlineMs ≤ b.deadlineMs := fun b hb =>
      compare_eq_false_iff.mp (P.top_greatest q ev htop b hb)
    have hdiff := Signed.wrap_eq (hfits ev hmem).1 (hfits ev hmem).2
    simp only [nextTimeoutMs, htop, hdiff]
    split_ifs with hle hlarge
    · refine ⟨⟨le_rfl, hmax⟩, fun _ => rfl, fun hpending b hb => ?_⟩
      have := hpending b hb
      omega
    · refine ⟨⟨hmax, le_rfl⟩, ?_, fun _ b hb => ?_⟩
      · rintro ⟨b, hb, hexpired⟩
        have := hleast b hb
        omega
      · have := hleast b hb
        omega
    · rw [Signed.wrap_eq (by omega) (by omega)]
      refine ⟨⟨by omega, by omega⟩, ?_, fun _ b hb => ?_⟩
      · rintro ⟨b, hb, hexpired⟩
        have := hleast b hb
        omega
      · have := hleast b hb
        omega

/-! ### The sorted list of the runtime -/

lemma sorted_orderedInsert (q : TimerQueue) (ev : TimerEvent) :
    (q.timers.orderedInsert (fun a b => a.deadlineMs ≤ b.deadlineMs) ev).Pairwise
      fun a b => a.deadlineMs ≤ b.deadlineMs :=
  q.sorted.orderedInsert _ _

lemma sorted_tail (q : TimerQueue) :
    q.timers.tail.Pairwise fun a b => a.deadlineMs ≤ b.deadlineMs :=
  q.sorted.tail

/-- The queue of the runtime model. -/
def sortedTimers : PriorityQueue TimerEvent compare where
  Carrier := TimerQueue
  empty := {}
  push q ev := ⟨q.timers.orderedInsert (fun a b => a.deadlineMs ≤ b.deadlineMs) ev,
    sorted_orderedInsert q ev⟩
  top q := q.timers.head?
  pop q := ⟨q.timers.tail, sorted_tail q⟩
  size q := q.timers.length
  elems q := q.timers
  size_eq _ := rfl
  elems_empty := rfl
  elems_push q ev := Multiset.coe_eq_coe.mpr (List.perm_orderedInsert _ ev q.timers)
  elems_eq_zero _ h := congrArg _ (List.head?_eq_none_iff.mp h)
  elems_pop _ _ h := PriorityQueue.coe_eq_head_cons h
  top_greatest q _ h b hb :=
    compare_eq_false_iff.mpr (PriorityQueue.head_of_pairwise q.sorted h b hb)

lemma drainFrom_sortedTimers (nowMs : Int) (n : Nat) (q : TimerQueue) (hn : q.timers.length ≤ n) :
    sortedTimers.drainFrom (expired nowMs) n q = q.popExpired nowMs := by
  induction n generalizing q with
  | zero =>
    obtain ⟨timers, sorted⟩ := q
    obtain rfl : timers = [] := List.length_eq_zero_iff.mp (Nat.le_zero.mp hn)
    rfl
  | succ n ih =>
    obtain ⟨_ | ⟨ev, rest⟩, sorted⟩ := q
    · rfl
    · have hrest := ih ⟨rest, sorted.tail⟩ (Nat.le_of_succ_le_succ hn)
      change (if expired nowMs ev then
          (ev :: (sortedTimers.drainFrom (expired nowMs) n ⟨rest, sorted.tail⟩).1,
            (sortedTimers.drainFrom (expired nowMs) n ⟨rest, sorted.tail⟩).2)
        else ([], _)) = _
      rw [hrest]
      by_cases hev : ev.deadlineMs ≤ nowMs
      · simp [TimerQueue.popExpired, expired, hev]
        rfl
      · simp [TimerQueue.popExpired, expired, hev]
        rfl

/-- Over the sorted list the calls do what the runtime model says. -/
theorem calls_sortedTimers (q : TimerQueue) (ev : TimerEvent) (nowMs : Int)
    (out : List TimerEvent) : add sortedTimers q ev = q.add ev ∧
    popExpired sortedTimers q nowMs (some out) =
      (some (out ++ (q.popExpired nowMs).1), (q.popExpired nowMs).2) := by
  refine ⟨rfl, ?_⟩
  have hdrain : sortedTimers.drain (expired nowMs) q = q.popExpired nowMs :=
    drainFrom_sortedTimers nowMs _ q le_rfl
  exact congrArg (fun r => (some (out ++ r.1), r.2)) hdrain

end Connx.Timers
