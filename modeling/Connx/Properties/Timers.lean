import Connx.Net.TimerQueue

/-!
# Timers are delivered once, on time and in order

Runs of `Add`, `NextTimeoutMs` and `PopExpired` with any arguments. The calls of a run are numbered,
and the number of an `Add` names its timer. The clock is an argument of the calls, so it may step
back.
-/

namespace Connx.Timers

inductive Op where
  | add (deadlineMs : Int) (id : ConnectionId) (kind : TimerKind)
  | nextTimeoutMs (nowMs maxTimeoutMs : Int)
  | popExpired (nowMs : Int)
  deriving DecidableEq

section Run

variable (P : PriorityQueue TimerEvent compare)

/-- The queue after the `n`-th call. -/
def perform (n : Nat) (q : P.Carrier) : Op → P.Carrier
  | .add deadlineMs id kind => add P q ⟨deadlineMs, id, kind, n⟩
  | .nextTimeoutMs _ _ => q
  | .popExpired nowMs => (popExpired P q nowMs (some [])).2

def queueAfter (ops : List Op) : P.Carrier :=
  ops.zipIdx.foldl (fun q op => perform P op.2 q op.1) P.empty

/-- The timers still in the queue. -/
def pending (ops : List Op) : Multiset TimerEvent := P.elems (queueAfter P ops)

/-- What the `k`-th call puts out. -/
def output (ops : List Op) (k : Nat) : List TimerEvent :=
  match ops[k]? with
  | some (.popExpired nowMs) =>
    ((popExpired P (queueAfter P (ops.take k)) nowMs (some [])).1).getD []
  | _ => []

/-- The call is a `PopExpired` that finds the deadline passed. -/
def Op.delivers (deadlineMs : Int) : Op → Bool
  | .popExpired nowMs => deadlineMs ≤ nowMs
  | _ => false

/-- The number of the first `PopExpired` behind the `n`-th call that finds the deadline passed. -/
def delivery (ops : List Op) (n : Nat) (deadlineMs : Int) : Option Nat :=
  ((ops.drop (n + 1)).findIdx? (Op.delivers deadlineMs)).map (· + (n + 1))

/-- What a run of the timer queue does. -/
structure Delivers (ops : List Op) : Prop where
  /-- A timer is put out by the call that is to deliver it, once, and by no other. -/
  once : ∀ n deadlineMs id kind, ops[n]? = some (.add deadlineMs id kind) → id.valid = true →
    ∀ k, (output P ops k).count ⟨deadlineMs, id, kind, n⟩ =
      if delivery ops n deadlineMs = some k then 1 else 0
  /-- A timer that is not yet to be delivered is pending. -/
  kept : ∀ n deadlineMs id kind, ops[n]? = some (.add deadlineMs id kind) → id.valid = true →
    (pending P ops).count ⟨deadlineMs, id, kind, n⟩ =
      if delivery ops n deadlineMs = none then 1 else 0
  /-- Nothing is put out that was not added before. -/
  added : ∀ k, ∀ ev ∈ output P ops k,
    ev.reg < k ∧ ops[ev.reg]? = some (.add ev.deadlineMs ev.id ev.kind) ∧ ev.id.valid = true
  /-- `PopExpired` is not early, keeps the order and leaves the timers that have not expired. -/
  popped : ∀ k nowMs, ops[k]? = some (.popExpired nowMs) →
    (∀ ev ∈ output P ops k, ev.deadlineMs ≤ nowMs) ∧
      (output P ops k).Pairwise (fun a b => a.deadlineMs ≤ b.deadlineMs) ∧
      pending P (ops.take (k + 1)) =
        (pending P (ops.take k)).filter (fun ev => nowMs < ev.deadlineMs)
  /-- `NextTimeoutMs`, for an `int` that is not negative and differences that fit an `int64_t`. -/
  timeout : ∀ k nowMs maxTimeoutMs, ops[k]? = some (.nextTimeoutMs nowMs maxTimeoutMs) →
    0 ≤ maxTimeoutMs → maxTimeoutMs < 2 ^ 31 →
    (∀ ev ∈ pending P (ops.take k),
      -2 ^ 63 ≤ ev.deadlineMs - nowMs ∧ ev.deadlineMs - nowMs < 2 ^ 63) →
    ∃ r, nextTimeoutMs P (queueAfter P (ops.take k)) nowMs maxTimeoutMs = r ∧
      (0 ≤ r ∧ r ≤ maxTimeoutMs) ∧
      ((∃ ev ∈ pending P (ops.take k), ev.deadlineMs ≤ nowMs) → r = 0) ∧
      ((∀ ev ∈ pending P (ops.take k), nowMs < ev.deadlineMs) →
        ∀ ev ∈ pending P (ops.take k), nowMs + r ≤ ev.deadlineMs)

end Run

section Calls

variable {P : PriorityQueue TimerEvent compare} {ops : List Op} {op : Op} {ev : TimerEvent}

/-! ### One more call -/

lemma queueAfter_snoc (ops : List Op) (op : Op) :
    queueAfter P (ops ++ [op]) = perform P ops.length (queueAfter P ops) op := by
  simp [queueAfter, List.zipIdx_append]

lemma count_pending_add (ops : List Op) (d : Int) (id : ConnectionId) (kind : TimerKind)
    (ev : TimerEvent) :
    (pending P (ops ++ [.add d id kind])).count ev = (pending P ops).count ev +
      if id.valid = true ∧ ev = ⟨d, id, kind, ops.length⟩ then 1 else 0 := by
  rw [pending, queueAfter_snoc, perform, elems_add]
  by_cases hv : id.valid = true
  · simp [hv, Multiset.count_cons, pending]
  · simp [hv, pending]

lemma pending_nextTimeoutMs (ops : List Op) (now max : Int) :
    pending P (ops ++ [.nextTimeoutMs now max]) = pending P ops := by
  rw [pending, queueAfter_snoc]
  rfl

lemma pending_popExpired (ops : List Op) (now : Int) :
    pending P (ops ++ [.popExpired now]) =
      (pending P ops).filter (fun ev => now < ev.deadlineMs) := by
  rw [pending, queueAfter_snoc]
  exact (drain_expired _ now).2

lemma coe_output {k : Nat} {now : Int} (hk : ops[k]? = some (.popExpired now)) :
    (output P ops k : Multiset TimerEvent) =
      (pending P (ops.take k)).filter (fun ev => ev.deadlineMs ≤ now) := by
  simp only [output, hk, popExpired, Option.getD_some, List.nil_append]
  exact (drain_expired _ now).1

lemma output_snoc_of_lt {k : Nat} (hk : k < ops.length) :
    output P (ops ++ [op]) k = output P ops k := by
  rw [output, output, List.getElem?_append_left hk, List.take_append_of_le_length hk.le]

lemma output_of_ge {k : Nat} (hk : ops.length ≤ k) : output P ops k = [] := by
  rw [output, List.getElem?_eq_none hk]

lemma count_output_last (ops : List Op) (op : Op) (ev : TimerEvent) :
    (output P (ops ++ [op]) ops.length).count ev =
      if op.delivers ev.deadlineMs then (pending P ops).count ev else 0 := by
  have hlast : (ops ++ [op])[ops.length]? = some op := by simp
  cases op with
  | add d id kind => simp [output, Op.delivers]
  | nextTimeoutMs now max => simp [output, Op.delivers]
  | popExpired now =>
    rw [← Multiset.coe_count, coe_output hlast, List.take_left, Multiset.count_filter]
    simp [Op.delivers]

/-- A timer leaves the queue with the call that delivers it. -/
lemma count_pending_snoc (hev : ev.reg < ops.length) :
    (pending P (ops ++ [op])).count ev =
      if op.delivers ev.deadlineMs then 0 else (pending P ops).count ev := by
  cases op with
  | add d id kind =>
    rw [count_pending_add, if_neg fun heq => hev.ne (congrArg TimerEvent.reg heq.2)]
    simp [Op.delivers]
  | nextTimeoutMs now max => simp [pending_nextTimeoutMs, Op.delivers]
  | popExpired now =>
    rw [pending_popExpired, Multiset.count_filter]
    by_cases hd : ev.deadlineMs ≤ now
    · simp [Op.delivers, hd]
    · simp [Op.delivers, hd, not_le.mp hd]

lemma delivery_lt {n k : Nat} {d : Int} (h : delivery ops n d = some k) : k < ops.length := by
  obtain ⟨i, hi, rfl⟩ := Option.map_eq_some_iff.mp h
  have hlt := (List.findIdx?_eq_some_iff_findIdx_eq.mp hi).1
  rw [List.length_drop] at hlt
  omega

lemma delivery_snoc {n : Nat} (hn : n < ops.length) (op : Op) (d : Int) :
    delivery (ops ++ [op]) n d =
      (delivery ops n d).or (if op.delivers d then some ops.length else none) := by
  rw [delivery, delivery, List.drop_append_of_le_length hn, List.findIdx?_append, Option.map_or]
  congr 1
  by_cases hop : op.delivers d = true
  · have hlen : ops.length - (n + 1) + (n + 1) = ops.length := by omega
    simp [hop, hlen]
  · simp [hop]

/-! ### Whole runs -/

/-- The timers in the queue are those that were added. -/
lemma added_of_mem_pending (hev : ev ∈ pending P ops) :
    ops[ev.reg]? = some (.add ev.deadlineMs ev.id ev.kind) ∧ ev.id.valid = true := by
  induction ops using List.reverseRecOn with
  | nil => simp [pending, queueAfter] at hev
  | append_singleton ops op ih =>
    have hold : ev ∈ pending P ops →
        (ops ++ [op])[ev.reg]? = some (.add ev.deadlineMs ev.id ev.kind) ∧ ev.id.valid = true :=
      fun hmem => by
        obtain ⟨hop, hv⟩ := ih hmem
        rw [List.getElem?_append_left (List.getElem?_eq_some_iff.mp hop).1]
        exact ⟨hop, hv⟩
    cases op with
    | add d id kind =>
      by_cases hnew : id.valid = true ∧ ev = ⟨d, id, kind, ops.length⟩
      · obtain ⟨hv, rfl⟩ := hnew
        exact ⟨by simp, hv⟩
      · have hcount := Multiset.count_pos.mpr hev
        rw [count_pending_add, if_neg hnew, add_zero] at hcount
        exact hold (Multiset.count_pos.mp hcount)
    | nextTimeoutMs now max => exact hold (by rwa [pending_nextTimeoutMs] at hev)
    | popExpired now =>
      rw [pending_popExpired] at hev
      exact hold (Multiset.mem_of_mem_filter hev)

lemma added_of_mem_output {k : Nat} (hev : ev ∈ output P ops k) :
    ev.reg < k ∧ ops[ev.reg]? = some (.add ev.deadlineMs ev.id ev.kind) ∧ ev.id.valid = true := by
  obtain ⟨now, hk⟩ : ∃ now, ops[k]? = some (.popExpired now) := by
    unfold output at hev
    split at hev
    · exact ⟨_, by assumption⟩
    · simp at hev
  have hmem : ev ∈ pending P (ops.take k) := by
    rw [← Multiset.mem_coe, coe_output hk] at hev
    exact Multiset.mem_of_mem_filter hev
  obtain ⟨hop, hv⟩ := added_of_mem_pending hmem
  obtain ⟨hlt, -⟩ := List.getElem?_eq_some_iff.mp hop
  rw [List.length_take] at hlt
  have hreg : ev.reg < k := lt_of_lt_of_le hlt (min_le_left _ _)
  rw [List.getElem?_take_of_lt hreg] at hop
  exact ⟨hreg, hop, hv⟩

/-- The fate of one timer, by the calls behind its `Add`. -/
lemma fate {n : Nat} {d : Int} {id : ConnectionId} {kind : TimerKind}
    (hn : ops[n]? = some (.add d id kind)) (hv : id.valid = true) :
    (∀ k, (output P ops k).count ⟨d, id, kind, n⟩ =
      if delivery ops n d = some k then 1 else 0) ∧
    (pending P ops).count ⟨d, id, kind, n⟩ = if delivery ops n d = none then 1 else 0 := by
  induction ops using List.reverseRecOn with
  | nil => simp at hn
  | append_singleton ops op ih =>
    obtain hlt | rfl : n < ops.length ∨ n = ops.length := by
      have hlen := (List.getElem?_eq_some_iff.mp hn).1
      rw [List.length_append, List.length_singleton] at hlen
      omega
    · -- an older timer: the call may be the one that delivers it
      rw [List.getElem?_append_left hlt] at hn
      obtain ⟨hout, hpend⟩ := ih hn
      rw [count_pending_snoc (show TimerEvent.reg ⟨d, id, kind, n⟩ < ops.length from hlt),
        delivery_snoc hlt op d, hpend]
      refine ⟨fun k => ?_, ?_⟩
      · rcases lt_trichotomy k ops.length with hk | rfl | hk
        · rw [output_snoc_of_lt hk, hout k]
          cases delivery ops n d with
          | none => by_cases hop : op.delivers d = true <;> simp [hop, hk.ne']
          | some j => simp
        · rw [count_output_last, hpend]
          cases hdel : delivery ops n d with
          | none => by_cases hop : op.delivers d = true <;> simp [hop]
          | some j =>
            have hj := delivery_lt hdel
            by_cases hop : op.delivers d = true <;> simp [hop, hj.ne]
        · rw [output_of_ge (by simpa using hk), List.count_nil]
          cases hdel : delivery ops n d with
          | none => by_cases hop : op.delivers d = true <;> simp [hop, hk.ne]
          | some j =>
            have hj := delivery_lt hdel
            simp [(hj.trans hk).ne]
      · cases delivery ops n d with
        | none => by_cases hop : op.delivers d = true <;> simp [hop]
        | some j => by_cases hop : op.delivers d = true <;> simp [hop]
    · -- the timer of this call
      obtain rfl : op = .add d id kind := by simpa using hn
      have hnone : delivery (ops ++ [.add d id kind]) ops.length d = none := by
        simp [delivery]
      have hnew : (pending P ops).count ⟨d, id, kind, ops.length⟩ = 0 := by
        refine Multiset.count_eq_zero.mpr fun hmem => ?_
        have := (List.getElem?_eq_some_iff.mp (added_of_mem_pending hmem).1).1
        exact absurd this (lt_irrefl _)
      rw [hnone, count_pending_add, hnew]
      refine ⟨fun k => ?_, by simp [hv]⟩
      rw [if_neg (by simp)]
      refine List.count_eq_zero.mpr fun hmem => ?_
      rcases Nat.lt_or_ge ops.length k with hk | hk
      · rw [output_of_ge (by simpa using hk)] at hmem
        simp at hmem
      · exact absurd (added_of_mem_output hmem).1 (not_lt.mpr hk)

end Calls

/-- Every run of the timer queue, over every priority queue that orders by `Compare`, delivers each
timer once, on time and in order. -/
theorem timerQueue_delivers (P : PriorityQueue TimerEvent compare) (ops : List Op) :
    Delivers P ops where
  once _ _ _ _ hn hv := (fate hn hv).1
  kept _ _ _ _ hn hv := (fate hn hv).2
  added _ _ hev := added_of_mem_output hev
  popped k nowMs hk := by
    refine ⟨fun ev hev => ?_, ?_, ?_⟩
    · rw [← Multiset.mem_coe, coe_output hk] at hev
      exact (Multiset.mem_filter.mp hev).2
    · simp only [output, hk, popExpired, Option.getD_some, List.nil_append]
      exact sorted_drain_expired _ nowMs
    · rw [List.take_add_one, hk]
      exact pending_popExpired _ nowMs
  timeout k nowMs maxTimeoutMs _ hmax hint hfits :=
    ⟨_, rfl, nextTimeoutMs_spec hmax hint hfits⟩

/-- Two timers, the later one added first, and a clock that steps back in between. -/
example :
    let ops : List Op := [.add 9 ⟨0, 1⟩ .connectTimeout, .popExpired 8,
      .add 7 ⟨1, 1⟩ .connectTimeout,
      .popExpired 6, .popExpired 9]
    delivery ops 0 9 = some 4 ∧
      output sortedTimers ops 4 =
        [⟨7, ⟨1, 1⟩, .connectTimeout, 2⟩, ⟨9, ⟨0, 1⟩, .connectTimeout, 0⟩] := by
  decide

end Connx.Timers
