import Connx.Codec.Splitting
import Connx.Lib.History
import Connx.Net.Refinement

/-!
# `Disconnect` and later calls of `Connect`

`Connect` moves the state on the thread of its caller, `Disconnect` only when its task is drained.
The task closes whatever it finds, so a `Disconnect` that has returned can still end the attempt of
a later `Connect`. It does not if no task of a `Disconnect` that returned before the `Connect` began
is queued when the state moves.
-/

namespace Connx

open Relation History

variable {cfg : Config}

/-! ### Attempts -/

/-- The attempt, or the connection it became, that is under way after an event. -/
def nextAttempt (n : Option Nat) : Event → Option Nat
  | .connectMoved call => some call
  | .closing _ _ => none
  | _ => n

/-- The `Connect` whose attempt or connection is under way. -/
def attempt (trace : List Event) : Option Nat := trace.foldl nextAttempt none

@[simp] lemma attempt_snoc (t : List Event) (e : Event) :
    attempt (t ++ [e]) = nextAttempt (attempt t) e := by
  simp [attempt]

/-- The `Disconnect` returned before the `Connect` began. -/
def Precedes (d n : Nat) (trace : List Event) : Prop :=
  Before (.disconnectReturned d) (.connectBegan n) trace

/-- No task of a `Disconnect` that precedes the `Connect` is queued. -/
def noEarlierDisconnect : Facts where
  moving c n := c.state = .idle → ∀ d, .disconnect d ∈ c.queue → ¬ Precedes d n c.trace

/-- A `Disconnect` whose task is queued, or has just started, does not precede the attempt that is
under way. -/
structure InOrder (c : Conn) : Prop where
  began : ∀ n, attempt c.trace = some n → .connectBegan n ∈ c.trace
  queued : ∀ n, attempt c.trace = some n → ∀ d, .disconnect d ∈ c.queue → ¬ Precedes d n c.trace
  started : ∀ n, attempt c.trace = some n → ∀ d, c.trace.getLast? = some (.ran (.disconnect d)) →
    ¬ Precedes d n c.trace
  past : Always (fun before e => ∀ reason desc, e = .closing reason desc → ∀ d n,
    before.getLast? = some (.ran (.disconnect d)) → attempt before = some n →
    ¬ Precedes d n before) c.trace

/-- The order of two calls does not change later. -/
lemma precedes_snoc {d n : Nat} {t : List Event} {e : Event} (he : e ≠ .connectBegan n) :
    Precedes d n (t ++ [e]) ↔ Precedes d n t := by
  unfold Precedes
  rw [before_snoc]
  simp [he]

namespace InOrder

variable {c c' : Conn}

/-- A change that leaves the history alone and queues nothing. -/
lemma same (h : InOrder c) (htrace : c'.trace = c.trace)
    (hq : ∀ d, .disconnect d ∈ c'.queue → .disconnect d ∈ c.queue) : InOrder c' where
  began := by rw [htrace]; exact h.began
  queued n hn d hd := by
    rw [htrace] at hn ⊢
    exact h.queued n hn d (hq d hd)
  started := by rw [htrace]; exact h.started
  past := by rw [htrace]; exact h.past

/-- An event that is no part of an attempt. -/
lemma note (h : InOrder c) {e : Event} (htrace : c'.trace = c.trace ++ [e])
    (hq : ∀ d, .disconnect d ∈ c'.queue → .disconnect d ∈ c.queue)
    (hattempt : ∀ n, nextAttempt n e = n) (hbegan : ∀ n, .connectBegan n ∈ c.trace →
      e ≠ .connectBegan n)
    (hran : ∀ d, e = .ran (.disconnect d) → .disconnect d ∈ c.queue) : InOrder c' := by
  have hcur : attempt c'.trace = attempt c.trace := by rw [htrace, attempt_snoc, hattempt]
  have hprec : ∀ n, attempt c.trace = some n →
      ∀ d, Precedes d n c'.trace ↔ Precedes d n c.trace := by
    intro n hn d
    rw [htrace]
    exact precedes_snoc (hbegan n (h.began n hn))
  refine ⟨fun n hn => ?_, fun n hn d hd => ?_, fun n hn d hlast => ?_, ?_⟩
  · rw [htrace]
    exact List.mem_append_left _ (h.began n (hcur ▸ hn))
  · rw [hcur] at hn
    rw [hprec n hn]
    exact h.queued n hn d (hq d hd)
  · rw [hcur] at hn
    rw [hprec n hn]
    rw [htrace, List.getLast?_concat, Option.some_inj] at hlast
    exact h.queued n hn d (hran d hlast)
  · rw [htrace]
    refine always_snoc.mpr ⟨h.past, ?_⟩
    rintro reason desc rfl
    simpa [nextAttempt] using hattempt (some 0)

/-- The attempt or connection ends. -/
lemma closing (h : InOrder c) {reason : CloseReason} {desc : ErrorText}
    (htrace : c'.trace = c.trace ++ [.closing reason desc]) : InOrder c' := by
  have hcur : attempt c'.trace = none := by rw [htrace, attempt_snoc]; rfl
  refine ⟨by simp [hcur], by simp [hcur], by simp [hcur], ?_⟩
  rw [htrace]
  exact always_snoc.mpr ⟨h.past, fun _ _ _ d n hlast hn => h.started n hn d hlast⟩

/-- A `Disconnect` that has not returned is queued. -/
lemma push (h : InOrder c) {t : Task}
    (ht : ∀ d, t = .disconnect d → .disconnectReturned d ∉ c.trace) : InOrder (c.push t) := by
  refine ⟨h.began, fun n hn d hd => ?_, h.started, h.past⟩
  rcases List.mem_append.mp hd with hold | hnew
  · exact h.queued n hn d hold
  · obtain rfl : .disconnect d = t := by simpa using hnew
    exact fun hprec => ht d rfl hprec.mem

/-- `Connect` moves the state. -/
lemma moved (h : InOrder c) {n : Nat} (hbegan : .connectBegan n ∈ c.trace)
    (hq : ∀ d, .disconnect d ∈ c.queue → ¬ Precedes d n c.trace)
    (htrace : c'.trace = c.trace ++ [.connectMoved n]) (hqueue : c'.queue = c.queue) :
    InOrder c' := by
  have hcur : attempt c'.trace = some n := by rw [htrace, attempt_snoc]; rfl
  refine ⟨?_, ?_, ?_, ?_⟩
  · rintro m hm
    obtain rfl : n = m := by simpa [hcur] using hm
    rw [htrace]
    exact List.mem_append_left _ hbegan
  · rintro m hm d hd
    obtain rfl : n = m := by simpa [hcur] using hm
    rw [htrace, precedes_snoc (by simp)]
    exact hq d (hqueue ▸ hd)
  · simp [htrace]
  · rw [htrace]
    exact always_snoc.mpr ⟨h.past, by simp⟩

end InOrder

lemma Change.inOrder {k : Kernel} {F : Facts} {s s' : Local} (h : Change cfg k F s s')
    (hs : InOrder s.conn) : InOrder s'.conn := by
  have hcall : ∀ {c c' : Conn} {cb : Callback}, InOrder c → c'.trace = c.trace ++ [.call cb] →
      c'.queue = c.queue → InOrder c' := fun hc htrace hq =>
    hc.note htrace (fun _ hd => hq ▸ hd) (fun _ => rfl) (by simp) (by simp)
  cases h with
  | bookkeeping c' p _ h => exact hs.same h.trace fun _ hd => h.queue ▸ hd
  | adopt call fd =>
    obtain ⟨id, deadline, hconn⟩ := adopt_conn cfg k fd s
    rw [hconn]
    exact hs.same rfl fun _ hd => hd
  | establish => exact hcall hs rfl rfl
  | append data =>
    exact hs.note (e := .appended data) rfl (fun _ hd => hd) (fun _ => rfl) (by simp) (by simp)
  | deliver call n => exact hcall hs rfl rfl
  | commit => exact hs.same rfl fun _ hd => hd
  | close reason desc =>
    have hclose : InOrder (closeConn cfg reason desc s).conn := hs.closing (closeConn_trace _ _ _ _)
    unfold noteClose
    split_ifs
    · exact hcall hclose rfl rfl
    · exact hclose

lemma Move.inOrder {s s' : Local} (h : Move cfg noEarlierDisconnect s s') (hs : InOrder s.conn) :
    InOrder s'.conn := by
  cases h with
  | task h => exact h.inOrder hs
  | connectBegan call hnew =>
    refine hs.note (e := .connectBegan call) rfl (fun _ hd => hd) (fun _ => rfl) ?_ (by simp)
    rintro n hn heq
    rw [Event.connectBegan.injEq] at heq
    exact hnew (heq ▸ hn)
  | connectMoved call hidle hbegan hF => exact hs.moved hbegan (hF hidle) rfl rfl
  | disconnectReturned call =>
    exact hs.note (e := .disconnectReturned call) rfl (fun _ hd => hd) (fun _ => rfl) (by simp)
      (by simp)
  | push t ht =>
    refine hs.push ?_
    rintro d rfl
    exact ht
  | @start t rest hq =>
    refine hs.note (e := .ran t) rfl (fun d hd => ?_) (fun _ => rfl) (by simp) fun d hd => ?_
    · rw [hq]
      exact List.mem_cons_of_mem _ hd
    · rw [Event.ran.injEq] at hd
      rw [hq, hd]
      exact List.mem_cons_self
  | discard hq =>
    refine hs.same rfl fun d hd => ?_
    rw [hq]
    exact List.mem_cons_of_mem _ hd
  | release =>
    unfold closeRelease
    split_ifs
    · exact hs
    · exact hs.closing (closeConn_trace _ _ _ _)
  | returned =>
    exact hs.note (e := .ownerReturned) rfl (fun _ hd => hd) (fun _ => rfl) (by simp) (by simp)
  | _ => exact hs.same rfl fun _ hd => hd

/-! ### Runs -/

end Connx
