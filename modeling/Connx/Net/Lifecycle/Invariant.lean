import Connx.Lib.WaitGraph
import Connx.Net.Lifecycle.Basic

/-!
# The invariant of creating and releasing

`g_initializations` counts the clients that are there and the calls that are making one; while the
runtime is being stopped there are none, so no callback is left that could make the thread that
stops it wait, except one that has released its own client.
-/

namespace Connx.Lifecycle

open Pool WaitGraph

variable {S S' : State} {t u : Thread} {b k w : Nat} {c : Call} {C : Client} {x : Choice}

/-! ### Counting -/

/-- The call is counted in `g_initializations`. -/
def CallPc.weight : CallPc → Nat
  | .startWorkers | .startPoll | .failStop | .failJoin _ | .failCount => 1
  | .initUnlock ok => if ok then 1 else 0
  | .construct => 1
  | _ => 0

def Call.weight (c : Call) : Nat := c.pc.weight

def Client.weight (C : Client) : Nat := if C.counted then 1 else 0

/-- The call is inside the section guarded by `g_init_mtx`. -/
def CallPc.holds : CallPc → Bool
  | .initCount | .startWorkers | .startPoll | .failStop | .failJoin _ | .failCount => true
  | .initUnlock _ => true
  | .shutCount _ | .stopRunning | .joinPoll | .stopWorkers | .joinWorkers _ | .shutUnlock => true
  | _ => false

/-- The call is the first one, and starts the runtime. -/
def CallPc.starts : CallPc → Bool
  | .startWorkers | .startPoll | .failStop | .failJoin _ | .failCount => true
  | _ => false

/-- The call is the last one, and stops the runtime. -/
def CallPc.stops : CallPc → Bool
  | .stopRunning | .joinPoll | .stopWorkers | .joinWorkers _ => true
  | _ => false

/-- The call is inside `LibraryShutdown`. -/
def CallPc.shuts : CallPc → Bool
  | .shutCount _ | .stopRunning | .joinPoll | .stopWorkers | .joinWorkers _ | .shutUnlock => true
  | _ => false

/-- The client whose release has not come to `LibraryShutdown` yet. -/
def CallPc.releases : CallPc → Option Nat
  | .idleWait b => some b
  | .shutLock b => some b
  | .shutCount b => some b
  | _ => none

/-- The mutex and the counter. -/
structure State.Counting (S : State) : Prop where
  count : S.count = total Client.weight S.clients + total Call.weight S.calls
  single : ∀ (i j : Nat) (c d : Call), S.calls[i]? = some c → S.calls[j]? = some d →
    c.thread = d.thread → c.pc ≠ .done → d.pc ≠ .done → i = j
  poll : ∀ c ∈ S.calls, c.thread ≠ .poll
  holds : ∀ c ∈ S.calls, c.pc.holds = true → S.holder = some c.thread
  holder : ∀ t, S.holder = some t → ∃ c ∈ S.calls, c.thread = t ∧ c.pc.holds = true
  starts : ∀ c ∈ S.calls, c.pc.starts = true → S.count = 1
  stops : ∀ c ∈ S.calls, c.pc.stops = true → S.count = 0

/-! ### Clients -/

/-- Nobody will drain the client, unless it is released from inside its drain. -/
def State.Quiet (S : State) (b : Nat) (C : Client) : Prop :=
  C.work = false ∧ (C.selfClosed = true ∨ S.drained b = false)

/-- What a call knows of the client it releases. -/
def State.Releasing (S : State) (pc : CallPc) : Prop :=
  ∀ b, pc.releases = some b → ∃ C, S.clients[b]? = some C ∧ (C.counted = true ∧ C.closing = true) ∧
    (pc = .idleWait b ∨ S.Quiet b C)

/-- What a callback that is inside a call has not done: released its own client before. -/
def State.Inside (S : State) (c : Call) : Prop :=
  ∀ w, c.thread = .worker w → ∃ a C, S.draining (.worker w) = some a ∧ S.clients[a]? = some C ∧
    (C.selfClosed = false ∨ c.pc = .shutLock a ∨ c.pc.shuts = true)

structure State.Clients (S : State) : Prop where
  releasing : ∀ c ∈ S.calls, S.Releasing c.pc
  sole : ∀ (i j : Nat) (c d : Call) (b : Nat), S.calls[i]? = some c → S.calls[j]? = some d →
    c.pc.releases = some b → d.pc.releases = some b → i = j
  gone : ∀ (b : Nat) (C : Client), S.clients[b]? = some C → C.counted = false →
    C.closing = true ∧ S.Quiet b C
  drains : ∀ (w a : Nat), S.draining (.worker w) = some a →
    ∃ C, S.clients[a]? = some C ∧ C.worker = w
  inside : ∀ c ∈ S.calls, c.pc ≠ .done → S.Inside c

/-- The waits of `CloseFromOwner`. -/
def State.Awaits (S : State) (t u : Thread) : Prop :=
  ∃ c ∈ S.calls, c.thread = t ∧ ∃ b C, c.pc = .idleWait b ∧ S.clients[b]? = some C ∧
    u = .worker C.worker

structure State.Inv (S : State) : Prop extends S.Counting, S.Clients where
  acyclic : Acyclic S.Awaits

lemma inv_init : State.Inv {} where
  count := rfl
  single := by simp
  poll := by simp
  holds := by simp
  holder := by simp
  starts := by simp
  stops := by simp
  releasing := by simp
  sole := by simp
  gone := by simp
  drains := by simp [State.draining]
  inside := by simp
  acyclic := by
    intro a h
    obtain ⟨b, ⟨c, hc, -⟩, -⟩ := Relation.TransGen.head'_iff.mp h
    simp at hc

/-! ### No cycle -/

lemma State.not_drained {a : Nat} (hdraining : S.draining t = some a)
    (hdrained : S.drained a = false) : False := by
  cases t with
  | app | poll => simp [State.draining] at hdraining
  | worker w =>
    obtain ⟨W, hW, hdrains⟩ := Option.bind_eq_some_iff.mp hdraining
    simp only [State.drained, List.any_eq_false] at hdrained
    exact hdrained W (List.mem_of_getElem? hW) (by simp [hdrains])

lemma CallPc.holds_of_starts {pc : CallPc} (h : pc.starts = true) : pc.holds = true := by
  cases pc <;> simp_all [CallPc.starts, CallPc.holds]

lemma CallPc.holds_of_stops {pc : CallPc} (h : pc.stops = true) : pc.holds = true := by
  cases pc <;> simp_all [CallPc.stops, CallPc.holds]

lemma CallPc.holds_of_shuts {pc : CallPc} (h : pc.shuts = true) : pc.holds = true := by
  cases pc <;> simp_all [CallPc.shuts, CallPc.holds]

lemma CallPc.ne_done_of_holds {pc : CallPc} (h : pc.holds = true) : pc ≠ .done := by
  rintro rfl
  simp [CallPc.holds] at h

lemma CallPc.weight_of_starts {pc : CallPc} (h : pc.starts = true) : pc.weight = 1 := by
  cases pc <;> simp_all [CallPc.starts, CallPc.weight]

lemma State.CallWaits.ne_done {pc : CallPc} (h : S.CallWaits t pc u) : pc ≠ .done := by
  rintro rfl
  exact h

namespace State.Counting

variable (hS : S.Counting)
include hS

/-- At most one call is inside the section. -/
lemma holder_unique {i j : Nat} {c d : Call} (hi : S.calls[i]? = some c) (hj : S.calls[j]? = some d)
    (hc : c.pc.holds = true) (hd : d.pc.holds = true) : i = j := by
  have hthread : some c.thread = some d.thread :=
    (hS.holds c (List.mem_of_getElem? hi) hc).symm.trans (hS.holds d (List.mem_of_getElem? hj) hd)
  exact hS.single i j c d hi hj (Option.some.inj hthread) (CallPc.ne_done_of_holds hc)
    (CallPc.ne_done_of_holds hd)

/-- While the runtime is being started or stopped, no client is counted. -/
lemma not_counted (hc : c ∈ S.calls) (h : c.pc.starts = true ∨ c.pc.stops = true)
    (hC : S.clients[b]? = some C) : C.counted = false := by
  by_contra hcounted
  have hweight : 1 ≤ total Client.weight S.clients := by
    have hle : Client.weight C ≤ _ := le_total hC
    rwa [Client.weight, if_pos (by simpa using hcounted)] at hle
  obtain ⟨i, hi⟩ := List.mem_iff_getElem?.mp hc
  have hcall : c.weight ≤ total Call.weight S.calls := le_total hi
  have hcount := hS.count
  obtain hstarts | hstops := h
  · have hone := hS.starts c hc hstarts
    have hw : c.weight = 1 := CallPc.weight_of_starts hstarts
    omega
  · have hzero := hS.stops c hc hstops
    omega

end State.Counting

namespace State.Inv

variable (hS : S.Inv)
include hS

/-- A worker that is joined waits for nobody. -/
lemma worker_not_waiting (hc : c ∈ S.calls) (h : c.pc.starts = true ∨ c.pc.stops = true)
    (hne : c.thread ≠ .worker w) : ¬ S.Waits (.worker w) u := by
  rintro ⟨d, hd, hthread, hwaits⟩
  obtain ⟨a, A, hdraining, hA, hcases⟩ := hS.inside d hd hwaits.ne_done w hthread
  have hcounted : A.counted = false := hS.not_counted hc h hA
  obtain hself | hlock | hshuts := hcases
  · obtain ⟨-, -, hself' | hdrained⟩ := hS.gone a A hA hcounted
    · simp [hself'] at hself
    · exact State.not_drained hdraining hdrained
  · obtain ⟨A', hA', ⟨hcounted', -⟩, -⟩ := hS.releasing d hd a (by rw [hlock]; rfl)
    obtain rfl : A = A' := Option.some.inj (hA.symm.trans hA')
    simp [hcounted] at hcounted'
  · -- the call that joins and this one are both inside the section
    obtain ⟨i, hi⟩ := List.mem_iff_getElem?.mp hc
    obtain ⟨j, hj⟩ := List.mem_iff_getElem?.mp hd
    have hholds : c.pc.holds = true := h.elim CallPc.holds_of_starts CallPc.holds_of_stops
    obtain rfl := hS.holder_unique hi hj hholds (CallPc.holds_of_shuts hshuts)
    obtain rfl : c = d := Option.some.inj (hi.symm.trans hj)
    exact hne hthread

/-- Inside the section a call waits for threads that wait for nobody. -/
lemma holder_waits (hc : c ∈ S.calls) (hholds : c.pc.holds = true)
    (h : S.CallWaits c.thread c.pc u) (v : Thread) : ¬ S.Waits u v := by
  obtain ⟨t, pc⟩ := c
  have hpoll : ¬ S.Waits .poll v := fun ⟨d, hd, hthread, _⟩ => hS.poll d hd hthread
  have hjoin (w : Nat) (hpc : pc.starts = true ∨ pc.stops = true) (hw : S.joins t w = false) :
      ¬ S.Waits (.worker w) v := by
    refine hS.worker_not_waiting hc hpc ?_
    rintro rfl
    simp [State.joins] at hw
  cases pc with
  | initLock | shutLock | idleWait => simp [CallPc.holds] at hholds
  | joinPoll =>
    obtain ⟨-, rfl⟩ := h
    exact hpoll
  | joinWorkers rest =>
    cases rest with
    | nil => exact h.elim
    | cons w rest =>
      obtain ⟨hw, rfl⟩ := h
      exact hjoin w (.inr rfl) hw
  | failJoin rest =>
    cases rest with
    | nil => exact h.elim
    | cons w rest =>
      obtain ⟨hw, rfl⟩ := h
      exact hjoin w (.inl rfl) hw
  | _ => exact h.elim

/-- Whoever waits at the mutex waits for a call inside the section. -/
lemma lock_waits (hholder : S.holder = some t) (h : S.Waits t u) (v : Thread) : ¬ S.Waits u v := by
  obtain ⟨d, hd, hthread, hwaits⟩ := h
  obtain ⟨c, hc, rfl, hholds⟩ := hS.holder t hholder
  obtain ⟨i, hi⟩ := List.mem_iff_getElem?.mp hc
  obtain ⟨j, hj⟩ := List.mem_iff_getElem?.mp hd
  obtain rfl := hS.single i j c d hi hj hthread.symm (CallPc.ne_done_of_holds hholds) hwaits.ne_done
  obtain rfl : c = d := Option.some.inj (hi.symm.trans hj)
  exact hS.holder_waits hc hholds hwaits v

/-- Nobody waits for itself: behind the mutex and the joins there is nobody who waits, so a cycle
would have idle waits only. -/
theorem acyclic_waits : Acyclic S.Waits := by
  refine acyclic_of_followed hS.acyclic fun t u v v' htu huv hvv' => ?_
  have htu' := htu
  obtain ⟨c, hc, rfl, hwaits⟩ := htu
  by_cases hholds : c.pc.holds = true
  · exact absurd huv (hS.holder_waits hc hholds hwaits v)
  obtain ⟨t, pc⟩ := c
  cases pc with
  | initLock | shutLock => exact absurd hvv' (hS.lock_waits hwaits huv v')
  | idleWait b =>
    obtain ⟨-, C, hC, rfl⟩ := hwaits
    exact ⟨_, hc, rfl, b, C, rfl, hC, rfl⟩
  | construct | done => exact hwaits.elim
  | _ => exact absurd rfl hholds

end State.Inv

end Connx.Lifecycle
