import Connx.Lib.Progress
import Connx.Net.PollLoop

/-!
# The poll thread sleeps neither past a timer nor through `Stop`

The timeout is computed before the poll thread sleeps, and a timer that is added meanwhile is
followed by a wake-up. `Stop` changes `running_` before it wakes the poller. Since the wake-up is
taken only after the sleep it ends, none of this can be missed.
-/

namespace Connx.PollLoop

open Timers (sortedTimers)

variable {P : PriorityQueue TimerEvent Timers.compare} {S S' : State P} {l : Label}

/-- What the poll thread can do. -/
inductive Moves (S : State P) : Label → State P → Prop
  | check (hpc : S.pc = .check) :
    Moves S .check { S with pc := if S.running then .compute else .exited }
  | compute (nowMs : Int) (hpc : S.pc = .compute) : Moves S (.compute nowMs)
      { S with pc := .waiting nowMs (Timers.nextTimeoutMs P S.timers nowMs maxPollTimeoutMs) }
  | waitReturns (result : Poll.WaitResult) (nowMs timeout : Int)
      (hpc : S.pc = .waiting nowMs timeout) (hreturns : returns S.wake result = true) :
    Moves S (.waitReturns result) { S with pc := afterWait result }
  | drainWake (reports : List Poll.Report) (hpc : S.pc = .drain reports) :
    Moves S .drainWake { S with pc := .dispatch reports, wake := false }
  | dispatched (hpc : S.pc = .dispatch []) : Moves S .dispatch { S with pc := .pop }
  | dispatch (report : Poll.Report) (reports : List Poll.Report)
      (hpc : S.pc = .dispatch (report :: reports)) :
    Moves S .dispatch { S with pc := .dispatch reports }
  | popExpired (nowMs : Int) (expired : List TimerEvent) (rest : P.Carrier) (hpc : S.pc = .pop) :
    Moves S (.popExpired nowMs) { S with pc := .dispatchTimers expired, timers := rest }
  | dispatchedTimers (hpc : S.pc = .dispatchTimers []) :
    Moves S .dispatchTimer { S with pc := .check }
  | dispatchTimer (ev : TimerEvent) (timers : List TimerEvent)
      (hpc : S.pc = .dispatchTimers (ev :: timers)) :
    Moves S .dispatchTimer { S with pc := .dispatchTimers timers }

lemma moves_of_pollStep (hstep : pollStep S l = some S') : Moves S l S' := by
  cases l with
  | check =>
    simp only [pollStep] at hstep
    split at hstep <;> cases hstep
    exact .check ‹_›
  | compute nowMs =>
    simp only [pollStep] at hstep
    split at hstep <;> cases hstep
    exact .compute nowMs ‹_›
  | waitReturns result =>
    simp only [pollStep] at hstep
    split at hstep
    · obtain ⟨hreturns, heq⟩ := Option.ite_none_right_eq_some.mp hstep
      cases heq
      exact .waitReturns result _ _ ‹_› hreturns
    · cases hstep
  | drainWake =>
    simp only [pollStep] at hstep
    split at hstep <;> cases hstep
    exact .drainWake _ ‹_›
  | dispatch =>
    simp only [pollStep] at hstep
    split at hstep <;> cases hstep
    · exact .dispatched ‹_›
    · exact .dispatch _ _ ‹_›
  | popExpired nowMs =>
    simp only [pollStep] at hstep
    split at hstep <;> cases hstep
    exact .popExpired nowMs _ _ ‹_›
  | dispatchTimer =>
    simp only [pollStep] at hstep
    split at hstep <;> cases hstep
    · exact .dispatchedTimers ‹_›
    · exact .dispatchTimer _ _ ‹_›
  | _ => cases hstep

/-- The clock and the deadlines are within the range of their type. -/
def Sane (S : State P) : Label → Prop
  | .compute nowMs => ∀ ev ∈ P.elems S.timers,
      -2 ^ 63 ≤ ev.deadlineMs - nowMs ∧ ev.deadlineMs - nowMs < 2 ^ 63
  | _ => True

/-- A sleep of `timeout` from `nowMs` is not too long for the timers. -/
def InTime (S : State P) (nowMs timeout : Int) : Prop :=
  ∀ ev ∈ P.elems S.timers, timeout = 0 ∨ nowMs + timeout ≤ ev.deadlineMs

/-- The poll thread has looked at `running_` and has not come back from its sleep. -/
def Pc.Sleepy : Pc → Prop
  | .compute => True
  | .waiting _ _ => True
  | _ => False

/-- What holds in every state. -/
structure Inv (S : State P) : Prop where
  running : S.stop ≠ .notCalled → S.running = false
  stopping : S.stop = .woken → S.pc.Sleepy → S.wake = true
  joined : S.stop = .joined → S.pc = .exited
  bounds : ∀ nowMs timeout, S.pc = .waiting nowMs timeout →
    0 ≤ timeout ∧ timeout ≤ maxPollTimeoutMs
  inTime : ∀ nowMs timeout, S.pc = .waiting nowMs timeout → S.wake = false → S.adding = 0 →
    InTime S nowMs timeout

lemma inv_init : Inv (State.init P) where
  running h := absurd rfl h
  stopping h := by cases h
  joined h := by cases h
  bounds _ _ h := by cases h
  inTime _ _ h := by cases h

lemma Pc.sleepy_waiting {pc : Pc} {nowMs timeout : Int} (h : pc = .waiting nowMs timeout) :
    pc.Sleepy := by
  rw [h]
  trivial

namespace Inv

/-- The poll thread goes where it is not about to sleep. -/
lemma leave (h : Inv S) (pc : Pc) (hpc : ¬ pc.Sleepy) (hexited : S.pc ≠ .exited) (wake : Bool)
    (timers : P.Carrier) : Inv { S with pc := pc, wake := wake, timers := timers } where
  running := h.running
  stopping _ hsleepy := absurd hsleepy hpc
  joined hjoined := absurd (h.joined hjoined) hexited
  bounds _ _ heq := absurd (Pc.sleepy_waiting heq) hpc
  inTime _ _ heq := absurd (Pc.sleepy_waiting heq) hpc

/-- It looks at `running_`. -/
lemma check (h : Inv S) (hpc : S.pc = .check) :
    Inv { S with pc := if S.running then .compute else .exited } := by
  split_ifs with hrunning
  · -- `Stop` was not called yet
    have hnotCalled : S.stop = .notCalled := by
      by_contra hne
      rw [h.running hne] at hrunning
      cases hrunning
    refine ⟨h.running, fun hwoken => ?_, fun hjoined => ?_, fun _ _ heq => ?_, fun _ _ heq => ?_⟩
    · rw [show S.stop = .woken from hwoken] at hnotCalled
      cases hnotCalled
    · rw [show S.stop = .joined from hjoined] at hnotCalled
      cases hnotCalled
    · cases heq
    · cases heq
  · exact h.leave .exited id (by simp [hpc]) S.wake S.timers

/-- It computes the timeout for the timers that are in the queue. -/
lemma compute (h : Inv S) (hpc : S.pc = .compute) {nowMs : Int} (hsane : Sane S (.compute nowMs)) :
    Inv { S with
      pc := .waiting nowMs (Timers.nextTimeoutMs P S.timers nowMs maxPollTimeoutMs) } := by
  obtain ⟨hbounds, hexpired, hlater⟩ :=
    @Timers.nextTimeoutMs_spec P S.timers nowMs maxPollTimeoutMs (by decide) (by decide) hsane
  refine ⟨h.running, fun hwoken _ => h.stopping hwoken (hpc ▸ trivial), fun hjoined => ?_, ?_, ?_⟩
  · have hexited := h.joined hjoined
    rw [hpc] at hexited
    cases hexited
  · rintro _ _ ⟨⟩
    exact hbounds
  · rintro _ _ ⟨⟩ _ _ ev hev
    by_cases hex : ∃ ev ∈ P.elems S.timers, ev.deadlineMs ≤ nowMs
    · exact Or.inl (hexpired hex)
    · refine Or.inr (hlater (fun ev' hev' => ?_) ev hev)
      by_contra hle
      exact hex ⟨ev', hev', Int.not_lt.mp hle⟩

/-- Another thread adds a timer, and has not woken the poller yet. -/
lemma addTimer (h : Inv S) (ev : TimerEvent) :
    Inv { S with timers := Timers.add P S.timers ev, adding := S.adding + 1 } :=
  ⟨h.running, h.stopping, h.joined, h.bounds, fun _ _ _ _ hadding => absurd hadding (by simp)⟩

/-- Another thread wakes the poller. -/
lemma wakeUp (h : Inv S) (adding : Nat) : Inv { S with adding := adding, wake := true } :=
  ⟨h.running, fun _ _ => rfl, h.joined, h.bounds, fun _ _ _ hwake => absurd hwake (by simp)⟩

lemma stopExchange (h : Inv S) : Inv { S with running := false, stop := .exchanged } :=
  ⟨fun _ => rfl, fun hwoken => (by cases hwoken), fun hjoined => (by cases hjoined), h.bounds,
    h.inTime⟩

lemma stopWake (h : Inv S) (hstop : S.stop = .exchanged) :
    Inv { S with wake := true, stop := .woken } :=
  ⟨fun _ => h.running (by simp [hstop]), fun _ _ => rfl, fun hjoined => (by cases hjoined),
    h.bounds,
    fun _ _ _ hwake => absurd hwake (by simp)⟩

lemma stopJoin (h : Inv S) (hstop : S.stop = .woken) (hpc : S.pc = .exited) :
    Inv { S with stop := .joined } :=
  ⟨fun _ => h.running (by simp [hstop]), fun hwoken => (by cases hwoken), fun _ => hpc, h.bounds,
    h.inTime⟩

end Inv

lemma not_sleepy_afterWait (result : Poll.WaitResult) : ¬ (afterWait result).Sleepy := by
  unfold afterWait
  split <;> exact id

/-- The steps of the poll thread keep the invariant. -/
lemma Inv.moves (h : Inv S) (hsane : Sane S l) (hmoves : Moves S l S') : Inv S' := by
  cases hmoves with
  | check hpc => exact h.check hpc
  | compute nowMs hpc => exact h.compute hpc hsane
  | waitReturns result nowMs timeout hpc =>
    exact h.leave _ (not_sleepy_afterWait result) (by simp [hpc]) S.wake S.timers
  | drainWake reports hpc => exact h.leave _ id (by simp [hpc]) false S.timers
  | dispatched hpc => exact h.leave _ id (by simp [hpc]) S.wake S.timers
  | dispatch report reports hpc => exact h.leave _ id (by simp [hpc]) S.wake S.timers
  | popExpired nowMs expired rest hpc => exact h.leave _ id (by simp [hpc]) S.wake rest
  | dispatchedTimers hpc => exact h.leave _ id (by simp [hpc]) S.wake S.timers
  | dispatchTimer ev timers hpc => exact h.leave _ id (by simp [hpc]) S.wake S.timers

/-- Every step keeps the invariant. -/
lemma Inv.step (h : Inv S) (hsane : Sane S l) (hstep : step S l = some S') : Inv S' := by
  cases l with
  | addTimer ev =>
    obtain rfl := Option.some.inj hstep
    exact h.addTimer ev
  | wakeAfterAdd =>
    simp only [PollLoop.step] at hstep
    split at hstep
    · cases hstep
    · obtain rfl := Option.some.inj hstep
      exact h.wakeUp _
  | stopExchange =>
    obtain ⟨-, heq⟩ := Option.ite_none_right_eq_some.mp hstep
    obtain rfl := Option.some.inj heq
    exact h.stopExchange
  | stopWake =>
    obtain ⟨hstop, heq⟩ := Option.ite_none_right_eq_some.mp hstep
    obtain rfl := Option.some.inj heq
    exact h.stopWake hstop
  | stopJoin =>
    obtain ⟨⟨hstop, hpc⟩, heq⟩ := Option.ite_none_right_eq_some.mp hstep
    obtain rfl := Option.some.inj heq
    exact h.stopJoin hstop hpc
  | check => exact h.moves hsane (moves_of_pollStep hstep)
  | compute nowMs => exact h.moves hsane (moves_of_pollStep hstep)
  | waitReturns result => exact h.moves hsane (moves_of_pollStep hstep)
  | drainWake => exact h.moves hsane (moves_of_pollStep hstep)
  | dispatch => exact h.moves hsane (moves_of_pollStep hstep)
  | popExpired nowMs => exact h.moves hsane (moves_of_pollStep hstep)
  | dispatchTimer => exact h.moves hsane (moves_of_pollStep hstep)

lemma inv_of_exec {ls : List Label} (hexec : Run.exec step (State.init P) ls = some S)
    (hsane : Run.Meets step Sane (State.init P) ls) : Inv S :=
  Run.exec_invariant Sane (fun _ _ _ h hsane hstep => h.step hsane hstep) hexec hsane inv_init

/-! ### Timers -/

/-- In every run, over every priority queue: while the poll thread sleeps, either a wake-up is under
way or no timer in the queue is due before the sleep ends. -/
theorem inTime_of_exec (P : PriorityQueue TimerEvent Timers.compare) (ls : List Label) {S : State P}
    (hexec : Run.exec step (State.init P) ls = some S)
    (hsane : Run.Meets step Sane (State.init P) ls) (nowMs timeout : Int)
    (hpc : S.pc = .waiting nowMs timeout) :
    (0 ≤ timeout ∧ timeout ≤ maxPollTimeoutMs) ∧
      (S.wake = true ∨ 0 < S.adding ∨
        ∀ ev ∈ P.elems S.timers, timeout = 0 ∨ nowMs + timeout ≤ ev.deadlineMs) := by
  have hinv := inv_of_exec hexec hsane
  refine ⟨hinv.bounds nowMs timeout hpc, ?_⟩
  cases hwake : S.wake with
  | true => exact Or.inl rfl
  | false =>
    rcases Nat.eq_zero_or_pos S.adding with hadding | hadding
    · exact Or.inr (Or.inr (hinv.inTime nowMs timeout hpc hwake hadding))
    · exact Or.inr (Or.inl hadding)

/-- A timer due at 300 is added while the poll thread sleeps for one due at 700. -/
def earlierTimer : List Label :=
  [.check, .addTimer ⟨700, ⟨1, 1⟩, .connectTimeout, 0⟩, .wakeAfterAdd, .compute 100,
    .addTimer ⟨300, ⟨2, 1⟩, .connectTimeout, 0⟩, .wakeAfterAdd, .waitReturns (.events [] true),
    .drainWake, .dispatch, .popExpired 110, .dispatchTimer, .check, .compute 110]

instance (S : State P) (l : Label) : Decidable (Sane S l) := by
  cases l <;> unfold Sane <;> infer_instance

theorem inTime_earlierTimer : ∃ S, Run.exec step (State.init sortedTimers) earlierTimer = some S ∧
    S.pc = .waiting 110 190 ∧ S.wake = false ∧ S.adding = 0 ∧
      ((0 ≤ (190 : Int) ∧ 190 ≤ maxPollTimeoutMs) ∧ (S.wake = true ∨ 0 < S.adding ∨
        ∀ ev ∈ sortedTimers.elems S.timers, (190 : Int) = 0 ∨ 110 + 190 ≤ ev.deadlineMs)) := by
  have hrun : (Run.exec step (State.init sortedTimers) earlierTimer).map
      (fun S => (S.pc, S.wake, S.adding)) = some (.waiting 110 190, false, 0) := by decide
  have hcheck : Run.check step (fun S l => decide (Sane S l)) (State.init sortedTimers)
      earlierTimer = true := by decide
  obtain ⟨S, hexec, heq⟩ := Option.map_eq_some_iff.mp hrun
  obtain ⟨hpc, hwake, hadding⟩ := by simpa using heq
  exact ⟨S, hexec, hpc, hwake, hadding, inTime_of_exec sortedTimers earlierTimer hexec
    ((Run.meets_of_check _ hcheck).mono fun _ _ h => of_decide_eq_true h) 110 190 hpc⟩

/-! ### `Stop` -/

/-- How far the poll thread is from the end of its round. -/
def Pc.rank : Pc → Nat ×ₗ Nat
  | .compute => toLex (6, 0)
  | .waiting _ _ => toLex (5, 0)
  | .drain _ => toLex (4, 0)
  | .dispatch reports => toLex (3, reports.length + 1)
  | .pop => toLex (3, 0)
  | .dispatchTimers timers => toLex (2, timers.length)
  | .check => toLex (1, 0)
  | .exited => toLex (0, 0)

/-- The poll thread can go on: it has not come to its end, and does not sleep without a wake-up. -/
def Ready (S : State P) : Prop :=
  S.pc ≠ .exited ∧ ∀ nowMs timeout, S.pc = .waiting nowMs timeout → S.wake = true

lemma rank_afterWait_lt (result : Poll.WaitResult) (nowMs timeout : Int) :
    (afterWait result).rank < (Pc.waiting nowMs timeout).rank := by
  unfold afterWait
  split <;> simp [Pc.rank, Prod.Lex.toLex_lt_toLex]

/-- Once `running_` is false every step of the poll thread brings it nearer to its end. -/
lemma Moves.rank_lt (hmoves : Moves S l S') (hrunning : S.running = false) :
    S'.pc.rank < S.pc.rank := by
  cases hmoves with
  | waitReturns result nowMs timeout hpc =>
    rw [hpc]
    exact rank_afterWait_lt result nowMs timeout
  | check hpc => simp [hrunning, hpc, Pc.rank, Prod.Lex.toLex_lt_toLex]
  | compute nowMs hpc => simp [hpc, Pc.rank, Prod.Lex.toLex_lt_toLex]
  | drainWake reports hpc => simp [hpc, Pc.rank, Prod.Lex.toLex_lt_toLex]
  | dispatched hpc => simp [hpc, Pc.rank, Prod.Lex.toLex_lt_toLex]
  | dispatch report reports hpc => simp [hpc, Pc.rank, Prod.Lex.toLex_lt_toLex]
  | popExpired nowMs expired rest hpc => simp [hpc, Pc.rank, Prod.Lex.toLex_lt_toLex]
  | dispatchedTimers hpc => simp [hpc, Pc.rank, Prod.Lex.toLex_lt_toLex]
  | dispatchTimer ev timers hpc => simp [hpc, Pc.rank, Prod.Lex.toLex_lt_toLex]

lemma Moves.stop_eq (hmoves : Moves S l S') : S'.stop = S.stop := by cases hmoves <;> rfl

/-- `Stop` waits for the poll thread. -/
def Joining (S : State P) : Prop := Inv S ∧ S.stop = .woken

lemma Joining.ready (h : Joining S) (hexited : S.pc ≠ .exited) : Ready S :=
  ⟨hexited, fun _ _ hpc => h.1.stopping h.2 (Pc.sleepy_waiting hpc)⟩

/-- While `Stop` waits only the poll thread changes its rank, and it lowers it. -/
lemma Joining.step (h : Joining S) (hexited : S.pc ≠ .exited) (hsane : Sane S l)
    (hstep : step S l = some S') :
    Joining S' ∧ S'.pc.rank ≤ S.pc.rank ∧ (l.ofPollThread = true → S'.pc.rank < S.pc.rank) := by
  have hinv := h.1.step hsane hstep
  have hmoves : ∀ hmoves : Moves S l S',
      Joining S' ∧ S'.pc.rank ≤ S.pc.rank ∧ (l.ofPollThread = true → S'.pc.rank < S.pc.rank) := by
    intro hmoves
    have hlt := hmoves.rank_lt (h.1.running (by simp [h.2]))
    exact ⟨⟨hinv, hmoves.stop_eq.trans h.2⟩, hlt.le, fun _ => hlt⟩
  cases l with
  | addTimer ev =>
    obtain rfl := Option.some.inj hstep
    exact ⟨⟨hinv, h.2⟩, le_rfl, fun hof => by cases hof⟩
  | wakeAfterAdd =>
    simp only [PollLoop.step] at hstep
    split at hstep
    · cases hstep
    · obtain rfl := Option.some.inj hstep
      exact ⟨⟨hinv, h.2⟩, le_rfl, fun hof => by cases hof⟩
  | stopExchange => simp [PollLoop.step, h.2] at hstep
  | stopWake => simp [PollLoop.step, h.2] at hstep
  | stopJoin => simp [PollLoop.step, hexited] at hstep
  | check => exact hmoves (moves_of_pollStep hstep)
  | compute nowMs => exact hmoves (moves_of_pollStep hstep)
  | waitReturns result => exact hmoves (moves_of_pollStep hstep)
  | drainWake => exact hmoves (moves_of_pollStep hstep)
  | dispatch => exact hmoves (moves_of_pollStep hstep)
  | popExpired nowMs => exact hmoves (moves_of_pollStep hstep)
  | dispatchTimer => exact hmoves (moves_of_pollStep hstep)

/-- In every infinite run in which the poll thread is given its turn whenever it is ready, timers or
not: when `Stop` has woken the poller, the poll thread comes to its end and `Stop` can join it. -/
theorem joins_of_fair (P : PriorityQueue TimerEvent Timers.compare)
    (r : Run.Forever step (State.init P)) (hsane : ∀ n, Sane (r.state n) (r.label n))
    (hfair : r.Fair Ready fun l => l.ofPollThread = true) (n : Nat)
    (hstop : (r.state n).stop = .woken) :
    ∃ m, n ≤ m ∧ (r.state m).pc = .exited ∧ (step (r.state m) .stopJoin).isSome = true := by
  have hinv := Run.Forever.invariant (fun _ _ _ h hsane hstep => Inv.step h hsane hstep) hsane
    inv_init n
  obtain ⟨m, hm, hjoining, hexited⟩ := Run.Forever.reaches (I := Joining) (fun S => S.pc.rank)
    (fun S => S.pc = .exited) hfair hsane (fun _ h hexited => h.ready hexited)
    (fun _ _ _ h hexited hsane hstep => h.step hexited hsane hstep) ⟨hinv, hstop⟩
  exact ⟨m, hm, hexited, by simp [step, hjoining.2, hexited]⟩

/-- `Stop` is called while the poll thread sleeps; another thread adds timers for ever. -/
def stopped : Nat → Label
  | 0 => .check
  | 1 => .compute 0
  | 2 => .stopExchange
  | 3 => .stopWake
  | 4 => .waitReturns (.events [] true)
  | 5 => .drainWake
  | 6 => .dispatch
  | 7 => .popExpired 0
  | 8 => .dispatchTimer
  | 9 => .check
  | n + 10 => .addTimer ⟨n, ⟨1, 1⟩, .connectTimeout, 0⟩

def stoppedState : Nat → State sortedTimers
  | 0 => State.init sortedTimers
  | n + 1 => (step (stoppedState n) (stopped n)).getD (stoppedState n)

lemma step_stopped (n : Nat) :
    step (stoppedState n) (stopped n) = some (stoppedState (n + 1)) := by
  have hsome : (step (stoppedState n) (stopped n)).isSome = true := by
    by_cases hn : n < 10
    · revert n
      decide
    · obtain ⟨k, rfl⟩ := Nat.exists_eq_add_of_le' (Nat.not_lt.mp hn)
      rfl
  obtain ⟨S', hS'⟩ := Option.isSome_iff_exists.mp hsome
  rw [stoppedState, hS', Option.getD_some]

lemma exited_stoppedState (n : Nat) : (stoppedState (n + 10)).pc = .exited := by
  induction n with
  | zero => decide
  | succ n ih => exact ih

def stoppedRun : Run.Forever step (State.init sortedTimers) :=
  ⟨stoppedState, stopped, rfl, step_stopped⟩

theorem joins_stoppedRun : ∃ m, 4 ≤ m ∧ (stoppedState m).pc = .exited ∧
    (step (stoppedState m) .stopJoin).isSome = true := by
  refine joins_of_fair sortedTimers stoppedRun (fun n => ?_) (fun n hready => ?_) 4 (by decide)
  · by_cases hn : n < 10
    · revert n
      decide
    · obtain ⟨k, rfl⟩ := Nat.exists_eq_add_of_le' (Nat.not_lt.mp hn)
      trivial
  · exact absurd (exited_stoppedState n) (hready (n + 10) (by omega)).1

end Connx.PollLoop
