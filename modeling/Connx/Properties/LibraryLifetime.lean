import Connx.Core.Library
import Connx.Lib.Run

/-!
# The lifetime of the library

After every call the runtime is completely up if `g_initializations` is positive and completely down
if it is zero. Three things are assumed of the calls. When `Poller::Init` fails there is memory for
the text of its error: without the text the error is null, the failure is taken for success, and the
runtime runs without a poller. The allocations whose failure nothing undoes succeed. And
`g_initializations`, an `int`, does not overflow. A worker that shuts the library down itself is not
joined, and goes on until its task has ended.
-/

namespace Connx.Library

def Poller.IsOpen (p : Poller) : Prop := p.pollFd.isSome = true ∧ p.wakeFd.isSome = true

/-- `Poller::Init` succeeds with these answers. -/
def Answers.opens (a : Answers) : Bool :=
  (a.epollCreate1.isSome || (a.epollCreate.isSome && a.setCloseOnExec)) && a.eventfd.isSome &&
    a.epollCtl

namespace GlobalRuntime

/-- Everything is there, with as many worker threads as were to be started. -/
structure Up (rt : GlobalRuntime) : Prop where
  running : rt.running = true
  pollThread : rt.pollThread = true
  poller : rt.poller.IsOpen
  notStopping : rt.workers.stopping = false
  requested : 0 < rt.workers.requested
  workers : rt.workers.workers = rt.workers.requested
  threads : rt.workers.threads = rt.workers.workers

/-- Nothing is there; only a thread that was detached may still have to end. -/
structure Down (rt : GlobalRuntime) : Prop where
  running : rt.running = false
  pollThread : rt.pollThread = false
  poller : rt.poller = {}
  stopping : rt.workers.stopping = true
  workers : rt.workers.workers = 0
  threads : rt.workers.threads = 0

end GlobalRuntime

/-- What a failed call is to leave as it was. -/
structure Resources where
  initializations : Int
  running : Bool
  pollThread : Bool
  poller : Poller
  stopping : Bool
  workers : Nat
  threads : Nat
  detached : Nat
  clients : List ClientAdaptor

def State.resources (S : State) : Resources where
  initializations := S.initializations
  running := S.runtime.running
  pollThread := S.runtime.pollThread
  poller := S.runtime.poller
  stopping := S.runtime.workers.stopping
  workers := S.runtime.workers.workers
  threads := S.runtime.workers.threads
  detached := S.runtime.workers.detached
  clients := S.clients

/-- A stage that fails is reported as an error, and the lists of workers can be made. The text for
the log of `LibraryInit` may be missing: by then everything has been undone. -/
structure Answers.Reported (a : Answers) : Prop where
  message : a.message = true ∨ a.opens = true
  status : a.memory .status = true
  runtimeLog : a.memory .runtimeLog = true
  workerList : a.memory .workerList = true
  emptyList : a.memory .emptyList = true

/-- The assumption on a call. `CreateClient` may fail to allocate the client and its `ClientImpl`,
but not the connection: what has been made by then is not destroyed. -/
def Benign (S : State) : Label → Prop
  | .libraryInit a => a.Reported ∧ S.initializations < 2 ^ 31 - 1
  | .createClient _ a =>
    (a.Reported ∧ a.memory .connection = true) ∧ S.initializations < 2 ^ 31 - 1
  | .libraryShutdown _ memory | .releaseClient _ _ memory => memory = true
  | _ => True

instance (a : Answers) : Decidable a.Reported :=
  decidable_of_iff ((a.message = true ∨ a.opens = true) ∧ a.memory .status = true ∧
    a.memory .runtimeLog = true ∧ a.memory .workerList = true ∧ a.memory .emptyList = true)
    ⟨fun h => ⟨h.1, h.2.1, h.2.2.1, h.2.2.2.1, h.2.2.2.2⟩,
      fun h => ⟨h.message, h.status, h.runtimeLog, h.workerList, h.emptyList⟩⟩

instance (S : State) : (l : Label) → Decidable (Benign S l)
  | .libraryInit a => inferInstanceAs (Decidable (a.Reported ∧ S.initializations < 2 ^ 31 - 1))
  | .createClient _ a => inferInstanceAs (Decidable
      ((a.Reported ∧ a.memory .connection = true) ∧ S.initializations < 2 ^ 31 - 1))
  | .libraryShutdown _ memory => inferInstanceAs (Decidable (memory = true))
  | .releaseClient _ _ memory => inferInstanceAs (Decidable (memory = true))
  | .setWorkerThreads _ | .setWorkerThreadsAuto | .activity _ _ => inferInstanceAs (Decidable True)

/-- An explicit `LibraryShutdown` is matched by an earlier successful `LibraryInit`. -/
def Matched (S : State) : Label → Prop
  | .libraryShutdown _ _ => S.shutdowns < S.inits
  | _ => True

/-- Nothing is shut down by a callback on a worker. -/
def Outside : Label → Prop
  | .libraryShutdown onWorker _ | .releaseClient _ onWorker _ => onWorker = false
  | _ => True

section Stages

variable {a : Answers} {rt : GlobalRuntime} {onWorker : Bool}

lemma Poller.init_of_opens (h : a.opens = true) :
    ∃ p, Poller.init {} a = (.returned none, p) ∧ p.IsOpen := by
  simp only [Answers.opens, Bool.and_eq_true, Bool.or_eq_true, Option.isSome_iff_exists] at h
  obtain ⟨⟨hcreate, wakeFd, hwake⟩, hctl⟩ := h
  have hinit : ∀ fd, ∃ p, Poller.initWake a fd = (.returned none, p) ∧ p.IsOpen := fun fd =>
    ⟨⟨some fd, some wakeFd⟩, by simp [Poller.initWake, hwake, hctl], rfl, rfl⟩
  cases h1 : a.epollCreate1 with
  | some fd => simpa [Poller.init, h1] using hinit fd
  | none =>
    obtain ⟨fd, hfd⟩ | ⟨⟨fd, hfd⟩, hexec⟩ := hcreate
    · rw [h1] at hfd
      cases hfd
    · simpa [Poller.init, h1, hfd, hexec] using hinit fd

/-- A failed `Init` closes what it has opened. -/
lemma Poller.init_of_not_opens (h : a.opens = false) :
    ∃ e, Poller.init {} a = (posixError a e, {}) := by
  have hwake : a.eventfd = none ∨ a.epollCtl = false → ∀ fd,
      ∃ e, Poller.initWake a fd = (posixError a e, {}) := by
    rintro (hnone | hctl) fd
    · exact ⟨.eventfd, by simp [Poller.initWake, hnone]⟩
    · cases hevent : a.eventfd with
      | none => exact ⟨.eventfd, by simp [Poller.initWake, hevent]⟩
      | some wakeFd => exact ⟨.epollCtlWake, by simp [Poller.initWake, hevent, hctl]⟩
  simp only [Answers.opens, Bool.and_eq_false_iff, Bool.or_eq_false_iff, Option.isSome_eq_false_iff,
    Option.isNone_iff_eq_none] at h
  cases h1 : a.epollCreate1 with
  | some fd =>
    have h' : a.eventfd = none ∨ a.epollCtl = false := by simpa [h1] using h
    simpa [Poller.init, h1] using hwake h' fd
  | none =>
    cases h2 : a.epollCreate with
    | none => exact ⟨.epollCreate, by simp [Poller.init, h1, h2]⟩
    | some fd =>
      by_cases hexec : a.setCloseOnExec = true
      · have h' : a.eventfd = none ∨ a.epollCtl = false := by simpa [h1, h2, hexec] using h
        simpa [Poller.init, h1, h2, hexec] using hwake h' fd
      · exact ⟨.fcntlEpoll, by simp [Poller.init, h1, h2, hexec]⟩

lemma startThreads_of_true {thread : Nat → Bool} {left pushed started n m : Nat}
    (h : startThreads thread left pushed started = (true, n, m)) :
    n = pushed + left ∧ m = started + left := by
  induction left generalizing pushed started with
  | zero =>
    cases h
    exact ⟨rfl, rfl⟩
  | succ left ih =>
    rw [startThreads] at h
    split_ifs at h
    · obtain ⟨hn, hm⟩ := ih h
      omega
    · cases h

lemma startThreads_of_forall {thread : Nat → Bool} (h : ∀ i, thread i = true)
    (left pushed started : Nat) :
    startThreads thread left pushed started = (true, pushed + left, started + left) := by
  induction left generalizing pushed started with
  | zero => rfl
  | succ left ih =>
    rw [startThreads, if_pos (h pushed), ih, Nat.add_right_comm, Nat.add_right_comm started]
    rfl

/-- A stopped pool that holds nothing. -/
structure WorkerPool.Idle (p : WorkerPool) : Prop where
  stopping : p.stopping = true
  workers : p.workers = 0
  threads : p.threads = 0

/-- A started pool with all its threads. -/
structure WorkerPool.Started (p : WorkerPool) : Prop where
  notStopping : p.stopping = false
  requested : 0 < p.requested
  workers : p.workers = p.requested
  threads : p.threads = p.workers

/-- A started pool has all its threads, and one whose start failed none. -/
lemma WorkerPool.Idle.start {p : WorkerPool} (h : p.Idle) (ha : a.Reported) (n : Nat) :
    ∃ p', (p.start a n = (.returned true, p') ∧ p'.Started ∨
        p.start a n = (.returned false, p') ∧ p'.Idle ∧ ¬ ∀ i, a.workerThread i = true) ∧
      p'.detached = p.detached := by
  have hpos : 0 < if n = 0 then 1 else n := by
    split_ifs <;> omega
  unfold WorkerPool.start
  simp only [h.stopping, ha.workerList, ha.emptyList, not_true, if_false, if_true]
  rcases hrun : startThreads a.workerThread (if n = 0 then 1 else n) 0 0
    with ⟨_ | _, pushed, started⟩
  · refine ⟨_, .inr ⟨rfl, ⟨rfl, rfl, ?_⟩, fun hall => ?_⟩, rfl⟩
    · exact (Nat.add_sub_cancel ..).trans h.threads
    · rw [startThreads_of_forall hall] at hrun
      cases hrun
  · obtain ⟨rfl, rfl⟩ := startThreads_of_true hrun
    exact ⟨_, .inl ⟨rfl, rfl, hpos, by simp, by simp [h.threads]⟩, rfl⟩

lemma WorkerPool.Started.stop {p : WorkerPool} (h : p.Started) (onWorker : Bool) :
    ∃ p', p.stop onWorker true = (.returned (), p') ∧ p'.Idle ∧
      p'.detached = if onWorker then p.detached + 1 else p.detached := by
  unfold WorkerPool.stop
  simp only [h.notStopping, Bool.false_eq_true, if_false, not_true]
  exact ⟨_, rfl, ⟨rfl, rfl, Nat.sub_eq_zero_of_le h.threads.le⟩, rfl⟩

lemma GlobalRuntime.Down.idle (h : rt.Down) : rt.workers.Idle := ⟨h.stopping, h.workers, h.threads⟩

lemma GlobalRuntime.Up.started (h : rt.Up) : rt.workers.Started :=
  ⟨h.notStopping, h.requested, h.workers, h.threads⟩

/-- `Start` has brought the runtime up, or has left it down and reports an error. -/
inductive GlobalRuntime.Ends (detached : Nat) (rt : GlobalRuntime) :
    Outcome (Option StartError) → Prop
  | up (h : rt.Up) (hdetached : rt.workers.detached = detached) : Ends detached rt (.returned none)
  | down (h : rt.Down) (hdetached : rt.workers.detached = detached) (e : StartError) :
      Ends detached rt (.returned (some e))

/-- The stages behind the poller bring the runtime up, or undo all of it. -/
lemma GlobalRuntime.startThreads_ends (rt : GlobalRuntime) (h : rt.workers.Idle)
    (hrun : rt.running = false) (hpoll : rt.pollThread = false) (hopen : rt.poller.IsOpen)
    (ha : a.Reported) :
    Ends rt.workers.detached (rt.startThreads a).2 (rt.startThreads a).1 := by
  have hstatic (e : StartError) : staticError a e = .returned (some e) := if_pos ha.status
  unfold GlobalRuntime.startThreads
  obtain ⟨workers, ⟨hstart, hworkers⟩ | ⟨hstart, hidle, -⟩, hdetached⟩ :=
    h.start ha (rt.resolveWorkerThreads a.hardwareConcurrency)
  · rw [hstart]
    by_cases hthread : a.pollThread = true
    · simp only [hthread, if_true]
      refine .up ?_ hdetached
      exact ⟨rfl, rfl, hopen, hworkers.notStopping, hworkers.requested, hworkers.workers,
        hworkers.threads⟩
    · obtain ⟨workers', hstop, hidle, hkept⟩ := hworkers.stop false
      simp only [hthread, Bool.false_eq_true, if_false, ha.emptyList, hstop, hstatic]
      refine .down ?_ (hkept.trans hdetached) _
      exact ⟨rfl, hpoll, rfl, hidle.stopping, hidle.workers, hidle.threads⟩
  · rw [hstart]
    simp only [hstatic]
    refine .down ?_ hdetached _
    exact ⟨hrun, hpoll, rfl, hidle.stopping, hidle.workers, hidle.threads⟩

lemma GlobalRuntime.Down.start_of_init {p : Poller} (h : rt.Down)
    (hinit : Poller.init {} a = (.returned none, p)) :
    rt.start a = ({ rt with poller := p } : GlobalRuntime).startThreads a := by
  rw [GlobalRuntime.start, if_neg (by simp [h.running]), h.poller, hinit]

/-- `Start` brings a runtime that is down completely up or leaves it down. -/
lemma GlobalRuntime.Down.start (h : rt.Down) (ha : a.Reported) :
    Ends rt.workers.detached (rt.start a).2 (rt.start a).1 := by
  by_cases hopens : a.opens = true
  · obtain ⟨p, hinit, hopen⟩ := Poller.init_of_opens hopens
    rw [h.start_of_init hinit]
    exact startThreads_ends { rt with poller := p } h.idle h.running h.pollThread hopen ha
  · obtain ⟨e, hinit⟩ := Poller.init_of_not_opens (Bool.not_eq_true _ ▸ hopens)
    have he : posixError a e = .returned (some e) := by
      rw [posixError, if_neg (by simp [ha.message.resolve_right hopens]), if_pos ha.status]
    have hstart : rt.start a = (.returned (some (.poller e)), { rt with poller := {} }) := by
      rw [GlobalRuntime.start, if_neg (by simp [h.running]), h.poller, hinit, he]
      simp only [ha.runtimeLog, if_true]
    rw [hstart]
    have hdown : GlobalRuntime.Down { rt with poller := {} } :=
      ⟨h.running, h.pollThread, rfl, h.stopping, h.workers, h.threads⟩
    exact .down hdown rfl _

lemma GlobalRuntime.Up.stop (h : rt.Up) (onWorker : Bool) :
    ∃ rt', rt.stop onWorker true = (.returned (), rt') ∧ rt'.Down ∧ rt'.workers.detached =
      if onWorker then rt.workers.detached + 1 else rt.workers.detached := by
  obtain ⟨workers, hstop, hidle, hdetached⟩ := h.started.stop onWorker
  unfold GlobalRuntime.stop
  simp only [h.running, not_true, if_false, hstop]
  exact ⟨_, rfl, ⟨rfl, rfl, rfl, hidle.stopping, hidle.workers, hidle.threads⟩, hdetached⟩

end Stages

/-! ### The calls -/

section Calls

variable {S S' : State} {a : Answers} {onWorker memory : Bool}

/-- The count and the runtime agree. -/
structure Counted (S : State) : Prop where
  nonneg : 0 ≤ S.initializations
  bound : S.initializations < 2 ^ 31
  up : 0 < S.initializations → S.runtime.Up
  down : S.initializations = 0 → S.runtime.Down

/-- With the library in use `LibraryInit` only counts. -/
lemma libraryInit_of_pos (hpos : 0 < S.initializations) (hlt : S.initializations < 2 ^ 31 - 1)
    (a : Answers) :
    libraryInit S a = (.returned true, { S with initializations := S.initializations + 1 }) := by
  have hcount : Signed.wrap 32 (S.initializations + 1) = S.initializations + 1 :=
    Signed.wrap_eq (by omega) (by omega)
  unfold libraryInit
  simp only [hcount]
  rw [if_neg (by omega)]

/-- What `LibraryInit` does: it counts and leaves the runtime up, or it changes nothing. -/
inductive Inits (S : State) : Outcome Bool → State → Prop
  | counts (winsock : Bool) (runtime : GlobalRuntime) (h : runtime.Up)
      (hdetached : runtime.workers.detached = S.runtime.workers.detached) :
      Inits S (.returned true)
        { S with initializations := S.initializations + 1, winsock, runtime }
  | fails (winsock : Bool) (runtime : GlobalRuntime) (h0 : S.initializations = 0)
      (h : runtime.Down) (hdetached : runtime.workers.detached = S.runtime.workers.detached)
      {outcome : Outcome Bool} (houtcome : outcome ≠ .returned true) :
      Inits S outcome { S with winsock, runtime }

/-- The first `LibraryInit` starts everything or leaves everything down. -/
lemma libraryInit_of_zero (h0 : S.initializations = 0) (hdown : S.runtime.Down)
    (ha : a.Reported) : Inits S (libraryInit S a).1 (libraryInit S a).2 := by
  have hone : Signed.wrap 32 (0 + 1) = 1 := by decide
  have hzero : Signed.wrap 32 (1 - 1) = 0 := by decide
  have hsame : S = { S with initializations := 0 } := by rw [← h0]
  unfold libraryInit
  simp only [h0, hone, hzero, if_true]
  by_cases hw : a.winsock = true
  · simp only [hw, not_true, if_false]
    rcases hstart : S.runtime.start a with ⟨outcome, runtime⟩
    have hends := hdown.start ha
    rw [hstart] at hends
    cases hends with
    | up hup hdetached =>
      have hinits := Inits.counts (S := S) true runtime hup hdetached
      rwa [h0] at hinits
    | down hdown' hdetached e =>
      have hback : ({ S with initializations := 0, winsock := false, runtime } : State) =
          { S with winsock := false, runtime } := by rw [← h0]
      dsimp only
      rw [hback]
      refine .fails false runtime h0 hdown' hdetached ?_
      split_ifs <;> simp
  · simp only [hw, Bool.false_eq_true, not_false_eq_true, if_true]
    rw [← hsame]
    exact .fails S.winsock S.runtime h0 hdown rfl (by simp)

lemma Counted.inits (h : Counted S) (ha : a.Reported) (hlt : S.initializations < 2 ^ 31 - 1) :
    Inits S (libraryInit S a).1 (libraryInit S a).2 := by
  obtain hpos | h0 := h.nonneg.lt_or_eq
  · rw [libraryInit_of_pos hpos hlt]
    exact .counts S.winsock S.runtime (h.up hpos) rfl
  · exact libraryInit_of_zero h0.symm (h.down h0.symm) ha

lemma Inits.counted {outcome : Outcome Bool} (hinits : Inits S outcome S') (h : Counted S)
    (hlt : S.initializations < 2 ^ 31 - 1) : Counted S' := by
  have hnonneg := h.nonneg
  cases hinits with
  | counts winsock runtime hup =>
    exact ⟨by dsimp only; omega, by dsimp only; omega, fun _ => hup,
      fun hz => absurd hz (by dsimp only; omega)⟩
  | fails winsock runtime h0 hdown =>
    exact ⟨h.nonneg, h.bound, fun hpos => absurd hpos (by dsimp only; omega), fun _ => hdown⟩

/-- What a `LibraryShutdown` of a library in use does. -/
lemma Counted.libraryShutdown_eq (h : Counted S) (hpos : 0 < S.initializations) (onWorker : Bool) :
    ∃ runtime winsock, libraryShutdown S onWorker true =
        (.returned (), { S with initializations := S.initializations - 1, winsock, runtime }) ∧
      (S.initializations = 1 ∧ runtime.Down ∨ S.initializations ≠ 1 ∧ runtime.Up) ∧
      (onWorker = false → runtime.workers.detached = S.runtime.workers.detached) := by
  have hbound := h.bound
  have hcount : Signed.wrap 32 (S.initializations - 1) = S.initializations - 1 :=
    Signed.wrap_eq (by omega) (by omega)
  have hup := h.up hpos
  unfold libraryShutdown
  rw [if_neg (by omega)]
  simp only [hcount]
  by_cases hlast : S.initializations - 1 = 0
  · obtain ⟨runtime, hstop, hdown, hdetached⟩ := hup.stop onWorker
    simp only [hlast, if_true, hstop]
    refine ⟨runtime, false, rfl, .inl ⟨by omega, hdown⟩, fun hout => ?_⟩
    simpa [hout] using hdetached
  · rw [if_neg hlast]
    exact ⟨S.runtime, S.winsock, rfl, .inr ⟨by omega, hup⟩, fun _ => rfl⟩

lemma libraryShutdown_of_le (h : S.initializations ≤ 0) :
    libraryShutdown S onWorker memory = (.returned (), S) := if_pos h

/-- A `LibraryShutdown` that counts. -/
lemma Counted.shutdown (h : Counted S) (hpos : 0 < S.initializations) {runtime : GlobalRuntime}
    {winsock : Bool}
    (hruntime : S.initializations = 1 ∧ runtime.Down ∨ S.initializations ≠ 1 ∧ runtime.Up) :
    Counted { S with initializations := S.initializations - 1, winsock, runtime } := by
  have hbound := h.bound
  refine ⟨by dsimp only; omega, by dsimp only; omega, fun hp => ?_, fun hz => ?_⟩
  · obtain ⟨hone, -⟩ | ⟨-, hup⟩ := hruntime
    · dsimp only at hp
      omega
    · exact hup
  · obtain ⟨-, hdown⟩ | ⟨hne, -⟩ := hruntime
    · exact hdown
    · dsimp only at hz
      omega

lemma Counted.libraryShutdown (h : Counted S) (onWorker : Bool) :
    Counted (libraryShutdown S onWorker true).2 := by
  by_cases h0 : S.initializations ≤ 0
  · rw [libraryShutdown_of_le h0]
    exact h
  · obtain ⟨runtime, winsock, heq, hruntime, -⟩ := h.libraryShutdown_eq (by omega) onWorker
    rw [heq]
    exact h.shutdown (by omega) hruntime

/-- A state with the same count and the same runtime. -/
lemma Counted.congr (h : Counted S) (hcount : S'.initializations = S.initializations)
    (hrt : S'.runtime = S.runtime) : Counted S' where
  nonneg := hcount ▸ h.nonneg
  bound := hcount ▸ h.bound
  up hpos := hrt ▸ h.up (hcount ▸ hpos)
  down h0 := hrt ▸ h.down (hcount ▸ h0)

/-- A runtime that differs only in its settings, timers and connections. -/
lemma Counted.setRuntime (h : Counted S) {rt : GlobalRuntime}
    (hrun : rt.running = S.runtime.running) (hthread : rt.pollThread = S.runtime.pollThread)
    (hpoller : rt.poller = S.runtime.poller) (hworkers : rt.workers = S.runtime.workers) :
    Counted { S with runtime := rt } := by
  refine ⟨h.nonneg, h.bound, fun hpos => ?_, fun h0 => ?_⟩
  · have hup := h.up hpos
    exact ⟨hrun ▸ hup.running, hthread ▸ hup.pollThread, hpoller ▸ hup.poller,
      hworkers ▸ hup.notStopping, hworkers ▸ hup.requested, hworkers ▸ hup.workers,
      hworkers ▸ hup.threads⟩
  · have hdown := h.down h0
    exact ⟨hrun ▸ hdown.running, hthread ▸ hdown.pollThread, hpoller ▸ hdown.poller,
      hworkers ▸ hdown.stopping, hworkers ▸ hdown.workers, hworkers ▸ hdown.threads⟩

lemma Counted.destroyClient (h : Counted S) (client : ClientAdaptor) (onWorker : Bool) :
    ∃ S', destroyClient S client onWorker true = some S' ∧ Counted S' ∧
      (client.initCalled = true → S' = (Library.libraryShutdown S onWorker true).2) := by
  unfold Library.destroyClient
  split_ifs with hcalled
  · have hcounted := h.libraryShutdown onWorker
    by_cases h0 : S.initializations ≤ 0
    · rw [libraryShutdown_of_le h0]
      exact ⟨S, rfl, h, fun _ => rfl⟩
    · obtain ⟨runtime, winsock, heq, -, -⟩ := h.libraryShutdown_eq (by omega) onWorker
      rw [heq] at hcounted ⊢
      exact ⟨_, rfl, hcounted, fun _ => rfl⟩
  · exact ⟨S, rfl, h, fun hc => absurd hc hcalled⟩

/-- The count and the runtime are as before when both are down. -/
lemma resources_eq_of_down (hcount : S'.initializations = S.initializations)
    (hclients : S'.clients = S.clients) (h' : S'.runtime.Down) (h : S.runtime.Down)
    (hdetached : S'.runtime.workers.detached = S.runtime.workers.detached) :
    S'.resources = S.resources := by
  simp only [State.resources, hcount, hclients, h'.running, h.running, h'.pollThread, h.pollThread,
    h'.poller, h.poller, h'.stopping, h.stopping, h'.workers, h.workers, h'.threads, h.threads,
    hdetached]

lemma Inits.resources {outcome : Outcome Bool} (hinits : Inits S outcome S') (h : Counted S)
    (hfail : outcome ≠ .returned true) : S'.resources = S.resources := by
  cases hinits with
  | counts => exact absurd rfl hfail
  | fails winsock runtime h0 hdown hdetached =>
    exact resources_eq_of_down rfl rfl hdown (h.down h0) hdetached

/-- What `CreateClient` does: there is a client and the library is counted, or nothing changes. -/
inductive Creates (S : State) : Outcome Bool → State → Prop
  | counts (winsock : Bool) (runtime : GlobalRuntime) (h : runtime.Up)
      (hdetached : runtime.workers.detached = S.runtime.workers.detached) :
      Creates S (.returned true) { S with
        initializations := S.initializations + 1, winsock, runtime,
        clients := S.clients ++ [⟨true⟩] }
  | fails {S' : State} (hresources : S'.resources = S.resources) (hcounted : Counted S')
      (hinits : S'.inits = S.inits) (hshutdowns : S'.shutdowns = S.shutdowns)
      {outcome : Outcome Bool} (houtcome : outcome ≠ .returned true) : Creates S outcome S'

lemma Inits.keeps {outcome : Outcome Bool} (hinits : Inits S outcome S') :
    S'.inits = S.inits ∧ S'.shutdowns = S.shutdowns := by
  cases hinits <;> exact ⟨rfl, rfl⟩

/-- The client that could not be made is taken off the count again. -/
lemma Counted.creates_undone (h : Counted S) (hlt : S.initializations < 2 ^ 31 - 1)
    (winsock : Bool) {runtime : GlobalRuntime} (hup : runtime.Up)
    (hdetached : runtime.workers.detached = S.runtime.workers.detached)
    (hsame : 0 < S.initializations → runtime = S.runtime) :
    ∃ S', Library.destroyClient
        { S with initializations := S.initializations + 1, winsock, runtime } ⟨true⟩ false true =
          some S' ∧ Creates S .thrown S' := by
  have hnonneg := h.nonneg
  have hcounted : Counted { S with initializations := S.initializations + 1, winsock, runtime } :=
    Inits.counted (.counts winsock runtime hup hdetached) h hlt
  obtain ⟨S', hS', hcounted', heq⟩ := hcounted.destroyClient ⟨true⟩ false
  refine ⟨S', hS', .fails ?_ hcounted' ?_ ?_ (by simp)⟩
  all_goals
    obtain ⟨rt, ws, hshutdown, hruntime, hkept⟩ :=
      hcounted.libraryShutdown_eq (by dsimp only; omega) false
    rw [heq rfl, hshutdown]
  have hback : S.initializations + 1 - 1 = S.initializations := by omega
  obtain ⟨hone, hdown⟩ | ⟨hne, hup'⟩ := hruntime
  · dsimp only at hone
    have h0 : S.initializations = 0 := by omega
    exact resources_eq_of_down hback rfl hdown (h.down h0) ((hkept rfl).trans hdetached)
  · dsimp only at hne
    have hpos : 0 < S.initializations := by omega
    obtain rfl := hsame hpos
    rw [Library.libraryShutdown, if_neg (by dsimp only; omega)] at hshutdown
    have hwrap : Signed.wrap 32 (S.initializations + 1 - 1) = S.initializations := by
      rw [hback]
      exact Signed.wrap_eq (by omega) (by omega)
    simp only [hwrap, if_neg hpos.ne'] at hshutdown
    obtain ⟨-, hstate⟩ := Prod.mk.inj hshutdown
    rw [← hstate]
    rfl

lemma Counted.creates (h : Counted S) (given : Bool) (ha : a.Reported)
    (hconnection : a.memory .connection = true) (hlt : S.initializations < 2 ^ 31 - 1) :
    ∃ outcome S', createClient S given a = some (outcome, S') ∧ Creates S outcome S' := by
  have hinits := h.inits ha hlt
  have hsame : 0 < S.initializations → (libraryInit S a).2.runtime = S.runtime := by
    intro hpos
    rw [libraryInit_of_pos hpos hlt]
  unfold createClient
  cases given with
  | false => exact ⟨_, _, rfl, .fails rfl h rfl rfl (by simp)⟩
  | true =>
    simp only [not_true, if_false, ha.emptyList, hconnection]
    by_cases hadaptor : a.memory .clientAdaptor = true
    · rw [if_neg (by simp [hadaptor])]
      rcases hinit : libraryInit S a with ⟨outcome, S₁⟩
      rw [hinit] at hinits hsame
      have hkeeps := hinits.keeps
      have hresources := hinits.resources h
      have hcounted := hinits.counted h hlt
      cases hinits with
      | counts winsock runtime hup hdetached =>
        dsimp only
        by_cases himpl : a.memory .clientImpl = true
        · rw [if_neg (by simp [himpl])]
          exact ⟨_, _, rfl, .counts winsock runtime hup hdetached⟩
        · rw [if_pos himpl]
          obtain ⟨S', hS', hcreates⟩ := h.creates_undone hlt winsock hup hdetached hsame
          exact ⟨.thrown, S', by rw [hS']; rfl, hcreates⟩
      | fails winsock runtime h0 hdown hdetached houtcome =>
        have hfails := Creates.fails (hresources houtcome) hcounted hkeeps.1 hkeeps.2 houtcome
        rcases outcome with (_ | _) | _
        · exact ⟨_, _, rfl, hfails⟩
        · exact absurd rfl houtcome
        · exact ⟨_, _, rfl, hfails⟩
    · rw [if_pos hadaptor]
      exact ⟨_, _, rfl, .fails rfl h rfl rfl (by simp)⟩

lemma Creates.counted {outcome : Outcome Bool} (hcreates : Creates S outcome S') (h : Counted S)
    (hlt : S.initializations < 2 ^ 31 - 1) : Counted S' := by
  cases hcreates with
  | counts winsock runtime hup hdetached =>
    exact (Inits.counted (.counts winsock runtime hup hdetached) h hlt).congr rfl rfl
  | fails hresources hcounted => exact hcounted

lemma step_libraryInit (S : State) (a : Answers) :
    step S (.libraryInit a) =
      some (if (libraryInit S a).1 = .returned true then
        { (libraryInit S a).2 with inits := (libraryInit S a).2.inits + 1 }
      else (libraryInit S a).2) := by
  rw [step]

lemma Counted.step {l : Label} (h : Counted S) (hok : Benign S l)
    (hstep : Library.step S l = some S') : Counted S' := by
  cases l with
  | libraryInit a =>
    rw [step_libraryInit] at hstep
    obtain rfl := Option.some.inj hstep
    have hinit := (h.inits hok.1 hok.2).counted h hok.2
    split_ifs
    · exact hinit.congr rfl rfl
    · exact hinit
  | libraryShutdown onWorker memory =>
    obtain rfl : memory = true := hok
    obtain rfl := Option.some.inj hstep
    exact (h.libraryShutdown onWorker).congr rfl rfl
  | createClient given a =>
    obtain ⟨outcome, S₁, heq, hcreates⟩ := h.creates given hok.1.1 hok.1.2 hok.2
    rw [Library.step, heq] at hstep
    obtain rfl := Option.some.inj hstep
    exact hcreates.counted h hok.2
  | releaseClient client onWorker memory =>
    cases client with
    | none =>
      obtain rfl := Option.some.inj hstep
      exact h
    | some i =>
      obtain rfl : memory = true := hok
      simp only [Library.step, Option.bind_eq_bind, Option.bind_eq_some_iff] at hstep
      obtain ⟨client, -, hS'⟩ := hstep
      have h' : Counted { S with clients := S.clients.eraseIdx i } := h.congr rfl rfl
      obtain ⟨S₁, hS₁, hcounted, -⟩ := h'.destroyClient client onWorker
      obtain rfl := Option.some.inj (hS₁.symm.trans hS')
      exact hcounted
  | setWorkerThreads n =>
    obtain rfl := Option.some.inj hstep
    refine h.setRuntime ?_ ?_ ?_ ?_ <;> unfold GlobalRuntime.setWorkerThreads <;> split_ifs <;> rfl
  | setWorkerThreadsAuto =>
    obtain rfl := Option.some.inj hstep
    refine h.setRuntime ?_ ?_ ?_ ?_ <;> unfold GlobalRuntime.setWorkerThreadsAuto <;> split_ifs <;>
      rfl
  | activity timers connections =>
    obtain rfl := Option.some.inj hstep
    exact h.setRuntime rfl rfl rfl rfl

/-- The count is made up of the explicit calls and the clients. -/
structure Balanced (S : State) : Prop where
  counted : Counted S
  matched : S.shutdowns ≤ S.inits
  holding : ∀ client ∈ S.clients, client.initCalled = true
  count : S.initializations + S.shutdowns = S.inits + S.clients.length

lemma Balanced.step {l : Label} (h : Balanced S) (hok : Benign S l) (hmatched : Matched S l)
    (hstep : Library.step S l = some S') : Balanced S' := by
  have hcounted := h.counted.step hok hstep
  have hle := h.matched
  have hcount := h.count
  cases l with
  | libraryInit a =>
    rw [step_libraryInit] at hstep
    obtain rfl := Option.some.inj hstep
    have hinits := h.counted.inits hok.1 hok.2
    generalize hinit : libraryInit S a = result at hinits hcounted ⊢
    obtain ⟨outcome, S₁⟩ := result
    dsimp only at hinits hcounted ⊢
    cases hinits with
    | counts winsock runtime =>
      refine ⟨hcounted, ?_, h.holding, ?_⟩ <;> simp only [if_true] <;> omega
    | fails winsock runtime h0 hdown hdetached houtcome =>
      rw [if_neg houtcome] at hcounted ⊢
      exact ⟨hcounted, hle, h.holding, hcount⟩
  | libraryShutdown onWorker memory =>
    obtain rfl : memory = true := hok
    obtain rfl := Option.some.inj hstep
    have hlt : S.shutdowns < S.inits := hmatched
    obtain ⟨runtime, winsock, heq, -, -⟩ := h.counted.libraryShutdown_eq (by omega) onWorker
    rw [heq] at hcounted ⊢
    refine ⟨hcounted, hlt, h.holding, ?_⟩
    dsimp only
    omega
  | createClient given a =>
    obtain ⟨outcome, S₁, heq, hcreates⟩ := h.counted.creates given hok.1.1 hok.1.2 hok.2
    rw [Library.step, heq] at hstep
    obtain rfl := Option.some.inj hstep
    cases hcreates with
    | counts winsock runtime =>
      refine ⟨hcounted, hle, ?_, ?_⟩
      · intro client hmem
        obtain hmem | rfl := (List.mem_append.mp hmem).imp_right List.mem_singleton.mp
        · exact h.holding client hmem
        · rfl
      · simp only [List.length_append, List.length_singleton]
        omega
    | fails hresources _ hinits hshutdowns =>
      have hclients : S₁.clients = S.clients := congrArg Resources.clients hresources
      have hsame : S₁.initializations = S.initializations :=
        congrArg Resources.initializations hresources
      refine ⟨hcounted, ?_, ?_, ?_⟩
      · rw [hinits, hshutdowns]
        exact hle
      · rw [hclients]
        exact h.holding
      · rw [hsame, hinits, hshutdowns, hclients]
        exact hcount
  | releaseClient client onWorker memory =>
    cases client with
    | none =>
      obtain rfl := Option.some.inj hstep
      exact h
    | some i =>
      obtain rfl : memory = true := hok
      simp only [Library.step, Option.bind_eq_bind, Option.bind_eq_some_iff] at hstep
      obtain ⟨client, hi, hS'⟩ := hstep
      obtain ⟨hlt, -⟩ := List.getElem?_eq_some_iff.mp hi
      have hlen := List.length_eraseIdx_of_lt hlt
      have hheld : client.initCalled = true := h.holding client (List.mem_of_getElem? hi)
      have h' : Counted { S with clients := S.clients.eraseIdx i } := h.counted.congr rfl rfl
      obtain ⟨S₁, hS₁, -, heq₁⟩ := h'.destroyClient client onWorker
      obtain rfl := Option.some.inj (hS₁.symm.trans hS')
      obtain ⟨runtime, winsock, heq, -, -⟩ := h'.libraryShutdown_eq (by dsimp only; omega) onWorker
      rw [heq₁ hheld, heq] at hcounted ⊢
      refine ⟨hcounted, hle, fun c hc => h.holding c (List.mem_of_mem_eraseIdx hc), ?_⟩
      dsimp only
      omega
  | setWorkerThreads n =>
    obtain rfl := Option.some.inj hstep
    exact ⟨hcounted, hle, h.holding, hcount⟩
  | setWorkerThreadsAuto =>
    obtain rfl := Option.some.inj hstep
    exact ⟨hcounted, hle, h.holding, hcount⟩
  | activity timers connections =>
    obtain rfl := Option.some.inj hstep
    exact ⟨hcounted, hle, h.holding, hcount⟩

/-! ### Threads that are detached -/

end Calls

/-! ### Results -/

end Connx.Library
