import Connx.Net.Executor.Basic

/-!
# What a step of the executor can do

Inversion of the step functions: one constructor for each operation of `Post`, `Drain` and
`CloseFromOwner` and of the functions they share, with what it found.
-/

namespace Connx.Executor

variable {τ : Type} {i : Nat} {g g' : Shared τ} {c : Choice}

/-! ### Shared functions -/

/-- The operations of `NotifyIdle`. -/
inductive NotifyStep (g : Shared τ) : NotifyPc → Shared τ → Option NotifyPc → Prop
  | ownerOpen (h : g.ownerClosing = false) : NotifyStep g .loadOwner g none
  | ownerClosing (h : g.ownerClosing = true) : NotifyStep g .loadOwner g (some .lock)
  | lock (h : g.locked = false) : NotifyStep g .lock { g with locked := true } (some .loadActive)
  | notify (h : g.activePosts = 0) :
      NotifyStep g .loadActive { g with waiters := [] } (some .unlock)
  | posts (h : g.activePosts ≠ 0) : NotifyStep g .loadActive g (some .unlock)
  | unlock : NotifyStep g .unlock { g with locked := false } none

lemma notifyAct_step {pc : NotifyPc} {r : Option NotifyPc} (h : notifyAct g pc = some (g', r)) :
    NotifyStep g pc g' r := by
  cases pc with
  | loadOwner =>
    obtain ⟨rfl, rfl⟩ := by simpa only [notifyAct, Option.some_inj, Prod.mk.injEq] using h
    split_ifs with howner
    · exact .ownerClosing howner
    · exact .ownerOpen (by simpa using howner)
  | lock =>
    obtain ⟨hlocked, rfl, rfl⟩ := by simpa [notifyAct] using h
    exact .lock hlocked
  | loadActive =>
    obtain ⟨rfl, rfl⟩ := by simpa only [notifyAct, Option.some_inj, Prod.mk.injEq] using h
    split_ifs with hactive
    · exact .notify hactive
    · exact .posts hactive
  | unlock =>
    obtain ⟨rfl, rfl⟩ := by simpa [notifyAct] using h
    exact .unlock

/-- The operations of `DrainTaskQueue`. -/
inductive DiscardStep (g : Shared τ) : DiscardPc → Shared τ → Option DiscardPc → Prop
  | retry : DiscardStep g .pop g (some .pop)
  | take {node : Node τ} (h : g.front = some node) :
      DiscardStep g .pop (g.take node .discarded) (some .count)
  | empty (h : g.front = none) : DiscardStep g .pop g (some .loadActive)
  | count : DiscardStep g .count { g with queuedTasks := g.queuedTasks - 1 } (some .pop)
  | noPosts (h : g.activePosts = 0) : DiscardStep g .loadActive g (some .loadQueued)
  | posts (h : g.activePosts ≠ 0) : DiscardStep g .loadActive g (some .pop)
  | noTasks (h : g.queuedTasks = 0) : DiscardStep g .loadQueued g none
  | tasks (h : g.queuedTasks ≠ 0) : DiscardStep g .loadQueued g (some .pop)

lemma discardAct_step {pc : DiscardPc} {r : Option DiscardPc}
    (h : discardAct g c pc = some (g', r)) : DiscardStep g pc g' r := by
  cases pc with
  | pop =>
    simp only [discardAct] at h
    split at h
    · next node hfront =>
      split_ifs at h
      · obtain ⟨rfl, rfl⟩ := by simpa using h
        exact .retry
      · obtain ⟨rfl, rfl⟩ := by simpa using h
        exact .take hfront
    · next hfront =>
      obtain ⟨rfl, rfl⟩ := by simpa using h
      exact .empty hfront
  | count =>
    obtain ⟨rfl, rfl⟩ := by simpa [discardAct] using h
    exact .count
  | loadActive =>
    obtain ⟨rfl, rfl⟩ := by simpa [discardAct] using h
    split_ifs with hactive
    · exact .noPosts hactive
    · exact .posts hactive
  | loadQueued =>
    obtain ⟨rfl, rfl⟩ := by simpa [discardAct] using h
    split_ifs with hqueued
    · exact .noTasks hqueued
    · exact .tasks hqueued

/-- The operations of `CloseFromOwner` up to the end of its first wait. -/
inductive ReleaseStep (i : Nat) (g : Shared τ) : ReleasePc → Shared τ → Option ReleasePc → Prop
  | store {issued visible : Nat} (h : issued < 2) :
      ReleaseStep i g (.stores issued visible) g (some (.stores (issued + 1) visible))
  | lock {issued visible : Nat} (h : 2 ≤ issued) (hv : 2 ≤ visible) (hlocked : g.locked = false) :
      ReleaseStep i g (.stores issued visible) { g with locked := true } (some .check)
  | relock (h : g.locked = false) :
      ReleaseStep i g .relock { g with locked := true } (some .check)
  | noPosts (h : g.activePosts = 0) : ReleaseStep i g .check g (some .unlock)
  | posts (h : g.activePosts ≠ 0) : ReleaseStep i g .check g (some .block)
  | block : ReleaseStep i g .block
      { g with locked := false, waiters := g.waiters ++ [(i, .first)] } (some .blocked)
  | wake : ReleaseStep i g .blocked
      { g with waiters := g.waiters.filter (·.1 ≠ i) } (some .relock)
  | unlock : ReleaseStep i g .unlock { g with locked := false } none

lemma releaseAct_step {pc : ReleasePc} {r : Option ReleasePc}
    (h : releaseAct i g pc = some (g', r)) : ReleaseStep i g pc g' r := by
  cases pc with
  | stores issued visible =>
    simp only [releaseAct] at h
    split_ifs at h with hissued hvisible
    · obtain ⟨rfl, rfl⟩ := by simpa using h
      exact .store hissued
    · obtain ⟨rfl, rfl⟩ := by simpa using h
      rw [not_or, Bool.not_eq_true] at hvisible
      exact .lock (by omega) (by omega) hvisible.2
  | relock =>
    obtain ⟨hlocked, rfl, rfl⟩ := by simpa [releaseAct] using h
    exact .relock hlocked
  | check =>
    obtain ⟨rfl, rfl⟩ := by simpa only [releaseAct, Option.some_inj, Prod.mk.injEq] using h
    split_ifs with hactive
    · exact .noPosts hactive
    · exact .posts hactive
  | block =>
    obtain ⟨rfl, rfl⟩ := by simpa [releaseAct] using h
    exact .block
  | blocked =>
    obtain ⟨rfl, rfl⟩ := by simpa only [releaseAct, Option.some_inj, Prod.mk.injEq] using h
    exact .wake
  | unlock =>
    obtain ⟨rfl, rfl⟩ := by simpa [releaseAct] using h
    exact .unlock

/-- The operations of the second wait of `CloseFromOwner`. -/
inductive WaitStep (i : Nat) (g : Shared τ) : WaitPc → Shared τ → Option WaitPc → Prop
  | lock (h : g.locked = false) :
      WaitStep i g .lock { g with locked := true } (some .loadDraining)
  | draining (h : g.draining = true) : WaitStep i g .loadDraining g (some .block)
  | notDraining (h : g.draining = false) : WaitStep i g .loadDraining g (some .loadQueued)
  | noTasks (h : g.queuedTasks = 0) : WaitStep i g .loadQueued g (some .loadActive)
  | tasks (h : g.queuedTasks ≠ 0) : WaitStep i g .loadQueued g (some .block)
  | noPosts (h : g.activePosts = 0) : WaitStep i g .loadActive g (some .unlock)
  | posts (h : g.activePosts ≠ 0) : WaitStep i g .loadActive g (some .block)
  | block : WaitStep i g .block
      { g with locked := false, waiters := g.waiters ++ [(i, .second)] } (some .blocked)
  | wake : WaitStep i g .blocked { g with waiters := g.waiters.filter (·.1 ≠ i) } (some .lock)
  | unlock : WaitStep i g .unlock { g with locked := false } none

lemma waitAct_step {pc : WaitPc} {r : Option WaitPc} (h : waitAct i g pc = some (g', r)) :
    WaitStep i g pc g' r := by
  cases pc with
  | lock =>
    obtain ⟨hlocked, rfl, rfl⟩ := by simpa [waitAct] using h
    exact .lock hlocked
  | loadDraining =>
    obtain ⟨rfl, rfl⟩ := by simpa only [waitAct, Option.some_inj, Prod.mk.injEq] using h
    split_ifs with hdraining
    · exact .draining hdraining
    · exact .notDraining (by simpa using hdraining)
  | loadQueued =>
    obtain ⟨rfl, rfl⟩ := by simpa only [waitAct, Option.some_inj, Prod.mk.injEq] using h
    split_ifs with hqueued
    · exact .noTasks hqueued
    · exact .tasks hqueued
  | loadActive =>
    obtain ⟨rfl, rfl⟩ := by simpa only [waitAct, Option.some_inj, Prod.mk.injEq] using h
    split_ifs with hactive
    · exact .noPosts hactive
    · exact .posts hactive
  | block =>
    obtain ⟨rfl, rfl⟩ := by simpa [waitAct] using h
    exact .block
  | blocked =>
    obtain ⟨rfl, rfl⟩ := by simpa only [waitAct, Option.some_inj, Prod.mk.injEq] using h
    exact .wake
  | unlock =>
    obtain ⟨rfl, rfl⟩ := by simpa [waitAct] using h
    exact .unlock

/-! `NotifyIdle` and the waits touch the mutex and the condition variable only. -/

lemma NotifyStep.frame {pc : NotifyPc} {r : Option NotifyPc} (h : NotifyStep g pc g' r) :
    g' = { g with locked := g'.locked, waiters := g'.waiters } := by
  cases h <;> rfl

lemma ReleaseStep.frame {pc : ReleasePc} {r : Option ReleasePc} (h : ReleaseStep i g pc g' r) :
    g' = { g with locked := g'.locked, waiters := g'.waiters } := by
  cases h <;> rfl

lemma WaitStep.frame {pc : WaitPc} {r : Option WaitPc} (h : WaitStep i g pc g' r) :
    g' = { g with locked := g'.locked, waiters := g'.waiters } := by
  cases h <;> rfl

/-! ### `Post` -/

/-- The operations of `Post`. -/
inductive PostStep (i : Nat) (g : Shared τ) (task : τ) : PostPc → Shared τ → PostPc → Prop
  | enter : PostStep i g task .enter { g with activePosts := g.activePosts + 1 } .check
  | accepted (h : g.accepting = true) : PostStep i g task .check g .count
  | refused : PostStep i g task .check g (.leave false)
  | count : PostStep i g task .count { g with queuedTasks := g.queuedTasks + 1 } .exchange
  | exchange : PostStep i g task .exchange
      { g with nodes := g.nodes ++ [⟨i, task, false⟩], pushed := g.pushed ++ [i] } .link
  | link : PostStep i g task .link { g with nodes := g.nodes.map fun node =>
      if node.id = i then { node with linked := true } else node } .acquire
  | failed (h : g.draining = true) : PostStep i g task .acquire g (.leave false)
  | acquired (h : g.draining = false) :
      PostStep i g task .acquire { g with draining := true } (.leave true)
  | leaveLast {won : Bool} (h : g.activePosts = 1) : PostStep i g task (.leave won)
      { g with activePosts := g.activePosts - 1 } (.notify won .loadOwner)
  | leave (h : g.activePosts ≠ 1) : PostStep i g task (.leave false)
      { g with activePosts := g.activePosts - 1 } .done
  | leaveWon (h : g.activePosts ≠ 1) : PostStep i g task (.leave true)
      { g with activePosts := g.activePosts - 1 } .schedule
  | notify {won : Bool} {pc pc' : NotifyPc} {g' : Shared τ} (h : NotifyStep g pc g' (some pc')) :
      PostStep i g task (.notify won pc) g' (.notify won pc')
  | notified {pc : NotifyPc} {g' : Shared τ} (h : NotifyStep g pc g' none) :
      PostStep i g task (.notify false pc) g' .done
  | notifiedWon {pc : NotifyPc} {g' : Shared τ} (h : NotifyStep g pc g' none) :
      PostStep i g task (.notify true pc) g' .schedule
  | schedule : PostStep i g task .schedule { g with scheduled := g.scheduled + 1 } .done

lemma postAct_step {task : τ} {pc pc' : PostPc} (h : postAct i g c task pc = some (g', pc')) :
    PostStep i g task pc g' pc' := by
  cases pc with
  | enter =>
    obtain ⟨rfl, rfl⟩ := by simpa [postAct] using h
    exact .enter
  | check =>
    obtain ⟨rfl, rfl⟩ := by simpa only [postAct, Option.some_inj, Prod.mk.injEq] using h
    split_ifs with hcheck
    · exact .accepted hcheck.2
    · exact .refused
  | count =>
    obtain ⟨rfl, rfl⟩ := by simpa [postAct] using h
    exact .count
  | exchange =>
    obtain ⟨rfl, rfl⟩ := by simpa [postAct] using h
    exact .exchange
  | link =>
    obtain ⟨rfl, rfl⟩ := by simpa only [postAct, Option.some_inj, Prod.mk.injEq] using h
    exact .link
  | acquire =>
    simp only [postAct] at h
    split_ifs at h with hdraining
    · obtain ⟨rfl, rfl⟩ := by simpa using h
      exact .failed hdraining
    · obtain ⟨rfl, rfl⟩ := by simpa using h
      exact .acquired (by simpa using hdraining)
  | leave won =>
    obtain ⟨rfl, rfl⟩ := by simpa only [postAct, Option.some_inj, Prod.mk.injEq] using h
    split_ifs with hlast
    · exact .leaveLast hlast
    · cases won
      · exact .leave hlast
      · exact .leaveWon hlast
  | notify won pc =>
    obtain ⟨⟨g₁, r⟩, hact, heq⟩ := Option.map_eq_some_iff.mp h
    obtain ⟨rfl, rfl⟩ := by simpa using heq
    cases r with
    | none => cases won with
      | false => exact .notified (notifyAct_step hact)
      | true => exact .notifiedWon (notifyAct_step hact)
    | some pc' => exact .notify (notifyAct_step hact)
  | schedule =>
    obtain ⟨rfl, rfl⟩ := by simpa [postAct] using h
    exact .schedule
  | done => simp [postAct] at h

/-! ### `Drain` -/

/-- The operations of `Drain`, with the number of tasks it has run. -/
inductive DrainStep (i : Nat) (g : Shared τ) (n : Nat) :
    DrainPc τ → Shared τ → Nat → DrainPc τ → Prop
  | topClosing (h : g.ownerClosing = true) : DrainStep i g n .top g n (.closing .pop)
  | topOpen (h : g.ownerClosing = false) : DrainStep i g n .top g n .pop
  | retry : DrainStep i g n .pop g n .pop
  | take {node : Node τ} (h : g.front = some node) :
      DrainStep i g n .pop (g.take node .run) n (.count node)
  | empty (h : g.front = none) : DrainStep i g n .pop g n .release
  | count {node : Node τ} :
      DrainStep i g n (.count node) { g with queuedTasks := g.queuedTasks - 1 } n .running
  | finish : DrainStep i g n .running g (n + 1) .top
  | finishYield : DrainStep i g n .running g (n + 1) .yield
  | close : DrainStep i g n .running g n (.releasing (.stores 0 0))
  | releasing {pc pc' : ReleasePc} {g' : Shared τ} (h : ReleaseStep i g pc g' (some pc')) :
      DrainStep i g n (.releasing pc) g' n (.releasing pc')
  | released {pc : ReleasePc} {g' : Shared τ} (h : ReleaseStep i g pc g' none) :
      DrainStep i g n (.releasing pc) g' n (.discarding .pop)
  | discarding {pc pc' : DiscardPc} {g' : Shared τ} (h : DiscardStep g pc g' (some pc')) :
      DrainStep i g n (.discarding pc) g' n (.discarding pc')
  | discarded {pc : DiscardPc} {g' : Shared τ} (h : DiscardStep g pc g' none) :
      DrainStep i g n (.discarding pc) g' n .startClose
  | startClose : DrainStep i g n .startClose g n .running
  | yieldClosing (h : g.ownerClosing = true) : DrainStep i g n .yield g n .top
  | reschedule (h : g.ownerClosing = false) : DrainStep i g n .yield
      { g with scheduled := g.scheduled + 1 } n (.returned true)
  | release : DrainStep i g n .release g n (.notifying false false .loadOwner)
  | notifying {visible ending : Bool} {pc pc' : NotifyPc} {g' : Shared τ}
      (hlock : pc = .lock → visible = true) (h : NotifyStep g pc g' (some pc')) :
      DrainStep i g n (.notifying visible ending pc) g' n (.notifying visible ending pc')
  | notified {visible : Bool} {pc : NotifyPc} {g' : Shared τ} (h : NotifyStep g pc g' none) :
      DrainStep i g n (.notifying visible false pc) g' n (.recheckOwner visible)
  | ended {visible : Bool} {pc : NotifyPc} {g' : Shared τ} (h : NotifyStep g pc g' none) :
      DrainStep i g n (.notifying visible true pc) g' n (.returned visible)
  | ownerClosing {visible : Bool} (h : g.ownerClosing = true) :
      DrainStep i g n (.recheckOwner visible) g n (.reacquire visible)
  | ownerOpen {visible : Bool} (h : g.ownerClosing = false) :
      DrainStep i g n (.recheckOwner visible) g n (.recheckQueued visible)
  | noTasks {visible : Bool} (h : g.queuedTasks = 0) :
      DrainStep i g n (.recheckQueued visible) g n (.recheckActive visible)
  | tasks {visible : Bool} (h : g.queuedTasks ≠ 0) :
      DrainStep i g n (.recheckQueued visible) g n (.reacquire visible)
  | noPosts {visible : Bool} (h : g.activePosts = 0) :
      DrainStep i g n (.recheckActive visible) g n (.returned visible)
  | posts {visible : Bool} (h : g.activePosts ≠ 0) :
      DrainStep i g n (.recheckActive visible) g n (.reacquire visible)
  | failed (h : g.draining = true) : DrainStep i g n (.reacquire true) g n (.returned true)
  | acquired (h : g.draining = false) :
      DrainStep i g n (.reacquire true) { g with draining := true } n .top
  | closing {pc pc' : DiscardPc} {g' : Shared τ} (h : DiscardStep g pc g' (some pc')) :
      DrainStep i g n (.closing pc) g' n (.closing pc')
  | closed {pc : DiscardPc} {g' : Shared τ} (h : DiscardStep g pc g' none) :
      DrainStep i g n (.closing pc) g' n .closeConn
  | closeConn : DrainStep i g n .closeConn g n .closeStore
  | closeStore : DrainStep i g n .closeStore g n (.notifying false true .loadOwner)

lemma drainAct_step {n n' : Nat} {pc pc' : DrainPc τ}
    (h : drainAct i g c n pc = some (g', n', pc')) : DrainStep i g n pc g' n' pc' := by
  cases pc with
  | top =>
    obtain ⟨rfl, rfl, rfl⟩ := by simpa only [drainAct, Option.some_inj, Prod.mk.injEq] using h
    split_ifs with howner
    · exact .topClosing howner
    · exact .topOpen (by simpa using howner)
  | pop =>
    simp only [drainAct] at h
    split at h
    · next node hfront =>
      split_ifs at h
      · obtain ⟨rfl, rfl, rfl⟩ := by simpa using h
        exact .retry
      · obtain ⟨rfl, rfl, rfl⟩ := by simpa using h
        exact .take hfront
    · next hfront =>
      obtain ⟨rfl, rfl, rfl⟩ := by simpa using h
      exact .empty hfront
  | count node =>
    obtain ⟨rfl, rfl, rfl⟩ := by simpa [drainAct] using h
    exact .count
  | running =>
    cases c with
    | finish yield =>
      obtain ⟨rfl, rfl, rfl⟩ := by simpa [drainAct] using h
      unfold DrainPc.afterTask
      split_ifs
      · exact .finishYield
      · exact .finish
    | closeFromOwner =>
      obtain ⟨rfl, rfl, rfl⟩ := by simpa [drainAct] using h
      exact .close
    | _ => simp [drainAct] at h
  | releasing pc =>
    obtain ⟨⟨g₁, r⟩, hact, heq⟩ := Option.map_eq_some_iff.mp h
    obtain ⟨rfl, rfl, rfl⟩ := by simpa using heq
    cases r with
    | none => exact .released (releaseAct_step hact)
    | some pc' => exact .releasing (releaseAct_step hact)
  | discarding pc =>
    obtain ⟨⟨g₁, r⟩, hact, heq⟩ := Option.map_eq_some_iff.mp h
    obtain ⟨rfl, rfl, rfl⟩ := by simpa using heq
    cases r with
    | none => exact .discarded (discardAct_step hact)
    | some pc' => exact .discarding (discardAct_step hact)
  | startClose =>
    obtain ⟨rfl, rfl, rfl⟩ := by simpa [drainAct] using h
    exact .startClose
  | yield =>
    simp only [drainAct] at h
    split_ifs at h with howner
    · obtain ⟨rfl, rfl, rfl⟩ := by simpa using h
      exact .yieldClosing howner
    · obtain ⟨rfl, rfl, rfl⟩ := by simpa using h
      exact .reschedule (by simpa using howner)
  | release =>
    obtain ⟨rfl, rfl, rfl⟩ := by simpa [drainAct] using h
    exact .release
  | notifying visible ending pc =>
    simp only [drainAct] at h
    split_ifs at h with hlock
    obtain ⟨⟨g₁, r⟩, hact, heq⟩ := Option.map_eq_some_iff.mp h
    obtain ⟨rfl, rfl, rfl⟩ := by simpa using heq
    cases r with
    | none => cases ending with
      | false => exact .notified (notifyAct_step hact)
      | true => exact .ended (notifyAct_step hact)
    | some pc' => exact .notifying (by simpa using hlock) (notifyAct_step hact)
  | recheckOwner visible =>
    obtain ⟨rfl, rfl, rfl⟩ := by simpa only [drainAct, Option.some_inj, Prod.mk.injEq] using h
    split_ifs with howner
    · exact .ownerClosing howner
    · exact .ownerOpen (by simpa using howner)
  | recheckQueued visible =>
    obtain ⟨rfl, rfl, rfl⟩ := by simpa only [drainAct, Option.some_inj, Prod.mk.injEq] using h
    split_ifs with hqueued
    · exact .noTasks hqueued
    · exact .tasks hqueued
  | recheckActive visible =>
    obtain ⟨rfl, rfl, rfl⟩ := by simpa only [drainAct, Option.some_inj, Prod.mk.injEq] using h
    split_ifs with hactive
    · exact .noPosts hactive
    · exact .posts hactive
  | reacquire visible =>
    cases visible with
    | false => simp [drainAct] at h
    | true =>
      simp only [drainAct, Bool.not_true, Bool.false_eq_true, if_false] at h
      split_ifs at h with hdraining
      · obtain ⟨rfl, rfl, rfl⟩ := by simpa using h
        exact .failed hdraining
      · obtain ⟨rfl, rfl, rfl⟩ := by simpa using h
        exact .acquired (by simpa using hdraining)
  | closing pc =>
    obtain ⟨⟨g₁, r⟩, hact, heq⟩ := Option.map_eq_some_iff.mp h
    obtain ⟨rfl, rfl, rfl⟩ := by simpa using heq
    cases r with
    | none => exact .closed (discardAct_step hact)
    | some pc' => exact .closing (discardAct_step hact)
  | closeConn =>
    obtain ⟨rfl, rfl, rfl⟩ := by simpa [drainAct] using h
    exact .closeConn
  | closeStore =>
    obtain ⟨rfl, rfl, rfl⟩ := by simpa [drainAct] using h
    exact .closeStore
  | returned visible => simp [drainAct] at h

/-! ### `CloseFromOwner` -/

/-- The operations of `CloseFromOwner` on a thread that is not draining. -/
inductive CloserStep (i : Nat) (g : Shared τ) : CloserPc → Shared τ → CloserPc → Prop
  | releasing {pc pc' : ReleasePc} {g' : Shared τ} (h : ReleaseStep i g pc g' (some pc')) :
      CloserStep i g (.releasing pc) g' (.releasing pc')
  | released {pc : ReleasePc} {g' : Shared τ} (h : ReleaseStep i g pc g' none) :
      CloserStep i g (.releasing pc) g' .acquire
  | failed (h : g.draining = true) : CloserStep i g .acquire g (.waiting .lock)
  | acquired (h : g.draining = false) :
      CloserStep i g .acquire { g with draining := true } .schedule
  | schedule :
      CloserStep i g .schedule { g with scheduled := g.scheduled + 1 } (.waiting .lock)
  | waiting {pc pc' : WaitPc} {g' : Shared τ} (h : WaitStep i g pc g' (some pc')) :
      CloserStep i g (.waiting pc) g' (.waiting pc')
  | waited {pc : WaitPc} {g' : Shared τ} (h : WaitStep i g pc g' none) :
      CloserStep i g (.waiting pc) g' .done

lemma closerAct_step {pc pc' : CloserPc} (h : closerAct i g pc = some (g', pc')) :
    CloserStep i g pc g' pc' := by
  cases pc with
  | releasing pc =>
    obtain ⟨⟨g₁, r⟩, hact, heq⟩ := Option.map_eq_some_iff.mp h
    obtain ⟨rfl, rfl⟩ := by simpa using heq
    cases r with
    | none => exact .released (releaseAct_step hact)
    | some pc' => exact .releasing (releaseAct_step hact)
  | acquire =>
    simp only [closerAct] at h
    split_ifs at h with hdraining
    · obtain ⟨rfl, rfl⟩ := by simpa using h
      exact .failed hdraining
    · obtain ⟨rfl, rfl⟩ := by simpa using h
      exact .acquired (by simpa using hdraining)
  | schedule =>
    obtain ⟨rfl, rfl⟩ := by simpa [closerAct] using h
    exact .schedule
  | waiting pc =>
    obtain ⟨⟨g₁, r⟩, hact, heq⟩ := Option.map_eq_some_iff.mp h
    obtain ⟨rfl, rfl⟩ := by simpa using heq
    cases r with
    | none => exact .waited (waitAct_step hact)
    | some pc' => exact .waiting (waitAct_step hact)
  | done => simp [closerAct] at h

/-! ### Stores -/

/-- A store of `CloseFromOwner` becomes visible. -/
inductive FlushStep (g : Shared τ) : ReleasePc → Shared τ → ReleasePc → Prop
  | ownerClosing {issued : Nat} (h : 0 < issued) :
      FlushStep g (.stores issued 0) { g with ownerClosing := true } (.stores issued 1)
  | accepting {issued visible : Nat} (h : visible < issued) (h₀ : 0 < visible) :
      FlushStep g (.stores issued visible) { g with accepting := false }
        (.stores issued (visible + 1))

lemma flushRelease_step {pc pc' : ReleasePc} (h : flushRelease g pc = some (g', pc')) :
    FlushStep g pc g' pc' := by
  cases pc with
  | stores issued visible =>
    simp only [flushRelease] at h
    split_ifs at h with hle hzero
    · obtain ⟨rfl, rfl⟩ := by simpa using h
      obtain rfl := hzero
      exact .ownerClosing (by omega)
    · obtain ⟨rfl, rfl⟩ := by simpa using h
      exact .accepting (by omega) (by omega)
  | _ => simp [flushRelease] at h

/-- A store of `Drain` becomes visible. -/
inductive FlushedStep : DrainPc τ → DrainPc τ → Prop
  | notifying {ending : Bool} {pc : NotifyPc} :
      FlushedStep (.notifying false ending pc) (.notifying true ending pc)
  | recheckOwner : FlushedStep (.recheckOwner false) (.recheckOwner true)
  | recheckQueued : FlushedStep (.recheckQueued false) (.recheckQueued true)
  | recheckActive : FlushedStep (.recheckActive false) (.recheckActive true)
  | reacquire : FlushedStep (.reacquire false) (.reacquire true)
  | returned : FlushedStep (.returned false) (.returned true)

lemma DrainPc.flushed_step {pc pc' : DrainPc τ} (h : pc.flushed = some pc') :
    FlushedStep pc pc' := by
  unfold DrainPc.flushed at h
  split at h <;> simp at h <;> subst h <;> constructor

/-! ### The system -/

/-- What the process `i` does: an operation, or a store of it becomes visible. -/
inductive Op (i : Nat) (g : Shared τ) : Proc τ → Shared τ → Proc τ → Prop
  | post {thread : Nat} {task : τ} {pc pc' : PostPc} {g' : Shared τ}
      (h : PostStep i g task pc g' pc') : Op i g (.post thread task pc) g' (.post thread task pc')
  | drain {n n' : Nat} {pc pc' : DrainPc τ} {g' : Shared τ} (h : DrainStep i g n pc g' n' pc') :
      Op i g (.drain n pc) g' (.drain n' pc')
  | closer {pc pc' : CloserPc} {g' : Shared τ} (h : CloserStep i g pc g' pc') :
      Op i g (.closer pc) g' (.closer pc')
  | flushNested {n : Nat} {pc pc' : ReleasePc} {g' : Shared τ} (h : FlushStep g pc g' pc') :
      Op i g (.drain n (.releasing pc)) g' (.drain n (.releasing pc'))
  | flushCloser {pc pc' : ReleasePc} {g' : Shared τ} (h : FlushStep g pc g' pc') :
      Op i g (.closer (.releasing pc)) g' (.closer (.releasing pc'))
  | flushDrain {n : Nat} {pc pc' : DrainPc τ} (h : FlushedStep pc pc') :
      Op i g (.drain n pc) { g with draining := false } (.drain n pc')

lemma act_op {p p' : Proc τ} (h : act i g c p = some (g', p')) : Op i g p g' p' := by
  cases p with
  | post thread task pc =>
    obtain ⟨⟨g₁, pc'⟩, hpost, heq⟩ := Option.map_eq_some_iff.mp h
    obtain ⟨rfl, rfl⟩ := by simpa using heq
    exact .post (postAct_step hpost)
  | drain n pc =>
    obtain ⟨⟨g₁, n', pc'⟩, hdrain, heq⟩ := Option.map_eq_some_iff.mp h
    obtain ⟨rfl, rfl⟩ := by simpa using heq
    exact .drain (drainAct_step hdrain)
  | closer pc =>
    obtain ⟨⟨g₁, pc'⟩, hcloser, heq⟩ := Option.map_eq_some_iff.mp h
    obtain ⟨rfl, rfl⟩ := by simpa using heq
    exact .closer (closerAct_step hcloser)

lemma flush_op {p p' : Proc τ} (h : flush g p = some (g', p')) : Op i g p g' p' := by
  cases p with
  | post thread task pc => simp [flush] at h
  | drain n pc =>
    by_cases hpc : ∃ pc₁, pc = .releasing pc₁
    · obtain ⟨pc₁, rfl⟩ := hpc
      obtain ⟨⟨g₁, pc'⟩, hstore, heq⟩ := Option.map_eq_some_iff.mp h
      obtain ⟨rfl, rfl⟩ := by simpa using heq
      exact .flushNested (flushRelease_step hstore)
    · rw [flush.eq_2 _ _ _ fun pc₁ h => hpc ⟨pc₁, h⟩] at h
      obtain ⟨pc', hpc', heq⟩ := Option.map_eq_some_iff.mp h
      obtain ⟨rfl, rfl⟩ := by simpa using heq
      exact .flushDrain (DrainPc.flushed_step hpc')
  | closer pc =>
    cases pc with
    | releasing pc =>
      obtain ⟨⟨g₁, pc'⟩, hstore, heq⟩ := Option.map_eq_some_iff.mp h
      obtain ⟨rfl, rfl⟩ := by simpa using heq
      exact .flushCloser (flushRelease_step hstore)
    | _ => simp [flush] at h

/-- What a label does. -/
inductive Steps (S : State τ) : Label τ → State τ → Prop
  | post {thread : Nat} {task : τ} (h : ∀ p ∈ S.procs, p.busy thread = false) :
      Steps S (.post thread task) (S.spawn S.shared (.post thread task .enter))
  | close : Steps S .close (S.spawn S.shared (.closer (.releasing (.stores 0 0))))
  | start (h : S.shared.scheduled ≠ 0) : Steps S .start
      (S.spawn { S.shared with scheduled := S.shared.scheduled - 1 } (.drain 0 .top))
  | op {l : Label τ} {i : Nat} {p p' : Proc τ} {g' : Shared τ} (hl : l.process = some i)
      (hp : S.procs[i]? = some p) (h : Op i S.shared p g' p') : Steps S l (S.put i (g', p'))

theorem State.steps_of_step {S S' : State τ} {l : Label τ} (h : S.step l = some S') :
    Steps S l S' := by
  cases l with
  | post thread task =>
    simp only [State.step] at h
    split_ifs at h with hbusy
    obtain rfl := by simpa using h
    exact .post (by simpa using hbusy)
  | close =>
    obtain rfl := by simpa [State.step] using h
    exact .close
  | start =>
    simp only [State.step] at h
    split_ifs at h with hscheduled
    obtain rfl := by simpa using h
    exact .start hscheduled
  | step i c =>
    obtain ⟨p, hp, h⟩ := Option.bind_eq_some_iff.mp h
    obtain ⟨⟨g', p'⟩, hact, rfl⟩ := Option.map_eq_some_iff.mp h
    exact .op rfl hp (act_op hact)
  | flush i =>
    obtain ⟨p, hp, h⟩ := Option.bind_eq_some_iff.mp h
    obtain ⟨⟨g', p'⟩, hflush, rfl⟩ := Option.map_eq_some_iff.mp h
    exact .op rfl hp (flush_op hflush)

namespace State

variable {S : State τ} {p p' : Proc τ}

/-- The processes after one of them did something. -/
lemma getElem?_put (hp : S.procs[i]? = some p) (a : Nat) :
    (S.put i (g, p')).procs[a]? = if i = a then some p' else S.procs[a]? := by
  have hlt : i < S.procs.length := (List.getElem?_eq_some_iff.mp hp).1
  simp [State.put, List.getElem?_set, hlt]

lemma getElem?_spawn {a : Nat} (ha : a < S.procs.length) :
    (S.spawn g p).procs[a]? = S.procs[a]? := by
  simp [State.spawn, List.getElem?_append_left ha]

end State

end Connx.Executor
