import Connx.Net.Executor.Handshake

/-!
# Who will look at the queue, and who will wake the owner

A `Drain` gives `draining_` back in two ways. When it found the queue empty it looks at the counters
again afterwards; when the owner is closing it does not. Either way there is a stretch in which its
store is not visible and it will not look at the queue any more. A compare-exchange that fails in
that stretch trusts a `Drain` that is leaving.
-/

namespace Connx.Executor

variable {τ : Type} {i : Nat} {g g' : Shared τ} {p p' : Proc τ}

/-! ### Weights -/

def DrainPc.cares : DrainPc τ → Nat
  | .notifying _ ending _ => (!ending).toNat
  | .recheckActive _ => 0
  | .closeConn => 0
  | .closeStore => 0
  | .returned _ => 0
  | _ => 1

/-- The process will look at the queue, or schedule a `Drain` that does. -/
def Proc.cares : Proc τ → Nat
  | .post _ _ pc => pc.owns
  | .drain _ pc => pc.cares
  | .closer pc => pc.owns

def DrainPc.leaving : DrainPc τ → Nat
  | .closeConn => 1
  | .closeStore => 1
  | .notifying visible ending _ => (!visible && ending).toNat
  | .recheckActive visible => (!visible).toNat
  | .returned visible => (!visible).toNat
  | _ => 0

/-- The process holds the token and will not look at the queue. -/
def Proc.leaving : Proc τ → Nat
  | .drain _ pc => pc.leaving
  | _ => 0

def DrainPc.letGo : DrainPc τ → Nat
  | .recheckQueued visible => (!visible).toNat
  | .recheckActive visible => (!visible).toNat
  | .returned visible => (!visible).toNat
  | _ => 0

/-- The process holds the token and will not look at `owner_closing_`. -/
def Proc.letGo : Proc τ → Nat
  | .drain _ pc => pc.letGo
  | _ => 0

def DrainPc.watches : DrainPc τ → Nat
  | .notifying _ ending _ => (!ending).toNat
  | .recheckQueued _ => 0
  | .recheckActive _ => 0
  | .returned _ => 0
  | _ => 1

/-- The process will look at `owner_closing_`, or schedule a `Drain` that does. -/
def Proc.watches : Proc τ → Nat
  | .post _ _ pc => pc.owns
  | .drain _ pc => pc.watches
  | .closer pc => pc.owns

def NotifyPc.announces : NotifyPc → Nat
  | .unlock => 0
  | _ => 1

def PostPc.announces : PostPc → Nat
  | .notify _ pc => pc.announces
  | _ => 0

def DrainPc.announces : DrainPc τ → Nat
  | .notifying _ true pc => pc.announces
  | _ => 0

/-- The process will notify the waiting owners, if it finds no `Post` under way. -/
def Proc.announces : Proc τ → Nat
  | .post _ _ pc => pc.announces
  | .drain _ pc => pc.announces
  | .closer _ => 0

def CloserPc.pastAcquire : CloserPc → Nat
  | .releasing _ => 0
  | .acquire => 0
  | _ => 1

/-- The process is in `CloseFromOwner`, past its compare-exchange. -/
def Proc.pastAcquire : Proc τ → Nat
  | .closer pc => pc.pastAcquire
  | _ => 0

def ReleasePc.blocks : ReleasePc → Nat
  | .block => 1
  | _ => 0

def WaitPc.blocks : WaitPc → Nat
  | .block => 1
  | _ => 0

/-- The process is about to block in one of the waits. -/
def Proc.blocks : Wait → Proc τ → Nat
  | .first, .drain _ (.releasing pc) => pc.blocks
  | .first, .closer (.releasing pc) => pc.blocks
  | .second, .closer (.waiting pc) => pc.blocks
  | _, _ => 0

/-- The threads that are blocked in one of the waits. -/
def Shared.waitersIn (g : Shared τ) (w : Wait) : Nat := g.waiters.countP (·.2 = w)

/-! ### The mutex -/

def ReleasePc.locks : ReleasePc → Bool
  | .check => true
  | .block => true
  | .unlock => true
  | _ => false

def WaitPc.locks : WaitPc → Bool
  | .lock => false
  | .blocked => false
  | _ => true

/-- The process holds `idle_mtx_`. -/
def Proc.locks : Proc τ → Nat
  | .post _ _ (.notify _ pc) => pc.locks.toNat
  | .drain _ (.notifying _ _ pc) => pc.locks.toNat
  | .drain _ (.releasing pc) => pc.locks.toNat
  | .closer (.releasing pc) => pc.locks.toNat
  | .closer (.waiting pc) => pc.locks.toNat
  | _ => 0

/-- The mutex as a quantity. -/
def mutex (g : Shared τ) : Int := g.locked.toNat

lemma NotifyStep.mutex {pc : NotifyPc} {r : Option NotifyPc} (h : NotifyStep g pc g' r)
    (hle : pc.locks.toNat ≤ mutex g) :
    Balanced mutex g g' pc.locks.toNat (r.elim 0 fun pc' => pc'.locks.toNat) := by
  have hbit : g.locked.toNat ≤ 1 := Bool.toNat_le _
  cases h with
  | lock h => simp [Balanced, Executor.mutex, NotifyPc.locks, h]
  | unlock =>
    simp [Balanced, Executor.mutex, NotifyPc.locks] at hle ⊢
    omega
  | _ => rfl

lemma ReleaseStep.mutex {pc : ReleasePc} {r : Option ReleasePc} (h : ReleaseStep i g pc g' r)
    (hle : pc.locks.toNat ≤ mutex g) :
    Balanced mutex g g' pc.locks.toNat (r.elim 0 fun pc' => pc'.locks.toNat) := by
  have hbit : g.locked.toNat ≤ 1 := Bool.toNat_le _
  cases h with
  | lock _ _ h => simp [Balanced, Executor.mutex, ReleasePc.locks, h]
  | relock h => simp [Balanced, Executor.mutex, ReleasePc.locks, h]
  | block =>
    simp [Balanced, Executor.mutex, ReleasePc.locks] at hle ⊢
    omega
  | unlock =>
    simp [Balanced, Executor.mutex, ReleasePc.locks] at hle ⊢
    omega
  | _ => rfl

lemma WaitStep.mutex {pc : WaitPc} {r : Option WaitPc} (h : WaitStep i g pc g' r)
    (hle : pc.locks.toNat ≤ mutex g) :
    Balanced mutex g g' pc.locks.toNat (r.elim 0 fun pc' => pc'.locks.toNat) := by
  have hbit : g.locked.toNat ≤ 1 := Bool.toNat_le _
  cases h with
  | lock h => simp [Balanced, Executor.mutex, WaitPc.locks, h]
  | block =>
    simp [Balanced, Executor.mutex, WaitPc.locks] at hle ⊢
    omega
  | unlock =>
    simp [Balanced, Executor.mutex, WaitPc.locks] at hle ⊢
    omega
  | _ => rfl

lemma DiscardStep.mutex {pc : DiscardPc} {r : Option DiscardPc} (h : DiscardStep g pc g' r) :
    mutex g' = mutex g := by
  cases h <;> rfl

lemma ledger_mutex : Ledger (mutex : Shared τ → Int) Proc.locks where
  enter _ _ := rfl
  close := rfl
  start _ := rfl
  op h hle := by
    cases h with
    | post h =>
      cases h with
      | notify h => exact h.mutex hle
      | notified h => exact h.mutex hle
      | notifiedWon h => exact h.mutex hle
      | _ => rfl
    | drain h =>
      cases h with
      | releasing h => exact h.mutex hle
      | released h => exact h.mutex hle
      | discarding h => exact .of_eq h.mutex
      | discarded h => exact .of_eq h.mutex
      | closing h => exact .of_eq h.mutex
      | closed h => exact .of_eq h.mutex
      | notifying _ h => exact h.mutex hle
      | notified h => exact h.mutex hle
      | ended h => exact h.mutex hle
      | _ => rfl
    | closer h =>
      cases h with
      | releasing h => exact h.mutex hle
      | released h => exact h.mutex hle
      | waiting h => exact h.mutex hle
      | waited h => exact h.mutex hle
      | _ => rfl
    | flushNested h => cases h <;> rfl
    | flushCloser h => cases h <;> rfl
    | flushDrain h => cases h <;> rfl

lemma ReleasePc.blocks_le_locks (pc : ReleasePc) : pc.blocks ≤ pc.locks.toNat := by
  cases pc <;> simp [ReleasePc.blocks, ReleasePc.locks]

lemma WaitPc.blocks_le_locks (pc : WaitPc) : pc.blocks ≤ pc.locks.toNat := by
  cases pc <;> simp [WaitPc.blocks, WaitPc.locks]

lemma Proc.blocks_le_locks (w : Wait) (p : Proc τ) : p.blocks w ≤ p.locks := by
  unfold Proc.blocks
  split
  · exact ReleasePc.blocks_le_locks _
  · exact ReleasePc.blocks_le_locks _
  · exact WaitPc.blocks_le_locks _
  · exact Nat.zero_le _

/-! ### Owners -/

lemma Proc.owns_le_cares (p : Proc τ) : p.owns ≤ p.cares + p.leaving := by
  cases p with
  | drain n pc =>
    cases pc with
    | notifying visible ending pc =>
      cases visible <;> cases ending <;>
        simp [Proc.owns, Proc.cares, Proc.leaving, DrainPc.owns, DrainPc.cares, DrainPc.leaving]
    | _ => simp [Proc.owns, Proc.cares, Proc.leaving, DrainPc.owns, DrainPc.cares,
        DrainPc.leaving, Bool.toNat_le]
  | _ => exact le_rfl

lemma Proc.owns_le_watches (p : Proc τ) : p.owns ≤ p.watches + (p.leaving + p.letGo) := by
  cases p with
  | drain n pc =>
    cases pc with
    | notifying visible ending pc =>
      cases visible <;> cases ending <;>
        simp [Proc.owns, Proc.watches, Proc.leaving, Proc.letGo, DrainPc.owns, DrainPc.watches,
          DrainPc.leaving, DrainPc.letGo]
    | _ => simp [Proc.owns, Proc.watches, Proc.leaving, Proc.letGo, DrainPc.owns, DrainPc.watches,
        DrainPc.leaving, DrainPc.letGo, Bool.toNat_le]
  | _ => exact le_rfl

/-- An owner will look at `owner_closing_` or notify, unless it has let go. -/
lemma Proc.owns_le_announces (hp : p.Seen g) : p.owns ≤ p.watches + (p.announces + p.letGo) := by
  cases p with
  | drain n pc =>
    cases pc with
    | notifying visible ending pc =>
      cases visible <;> cases ending <;> cases pc <;>
        simp [Proc.Seen, DrainPc.Seen, NotifyPc.locks, Proc.owns, Proc.watches, Proc.announces,
          Proc.letGo, DrainPc.owns, DrainPc.watches, DrainPc.announces, DrainPc.letGo,
          NotifyPc.announces] at hp ⊢
    | _ => simp [Proc.owns, Proc.watches, Proc.announces, Proc.letGo, DrainPc.owns,
        DrainPc.watches, DrainPc.announces, DrainPc.letGo, Bool.toNat_le]
  | _ => exact Nat.le_add_right _ _

/-! ### One operation -/

/-- A `Drain` stops caring when it has found `queued_tasks_` zero. -/
lemma Op.leaving_le (h : Op i g p g' p') : p'.leaving ≤ p.leaving ∨ g'.queuedTasks = 0 := by
  cases h with
  | drain h =>
    cases h with
    | noTasks h => exact .inr h
    | closed h =>
      cases h with
      | noTasks h => exact .inr h
    | _ => simp [Proc.leaving, DrainPc.leaving]
  | flushDrain h => cases h <;> simp [Proc.leaving, DrainPc.leaving]
  | _ => exact .inl le_rfl

lemma DiscardStep.queuedTasks_le {pc : DiscardPc} {r : Option DiscardPc}
    (h : DiscardStep g pc g' r) : g'.queuedTasks ≤ g.queuedTasks := by
  cases h <;> simp [Shared.take]

lemma Op.queuedTasks_le (h : Op i g p g' p') :
    g'.queuedTasks ≤ g.queuedTasks ∨ 1 ≤ p'.accepted := by
  cases h with
  | post h =>
    cases h with
    | count => exact .inr le_rfl
    | notify h => exact .inl (h.frame ▸ le_rfl)
    | notified h => exact .inl (h.frame ▸ le_rfl)
    | notifiedWon h => exact .inl (h.frame ▸ le_rfl)
    | _ => exact .inl le_rfl
  | drain h =>
    left
    cases h with
    | count => simp
    | releasing h => exact h.frame ▸ le_rfl
    | released h => exact h.frame ▸ le_rfl
    | discarding h => exact h.queuedTasks_le
    | discarded h => exact h.queuedTasks_le
    | closing h => exact h.queuedTasks_le
    | closed h => exact h.queuedTasks_le
    | notifying _ h => exact h.frame ▸ le_rfl
    | notified h => exact h.frame ▸ le_rfl
    | ended h => exact h.frame ▸ le_rfl
    | _ => exact le_rfl
  | closer h =>
    left
    cases h with
    | releasing h => exact h.frame ▸ le_rfl
    | released h => exact h.frame ▸ le_rfl
    | waiting h => exact h.frame ▸ le_rfl
    | waited h => exact h.frame ▸ le_rfl
    | _ => exact le_rfl
  | flushNested h => cases h <;> exact .inl le_rfl
  | flushCloser h => cases h <;> exact .inl le_rfl
  | flushDrain h => exact .inl le_rfl

/-- The process is a `Post` at its compare-exchange. -/
def Proc.posting : Proc τ → Bool
  | .post _ _ .acquire => true
  | _ => false

/-- The process is a `CloseFromOwner` at its compare-exchange. -/
def Proc.releasing : Proc τ → Bool
  | .closer .acquire => true
  | _ => false

lemma Op.le_accepted (h : Op i g p g' p') : p.accepted ≤ p'.accepted ∨ p.posting = true := by
  cases h with
  | post h => cases h <;> simp [Proc.accepted, PostPc.accepted, Proc.posting]
  | _ => exact .inl le_rfl

lemma Op.le_pastAcquire (h : Op i g p g' p') : p.pastAcquire ≤ p'.pastAcquire := by
  cases h with
  | closer h => cases h <;> simp [Proc.pastAcquire, CloserPc.pastAcquire]
  | _ => exact le_rfl

lemma Op.pastAcquire_le (h : Op i g p g' p') :
    p'.pastAcquire ≤ p.pastAcquire ∨ p.releasing = true := by
  cases h with
  | closer h => cases h <;> simp [Proc.pastAcquire, CloserPc.pastAcquire, Proc.releasing]
  | _ => exact .inl le_rfl

/-- A `Drain` lets go when it has found `owner_closing_` unset. -/
lemma Op.letGo_le (h : Op i g p g' p') (hp : p.Seen g) (howner : g.ownerClosing = true) :
    p'.letGo ≤ p.letGo := by
  cases h with
  | drain h =>
    cases h with
    | ownerOpen h => simp [howner] at h
    | @ended visible pc _ h =>
      cases h with
      | ownerOpen h => simp [howner] at h
      | unlock => simp [Proc.letGo, DrainPc.letGo, hp.2 rfl]
    | _ => simp [Proc.letGo, DrainPc.letGo]
  | flushDrain h => cases h <;> simp [Proc.letGo, DrainPc.letGo]
  | _ => exact le_rfl

lemma DiscardStep.draining {pc : DiscardPc} {r : Option DiscardPc} (h : DiscardStep g pc g' r) :
    g'.draining = g.draining := by
  cases h <;> rfl

/-- The token is free after an operation of a process that does not hold it, or after the store of
the `Drain` that held it. -/
lemma Op.free (h : Op i g p g' p') (hfree : g'.draining = false) :
    g.draining = false ∨ ∃ n pc pc', p = .drain n pc ∧
      p' = .drain n pc' ∧ FlushedStep pc pc' ∧ g' = { g with draining := false } := by
  cases h with
  | @flushDrain n pc pc' h => exact .inr ⟨n, pc, pc', rfl, rfl, h, rfl⟩
  | post h =>
    left
    cases h with
    | notify h => rw [← hfree, h.frame]
    | notified h => rw [← hfree, h.frame]
    | notifiedWon h => rw [← hfree, h.frame]
    | acquired => simp at hfree
    | _ => exact hfree
  | drain h =>
    left
    cases h with
    | releasing h => rw [← hfree, h.frame]
    | released h => rw [← hfree, h.frame]
    | discarding h => rw [← hfree, h.draining]
    | discarded h => rw [← hfree, h.draining]
    | closing h => rw [← hfree, h.draining]
    | closed h => rw [← hfree, h.draining]
    | notifying _ h => rw [← hfree, h.frame]
    | notified h => rw [← hfree, h.frame]
    | ended h => rw [← hfree, h.frame]
    | acquired => simp at hfree
    | _ => exact hfree
  | closer h =>
    left
    cases h with
    | releasing h => rw [← hfree, h.frame]
    | released h => rw [← hfree, h.frame]
    | waiting h => rw [← hfree, h.frame]
    | waited h => rw [← hfree, h.frame]
    | acquired => simp at hfree
    | _ => exact hfree
  | flushNested h => cases h <;> exact .inl hfree
  | flushCloser h => cases h <;> exact .inl hfree

/-- While the token is free, a process that cares goes on to care until it has found
`queued_tasks_` zero. -/
lemma Op.le_cares (h : Op i g p g' p') (howns : p.owns = 0) (hfree : g.draining = false) :
    p.cares + p.accepted ≤ p'.cares + p'.accepted ∨ g'.queuedTasks = 0 := by
  cases h with
  | post h =>
    cases h with
    | failed h => simp [hfree] at h
    | _ => simp [Proc.owns, Proc.cares, Proc.accepted, PostPc.owns, PostPc.accepted] at howns ⊢
  | drain h =>
    cases h with
    | noTasks h => exact .inr h
    | failed h => simp [hfree] at h
    | _ => simp [Proc.owns, Proc.cares, Proc.accepted, DrainPc.owns, DrainPc.cares] at howns ⊢
  | closer h =>
    cases h <;> simp [Proc.owns, Proc.cares, Proc.accepted, CloserPc.owns] at howns ⊢
  | flushDrain h => cases h <;> simp [Proc.owns, DrainPc.owns] at howns
  | _ => exact .inl le_rfl

/-- While the token is free, a process that watches goes on to watch once `owner_closing_` is
set. -/
lemma Op.le_watches (h : Op i g p g' p') (howns : p.owns = 0) (hfree : g.draining = false)
    (howner : g.ownerClosing = true) : p.watches ≤ p'.watches := by
  cases h with
  | post h => cases h <;> simp [Proc.owns, Proc.watches, PostPc.owns] at howns ⊢
  | drain h =>
    cases h with
    | ownerOpen h => simp [howner] at h
    | failed h => simp [hfree] at h
    | _ => simp [Proc.owns, Proc.watches, DrainPc.owns, DrainPc.watches] at howns ⊢
  | closer h => cases h <;> simp [Proc.owns, Proc.watches, CloserPc.owns] at howns ⊢
  | flushDrain h => cases h <;> simp [Proc.owns, DrainPc.owns] at howns
  | _ => exact le_rfl

lemma FlushedStep.cares {pc pc' : DrainPc τ} (h : FlushedStep pc pc') : pc'.cares = pc.cares := by
  cases h <;> rfl

lemma FlushedStep.watches {pc pc' : DrainPc τ} (h : FlushedStep pc pc') :
    pc'.watches = pc.watches := by
  cases h <;> rfl

/-! ### Waiting and waking -/

/-- `NotifyIdle` was reached and has woken every waiting thread. -/
structure Wakes (g' : Shared τ) (p p' : Proc τ) : Prop where
  waiters : g'.waiters = []
  locks : p.locks = 1
  blocks (w : Wait) : p'.blocks w = 0

/-- Once `owner_closing_` is set, a process that will notify does so, finds a `Post` under way, or
still will. -/
lemma NotifyStep.announces {pc pc' : NotifyPc} (h : NotifyStep g pc g' (some pc')) :
    (g'.waiters = [] ∧ pc.locks = true) ∨ g'.activePosts ≠ 0 ∨
      g'.activePosts = g.activePosts ∧ pc.announces ≤ pc'.announces := by
  cases h with
  | notify h => exact .inl ⟨rfl, rfl⟩
  | posts h => exact .inr (.inl h)
  | _ => exact .inr (.inr ⟨rfl, le_rfl⟩)

lemma NotifyStep.announces_of_none {pc : NotifyPc} (h : NotifyStep g pc g' none)
    (howner : g.ownerClosing = true) : pc.announces = 0 ∧ g'.activePosts = g.activePosts := by
  cases h with
  | ownerOpen h => simp [howner] at h
  | unlock => exact ⟨rfl, rfl⟩

lemma Op.le_announces (h : Op i g p g' p') (hactive : p.active ≤ g.activePosts)
    (howner : g.ownerClosing = true) :
    Wakes g' p p' ∨ g'.activePosts ≠ 0 ∨
      g.activePosts + p.announces ≤ g'.activePosts + p'.announces := by
  cases h with
  | post h =>
    cases h with
    | notify h =>
      obtain ⟨hwaiters, hlocks⟩ | hne | ⟨heq, hle⟩ := h.announces
      · exact .inl ⟨hwaiters, by simp [Proc.locks, hlocks], fun w => by cases w <;> rfl⟩
      · exact .inr (.inl hne)
      · exact .inr (.inr (by simp only [Proc.announces, PostPc.announces]; omega))
    | notified h =>
      obtain ⟨hnone, heq⟩ := h.announces_of_none howner
      exact .inr (.inr (by simp [Proc.announces, PostPc.announces, hnone, heq]))
    | notifiedWon h =>
      obtain ⟨hnone, heq⟩ := h.announces_of_none howner
      exact .inr (.inr (by simp [Proc.announces, PostPc.announces, hnone, heq]))
    | leave h =>
      right; left
      simp only [Proc.active, PostPc.active] at hactive ⊢
      omega
    | leaveWon h =>
      right; left
      simp only [Proc.active, PostPc.active] at hactive ⊢
      omega
    | _ => simp [Proc.announces, PostPc.announces, NotifyPc.announces]
  | drain h =>
    cases h with
    | @notifying visible ending _ _ _ _ h =>
      obtain ⟨hwaiters, hlocks⟩ | hne | ⟨heq, hle⟩ := h.announces
      · exact .inl ⟨hwaiters, by simp [Proc.locks, hlocks], fun w => by cases w <;> rfl⟩
      · exact .inr (.inl hne)
      · cases ending <;>
          exact .inr (.inr (by simp only [Proc.announces, DrainPc.announces]; omega))
    | notified h => exact .inr (.inr (h.frame ▸ le_rfl))
    | ended h =>
      obtain ⟨hnone, heq⟩ := h.announces_of_none howner
      exact .inr (.inr (by simp [Proc.announces, DrainPc.announces, hnone, heq]))
    | releasing h => exact .inr (.inr (h.frame ▸ le_rfl))
    | released h => exact .inr (.inr (h.frame ▸ le_rfl))
    | discarding h => exact .inr (.inr (h.activePosts ▸ le_rfl))
    | discarded h => exact .inr (.inr (h.activePosts ▸ le_rfl))
    | closing h => exact .inr (.inr (h.activePosts ▸ le_rfl))
    | closed h => exact .inr (.inr (h.activePosts ▸ le_rfl))
    | take => exact .inr (.inr le_rfl)
    | _ => simp [Proc.announces, DrainPc.announces]
  | closer h => exact .inr (.inr (h.activePosts ▸ le_rfl))
  | flushNested h => cases h <;> exact .inr (.inr le_rfl)
  | flushCloser h => cases h <;> exact .inr (.inr le_rfl)
  | flushDrain h =>
    cases h with
    | @notifying ending pc => cases ending <;> exact .inr (.inr le_rfl)
    | _ => exact .inr (.inr le_rfl)

/-- What the waits wait for does not hold. -/
def Shared.Busy (g : Shared τ) : Wait → Prop
  | .first => g.activePosts ≠ 0
  | .second => g.draining = true ∨ g.queuedTasks ≠ 0 ∨ g.activePosts ≠ 0

lemma waitersIn_filter (w : Wait) :
    ({ g with waiters := g.waiters.filter (·.1 ≠ i) } : Shared τ).waitersIn w ≤ g.waitersIn w :=
  List.filter_sublist.countP_le

lemma NotifyStep.waitersIn_le {pc : NotifyPc} {r : Option NotifyPc} (h : NotifyStep g pc g' r)
    (w : Wait) : g'.waitersIn w ≤ g.waitersIn w := by
  cases h with
  | notify => exact Nat.zero_le _
  | _ => exact le_rfl

lemma DiscardStep.waiters {pc : DiscardPc} {r : Option DiscardPc} (h : DiscardStep g pc g' r) :
    g'.waiters = g.waiters := by
  cases h <;> rfl

/-- `CloseFromOwner` blocks when it has found a reason to. -/
lemma ReleaseStep.blocks_le {pc : ReleasePc} {r : Option ReleasePc} (h : ReleaseStep i g pc g' r) :
    g'.waitersIn .second ≤ g.waitersIn .second ∧
      (g'.waitersIn .first + r.elim 0 ReleasePc.blocks ≤ g.waitersIn .first + pc.blocks ∨
        g'.Busy .first ∧ 0 < r.elim 0 ReleasePc.blocks) := by
  cases h with
  | posts h => exact ⟨le_rfl, .inr ⟨h, Nat.one_pos⟩⟩
  | block => simp [Shared.waitersIn, ReleasePc.blocks]
  | wake => exact ⟨waitersIn_filter .second, .inl (waitersIn_filter .first)⟩
  | _ => exact ⟨le_rfl, .inl le_rfl⟩

lemma WaitStep.blocks_le {pc : WaitPc} {r : Option WaitPc} (h : WaitStep i g pc g' r) :
    g'.waitersIn .first ≤ g.waitersIn .first ∧
      (g'.waitersIn .second + r.elim 0 WaitPc.blocks ≤ g.waitersIn .second + pc.blocks ∨
        g'.Busy .second ∧ 0 < r.elim 0 WaitPc.blocks) := by
  cases h with
  | draining h => exact ⟨le_rfl, .inr ⟨.inl h, Nat.one_pos⟩⟩
  | tasks h => exact ⟨le_rfl, .inr ⟨.inr (.inl h), Nat.one_pos⟩⟩
  | posts h => exact ⟨le_rfl, .inr ⟨.inr (.inr h), Nat.one_pos⟩⟩
  | block => simp [Shared.waitersIn, WaitPc.blocks]
  | wake => exact ⟨waitersIn_filter .first, .inl (waitersIn_filter .second)⟩
  | _ => exact ⟨le_rfl, .inl le_rfl⟩

lemma Op.blocks_le (h : Op i g p g' p') (w : Wait) :
    g'.waitersIn w + p'.blocks w ≤ g.waitersIn w + p.blocks w ∨
      g'.Busy w ∧ 0 < p'.blocks w := by
  cases h with
  | post h =>
    left
    cases h with
    | notify h => cases w <;> exact h.waitersIn_le _
    | notified h => cases w <;> exact h.waitersIn_le _
    | notifiedWon h => cases w <;> exact h.waitersIn_le _
    | _ => cases w <;> exact le_rfl
  | drain h =>
    cases h with
    | releasing h =>
      cases w with
      | first => exact h.blocks_le.2
      | second => exact .inl h.blocks_le.1
    | released h =>
      cases w with
      | first => exact h.blocks_le.2
      | second => exact .inl h.blocks_le.1
    | notifying _ h => cases w <;> exact .inl (h.waitersIn_le _)
    | notified h => cases w <;> exact .inl (h.waitersIn_le _)
    | ended h => cases w <;> exact .inl (h.waitersIn_le _)
    | discarding h => cases w <;> exact .inl (by simp [Shared.waitersIn, h.waiters, Proc.blocks])
    | discarded h => cases w <;> exact .inl (by simp [Shared.waitersIn, h.waiters, Proc.blocks])
    | closing h => cases w <;> exact .inl (by simp [Shared.waitersIn, h.waiters, Proc.blocks])
    | closed h => cases w <;> exact .inl (by simp [Shared.waitersIn, h.waiters, Proc.blocks])
    | _ => cases w <;> exact .inl le_rfl
  | closer h =>
    cases h with
    | releasing h =>
      cases w with
      | first => exact h.blocks_le.2
      | second => exact .inl h.blocks_le.1
    | released h =>
      cases w with
      | first => exact h.blocks_le.2
      | second => exact .inl h.blocks_le.1
    | waiting h =>
      cases w with
      | first => exact .inl h.blocks_le.1
      | second => exact h.blocks_le.2
    | waited h =>
      cases w with
      | first => exact .inl h.blocks_le.1
      | second => exact h.blocks_le.2
    | _ => cases w <;> exact .inl le_rfl
  | flushNested h => cases h <;> cases w <;> exact .inl le_rfl
  | flushCloser h => cases h <;> cases w <;> exact .inl le_rfl
  | flushDrain h => cases h <;> cases w <;> exact .inl le_rfl

/-- A process that blocks has seen that the owner is closing. -/
lemma Proc.Seen.of_blocks (hp : p.Seen g) {w : Wait} (h : 0 < p.blocks w) :
    g.ownerClosing = true := by
  have hrelease {pc : ReleasePc} (hpc : pc.Seen g) (h : 0 < pc.blocks) : g.ownerClosing = true := by
    cases pc with
    | stores => simp [ReleasePc.blocks] at h
    | _ => exact hpc.1
  unfold Proc.blocks at h
  split at h
  · exact hrelease hp h
  · exact hrelease hp h
  · exact hp.1
  · simp at h

lemma Proc.pastAcquire_of_blocks (h : 0 < p.blocks .second) : 0 < p.pastAcquire := by
  cases p with
  | closer pc =>
    cases pc with
    | waiting pc => exact Nat.one_pos
    | _ => simp [Proc.blocks] at h
  | _ => simp [Proc.blocks] at h

lemma Proc.Seen.of_pastAcquire (hp : p.Seen g) (h : 0 < p.pastAcquire) :
    g.ownerClosing = true ∧ p.pastWait = true := by
  cases p with
  | closer pc =>
    cases pc with
    | releasing => simp [Proc.pastAcquire, CloserPc.pastAcquire] at h
    | acquire => simp [Proc.pastAcquire, CloserPc.pastAcquire] at h
    | _ => exact ⟨hp.1, rfl⟩
  | _ => simp [Proc.pastAcquire] at h

lemma Proc.Seen.of_releasing (hp : p.Seen g) (h : p.releasing = true) : g.ownerClosing = true := by
  unfold Proc.releasing at h
  split at h
  · exact hp.1
  · simp at h

lemma Op.draining_of_releasing (h : Op i g p g' p') (hp : p.releasing = true) :
    g'.draining = true := by
  cases h with
  | closer h =>
    cases h with
    | failed h => exact h
    | acquired h => rfl
    | _ => simp [Proc.releasing] at hp
  | _ => simp [Proc.releasing] at hp

end Connx.Executor
