import Connx.Net.Executor.Duties

/-!
# No wakeup is lost

While `queued_tasks_` is not zero somebody will look at the queue, and while a thread is blocked in
`CloseFromOwner` somebody will wake it, as long as no compare-exchange fails on a `Drain` that is
leaving.

When `draining_` is set this follows from who the owner can be. When it is not set, the processes
that are still to look at the counters keep the promise, and an operation of one of them hands it
on.
-/

namespace Connx.Executor

variable {τ : Type} {i : Nat} {g' : Shared τ} {p p' : Proc τ}

namespace State

open Pool

variable {S : State τ}

/-- The threads that are blocked in a wait, or about to be. -/
def waiting (S : State τ) (w : Wait) : Nat := S.shared.waitersIn w + total (Proc.blocks w) S.procs

/-- The step is a compare-exchange, and a `Drain` that holds `draining_` will not look any more at
what the step relies on it to look at: the queue for `Post`, `owner_closing_` for
`CloseFromOwner`. -/
def misses (S : State τ) (l : Label τ) : Bool :=
  match l.process.bind (S.procs[·]?) with
  | some p => p.posting && S.procs.any (0 < ·.leaving) || p.releasing && S.procs.any (0 < ·.letGo)
  | none => false

lemma total_leaving_of_not_misses {l : Label τ} (h : S.misses l = false)
    (hl : l.process = some i) (hp : S.procs[i]? = some p) :
    (p.posting = true → total Proc.leaving S.procs = 0) ∧
      (p.releasing = true → total Proc.letGo S.procs = 0) := by
  simp only [misses, hl, Option.bind_some, hp, Bool.or_eq_false_iff, Bool.and_eq_false_iff,
    List.any_eq_false, decide_eq_true_eq, not_lt, Nat.le_zero] at h
  refine ⟨fun hposting => ?_, fun hreleasing => ?_⟩
  · obtain hne | hnone := h.1
    · simp [hposting] at hne
    · exact total_eq_zero.mpr hnone
  · obtain hne | hnone := h.2
    · simp [hreleasing] at hne
    · exact total_eq_zero.mpr hnone

/-- The accounts of the executor. -/
structure Kept (S : State τ) : Prop where
  owned : S.Owned
  counted : S.Counted
  guarded : S.Guarded
  mutex : S.Accounts mutex Proc.locks

/-- Nobody relies on a `Drain` that is leaving. -/
structure Relied (S : State τ) : Prop where
  leaving : 0 < total Proc.leaving S.procs → 0 < S.shared.queuedTasks →
    0 < total Proc.accepted S.procs
  letGo : 0 < total Proc.pastAcquire S.procs → total Proc.letGo S.procs = 0

/-- Somebody will look at the queue. -/
structure Attended (S : State τ) : Prop where
  cares : 0 < S.shared.queuedTasks →
    0 < S.shared.scheduled + total Proc.cares S.procs + total Proc.accepted S.procs
  watches : 0 < total Proc.pastAcquire S.procs → 0 < S.shared.queuedTasks →
    0 < S.shared.scheduled + total Proc.watches S.procs

/-- Somebody will wake the threads that wait. -/
structure Awaited (S : State τ) : Prop where
  closing (w : Wait) : 0 < S.waiting w → S.shared.ownerClosing = true
  past : 0 < S.waiting .second → 0 < total Proc.pastAcquire S.procs
  first : 0 < S.waiting .first → 0 < S.shared.activePosts + total Proc.announces S.procs
  second : 0 < S.waiting .second → 0 < S.shared.scheduled + total Proc.watches S.procs +
    S.shared.activePosts + total Proc.announces S.procs

/-! ### What the accounts say -/

lemma Kept.activePosts_nonneg (hS : S.Kept) : 0 ≤ S.shared.activePosts := by
  have hactive := hS.guarded.active
  rw [Active, Accounts] at hactive
  omega

lemma Kept.queuedTasks_nonneg (hS : S.Kept) : 0 ≤ S.shared.queuedTasks :=
  (Int.natCast_nonneg _).trans hS.counted.length_le

lemma Kept.owner (hS : S.Kept) (h : S.shared.draining = true) :
    S.shared.scheduled + total Proc.owns S.procs = 1 := by
  have howned := hS.owned
  simp only [Owned, Accounts, token, h, Bool.toNat_true] at howned
  omega

lemma Kept.no_owner (hS : S.Kept) (h : S.shared.draining = false) :
    S.shared.scheduled = 0 ∧ total Proc.owns S.procs = 0 := by
  have howned := hS.owned
  simp only [Owned, Accounts, token, h, Bool.toNat_false] at howned
  omega

/-- An owner that is past its compare-exchange has sealed the executor. -/
lemma Kept.sealed_of_pastAcquire (hS : S.Kept) (h : 0 < total Proc.pastAcquire S.procs) :
    S.shared.ownerClosing = true ∧ S.Sealed := by
  obtain ⟨p, hmem, hpast⟩ := exists_of_total_pos h
  obtain ⟨howner, hwait⟩ := (hS.guarded.seen p hmem).of_pastAcquire hpast
  exact ⟨howner, hS.guarded.pastWait p hmem hwait⟩

/-- A process that holds the mutex is the only one, so nobody is about to block. -/
lemma Kept.not_blocks (hS : S.Kept) (hp : S.procs[i]? = some p) (hlocks : p.locks = 1)
    (w : Wait) : total (Proc.blocks w) S.procs = p.blocks w := by
  have hmutex := hS.mutex
  have hbit : S.shared.locked.toNat ≤ 1 := Bool.toNat_le _
  have hle := total_add_le (Proc.blocks_le_locks w) hp
  have hself : p.blocks w ≤ total (Proc.blocks w) S.procs := le_total hp
  simp only [Accounts, Executor.mutex] at hmutex
  omega

/-! ### While `draining_` is set -/

lemma Attended.of_draining (hS : S.Kept) (hrel : S.Relied) (h : S.shared.draining = true) :
    S.Attended := by
  have howner := hS.owner h
  constructor
  · intro hqueued
    have hle : total Proc.owns S.procs ≤ total Proc.cares S.procs + total Proc.leaving S.procs :=
      total_le_add fun p _ => p.owns_le_cares
    have hleaving := hrel.leaving
    omega
  · intro hpast hqueued
    have hle : total Proc.owns S.procs ≤
        total Proc.watches S.procs + total (fun p => p.leaving + p.letGo) S.procs :=
      total_le_add fun p _ => p.owns_le_watches
    have hsum : total (fun p => p.leaving + p.letGo) S.procs ≤
        total Proc.leaving S.procs + total Proc.letGo S.procs :=
      total_le_add fun _ _ => le_rfl
    -- the executor is sealed, so the owner is not leaving
    have hsealed := (hS.sealed_of_pastAcquire hpast).2.2
    have hleaving := hrel.leaving
    have hletGo := hrel.letGo hpast
    omega

lemma watched_of_draining (hS : S.Kept) (hrel : S.Relied) (h : S.shared.draining = true)
    (hpast : 0 < total Proc.pastAcquire S.procs) :
    0 < S.shared.scheduled + total Proc.watches S.procs + total Proc.announces S.procs := by
  have howner := hS.owner h
  have hle : total Proc.owns S.procs ≤
      total Proc.watches S.procs + total (fun p => p.announces + p.letGo) S.procs :=
    total_le_add fun p hp => Proc.owns_le_announces (hS.guarded.seen p hp)
  have hsum : total (fun p => p.announces + p.letGo) S.procs ≤
      total Proc.announces S.procs + total Proc.letGo S.procs :=
    total_le_add fun _ _ => le_rfl
  have hletGo := hrel.letGo hpast
  omega

/-! ### One operation -/

/-- A weight before and after an operation. -/
lemma total_op (p' : Proc τ) (hp : S.procs[i]? = some p) (f : Proc τ → Nat) :
    total f (S.procs.set i p') + f p = total f S.procs + f p' ∧ f p ≤ total f S.procs :=
  ⟨total_set hp, le_total hp⟩

lemma seen_of_getElem? (hS : S.Kept) (hp : S.procs[i]? = some p) : p.Seen S.shared :=
  hS.guarded.seen p (List.mem_of_getElem? hp)

section Op

variable (hS : S.Kept) (hp : S.procs[i]? = some p) (hop : Op i S.shared p g' p')

include hS hp hop

/-- The token is free after the operation, so nobody holds it who is not giving it back. -/
lemma scheduled_of_free (hfree : g'.draining = false) : S.shared.scheduled = 0 := by
  obtain hbefore | ⟨n, pc, pc', rfl, rfl, hpc, -⟩ := hop.free hfree
  · exact (hS.no_owner hbefore).1
  · have hle : Proc.owns (.drain n pc) ≤ total Proc.owns S.procs := le_total hp
    have hone := hS.owned.owns_le_one
    rw [Proc.owns, hpc.owns.1] at hle
    omega

lemma le_cares_of_free (hfree : g'.draining = false) :
    p.cares + p.accepted ≤ p'.cares + p'.accepted ∨ g'.queuedTasks = 0 := by
  obtain hbefore | ⟨n, pc, pc', rfl, rfl, hpc, -⟩ := hop.free hfree
  · have hle : p.owns ≤ total Proc.owns S.procs := le_total hp
    exact hop.le_cares (by have := (hS.no_owner hbefore).2; omega) hbefore
  · exact .inl (by simp [Proc.cares, Proc.accepted, hpc.cares])

lemma le_watches_of_free (hfree : g'.draining = false) (howner : S.shared.ownerClosing = true) :
    p.watches ≤ p'.watches := by
  obtain hbefore | ⟨n, pc, pc', rfl, rfl, hpc, -⟩ := hop.free hfree
  · have hle : p.owns ≤ total Proc.owns S.procs := le_total hp
    exact hop.le_watches (by have := (hS.no_owner hbefore).2; omega) hbefore howner
  · exact hpc.watches.ge

lemma Relied.op (hrel : S.Relied) (hposting : p.posting = true → total Proc.leaving S.procs = 0)
    (hreleasing : p.releasing = true → total Proc.letGo S.procs = 0) :
    (S.put i (g', p')).Relied := by
  constructor
  · intro hleaving hqueued
    simp only [State.put] at hleaving hqueued ⊢
    obtain ⟨hset₁, hle₁⟩ := total_op p' hp Proc.leaving
    obtain ⟨hset₂, hle₂⟩ := total_op p' hp Proc.accepted
    obtain hle | hzero := hop.leaving_le
    · obtain haccepted | hpost := hop.le_accepted
      · obtain hqueued' | hone := hop.queuedTasks_le
        · have hbefore := hrel.leaving (by omega) (by omega)
          omega
        · omega
      · have hnone := hposting hpost
        omega
    · omega
  · intro hpast
    simp only [State.put] at hpast ⊢
    obtain ⟨hset₁, hle₁⟩ := total_op p' hp Proc.pastAcquire
    obtain ⟨hset₂, hle₂⟩ := total_op p' hp Proc.letGo
    have hseen := seen_of_getElem? hS hp
    obtain hle | hcas := hop.pastAcquire_le
    · have hbefore : 0 < total Proc.pastAcquire S.procs := by omega
      have hmono := hop.letGo_le hseen (hS.sealed_of_pastAcquire hbefore).1
      have hnone := hrel.letGo hbefore
      omega
    · have hmono := hop.letGo_le hseen (hseen.of_releasing hcas)
      have hnone := hreleasing hcas
      omega

variable (hT : (S.put i (g', p')).Kept) (hrelT : (S.put i (g', p')).Relied)

include hT hrelT

lemma Attended.op (hatt : S.Attended) : (S.put i (g', p')).Attended := by
  cases hdraining : g'.draining with
  | true => exact .of_draining hT hrelT hdraining
  | false =>
    have hscheduled := scheduled_of_free hS hp hop hdraining
    constructor
    · intro hqueued
      simp only [State.put] at hqueued ⊢
      obtain ⟨hset₁, hle₁⟩ := total_op p' hp Proc.cares
      obtain ⟨hset₂, hle₂⟩ := total_op p' hp Proc.accepted
      obtain hle | hzero := le_cares_of_free hS hp hop hdraining
      · obtain hqueued' | hone := hop.queuedTasks_le
        · have hbefore := hatt.cares (by omega)
          omega
        · omega
      · omega
    · intro hpast hqueued
      have hnone := (hT.sealed_of_pastAcquire hpast).2.2
      simp only [State.put] at hpast hqueued hnone ⊢
      obtain ⟨hset₁, hle₁⟩ := total_op p' hp Proc.pastAcquire
      obtain ⟨hset₂, hle₂⟩ := total_op p' hp Proc.watches
      obtain ⟨hset₃, hle₃⟩ := total_op p' hp Proc.accepted
      obtain hpast' | hcas := hop.pastAcquire_le
      · have hpastS : 0 < total Proc.pastAcquire S.procs := by omega
        have howner := (hS.sealed_of_pastAcquire hpastS).1
        have hwatches := le_watches_of_free hS hp hop hdraining howner
        obtain hqueued' | hone := hop.queuedTasks_le
        · have hbefore := hatt.watches hpastS (by omega)
          omega
        · omega
      · rw [hop.draining_of_releasing hcas] at hdraining
        simp at hdraining

lemma Awaited.op (hattT : (S.put i (g', p')).Attended) (hawait : S.Awaited) :
    (S.put i (g', p')).Awaited := by
  have hseen : p'.Seen g' := hop.seen (seen_of_getElem? hS hp)
  have hnonneg := hT.activePosts_nonneg
  have hblocks (w : Wait) := total_op p' hp (Proc.blocks w)
  obtain ⟨hpast', hpastle⟩ := total_op p' hp Proc.pastAcquire
  obtain ⟨hannounces', hannouncesle⟩ := total_op p' hp Proc.announces
  -- a wait goes on, or the process has found a reason to block
  have hwaiting (w : Wait) (hw : 0 < (S.put i (g', p')).waiting w) :
      0 < S.waiting w ∨ g'.Busy w ∧ 0 < p'.blocks w := by
    refine (hop.blocks_le w).imp_left fun hle => ?_
    have := hblocks w
    simp only [waiting, State.put] at hw ⊢
    omega
  have hpast (hw : 0 < (S.put i (g', p')).waiting .second) :
      0 < total Proc.pastAcquire (S.procs.set i p') := by
    obtain hbefore | ⟨-, hblock⟩ := hwaiting _ hw
    · have hle := hop.le_pastAcquire
      have := hawait.past hbefore
      omega
    · have hself := Proc.pastAcquire_of_blocks hblock
      omega
  -- whoever wakes the threads holds the mutex, so that none is about to block
  have hawake (w : Wait) (hw : 0 < (S.put i (g', p')).waiting w) (hwakes : Wakes g' p p') :
      False := by
    have hself := hS.not_blocks hp hwakes.locks w
    have hnone := hwakes.blocks w
    have := hblocks w
    simp only [waiting, State.put, Shared.waitersIn, hwakes.waiters, List.countP_nil] at hw
    omega
  constructor
  · intro w hw
    obtain hbefore | ⟨-, hblock⟩ := hwaiting w hw
    · exact hop.later.ownerClosing (hawait.closing w hbefore)
    · exact hseen.of_blocks hblock
  · exact hpast
  · intro hw
    simp only [State.put] at hnonneg ⊢
    obtain hbefore | ⟨hbusy, -⟩ := hwaiting _ hw
    · obtain hwakes | hne | hle := hop.le_announces (hS.guarded.active.le hp)
        (hawait.closing _ hbefore)
      · exact (hawake _ hw hwakes).elim
      · omega
      · have := hawait.first hbefore
        omega
    · simp only [Shared.Busy] at hbusy
      omega
  · intro hw
    cases hdraining : g'.draining with
    | true =>
      have hwatched := watched_of_draining hT hrelT hdraining (hpast hw)
      simp only [State.put] at hwatched hnonneg ⊢
      omega
    | false =>
      have hwatches := hattT.watches (hpast hw)
      simp only [State.put] at hnonneg hwatches ⊢
      obtain hbefore | ⟨hbusy, -⟩ := hwaiting _ hw
      · have howner := hawait.closing _ hbefore
        obtain ⟨hwatches', hwatchesle⟩ := total_op p' hp Proc.watches
        have hmono := le_watches_of_free hS hp hop hdraining howner
        have hscheduled := scheduled_of_free hS hp hop hdraining
        obtain hwakes | hne | hle := hop.le_announces (hS.guarded.active.le hp) howner
        · exact (hawake _ hw hwakes).elim
        · omega
        · have := hawait.second hbefore
          omega
      · have hqueued := hT.queuedTasks_nonneg
        simp only [Shared.Busy, hdraining, State.put] at hbusy hqueued
        obtain hfalse | hne | hne := hbusy
        · simp at hfalse
        · have := hwatches (by omega)
          omega
        · omega

end Op

/-! ### Runs -/

/-- The invariant of runs in which no compare-exchange fails on a `Drain` that is leaving. -/
structure Wake (S : State τ) : Prop where
  kept : S.Kept
  relied : S.Relied
  attended : S.Attended
  awaited : S.Awaited

lemma kept_init : ({} : State τ).Kept := ⟨rfl, rfl, guarded_init, rfl⟩

lemma Kept.step {S' : State τ} {l : Label τ} (hS : S.Kept) (h : S.step l = some S') : S'.Kept where
  owned := hS.owned.step h
  counted := hS.counted.step h
  guarded := hS.guarded.step h
  mutex := hS.mutex.step ledger_mutex h

lemma wake_init : ({} : State τ).Wake where
  kept := kept_init
  relied := by constructor <;> simp
  attended := by constructor <;> simp
  awaited := by constructor <;> simp [waiting, Shared.waitersIn]

/-- A call that begins has no part in any hand-off yet. -/
structure Fresh (p : Proc τ) : Prop where
  leaving : p.leaving = 0
  letGo : p.letGo = 0
  accepted : p.accepted = 0
  pastAcquire : p.pastAcquire = 0
  announces : p.announces = 0
  blocks (w : Wait) : p.blocks w = 0

/-- A call begins. If it is a `Drain`, it takes over from the pool. -/
lemma Wake.spawn {scheduled : Nat} (hS : S.Wake) (hp : Fresh p)
    (hcares : S.shared.scheduled ≤ scheduled + p.cares)
    (hwatches : S.shared.scheduled ≤ scheduled + p.watches)
    (hT : (S.spawn { S.shared with scheduled := scheduled } p).Kept) :
    (S.spawn { S.shared with scheduled := scheduled } p).Wake := by
  have hwaiting (w : Wait) :
      (S.spawn { S.shared with scheduled := scheduled } p).waiting w = S.waiting w := by
    simp [waiting, State.spawn, hp.blocks, Shared.waitersIn]
  refine ⟨hT, ⟨?_, ?_⟩, ⟨?_, ?_⟩, ⟨?_, ?_, ?_, ?_⟩⟩
  · simpa [State.spawn, hp.leaving, hp.accepted] using hS.relied.leaving
  · simpa [State.spawn, hp.pastAcquire, hp.letGo] using hS.relied.letGo
  · intro hqueued
    have hbefore := hS.attended.cares hqueued
    simp only [State.spawn, total_snoc, hp.accepted]
    omega
  · intro hpast hqueued
    simp only [State.spawn, total_snoc, hp.pastAcquire, add_zero] at hpast ⊢
    have hbefore := hS.attended.watches hpast hqueued
    omega
  · intro w hw
    exact hS.awaited.closing w (hwaiting w ▸ hw)
  · intro hw
    simpa [State.spawn, hp.pastAcquire] using hS.awaited.past (hwaiting _ ▸ hw)
  · intro hw
    simpa [State.spawn, hp.announces] using hS.awaited.first (hwaiting _ ▸ hw)
  · intro hw
    have hbefore := hS.awaited.second (hwaiting _ ▸ hw)
    simp only [State.spawn, total_snoc, hp.announces, add_zero]
    omega

lemma Wake.step {S' : State τ} {l : Label τ} (hS : S.Wake) (hok : S.misses l = false)
    (h : S.step l = some S') : S'.Wake := by
  have hT : S'.Kept := hS.kept.step h
  cases steps_of_step h with
  | post =>
    refine hS.spawn ⟨rfl, rfl, rfl, rfl, rfl, fun w => ?_⟩ le_rfl le_rfl hT
    cases w <;> rfl
  | close =>
    refine hS.spawn ⟨rfl, rfl, rfl, rfl, rfl, fun w => ?_⟩ le_rfl le_rfl hT
    cases w <;> rfl
  | start hscheduled =>
    refine hS.spawn ⟨rfl, rfl, rfl, rfl, rfl, fun w => ?_⟩ ?_ ?_ hT
    · cases w <;> rfl
    · change _ ≤ S.shared.scheduled - 1 + 1
      omega
    · change _ ≤ S.shared.scheduled - 1 + 1
      omega
  | op hl hp hop =>
    obtain ⟨hposting, hreleasing⟩ := total_leaving_of_not_misses hok hl hp
    have hrel := hS.relied.op hS.kept hp hop hposting hreleasing
    have hatt := hS.attended.op hS.kept hp hop hT hrel
    exact ⟨hT, hrel, hatt, hS.awaited.op hS.kept hp hop hT hrel hatt⟩

end State

end Connx.Executor
