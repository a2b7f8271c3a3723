import Connx.Net.Executor.Handshake

/-!
# What a release leaves running

Once `owner_closing_` is visible a `Drain` that comes to its loop does not take a task any more. An
owner on another thread that has found `draining_` unset therefore leaves no task behind, and an
owner inside a task leaves only that one.
-/

namespace Connx.Executor

open Pool

variable {τ : Type} {i : Nat} {g g' : Shared τ} {p p' : Proc τ}

def DrainPc.fetches : DrainPc τ → Nat
  | .pop => 1
  | .count _ => 1
  | _ => 0

/-- The process is taking a task off the queue to run it. -/
def Proc.fetches : Proc τ → Nat
  | .drain _ pc => pc.fetches
  | _ => 0

def DrainPc.serves : DrainPc τ → Nat
  | .pop => 1
  | .count _ => 1
  | .running => 1
  | .releasing _ => 1
  | .discarding _ => 1
  | .startClose => 1
  | _ => 0

/-- The process is taking a task off the queue or running one. -/
def Proc.serves : Proc τ → Nat
  | .drain _ pc => pc.serves
  | _ => 0

def WaitPc.settled : WaitPc → Bool
  | .loadQueued => true
  | .loadActive => true
  | .unlock => true
  | _ => false

def CloserPc.settled : CloserPc → Bool
  | .waiting pc => pc.settled
  | .done => true
  | _ => false

/-- The process is in `CloseFromOwner`, or at its end, and has found `draining_` unset. -/
def Proc.settled : Proc τ → Bool
  | .closer pc => pc.settled
  | _ => false

lemma Proc.serves_le_owns (p : Proc τ) : p.serves ≤ p.owns := by
  cases p with
  | drain n pc => cases pc <;> simp [Proc.serves, Proc.owns, DrainPc.serves, DrainPc.owns]
  | _ => exact Nat.zero_le _

lemma Proc.fetches_le_serves (p : Proc τ) : p.fetches ≤ p.serves := by
  cases p with
  | drain n pc => cases pc <;> simp [Proc.serves, Proc.fetches, DrainPc.serves, DrainPc.fetches]
  | _ => exact le_rfl

lemma Op.fetches_le (h : Op i g p g' p') (howner : g.ownerClosing = true) :
    p'.fetches ≤ p.fetches := by
  cases h with
  | drain h =>
    cases h with
    | topOpen h => simp [howner] at h
    | _ => simp [Proc.fetches, DrainPc.fetches]
  | flushDrain h => cases h <;> simp [Proc.fetches, DrainPc.fetches]
  | _ => exact le_rfl

lemma Op.serves_le (h : Op i g p g' p') (howner : g.ownerClosing = true) :
    p'.serves ≤ p.serves := by
  cases h with
  | drain h =>
    cases h with
    | topOpen h => simp [howner] at h
    | _ => simp [Proc.serves, DrainPc.serves]
  | flushDrain h => cases h <;> simp [Proc.serves, DrainPc.serves]
  | _ => exact le_rfl

/-- The wait goes on when it finds `draining_` unset. -/
lemma Op.settled (h : Op i g p g' p') (hp' : p'.settled = true) :
    p.settled = true ∨ g.draining = false := by
  cases h with
  | closer h =>
    cases h with
    | waiting h =>
      cases h with
      | notDraining h => exact .inr h
      | noTasks => exact .inl rfl
      | noPosts => exact .inl rfl
      | _ => simp [Proc.settled, CloserPc.settled, WaitPc.settled] at hp'
    | waited h =>
      cases h
      exact .inl rfl
    | _ => simp [Proc.settled, CloserPc.settled, WaitPc.settled] at hp'
  | flushCloser h => cases h <;> simp [Proc.settled, CloserPc.settled] at hp'
  | _ => simp [Proc.settled] at hp'

lemma Proc.Seen.of_settled (hp : p.Seen g) (h : p.settled = true) : g.ownerClosing = true := by
  cases p with
  | closer pc =>
    cases pc with
    | releasing pc => simp [Proc.settled, CloserPc.settled] at h
    | _ => exact hp.1
  | _ => simp [Proc.settled] at h

namespace State

variable {S S' : State τ}

/-- What an owner that found `draining_` unset relies on, with what it rests on. -/
structure Settled (S : State τ) : Prop where
  owned : S.Owned
  guarded : S.Guarded
  served : ∀ p ∈ S.procs, p.settled = true → total Proc.serves S.procs = 0

lemma settled_init : ({} : State τ).Settled where
  owned := rfl
  guarded := guarded_init
  served := by simp

lemma Settled.served_of_free (hS : S.Settled) (h : S.shared.draining = false) :
    total Proc.serves S.procs = 0 := by
  have hle : total Proc.serves S.procs ≤ total Proc.owns S.procs := total_mono Proc.serves_le_owns
  have howned := hS.owned
  simp only [Owned, Accounts, token, h, Bool.toNat_false] at howned
  omega

/-- Whoever serves is the only owner. -/
lemma Settled.index_eq (hS : S.Settled) {j : Nat} {q : Proc τ} (hp : S.procs[i]? = some p)
    (hq : S.procs[j]? = some q) (hpowns : 0 < p.owns) (hqowns : 0 < q.owns) : i = j := by
  have hone := hS.owned.owns_le_one
  exact eq_of_total_le_one (f := Proc.owns) (by omega) hp hq hpowns hqowns

lemma Settled.step {l : Label τ} (hS : S.Settled) (h : S.step l = some S') : S'.Settled := by
  refine ⟨hS.owned.step h, hS.guarded.step h, ?_⟩
  cases steps_of_step h with
  | post => simpa [State.spawn, Proc.serves, Proc.settled, or_imp, forall_and] using hS.served
  | close =>
    simpa [State.spawn, Proc.serves, Proc.settled, CloserPc.settled, or_imp, forall_and]
      using hS.served
  | start =>
    simpa [State.spawn, Proc.serves, DrainPc.serves, Proc.settled, or_imp, forall_and]
      using hS.served
  | @op _ i p p' g' _ hp hop =>
    have hset := total_set (f := Proc.serves) (q := p') hp
    have hle : p.serves ≤ total Proc.serves S.procs := le_total hp
    have hseen := fun q hq => hS.guarded.seen q hq
    have hkeep (q : Proc τ) (hq : q ∈ S.procs) (hset' : q.settled = true) :
        total Proc.serves (S.procs.set i p') = 0 := by
      have hnone := hS.served q hq hset'
      have hmono := hop.serves_le ((hseen q hq).of_settled hset')
      omega
    intro q hq hsettled
    obtain hq | rfl := List.mem_or_eq_of_mem_set hq
    · exact hkeep q hq hsettled
    · obtain hbefore | hfree := hop.settled hsettled
      · exact hkeep p (List.mem_of_getElem? hp) hbefore
      · have hnone := hS.served_of_free hfree
        have hself : q.serves = 0 := by
          cases q with
          | closer pc => rfl
          | _ => simp [Proc.settled] at hsettled
        change total Proc.serves (S.procs.set i q) = 0
        omega

/-- No task will be taken off the queue to be run. -/
def Released (S : State τ) : Prop :=
  S.shared.ownerClosing = true ∧ total Proc.fetches S.procs = 0

lemma Released.step {l : Label τ} (hS : S.Released) (h : S.step l = some S') : S'.Released := by
  obtain ⟨howner, hnone⟩ := hS
  cases steps_of_step h with
  | post => exact ⟨howner, by simpa [State.spawn, Proc.fetches] using hnone⟩
  | close => exact ⟨howner, by simpa [State.spawn, Proc.fetches] using hnone⟩
  | start => exact ⟨howner, by simpa [State.spawn, Proc.fetches, DrainPc.fetches] using hnone⟩
  | @op _ i p p' g' _ hp hop =>
    have hset := total_set (f := Proc.fetches) (q := p') hp
    have hle := hop.fetches_le howner
    refine ⟨hop.later.ownerClosing howner, ?_⟩
    change total Proc.fetches (S.procs.set i p') = 0
    omega

/-- `CloseFromOwner` is about to return on a thread that is not draining. -/
lemma Settled.released (hS : S.Settled) (hp : p ∈ S.procs) (h : p.settled = true) :
    S.Released := by
  refine ⟨(hS.guarded.seen p hp).of_settled h, ?_⟩
  have hle : total Proc.fetches S.procs ≤ total Proc.serves S.procs :=
    total_mono Proc.fetches_le_serves
  have hnone := hS.served p hp h
  omega

/-- `CloseFromOwner` is about to return inside a task. -/
lemma Settled.released_inside (hS : S.Settled) {n : Nat}
    (hp : S.procs[i]? = some (.drain n .startClose)) : S.Released := by
  refine ⟨(hS.guarded.seen _ (List.mem_of_getElem? hp)).1, ?_⟩
  have hle := total_add_le (f := Proc.fetches) (g := Proc.owns)
    (fun q => q.fetches_le_serves.trans q.serves_le_owns) hp
  have hone := hS.owned.owns_le_one
  simp only [Proc.fetches, Proc.owns, DrainPc.fetches, DrainPc.owns] at hle
  omega

end State

end Connx.Executor
