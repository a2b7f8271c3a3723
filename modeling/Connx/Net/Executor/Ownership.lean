import Connx.Net.Executor.Steps

/-!
# Who owns the drain

A shared quantity is accounted for when it is the sum of what the processes hold of it; each
operation then has to account for its own process only.

`draining_` is a token. It is held by a `Drain` from its first operation until its store to
`draining_` is visible, by a thread that won the compare-exchange and has not handed its `Drain` to
the pool, and by a `Drain` the pool has not started. Together they never hold more than one.

`queued_tasks_` counts the nodes of the queue and those on their way into it or out of it.
-/

namespace Connx.Executor

variable {τ : Type} {i : Nat} {g g' : Shared τ} {p p' : Proc τ}

/-! ### Accounts -/

/-- What an operation adds to `x`, its process pays for. -/
def Balanced (x : Shared τ → Int) (g g' : Shared τ) (before after : Nat) : Prop :=
  x g' + before = x g + after

lemma Balanced.of_eq {x : Shared τ → Int} {n : Nat} (h : x g' = x g) : Balanced x g g' n n := by
  rw [Balanced, h]

/-- Every operation is balanced, if what its process holds is there. -/
structure Ledger (x : Shared τ → Int) (f : Proc τ → Nat) : Prop where
  enter (thread : Nat) (task : τ) : f (.post thread task .enter) = 0
  close : f (.closer (.releasing (.stores 0 0))) = 0
  start {g : Shared τ} (h : g.scheduled ≠ 0) :
    Balanced x g { g with scheduled := g.scheduled - 1 } 0 (f (.drain 0 .top))
  op {i : Nat} {g g' : Shared τ} {p p' : Proc τ} (h : Op i g p g' p') (hle : f p ≤ x g) :
    Balanced x g g' (f p) (f p')

/-- The quantity is what the processes account for. -/
def State.Accounts (S : State τ) (x : Shared τ → Int) (f : Proc τ → Nat) : Prop :=
  x S.shared = Pool.total f S.procs

namespace State

variable {S S' : State τ} {x : Shared τ → Int} {f : Proc τ → Nat}

lemma Accounts.le (hS : S.Accounts x f) (hp : S.procs[i]? = some p) : f p ≤ x S.shared := by
  have hle : f p ≤ Pool.total f S.procs := Pool.le_total hp
  rw [Accounts] at hS
  omega

lemma Accounts.spawn (hS : S.Accounts x f) (h : Balanced x S.shared g' 0 (f p)) :
    (S.spawn g' p).Accounts x f := by
  simp only [Accounts, Balanced, State.spawn, Pool.total_snoc] at *
  omega

lemma Accounts.step {l : Label τ} (hS : S.Accounts x f) (hx : Ledger x f)
    (h : S.step l = some S') : S'.Accounts x f := by
  cases steps_of_step h with
  | post => exact hS.spawn (by rw [hx.enter, Balanced])
  | close => exact hS.spawn (by rw [hx.close, Balanced])
  | start hscheduled => exact hS.spawn (hx.start hscheduled)
  | @op _ i p p' g' _ hp hop =>
    have hbalanced := hx.op hop (hS.le hp)
    have htotal := Pool.total_set (f := f) (q := p') hp
    simp only [Accounts, Balanced, State.put] at *
    omega

end State

/-! ### The token -/

def PostPc.owns : PostPc → Nat
  | .leave won => won.toNat
  | .notify won _ => won.toNat
  | .schedule => 1
  | _ => 0

def DrainPc.owns : DrainPc τ → Nat
  | .notifying visible _ _ => (!visible).toNat
  | .recheckOwner visible => (!visible).toNat
  | .recheckQueued visible => (!visible).toNat
  | .recheckActive visible => (!visible).toNat
  | .reacquire visible => (!visible).toNat
  | .returned visible => (!visible).toNat
  | _ => 1

def CloserPc.owns : CloserPc → Nat
  | .schedule => 1
  | _ => 0

/-- The process holds the token. -/
def Proc.owns : Proc τ → Nat
  | .post _ _ pc => pc.owns
  | .drain _ pc => pc.owns
  | .closer pc => pc.owns

/-- The token as far as processes can hold it. -/
def token (g : Shared τ) : Int := g.draining.toNat - g.scheduled

lemma DiscardStep.token {pc : DiscardPc} {r : Option DiscardPc} (h : DiscardStep g pc g' r) :
    token g' = token g := by
  cases h <;> rfl

lemma PostStep.token {task : τ} {pc pc' : PostPc} (h : PostStep i g task pc g' pc') :
    Balanced token g g' pc.owns pc'.owns := by
  cases h with
  | notify h => exact h.frame ▸ rfl
  | notified h => exact h.frame ▸ rfl
  | notifiedWon h => exact h.frame ▸ rfl
  | acquired h => simp [Balanced, Executor.token, PostPc.owns, h]; omega
  | schedule => simp [Balanced, Executor.token, PostPc.owns]; omega
  | _ => rfl

lemma DrainStep.token {n n' : Nat} {pc pc' : DrainPc τ} (h : DrainStep i g n pc g' n' pc') :
    Balanced token g g' pc.owns pc'.owns := by
  cases h with
  | releasing h => exact h.frame ▸ rfl
  | released h => exact h.frame ▸ rfl
  | discarding h => exact .of_eq h.token
  | discarded h => exact .of_eq h.token
  | closing h => exact .of_eq h.token
  | closed h => exact .of_eq h.token
  | notifying _ h => exact h.frame ▸ rfl
  | notified h => exact h.frame ▸ rfl
  | ended h => exact h.frame ▸ rfl
  | acquired h => simp [Balanced, Executor.token, DrainPc.owns, h]; omega
  | reschedule h => simp [Balanced, Executor.token, DrainPc.owns]; omega
  | _ => rfl

lemma CloserStep.token {pc pc' : CloserPc} (h : CloserStep i g pc g' pc') :
    Balanced token g g' pc.owns pc'.owns := by
  cases h with
  | releasing h => exact h.frame ▸ rfl
  | released h => exact h.frame ▸ rfl
  | waiting h => exact h.frame ▸ rfl
  | waited h => exact h.frame ▸ rfl
  | acquired h => simp [Balanced, Executor.token, CloserPc.owns, h]; omega
  | schedule => simp [Balanced, Executor.token, CloserPc.owns]; omega
  | failed => rfl

lemma FlushedStep.owns {pc pc' : DrainPc τ} (h : FlushedStep pc pc') :
    pc.owns = 1 ∧ pc'.owns = 0 := by
  cases h <;> exact ⟨rfl, rfl⟩

/-- A store to `draining_` becomes visible: only its owner can have set it. -/
lemma FlushedStep.token {pc pc' : DrainPc τ} (h : FlushedStep pc pc') (hle : pc.owns ≤ token g) :
    Balanced token g { g with draining := false } pc.owns pc'.owns := by
  obtain ⟨hbefore, hafter⟩ := h.owns
  have hbit : g.draining.toNat ≤ 1 := Bool.toNat_le _
  simp only [Balanced, Executor.token, hbefore, hafter, Bool.toNat_false] at hle ⊢
  omega

lemma ledger_token : Ledger (token : Shared τ → Int) Proc.owns where
  enter _ _ := rfl
  close := rfl
  start h := by simp [Balanced, token, Proc.owns, DrainPc.owns]; omega
  op h hle := by
    cases h with
    | post h => exact h.token
    | drain h => exact h.token
    | closer h => exact h.token
    | flushNested h => cases h <;> rfl
    | flushCloser h => cases h <;> rfl
    | flushDrain h => exact h.token hle

/-- `draining_` is set exactly when someone holds the token. -/
def State.Owned (S : State τ) : Prop := S.Accounts token Proc.owns

namespace State

variable {S S' : State τ}

lemma Owned.step {l : Label τ} (hS : S.Owned) (h : S.step l = some S') : S'.Owned :=
  Accounts.step hS ledger_token h

lemma Owned.owns_le_one (hS : S.Owned) :
    S.shared.scheduled + Pool.total Proc.owns S.procs ≤ 1 := by
  have hbit : S.shared.draining.toNat ≤ 1 := Bool.toNat_le _
  simp only [Owned, Accounts, token] at hS
  omega

end State

/-! ### The count -/

def PostPc.counted : PostPc → Nat
  | .exchange => 1
  | _ => 0

def DiscardPc.counted : DiscardPc → Nat
  | .count => 1
  | _ => 0

def DrainPc.counted : DrainPc τ → Nat
  | .count _ => 1
  | .discarding pc => pc.counted
  | .closing pc => pc.counted
  | _ => 0

/-- The process has counted a node that is not in the queue. -/
def Proc.counted : Proc τ → Nat
  | .post _ _ pc => pc.counted
  | .drain _ pc => pc.counted
  | .closer _ => 0

/-- The tasks that are counted and not in the queue. -/
def surplus (g : Shared τ) : Int := g.queuedTasks - g.nodes.length

lemma Shared.front_eq_some {node : Node τ} (h : g.front = some node) :
    g.nodes = node :: g.nodes.tail ∧ node.linked = true := by
  unfold Shared.front at h
  split at h
  · simp at h
  · next node' rest hnodes =>
    split_ifs at h with hlinked
    obtain rfl := Option.some_inj.mp h
    exact ⟨by rw [hnodes, List.tail_cons], hlinked⟩

lemma Shared.balanced_take {node : Node τ} {fate : Fate} (h : g.front = some node) :
    Balanced surplus g (g.take node fate) 0 1 := by
  have hlength : g.nodes.length = g.nodes.tail.length + 1 := by
    rw [(Shared.front_eq_some h).1]
    simp
  simp only [Balanced, surplus, Shared.take]
  omega

lemma DiscardStep.surplus {pc : DiscardPc} {r : Option DiscardPc} (h : DiscardStep g pc g' r) :
    Balanced surplus g g' pc.counted (r.elim 0 DiscardPc.counted) := by
  cases h with
  | take h => exact Shared.balanced_take h
  | count => simp [Balanced, Executor.surplus, DiscardPc.counted]; omega
  | _ => rfl

lemma PostStep.surplus {task : τ} {pc pc' : PostPc} (h : PostStep i g task pc g' pc') :
    Balanced surplus g g' pc.counted pc'.counted := by
  cases h with
  | notify h => exact h.frame ▸ rfl
  | notified h => exact h.frame ▸ rfl
  | notifiedWon h => exact h.frame ▸ rfl
  | count => simp [Balanced, Executor.surplus, PostPc.counted]; omega
  | exchange => simp [Balanced, Executor.surplus, PostPc.counted]; omega
  | link => simp [Balanced, Executor.surplus, PostPc.counted]
  | _ => rfl

lemma DrainStep.surplus {n n' : Nat} {pc pc' : DrainPc τ} (h : DrainStep i g n pc g' n' pc') :
    Balanced surplus g g' pc.counted pc'.counted := by
  cases h with
  | releasing h => exact h.frame ▸ rfl
  | released h => exact h.frame ▸ rfl
  | discarding h => exact h.surplus
  | discarded h => exact h.surplus
  | closing h => exact h.surplus
  | closed h => exact h.surplus
  | notifying _ h => exact h.frame ▸ rfl
  | notified h => exact h.frame ▸ rfl
  | ended h => exact h.frame ▸ rfl
  | take h => exact Shared.balanced_take h
  | count => simp [Balanced, Executor.surplus, DrainPc.counted]; omega
  | _ => rfl

lemma CloserStep.surplus {pc pc' : CloserPc} (h : CloserStep i g pc g' pc') :
    surplus g' = surplus g := by
  cases h with
  | releasing h => exact h.frame ▸ rfl
  | released h => exact h.frame ▸ rfl
  | waiting h => exact h.frame ▸ rfl
  | waited h => exact h.frame ▸ rfl
  | _ => rfl

lemma ledger_surplus : Ledger (surplus : Shared τ → Int) Proc.counted where
  enter _ _ := rfl
  close := rfl
  start _ := rfl
  op h _ := by
    cases h with
    | post h => exact h.surplus
    | drain h => exact h.surplus
    | closer h => exact .of_eq h.surplus
    | flushNested h => cases h <;> rfl
    | flushCloser h => cases h <;> rfl
    | flushDrain h => cases h <;> rfl

/-- `queued_tasks_` counts the nodes in the queue, those about to be pushed and those just taken. -/
def State.Counted (S : State τ) : Prop := S.Accounts surplus Proc.counted

lemma State.Counted.step {S S' : State τ} {l : Label τ} (hS : S.Counted)
    (h : S.step l = some S') : S'.Counted :=
  Accounts.step hS ledger_surplus h

lemma State.Counted.length_le {S : State τ} (hS : S.Counted) :
    S.shared.nodes.length ≤ S.shared.queuedTasks := by
  simp only [Counted, Accounts, surplus] at hS
  omega

end Connx.Executor
