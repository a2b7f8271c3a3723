import Connx.Net.Executor.Ownership

/-!
# Closing the executor

`CloseFromOwner` makes two stores and then waits until no `Post` is under way. What a process has
found out about the stores stays true, since nobody takes them back. Once a wait has found
`active_posts_` zero the executor is sealed: no task is accepted any more.
-/

namespace Connx.Executor

variable {τ : Type} {i : Nat} {g g' : Shared τ} {p p' : Proc τ}

/-! ### The count of posts -/

def PostPc.active : PostPc → Nat
  | .enter => 0
  | .notify _ _ => 0
  | .schedule => 0
  | .done => 0
  | _ => 1

/-- A `Post` that is counted in `active_posts_`. -/
def Proc.active : Proc τ → Nat
  | .post _ _ pc => pc.active
  | _ => 0

lemma DiscardStep.activePosts {pc : DiscardPc} {r : Option DiscardPc} (h : DiscardStep g pc g' r) :
    g'.activePosts = g.activePosts := by
  cases h <;> rfl

lemma PostStep.activePosts {task : τ} {pc pc' : PostPc} (h : PostStep i g task pc g' pc') :
    Balanced Shared.activePosts g g' pc.active pc'.active := by
  cases h with
  | notify h => exact h.frame ▸ rfl
  | notified h => exact h.frame ▸ rfl
  | notifiedWon h => exact h.frame ▸ rfl
  | enter => simp [Balanced, PostPc.active]
  | leaveLast => simp [Balanced, PostPc.active]
  | leave => simp [Balanced, PostPc.active]
  | leaveWon => simp [Balanced, PostPc.active]
  | _ => rfl

lemma DrainStep.activePosts {n n' : Nat} {pc pc' : DrainPc τ} (h : DrainStep i g n pc g' n' pc') :
    g'.activePosts = g.activePosts := by
  cases h with
  | releasing h => exact h.frame ▸ rfl
  | released h => exact h.frame ▸ rfl
  | discarding h => exact h.activePosts
  | discarded h => exact h.activePosts
  | closing h => exact h.activePosts
  | closed h => exact h.activePosts
  | notifying _ h => exact h.frame ▸ rfl
  | notified h => exact h.frame ▸ rfl
  | ended h => exact h.frame ▸ rfl
  | _ => rfl

lemma CloserStep.activePosts {pc pc' : CloserPc} (h : CloserStep i g pc g' pc') :
    g'.activePosts = g.activePosts := by
  cases h with
  | releasing h => exact h.frame ▸ rfl
  | released h => exact h.frame ▸ rfl
  | waiting h => exact h.frame ▸ rfl
  | waited h => exact h.frame ▸ rfl
  | _ => rfl

lemma ledger_activePosts : Ledger (Shared.activePosts : Shared τ → Int) Proc.active where
  enter _ _ := rfl
  close := rfl
  start _ := rfl
  op h _ := by
    cases h with
    | post h => exact h.activePosts
    | drain h => exact .of_eq h.activePosts
    | closer h => exact .of_eq h.activePosts
    | flushNested h => cases h <;> rfl
    | flushCloser h => cases h <;> rfl
    | flushDrain h => rfl

/-! ### What a process has seen -/

/-- Both stores of `CloseFromOwner` are visible. -/
def Shared.Closed (g : Shared τ) : Prop := g.ownerClosing = true ∧ g.accepting = false

def ReleasePc.Seen (g : Shared τ) : ReleasePc → Prop
  | .stores issued visible => visible ≤ issued ∧ issued ≤ 2 ∧
      (1 ≤ visible → g.ownerClosing = true) ∧ (2 ≤ visible → g.accepting = false)
  | _ => g.Closed

def NotifyPc.locks : NotifyPc → Bool
  | .loadOwner => false
  | .lock => false
  | .loadActive => true
  | .unlock => true

def DrainPc.Seen (g : Shared τ) : DrainPc τ → Prop
  | .releasing pc => pc.Seen g
  | .discarding _ => g.Closed
  | .startClose => g.Closed
  | .closing _ => g.ownerClosing = true
  | .closeConn => g.ownerClosing = true
  | .closeStore => g.ownerClosing = true
  | .notifying visible ending pc =>
    (ending = true → g.ownerClosing = true) ∧ (pc.locks = true → visible = true)
  | _ => True

def CloserPc.Seen (g : Shared τ) : CloserPc → Prop
  | .releasing pc => pc.Seen g
  | _ => g.Closed

/-- What the process knows of the stores from where it is. -/
def Proc.Seen (g : Shared τ) : Proc τ → Prop
  | .post _ _ _ => True
  | .drain _ pc => pc.Seen g
  | .closer pc => pc.Seen g

/-- Nothing that was seen is taken back. -/
structure Shared.Later (g g' : Shared τ) : Prop where
  ownerClosing : g.ownerClosing = true → g'.ownerClosing = true
  accepting : g.accepting = false → g'.accepting = false

lemma Shared.Later.of_frame {locked : Bool} {waiters : List (Nat × Wait)}
    (h : g' = { g with locked := locked, waiters := waiters }) : g.Later g' := by
  subst h
  exact ⟨id, id⟩

lemma Shared.Later.closed (h : g.Later g') (hg : g.Closed) : g'.Closed :=
  ⟨h.ownerClosing hg.1, h.accepting hg.2⟩

lemma DiscardStep.later {pc : DiscardPc} {r : Option DiscardPc} (h : DiscardStep g pc g' r) :
    g.Later g' := by
  cases h <;> exact ⟨id, id⟩

lemma Op.later (h : Op i g p g' p') : g.Later g' := by
  cases h with
  | post h =>
    cases h with
    | notify h => exact .of_frame h.frame
    | notified h => exact .of_frame h.frame
    | notifiedWon h => exact .of_frame h.frame
    | _ => exact ⟨id, id⟩
  | drain h =>
    cases h with
    | releasing h => exact .of_frame h.frame
    | released h => exact .of_frame h.frame
    | discarding h => exact h.later
    | discarded h => exact h.later
    | closing h => exact h.later
    | closed h => exact h.later
    | notifying _ h => exact .of_frame h.frame
    | notified h => exact .of_frame h.frame
    | ended h => exact .of_frame h.frame
    | _ => exact ⟨id, id⟩
  | closer h =>
    cases h with
    | releasing h => exact .of_frame h.frame
    | released h => exact .of_frame h.frame
    | waiting h => exact .of_frame h.frame
    | waited h => exact .of_frame h.frame
    | _ => exact ⟨id, id⟩
  | flushNested h => cases h <;> constructor <;> simp
  | flushCloser h => cases h <;> constructor <;> simp
  | flushDrain h => exact ⟨id, id⟩

lemma ReleasePc.Seen.later {pc : ReleasePc} (hpc : pc.Seen g) (h : g.Later g') : pc.Seen g' := by
  cases pc with
  | stores issued visible =>
    obtain ⟨hle, htwo, howner, haccepting⟩ := hpc
    exact ⟨hle, htwo, fun hv => h.ownerClosing (howner hv), fun hv => h.accepting (haccepting hv)⟩
  | _ => exact h.closed hpc

lemma Proc.Seen.later (hp : p.Seen g) (h : g.Later g') : p.Seen g' := by
  cases p with
  | post thread task pc => trivial
  | drain n pc =>
    cases pc with
    | releasing pc => exact ReleasePc.Seen.later hp h
    | discarding pc => exact h.closed hp
    | startClose => exact h.closed hp
    | closing pc => exact h.ownerClosing hp
    | closeConn => exact h.ownerClosing hp
    | closeStore => exact h.ownerClosing hp
    | notifying visible ending pc => exact ⟨fun hending => h.ownerClosing (hp.1 hending), hp.2⟩
    | _ => trivial
  | closer pc =>
    cases pc with
    | releasing pc => exact ReleasePc.Seen.later hp h
    | _ => exact h.closed hp

lemma ReleaseStep.seen {pc pc' : ReleasePc} (h : ReleaseStep i g pc g' (some pc'))
    (hpc : pc.Seen g) : pc'.Seen g' := by
  cases h with
  | store h => exact ⟨by have := hpc.1; omega, h, hpc.2.2⟩
  | lock h hv => exact ⟨hpc.2.2.1 (by omega), hpc.2.2.2 hv⟩
  | _ => exact hpc

lemma ReleaseStep.closed {pc : ReleasePc} (h : ReleaseStep i g pc g' none) (hpc : pc.Seen g) :
    g'.Closed := by
  cases h
  exact hpc

lemma NotifyStep.seen {visible ending : Bool} {pc pc' : NotifyPc}
    (h : NotifyStep g pc g' (some pc')) (hlock : pc = .lock → visible = true)
    (hpc : (DrainPc.notifying visible ending pc : DrainPc τ).Seen g) :
    (DrainPc.notifying visible ending pc' : DrainPc τ).Seen g' := by
  cases h with
  | ownerClosing => exact ⟨hpc.1, by simp [NotifyPc.locks]⟩
  | lock => exact ⟨hpc.1, fun _ => hlock rfl⟩
  | notify => exact hpc
  | posts => exact hpc

lemma DrainStep.seen {n n' : Nat} {pc pc' : DrainPc τ} (h : DrainStep i g n pc g' n' pc')
    (hpc : pc.Seen g) : pc'.Seen g' := by
  cases h with
  | topClosing h => exact h
  | close => exact ⟨le_rfl, by omega, by omega, by omega⟩
  | releasing h => exact h.seen hpc
  | released h => exact h.closed hpc
  | discarding h => exact h.later.closed hpc
  | discarded h => exact h.later.closed hpc
  | release => exact ⟨by simp, by simp [NotifyPc.locks]⟩
  | notifying hlock h => exact h.seen hlock hpc
  | closing h => exact h.later.ownerClosing hpc
  | closed h => exact h.later.ownerClosing hpc
  | closeConn => exact hpc
  | closeStore => exact ⟨fun _ => hpc, by simp [NotifyPc.locks]⟩
  | _ => trivial

lemma CloserStep.seen {pc pc' : CloserPc} (h : CloserStep i g pc g' pc') (hpc : pc.Seen g) :
    pc'.Seen g' := by
  cases h with
  | releasing h => exact h.seen hpc
  | released h => exact h.closed hpc
  | waiting h => exact (Shared.Later.of_frame h.frame).closed hpc
  | waited h => exact (Shared.Later.of_frame h.frame).closed hpc
  | _ => exact hpc

lemma FlushStep.seen {pc pc' : ReleasePc} (h : FlushStep g pc g' pc') (hpc : pc.Seen g) :
    pc'.Seen g' := by
  cases h with
  | ownerClosing h => exact ⟨h, hpc.2.1, fun _ => rfl, by omega⟩
  | accepting h h₀ => exact ⟨h, hpc.2.1, fun _ => hpc.2.2.1 h₀, fun _ => rfl⟩

lemma Op.seen (h : Op i g p g' p') (hp : p.Seen g) : p'.Seen g' := by
  cases h with
  | post h => trivial
  | drain h => exact h.seen hp
  | closer h => exact h.seen hp
  | flushNested h => exact h.seen hp
  | flushCloser h => exact h.seen hp
  | flushDrain h =>
    cases h with
    | notifying => exact ⟨hp.1, fun _ => rfl⟩
    | _ => trivial

/-! ### Runs -/

namespace State

variable {S S' : State τ} {P : Shared τ → Proc τ → Prop}

/-- A property of the processes one by one, after an operation. -/
lemma forall_put (hS : ∀ q ∈ S.procs, P S.shared q) (hstable : ∀ q, P S.shared q → P g' q)
    (hp' : P g' p') : ∀ q ∈ (S.put i (g', p')).procs, P g' q := by
  intro q hq
  obtain hq | rfl := List.mem_or_eq_of_mem_set hq
  · exact hstable q (hS q hq)
  · exact hp'

lemma forall_spawn (hS : ∀ q ∈ S.procs, P S.shared q) (hstable : ∀ q, P S.shared q → P g' q)
    (hp : P g' p) : ∀ q ∈ (S.spawn g' p).procs, P g' q := by
  intro q hq
  obtain hq | rfl : q ∈ S.procs ∨ q = p := by simpa [State.spawn] using hq
  · exact hstable q (hS q hq)
  · exact hp

/-- Every process is right about the stores it has seen. -/
def Seen (S : State τ) : Prop := ∀ p ∈ S.procs, p.Seen S.shared

lemma Seen.step {l : Label τ} (hS : S.Seen) (h : S.step l = some S') : S'.Seen := by
  cases steps_of_step h with
  | post => exact forall_spawn hS (fun _ hq => hq) trivial
  | close => exact forall_spawn hS (fun _ hq => hq) ⟨le_rfl, by omega, by omega, by omega⟩
  | start => exact forall_spawn hS (fun _ hq => hq.later ⟨id, id⟩) trivial
  | op _ hp hop =>
    exact forall_put hS (fun _ hq => hq.later hop.later) (hop.seen (hS _ (List.mem_of_getElem? hp)))

end State

/-! ### The executor is sealed -/

def PostPc.accepted : PostPc → Nat
  | .count => 1
  | .exchange => 1
  | .link => 1
  | .acquire => 1
  | _ => 0

/-- A `Post` that has found `accepting_tasks_` set and has not tried to schedule a `Drain`. -/
def Proc.accepted : Proc τ → Nat
  | .post _ _ pc => pc.accepted
  | _ => 0

lemma Proc.accepted_le_active (p : Proc τ) : p.accepted ≤ p.active := by
  cases p with
  | post thread task pc => cases pc <;> simp [Proc.accepted, Proc.active, PostPc.accepted,
      PostPc.active]
  | _ => exact le_rfl

lemma Op.accepted_le (h : Op i g p g' p') (hg : g.accepting = false) :
    p'.accepted ≤ p.accepted := by
  cases h with
  | post h =>
    cases h with
    | accepted h => simp [hg] at h
    | _ => simp [Proc.accepted, PostPc.accepted]
  | _ => exact le_rfl

def ReleasePc.pastWait : ReleasePc → Bool
  | .unlock => true
  | _ => false

def DrainPc.pastWait : DrainPc τ → Bool
  | .releasing pc => pc.pastWait
  | .discarding _ => true
  | .startClose => true
  | _ => false

def CloserPc.pastWait : CloserPc → Bool
  | .releasing pc => pc.pastWait
  | _ => true

/-- The process is inside `CloseFromOwner`, and its first wait has found no `Post` under way. -/
def Proc.pastWait : Proc τ → Bool
  | .post _ _ _ => false
  | .drain _ pc => pc.pastWait
  | .closer pc => pc.pastWait

lemma ReleaseStep.pastWait {pc pc' : ReleasePc} (h : ReleaseStep i g pc g' (some pc'))
    (hpc : pc.Seen g) (hpc' : pc'.pastWait = true) : g.activePosts = 0 ∧ g.accepting = false := by
  cases h with
  | noPosts h => exact ⟨h, hpc.2⟩
  | _ => simp [ReleasePc.pastWait] at hpc'

lemma ReleaseStep.pastWait_of_none {pc : ReleasePc} (h : ReleaseStep i g pc g' none) :
    pc.pastWait = true := by
  cases h
  rfl

/-- The wait ends when it finds no `Post` under way. -/
lemma Op.pastWait (h : Op i g p g' p') (hp : p.Seen g) (hp' : p'.pastWait = true) :
    p.pastWait = true ∨ g.activePosts = 0 ∧ g.accepting = false := by
  cases h with
  | post h => exact .inl hp'
  | drain h =>
    cases h with
    | releasing h => exact .inr (h.pastWait hp hp')
    | released h => exact .inl h.pastWait_of_none
    | discarding h => exact .inl rfl
    | discarded h => exact .inl rfl
    | _ => simp [Proc.pastWait, DrainPc.pastWait, ReleasePc.pastWait] at hp'
  | closer h =>
    cases h with
    | releasing h => exact .inr (h.pastWait hp hp')
    | released h => exact .inl h.pastWait_of_none
    | _ => exact .inl rfl
  | flushNested h => cases h <;> exact .inl hp'
  | flushCloser h => cases h <;> exact .inl hp'
  | flushDrain h => cases h <;> exact .inl hp'

namespace State

variable {S S' : State τ}

/-- No task is on its way into the queue, and none will be accepted. -/
def Sealed (S : State τ) : Prop :=
  S.shared.accepting = false ∧ Pool.total Proc.accepted S.procs = 0

lemma Sealed.step {l : Label τ} (hS : S.Sealed) (h : S.step l = some S') : S'.Sealed := by
  obtain ⟨haccepting, hnone⟩ := hS
  cases steps_of_step h with
  | post => exact ⟨haccepting, by simpa [State.spawn, Proc.accepted, PostPc.accepted] using hnone⟩
  | close => exact ⟨haccepting, by simpa [State.spawn, Proc.accepted] using hnone⟩
  | start => exact ⟨haccepting, by simpa [State.spawn, Proc.accepted] using hnone⟩
  | @op _ i p p' g' _ hp hop =>
    refine ⟨hop.later.accepting haccepting, ?_⟩
    have hle := hop.accepted_le haccepting
    have htotal := Pool.total_set (f := Proc.accepted) (q := p') hp
    change Pool.total Proc.accepted (S.procs.set i p') = 0
    omega

/-- `active_posts_` is the number of posts that are counted in it. -/
def Active (S : State τ) : Prop := S.Accounts Shared.activePosts Proc.active

lemma Active.step {l : Label τ} (hS : S.Active) (h : S.step l = some S') : S'.Active :=
  Accounts.step hS ledger_activePosts h

lemma Active.sealed (hS : S.Active) (hactive : S.shared.activePosts = 0)
    (haccepting : S.shared.accepting = false) : S.Sealed := by
  refine ⟨haccepting, ?_⟩
  have hle : Pool.total Proc.accepted S.procs ≤ Pool.total Proc.active S.procs :=
    Pool.total_mono Proc.accepted_le_active
  rw [Active, Accounts, hactive] at hS
  omega

/-- What `CloseFromOwner` waits for holds once it has waited. -/
structure Guarded (S : State τ) : Prop where
  active : S.Active
  seen : S.Seen
  pastWait : ∀ p ∈ S.procs, p.pastWait = true → S.Sealed

lemma guarded_init : ({} : State τ).Guarded where
  active := rfl
  seen := by simp [Seen]
  pastWait := by simp

lemma Guarded.step {l : Label τ} (hS : S.Guarded) (h : S.step l = some S') : S'.Guarded := by
  refine ⟨hS.active.step h, hS.seen.step h, ?_⟩
  have hsealed : S.Sealed → S'.Sealed := fun hS => hS.step h
  cases steps_of_step h with
  | post =>
    exact forall_spawn (P := fun _ q => q.pastWait = true → Sealed _)
      (fun q hq hw => hsealed (hS.pastWait q hq hw)) (fun _ hq => hq) (by simp [Proc.pastWait])
  | close =>
    exact forall_spawn (P := fun _ q => q.pastWait = true → Sealed _)
      (fun q hq hw => hsealed (hS.pastWait q hq hw)) (fun _ hq => hq) (by
        simp [Proc.pastWait, CloserPc.pastWait, ReleasePc.pastWait])
  | start =>
    exact forall_spawn (P := fun _ q => q.pastWait = true → Sealed _)
      (fun q hq hw => hsealed (hS.pastWait q hq hw)) (fun _ hq => hq) (by
        simp [Proc.pastWait, DrainPc.pastWait])
  | op _ hp hop =>
    have hmem := List.mem_of_getElem? hp
    refine forall_put (P := fun _ q => q.pastWait = true → Sealed _)
      (fun q hq hw => hsealed (hS.pastWait q hq hw)) (fun _ hq => hq) fun hw => hsealed ?_
    obtain hbefore | ⟨hactive, haccepting⟩ := hop.pastWait (hS.seen _ hmem) hw
    · exact hS.pastWait _ hmem hbefore
    · exact hS.active.sealed hactive haccepting

end State

end Connx.Executor
