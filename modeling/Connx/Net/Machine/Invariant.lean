import Connx.Lib.History
import Connx.Net.Machine.Phases

/-!
# The connection stays silent after its release

The invariant of the machine. What is known of the connection depends on the phase of the owner of
the drain: between tasks it is stable, while a task is suspended the rest of it keeps to the listed
changes, and in the closing branch of `Drain` it is up or down.
-/

namespace Connx

open Executor Relation History Resum

variable {cfg : Config}

/-! ### Histories without activity after the release -/

/-- A task was run, or a callback started. -/
def Event.active : Event → Bool
  | .ran _ => true
  | .call _ => true
  | _ => false

/-- Nothing is run and no callback is started once `CloseFromOwner` has returned. -/
def Silence (trace : List Event) : Prop :=
  Always (fun before e => e.active = true → .ownerReturned ∉ before) trace

lemma Silence.passive {t es : List Event} (h : Silence t) (hes : ∀ e ∈ es, e.active = false) :
    Silence (t ++ es) :=
  Always.append h fun e he _ hactive => by simp [hes e he] at hactive

lemma Silence.active {t : List Event} (h : Silence t) (e : Event) (ht : .ownerReturned ∉ t) :
    Silence (t ++ [e]) :=
  always_snoc.mpr ⟨h, fun _ => ht⟩

lemma Change.silence {k : Kernel} {F : Facts} {s s' : Local} (h : Change cfg k F s s')
    (hs : Silence s.conn.trace) : Silence s'.conn.trace := by
  cases h with
  | bookkeeping c' p _ h => exact h.trace ▸ hs
  | adopt call fd =>
    obtain ⟨id, deadline, hconn⟩ := adopt_conn cfg k fd s
    rw [hconn]
    exact hs
  | establish _ _ hown => exact hs.active _ hown
  | append data => exact hs.passive (by simp [Event.active])
  | deliver call n _ _ _ _ hown => exact hs.active _ hown
  | commit => exact hs
  | close reason desc _ _ _ hown =>
    have hclose : Silence (closeConn cfg reason desc s).conn.trace := by
      rw [closeConn_trace]
      exact hs.passive (by simp [Event.active])
    unfold noteClose
    split_ifs with hnotify
    · refine hclose.active _ ?_
      rw [closeConn_trace]
      simpa using hown hnotify
    · exact hclose

lemma Changes.silence {k : Kernel} {F : Facts} {s s' : Local} (h : Changes cfg k F s s')
    (hs : Silence s.conn.trace) : Silence s'.conn.trace := by
  induction h with
  | refl => exact hs
  | tail _ hstep ih => exact hstep.silence ih

/-! ### Histories of the executor's operations -/

variable (cfg) in
lemma trace_closeRelease (s : Local) :
    ∃ es, (closeRelease cfg s).conn.trace = s.conn.trace ++ es ∧
      ∀ e ∈ es, e = .closing .release .empty := by
  unfold closeRelease
  split_ifs
  · exact ⟨[], by simp, by simp⟩
  · exact ⟨_, closeConn_trace cfg _ _ s, by simp⟩

namespace Acts

variable {g g' : Shared Task} {p p' : Proc Task} {s s' : Local}

/-- An operation adds no activity to the history, and the return of `CloseFromOwner` only at its
end. -/
lemma trace (h : Acts cfg g g' p p' s s') :
    ∃ es, s'.conn.trace = s.conn.trace ++ es ∧ (∀ e ∈ es, e.active = false) ∧
      (.ownerReturned ∈ es → p.settled = true ∨ ∃ n, p = .drain n .startClose) := by
  cases h with
  | inside _ hp _ =>
    obtain ⟨es, htrace, hes⟩ := trace_closeRelease cfg s
    refine ⟨es ++ [.ownerReturned], ?_, ?_, fun _ => .inr ⟨_, hp⟩⟩
    · rw [Conn.note, htrace, List.append_assoc]
    · intro e he
      obtain he | he := List.mem_append.mp he
      · rw [hes e he]
        rfl
      · rw [List.mem_singleton.mp he]
        rfl
  | release _ _ _ =>
    obtain ⟨es, htrace, hes⟩ := trace_closeRelease cfg s
    refine ⟨es, htrace, fun e he => ?_, fun he => ?_⟩
    · rw [hes e he]
      rfl
    · simpa using hes _ he
  | returned _ hp _ => exact ⟨[.ownerReturned], rfl, by simp [Event.active], fun _ => .inl hp⟩
  | _ => exact ⟨[], by simp [Conn.push], by simp, by simp⟩

lemma queue (h : Acts cfg g g' p p' s s') (hq : s.conn.queue = tasks g) :
    s'.conn.queue = tasks g' := by
  cases h with
  | push _ _ ht => simp [Conn.push, hq, ht]
  | ownerClosing ht _ _ => exact hq.trans ht.symm
  | stopAccepting ht _ _ => exact hq.trans ht.symm
  | fetch ht ht' _ _ => simp [hq, ht, ht']
  | discard ht ht' _ _ => simp [hq, ht, ht']
  | inside h _ _ => exact ((sameQueue_closeRelease _ s).queue.trans hq).trans h.tasks.symm
  | release h _ _ => exact ((sameQueue_closeRelease _ s).queue.trans hq).trans h.tasks.symm
  | pass h _ => exact hq.trans h.tasks.symm
  | begins h _ => exact hq.trans h.tasks.symm
  | ends h _ _ => exact hq.trans h.tasks.symm
  | enters h _ _ => exact hq.trans h.tasks.symm
  | closes h _ _ => exact hq.trans h.tasks.symm
  | returned h _ _ => exact hq.trans h.tasks.symm

lemma coherent (h : Acts cfg g g' p p' s s') (hs : Coherent s.conn) : Coherent s'.conn := by
  have hrelease := coherent_closeRelease cfg hs
  cases h with
  | inside => exact ⟨hrelease.connected, hrelease.closing⟩
  | release => exact hrelease
  | _ => exact ⟨hs.connected, hs.closing⟩

/-- What a process does that is away before and after. -/
lemma outside (h : Acts cfg g g' p p' s s') (hp : phase p = .away) (hp' : phase p' = .away) :
    ReflTransGen Outside s.conn s'.conn ∨
      p.settled = true ∧ s'.conn = s.conn.note .ownerReturned := by
  cases h with
  | pass => exact .inl .refl
  | push => exact .inl (.single (.push _))
  | ownerClosing => exact .inl (.single .ownerClosing)
  | stopAccepting => exact .inl (.single .stopAccepting)
  | returned _ hsettled _ => exact .inr ⟨hsettled, rfl⟩
  | fetch _ _ _ hphase' => simp [hp'] at hphase'
  | discard _ _ _ hphase' => simp [hp] at hphase'
  | begins _ hphase => simp [hp] at hphase
  | ends _ hphase _ => simp [hp] at hphase
  | enters _ hphase _ => simp [hp] at hphase
  | closes _ _ hphase' => simp [hp'] at hphase'
  | inside _ _ hphase' => simp [hp'] at hphase'
  | release _ hphase _ => simp [hp] at hphase

/-- What a process does that was not away and goes away. -/
lemma released (h : Acts cfg g g' p p' s s') (hp : phase p ≠ .away) (hp' : phase p' = .away)
    (hfetched : ∀ t, phase p ≠ .fetched t) (hrunning : phase p ≠ .running) :
    phase p = .closing ∧ s'.conn = (closeRelease cfg s).conn := by
  cases h with
  | release _ hphase _ => exact ⟨hphase, rfl⟩
  | pass _ hphase => exact absurd (hphase.symm.trans hp') hp
  | push h _ _ => simp [h, phase] at hp
  | ownerClosing _ hphase _ => exact absurd (hphase.symm.trans hp') hp
  | stopAccepting _ hphase _ => exact absurd (hphase.symm.trans hp') hp
  | fetch _ _ hphase _ => exact absurd hphase hp
  | discard _ _ hphase _ => exact absurd (hphase.symm.trans hp') hp
  | begins _ hphase => exact absurd hphase (hfetched _)
  | ends _ hphase _ => exact absurd hphase hrunning
  | enters _ hphase _ => exact absurd hphase hrunning
  | closes _ hphase _ => exact absurd hphase hp
  | inside _ _ hphase' => simp [hp'] at hphase'
  | returned _ hsettled _ => exact absurd (phase_of_settled hsettled) hp

end Acts

/-! ### What is known in each phase -/

/-- What is left of a task that posts its continuation keeps to the listed changes. -/
def KeepsPost (cfg : Config) (rest : Suspended) (c : Conn) : Prop :=
  ∃ k, ∀ s : Local, ReflTransGen Outside c s.conn → Waiting s.conn →
    Sat Calls (Changes cfg k {}) (Rely cfg) (fun _ s' => Stable cfg s'.conn) s (rest s)

/-- A connection from whose queue the task `t` was taken to be run. -/
def Fetched (cfg : Config) (t : Task) (c : Conn) : Prop :=
  Down c ∨ (Up c ∧ c.parsed = 0 ∧ (t = .parseContinuation ∨ Ready cfg c))

/-- The front of the queue of a connection between tasks. -/
lemma fetched_of_stable {t : Task} {rest : List Task} {c : Conn} (h : Stable cfg c)
    (hq : c.queue = t :: rest) : Fetched cfg t { c with queue := c.queue.tail } := by
  refine h.imp (fun hd => ⟨hd.state, hd.connected, hd.deferred, hd.content, hd.parsed⟩)
    fun ⟨hu, hp, hready⟩ => ⟨⟨hu.state, hu.connected, hu.deferred, hu.parsed_le⟩, hp, ?_⟩
  obtain hdrained | hmem | haccepting := hready
  · exact Or.inr (Or.inl hdrained)
  · rw [hq] at hmem
    obtain rfl | hmem := List.mem_cons.mp hmem
    · exact Or.inl rfl
    · exact Or.inr (Or.inr (Or.inl (by simpa [hq] using hmem)))
  · exact Or.inr (Or.inr (Or.inr haccepting))

namespace Machine

variable {M M' : Machine}

/-- The process is the `Post` of a parse continuation, and once it is past its push the
continuation is queued, unless no task is accepted. -/
def Posting (M : Machine) (j : Nat) : Prop :=
  ∃ thread pc, M.exec.procs[j]? = some (.post thread .parseContinuation pc) ∧
    (pc.pastPush = true → Waiting M.conn)

/-- What is left of the task that runs. -/
def TaskKept (cfg : Config) (M : Machine) : Prop :=
  match M.progress with
  | .idle => False
  | .callback rest => Keeps cfg {} rest M.conn
  | .posting j rest => KeepsPost cfg rest M.conn ∧ M.Posting j
  | .over => Stable cfg M.conn

/-- What is known of the machine when its owner is in the phase. -/
def Holds (cfg : Config) (M : Machine) : Phase → Prop
  | .away => True
  | .fetched t => M.progress = .idle ∧ Fetched cfg t M.conn
  | .running => M.TaskKept cfg
  | .nested => ∃ rest, M.progress = .callback rest ∧ Keeps cfg {} rest M.conn
  | .closing => M.progress = .idle ∧ (Up M.conn ∨ Down M.conn)

/-- The executor and the connection agree, and the history is silent. -/
structure Base (M : Machine) : Prop where
  settled : M.exec.Settled
  queue : M.conn.queue = tasks M.exec.shared
  accepting : M.conn.acceptingTasks = M.exec.shared.accepting
  ownerClosing : M.conn.ownerClosing = M.exec.shared.ownerClosing
  coherent : Coherent M.conn
  released : .ownerReturned ∈ M.conn.trace → M.exec.Released
  silence : Silence M.conn.trace

structure Inv (cfg : Config) (M : Machine) : Prop extends Base M where
  away : (∀ p ∈ M.exec.procs, phase p = .away) → M.progress = .idle ∧ Stable cfg M.conn
  phases : ∀ (i : Nat) p, M.exec.procs[i]? = some p → M.Holds cfg (phase p)

/-! ### Interference -/

lemma fetched_outside {t : Task} {c c' : Conn} (h : Fetched cfg t c)
    (ho : ReflTransGen Outside c c') : Fetched cfg t c' := by
  induction ho with
  | refl => exact h
  | tail _ hstep ih =>
    refine ih.imp (fun hd => hd.outside hstep) fun ⟨hu, hp, ht⟩ => ?_
    have hsame := hu.outside hstep
    exact ⟨hsame.up hu, by rw [hsame.eq]; exact hp, ht.imp_right hsame.ready⟩

lemma stable_outside {c c' : Conn} (h : Stable cfg c) (ho : ReflTransGen Outside c c') :
    Stable cfg c' := by
  induction ho with
  | refl => exact h
  | tail _ hstep ih => exact ih.outside hstep

lemma upOrDown_outside {c c' : Conn} (h : Up c ∨ Down c) (ho : ReflTransGen Outside c c') :
    Up c' ∨ Down c' := by
  induction ho with
  | refl => exact h
  | tail _ hstep ih => exact ih.imp (fun hu => (hu.outside hstep).up hu) fun hd => hd.outside hstep

lemma waiting_outside {c c' : Conn} (h : Waiting c) (ho : ReflTransGen Outside c c') :
    Waiting c' := by
  induction ho with
  | refl => exact h
  | tail _ hstep ih =>
    cases hstep with
    | push t => exact ih.imp_left (List.mem_append_left _)
    | stopAccepting => exact Or.inr rfl
    | _ => exact ih

lemma meanwhile_outside {c c' : Conn} (ho : ReflTransGen Outside c c') :
    ReflTransGen (Meanwhile cfg) c c' :=
  ReflTransGen.mono (fun _ _ h => Or.inl h) _ _ ho

/-- Other threads leave what is known as it is. -/
lemma Holds.outside {ph : Phase} (h : M.Holds cfg ph) (ho : ReflTransGen Outside M.conn M'.conn)
    (hprogress : M'.progress = M.progress)
    (hposting : ∀ j rest, M.progress = .posting j rest → M.Posting j → M'.Posting j) :
    M'.Holds cfg ph := by
  cases ph with
  | away => trivial
  | fetched t => exact ⟨hprogress.trans h.1, fetched_outside h.2 ho⟩
  | running =>
    simp only [Holds, TaskKept, hprogress] at h ⊢
    split at h
    · exact h
    · exact h.meanwhile (meanwhile_outside ho)
    · next j rest hp =>
      obtain ⟨⟨k, hk⟩, hpost⟩ := h
      exact ⟨⟨k, fun s hs => hk s (ho.trans hs)⟩, hposting j rest hp hpost⟩
    · exact stable_outside h ho
  | nested =>
    obtain ⟨rest, hrest, hkeeps⟩ := h
    exact ⟨rest, hprogress.trans hrest, hkeeps.meanwhile (meanwhile_outside ho)⟩
  | closing => exact ⟨hprogress.trans h.1, upOrDown_outside h.2 ho⟩

/-! ### Operations of the executor -/

/-- The machine after an operation of the executor. -/
def operated (cfg : Config) (M : Machine) (i : Nat) (g' : Shared Task) (p p' : Proc Task) :
    Machine where
  exec := M.exec.put i (g', p')
  conn := (acted cfg g' p p' M.loc).conn
  rt := (acted cfg g' p p' M.loc).rt
  progress := M.progress

section operations

variable {i : Nat} {g g' : Shared Task} {p p' : Proc Task}

variable (cfg) in
lemma Base.acts (hM : Base M) (hop : Op i M.exec.shared p g' p') :
    Acts cfg M.exec.shared g' p p' M.loc (acted cfg g' p p' M.loc) :=
  acts_of_op hM.accepting hM.ownerClosing hop

variable (cfg) in
lemma Base.operated {l : Executor.Label Task} (hM : Base M) (hp : M.exec.procs[i]? = some p)
    (hop : Op i M.exec.shared p g' p') (hstep : M.exec.step l = some (M.exec.put i (g', p'))) :
    Base (M.operated cfg i g' p p') := by
  have hacts := hM.acts cfg hop
  obtain ⟨es, htrace, hpassive, hreturned⟩ := hacts.trace
  constructor
  · exact hM.settled.step hstep
  · exact hacts.queue hM.queue
  · rfl
  · rfl
  · exact hacts.coherent hM.coherent
  · intro hmem
    refine State.Released.step ?_ hstep
    have hmem' : Event.ownerReturned ∈ M.conn.trace ++ es := htrace ▸ hmem
    obtain hmem' | hmem' := List.mem_append.mp hmem'
    · exact hM.released hmem'
    · obtain hsettled | ⟨n, rfl⟩ := hreturned hmem'
      · exact hM.settled.released (List.mem_of_getElem? hp) hsettled
      · exact hM.settled.released_inside hp
  · show Silence (acted cfg g' p p' M.loc).conn.trace
    rw [htrace]
    exact hM.silence.passive hpassive

/-- There is at most one process that is not away. -/
lemma Base.away (hM : Base M) (hp : M.exec.procs[i]? = some p) (howns : phase p ≠ .away) {j : Nat}
    {q : Proc Task} (hq : M.exec.procs[j]? = some q) (hne : j ≠ i) : phase q = .away := by
  by_contra hphase
  exact hne (hM.settled.index_eq hq hp (owns_of_phase hphase) (owns_of_phase howns))

/-- When the process is away before an operation and all are afterwards, all were before. -/
lemma away_of_operated (hp : M.exec.procs[i]? = some p) (hphase : phase p = .away)
    (haway : ∀ j q, j ≠ i → (M.operated cfg i g' p p').exec.procs[j]? = some q → phase q = .away) :
    ∀ q ∈ M.exec.procs, phase q = .away := by
  intro q hq
  obtain ⟨j, hj⟩ := List.mem_iff_getElem?.mp hq
  by_cases hji : j = i
  · subst hji
    obtain rfl : p = q := by simpa [hp] using hj
    exact hphase
  · refine haway j q hji ?_
    show (M.exec.put i (g', p')).procs[j]? = some q
    rw [State.getElem?_put hp, if_neg (Ne.symm hji)]
    exact hj

/-- What is known of an owner that waits for the end of the connection outlasts the return of
`CloseFromOwner` on another thread, which has waited for every other owner. -/
lemma Inv.holds_returned (hM : M.Inv cfg) {q r : Proc Task} (hr : r ∈ M.exec.procs)
    (hsettled : r.settled = true) {j : Nat} (hq : M.exec.procs[j]? = some q)
    (hconn : M'.conn = M.conn.note .ownerReturned) (hprogress : M'.progress = M.progress) :
    M'.Holds cfg (phase q) := by
  have hserves : q.serves = 0 := by
    have hnone := hM.settled.served r hr hsettled
    exact Pool.total_eq_zero.mp hnone q (List.mem_of_getElem? hq)
  obtain hphase | hphase := phase_of_serves hserves
  · rw [hphase]
    trivial
  · have hholds := hM.phases j q hq
    rw [hphase] at hholds ⊢
    refine ⟨hprogress.trans hholds.1, ?_⟩
    rw [hconn]
    exact hholds.2.imp (fun hu => hu.note _) fun hd => hd.note _

/-- What a step of the machine may do besides: no task is started, the task that runs is left only
into `CloseFromOwner`, and the `Post` of its continuation goes on. -/
structure Admitted (cfg : Config) (M : Machine) (i : Nat) (g' : Shared Task) (p p' : Proc Task) :
    Prop where
  fetched : ∀ t, phase p ≠ .fetched t
  running : phase p = .running → M.progress.inCallback = true ∧ phase p' = .nested
  posting : ∀ j rest, M.progress = .posting j rest → M.Posting j →
    (Waiting M.conn → Waiting (M.operated cfg i g' p p').conn) →
      (M.operated cfg i g' p p').Posting j

lemma Admitted.holds_outside (hadm : M.Admitted cfg i g' p p') {ph : Phase} (hph : M.Holds cfg ph)
    (ho : ReflTransGen Outside M.conn (M.operated cfg i g' p p').conn) :
    (M.operated cfg i g' p p').Holds cfg ph :=
  hph.outside ho rfl fun j rest hprog hpost =>
    hadm.posting j rest hprog hpost fun hw => waiting_outside hw ho

lemma getElem?_operated (hp : M.exec.procs[i]? = some p) (j : Nat) :
    (M.operated cfg i g' p p').exec.procs[j]? = if i = j then some p' else M.exec.procs[j]? :=
  State.getElem?_put hp j

section

variable (hM : M.Inv cfg) (hp : M.exec.procs[i]? = some p) (hop : Op i M.exec.shared p g' p')
  (hadm : M.Admitted cfg i g' p p') (hbase : Base (M.operated cfg i g' p p'))

include hM hp hop hadm hbase

/-- The other processes. -/
lemma Inv.holds_other {j : Nat} {q : Proc Task} (hq : M.exec.procs[j]? = some q) (hne : j ≠ i) :
    (M.operated cfg i g' p p').Holds cfg (phase q) := by
  have hq' : (M.operated cfg i g' p p').exec.procs[j]? = some q := by
    rw [getElem?_operated hp, if_neg (Ne.symm hne)]
    exact hq
  have hp' : (M.operated cfg i g' p p').exec.procs[i]? = some p' := by
    rw [getElem?_operated hp, if_pos rfl]
  by_cases hphase : phase q = .away
  · rw [hphase]
    trivial
  have haway := hM.toBase.away hq hphase hp (Ne.symm hne)
  have haway' := hbase.away hq' hphase hp' (Ne.symm hne)
  obtain ho | ⟨hsettled, hconn⟩ := (hM.acts cfg hop).outside haway haway'
  · exact hadm.holds_outside (hM.phases j q hq) ho
  · exact hM.holds_returned (List.mem_of_getElem? hp) hsettled hq hconn rfl

/-- The process that takes the step. -/
lemma Inv.holds_self : (M.operated cfg i g' p p').Holds cfg (phase p') := by
  have hp' : (M.operated cfg i g' p p').exec.procs[i]? = some p' := by
    rw [getElem?_operated hp, if_pos rfl]
  have hidle (h : phase p = .away) (h' : phase p' ≠ .away) :
      M.progress = .idle ∧ Stable cfg M.conn :=
    hM.away (away_of_operated hp h fun j q hne hq => hbase.away hp' h' hq hne)
  have hholds := hM.phases i p hp
  have hacts := hM.acts cfg hop
  have hconn : (M.operated cfg i g' p p').conn = (acted cfg g' p p' M.loc).conn := rfl
  generalize acted cfg g' p p' M.loc = s' at hacts hconn
  cases hacts with
  | pass _ hphase =>
    rw [hphase]
    exact hadm.holds_outside hholds (hconn ▸ .refl)
  | push _ hp'post _ =>
    subst hp'post
    trivial
  | ownerClosing _ hphase _ =>
    rw [hphase]
    exact hadm.holds_outside hholds (hconn ▸ .single .ownerClosing)
  | stopAccepting _ hphase _ =>
    rw [hphase]
    exact hadm.holds_outside hholds (hconn ▸ .single .stopAccepting)
  | fetch ht _ hphase hphase' =>
    obtain ⟨hprogress, hstable⟩ := hidle hphase (by simp [hphase'])
    rw [hphase']
    refine ⟨hprogress, ?_⟩
    rw [hconn]
    exact fetched_of_stable hstable (hM.queue.trans ht)
  | discard ht _ hphase hphase' =>
    rw [hphase]
    obtain ⟨hnested, hpast⟩ | hclosing := hphase'
    · rw [hnested] at hholds ⊢
      obtain ⟨rest, hrest, hkeeps⟩ := hholds
      have hsealed := hM.settled.guarded.pastWait p (List.mem_of_getElem? hp) hpast
      refine ⟨rest, hrest, hkeeps.meanwhile ?_⟩
      have hq : M.conn.queue = _ := hM.queue.trans ht
      rw [hconn]
      show ReflTransGen _ _ { M.conn with queue := M.conn.queue.tail }
      rw [hq]
      exact .single (Or.inr (.discard hq (hM.accepting.trans hsealed.1)))
    · rw [hclosing] at hholds ⊢
      refine ⟨hholds.1, ?_⟩
      rw [hconn]
      exact hholds.2.imp (fun hu => ⟨hu.state, hu.connected, hu.deferred, hu.parsed_le⟩)
        fun hd => ⟨hd.state, hd.connected, hd.deferred, hd.content, hd.parsed⟩
  | begins _ hphase => exact absurd hphase (hadm.fetched _)
  | ends _ hphase hphase' => simp [(hadm.running hphase).2] at hphase'
  | enters _ hphase hphase' =>
    obtain ⟨hcallback, -⟩ := hadm.running hphase
    rw [hphase] at hholds
    rw [hphase']
    cases hprogress : M.progress with
    | callback rest =>
      simp only [Holds, TaskKept, hprogress] at hholds
      refine ⟨rest, hprogress, ?_⟩
      rw [hconn]
      exact hholds
    | _ => simp [hprogress, Progress.inCallback] at hcallback
  | closes _ hphase hphase' =>
    obtain ⟨hprogress, hstable⟩ := hidle hphase (by simp [hphase'])
    rw [hphase']
    refine ⟨hprogress, ?_⟩
    rw [hconn]
    exact hstable.symm.imp_left And.left
  | inside _ hstart hphase' =>
    rw [hstart] at hholds
    obtain ⟨rest, hrest, hkeeps⟩ := hholds
    rw [hphase']
    show TaskKept cfg _
    have hrest' : (M.operated cfg i g' p p').progress = .callback rest := hrest
    simp only [TaskKept, hrest', hconn]
    have hclose : ReflTransGen (Meanwhile cfg) M.conn (closeRelease cfg M.loc).conn :=
      .single (Or.inr (.close M.rt))
    exact hkeeps.meanwhile (hclose.tail (Or.inr (.returned (connected_closeRelease hM.coherent))))
  | release _ _ hphase' =>
    rw [hphase']
    trivial
  | returned _ _ hphase' =>
    rw [hphase']
    trivial

omit hbase in
/-- Between tasks. -/
lemma Inv.away_operated (haway : ∀ q ∈ (M.operated cfg i g' p p').exec.procs, phase q = .away) :
    M.progress = .idle ∧ Stable cfg (M.operated cfg i g' p p').conn := by
  have hp' : (M.operated cfg i g' p p').exec.procs[i]? = some p' := by
    rw [getElem?_operated hp, if_pos rfl]
  have hphase' := haway p' (List.mem_of_getElem? hp')
  have hacts := hM.acts cfg hop
  by_cases hphase : phase p = .away
  · obtain ⟨hprogress, hstable⟩ := hM.away
      (away_of_operated hp hphase fun j q _ hq => haway q (List.mem_of_getElem? hq))
    refine ⟨hprogress, ?_⟩
    obtain ho | ⟨-, hconn⟩ := hacts.outside hphase hphase'
    · exact stable_outside hstable ho
    · show Stable cfg (acted cfg g' p p' M.loc).conn
      rw [hconn]
      exact hstable.note _
  · have hholds := hM.phases i p hp
    obtain ⟨hclosing, hconn⟩ := hacts.released hphase hphase' hadm.fetched
      fun h => by simp [(hadm.running h).2] at hphase'
    rw [hclosing] at hholds
    refine ⟨hholds.1, Or.inl ?_⟩
    show Down (acted cfg g' p p' M.loc).conn
    rw [hconn]
    exact down_closeRelease (hholds.2.imp_left Up.active)

lemma Inv.operated : (M.operated cfg i g' p p').Inv cfg where
  toBase := hbase
  away := hM.away_operated hp hop hadm
  phases := by
    intro j q hq
    rw [getElem?_operated hp] at hq
    split_ifs at hq with hij
    · obtain rfl := by simpa using hq
      exact hM.holds_self hp hop hadm hbase
    · exact hM.holds_other hp hop hadm hbase hq (Ne.symm hij)

end

end operations

end Machine

end Connx
