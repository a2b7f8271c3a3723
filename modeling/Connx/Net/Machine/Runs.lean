import Connx.Lib.Run
import Connx.Net.Machine.Invariant

/-!
# The invariant along runs of the machine

Each kind of step keeps the invariant: operations of the executor, the start, the stretches and the
end of a task, and what other threads do to the connection.
-/

namespace Connx.Machine

open Executor Relation Resum

variable {cfg : Config} {M M' : Machine} {i : Nat} {g g' : Shared Task} {p p' : Proc Task}

/-! ### Operations of processes -/

/-- A `Post` that has memory pushes its task, unless no task is accepted. -/
lemma pastPush_of_postAct {c : Choice} {t : Task} {pc pc' : PostPc} (hc : c ≠ .noMemory)
    (h : postAct i g c t pc = some (g', pc')) (hpush : pc'.pastPush = true) :
    pc.pastPush = true ∨ t ∈ tasks g' ∨ g'.accepting = false := by
  cases pc with
  | enter =>
    obtain ⟨-, rfl⟩ := by simpa [postAct] using h
    simp [PostPc.pastPush] at hpush
  | check =>
    obtain ⟨rfl, rfl⟩ := by simpa [postAct] using h
    split_ifs at hpush with hgo
    · simp [PostPc.pastPush] at hpush
    · exact .inr (.inr (by simpa [hc] using hgo))
  | count =>
    obtain ⟨-, rfl⟩ := by simpa [postAct] using h
    simp [PostPc.pastPush] at hpush
  | exchange =>
    obtain ⟨rfl, -⟩ := by simpa [postAct] using h
    exact .inr (.inl (by simp [tasks]))
  | _ => exact .inl rfl

lemma after_op {l : Executor.Label Task} (hl : l.process = some i)
    (hp : M.exec.procs[i]? = some p) :
    M.after cfg l (M.exec.put i (g', p')) = effect cfg p p' M.loc := by
  have hp' : (M.exec.put i (g', p')).procs[i]? = some p' := by
    rw [State.getElem?_put hp, if_pos rfl]
  cases l with
  | step j c =>
    obtain rfl : j = i := by simpa [Label.process] using hl
    simp [after, Label.process, hp, hp']
  | flush j =>
    obtain rfl : j = i := by simpa [Label.process] using hl
    simp [after, Label.process, hp, hp']
  | _ => simp [Label.process] at hl

lemma stepExec_eq_some {l : Executor.Label Task} (h : M.stepExec cfg l = some M') :
    ∃ S, M.free l = true ∧ M.exec.step l = some S ∧ M' = { M with
      exec := S
      conn := sync S.shared (M.after cfg l S).conn
      rt := (M.after cfg l S).rt } := by
  unfold stepExec at h
  split_ifs at h with hfree
  obtain ⟨S, hS, rfl⟩ := Option.map_eq_some_iff.mp h
  exact ⟨S, hfree, hS, rfl⟩

lemma stepExec_step {c : Choice} (h : M.stepExec cfg (.step i c) = some M') :
    M.free (.step i c) = true ∧ ∃ p g' p', M.exec.procs[i]? = some p ∧
      act i M.exec.shared c p = some (g', p') ∧ M' = M.operated cfg i g' p p' := by
  obtain ⟨S, hfree, hS, rfl⟩ := stepExec_eq_some h
  obtain ⟨p, hp, hput⟩ := Option.bind_eq_some_iff.mp hS
  obtain ⟨⟨g', p'⟩, hact, rfl⟩ := Option.map_eq_some_iff.mp hput
  refine ⟨hfree, p, g', p', hp, hact, ?_⟩
  rw [after_op rfl hp]
  rfl

lemma stepExec_flush (h : M.stepExec cfg (.flush i) = some M') :
    ∃ p g' p', M.exec.procs[i]? = some p ∧ flush M.exec.shared p = some (g', p') ∧
      M' = M.operated cfg i g' p p' := by
  obtain ⟨S, -, hS, rfl⟩ := stepExec_eq_some h
  obtain ⟨p, hp, hput⟩ := Option.bind_eq_some_iff.mp hS
  obtain ⟨⟨g', p'⟩, hflush, rfl⟩ := Option.map_eq_some_iff.mp hput
  refine ⟨p, g', p', hp, hflush, ?_⟩
  rw [after_op rfl hp]
  rfl

/-- The `Post` of a continuation goes on. -/
lemma Posting.operated {j : Nat} (h : M.Posting j) (hp : M.exec.procs[i]? = some p)
    (hop : Op i M.exec.shared p g' p')
    (hwait : Waiting M.conn → Waiting (M.operated cfg i g' p p').conn)
    (hself : i = j → p.thread.isSome → p'.pastPush = true →
      p.pastPush = true ∨ Waiting (M.operated cfg i g' p p').conn) :
    (M.operated cfg i g' p p').Posting j := by
  obtain ⟨thread, pc, hj, hpc⟩ := h
  by_cases hij : i = j
  · subst hij
    obtain rfl : p = .post thread .parseContinuation pc := by simpa [hp] using hj
    cases hop with
    | @post _ _ _ pc' _ hpost =>
      refine ⟨thread, pc', by rw [getElem?_operated hp, if_pos rfl], fun hpush => ?_⟩
      obtain hbefore | hwaiting := hself rfl rfl hpush
      · exact hwait (hpc hbefore)
      · exact hwaiting
  · refine ⟨thread, pc, ?_, fun hpush => hwait (hpc hpush)⟩
    rw [getElem?_operated hp, if_neg hij]
    exact hj

/-- The guard of `stepExec` on an operation. -/
lemma admitted_step {c : Choice} (hfree : M.free (.step i c) = true)
    (hp : M.exec.procs[i]? = some p) (hact : act i M.exec.shared c p = some (g', p'))
    (hbase : Base (M.operated cfg i g' p p')) : M.Admitted cfg i g' p p' where
  fetched t hphase := by
    cases p with
    | drain n pc => cases pc <;> simp [phase, free, hp] at hphase hfree
    | _ => simp [phase] at hphase
  running hphase := by
    cases p with
    | drain n pc =>
      cases pc <;> simp [phase] at hphase
      obtain ⟨rfl, hcallback⟩ := by simpa [free, hp] using hfree
      obtain ⟨rfl, rfl⟩ := by simpa [act, drainAct] using hact
      exact ⟨hcallback, rfl⟩
    | _ => simp [phase] at hphase
  posting j rest hprogress hposting hwait := by
    refine hposting.operated hp (act_op hact) hwait ?_
    rintro rfl hthread hpush
    cases p with
    | post thread t pc =>
      obtain ⟨_, pc₀, hi, -⟩ := hposting
      obtain ⟨rfl, rfl, rfl⟩ := by simpa [hp] using hi
      have hc : c ≠ .noMemory := by
        rintro rfl
        simp [free, hp, hprogress, Progress.isPosting] at hfree
      obtain ⟨⟨g₁, pc'⟩, hpost, heq⟩ := Option.map_eq_some_iff.mp hact
      obtain ⟨rfl, rfl⟩ := by simpa using heq
      refine (pastPush_of_postAct hc hpost hpush).imp_right fun hwaiting => ?_
      unfold Waiting
      rw [hbase.queue, hbase.accepting]
      exact hwaiting
    | _ => simp [Proc.thread] at hthread

lemma admitted_flush (hp : M.exec.procs[i]? = some p)
    (hflush : flush M.exec.shared p = some (g', p')) : M.Admitted cfg i g' p p' where
  fetched t hphase := by
    cases p with
    | drain n pc => cases pc <;> simp [phase, flush, DrainPc.flushed] at hphase hflush
    | _ => simp [phase] at hphase
  running hphase := by
    cases p with
    | drain n pc => cases pc <;> simp [phase, flush, DrainPc.flushed] at hphase hflush
    | _ => simp [phase] at hphase
  posting j rest _ hposting hwait := by
    refine hposting.operated hp (flush_op hflush) hwait fun _ hthread _ => ?_
    cases p with
    | post thread t pc => simp [flush] at hflush
    | _ => simp [Proc.thread] at hthread

/-! ### New processes -/

/-- A machine in which no process holds a task. -/
lemma Inv.of_away (hbase : Base M) (haway : ∀ p ∈ M.exec.procs, phase p = .away)
    (hprogress : M.progress = .idle) (hstable : Stable cfg M.conn) : M.Inv cfg where
  toBase := hbase
  away _ := ⟨hprogress, hstable⟩
  phases j p hp := by
    rw [haway p (List.mem_of_getElem? hp)]
    trivial

/-- A machine in which the process `i` runs a task. -/
lemma Inv.of_running (hbase : Base M) (hp : M.exec.procs[i]? = some p)
    (hphase : phase p = .running) (hkept : M.TaskKept cfg) : M.Inv cfg where
  toBase := hbase
  away haway := by
    have hnone := haway p (List.mem_of_getElem? hp)
    simp [hphase] at hnone
  phases j q hq := by
    by_cases hij : j = i
    · subst hij
      obtain rfl : p = q := by simpa [hp] using hq
      rw [hphase]
      exact hkept
    · rw [hbase.away hp (by simp [hphase]) hq hij]
      trivial

lemma Base.spawn {l : Executor.Label Task} {q : Proc Task} (hM : Base M)
    (hstep : M.exec.step l = some (M.exec.spawn g' q)) (hg : SameTasks M.exec.shared g') :
    Base { M with exec := M.exec.spawn g' q } where
  settled := hM.settled.step hstep
  queue := hM.queue.trans hg.tasks.symm
  accepting := hM.accepting.trans hg.accepting.symm
  ownerClosing := hM.ownerClosing.trans hg.ownerClosing.symm
  coherent := hM.coherent
  released hmem := (hM.released hmem).step hstep
  silence := hM.silence

lemma Inv.spawn {l : Executor.Label Task} {q : Proc Task} (hM : M.Inv cfg)
    (hstep : M.exec.step l = some (M.exec.spawn g' q)) (hg : SameTasks M.exec.shared g')
    (hphase : phase q = .away) : Inv cfg { M with exec := M.exec.spawn g' q } where
  toBase := hM.toBase.spawn hstep hg
  away haway := hM.away fun p hp => haway p (List.mem_append_left _ hp)
  phases j r hr := by
    obtain hlt | hge := lt_or_ge j M.exec.procs.length
    · rw [State.getElem?_spawn hlt] at hr
      refine (hM.phases j r hr).outside .refl rfl ?_
      rintro a _ - ⟨thread, pc, ha, hpc⟩
      have hlt' : a < M.exec.procs.length := (List.getElem?_eq_some_iff.mp ha).1
      exact ⟨thread, pc, (State.getElem?_spawn hlt').trans ha, hpc⟩
    · have hmem : r ∈ [q] := by
        rw [State.spawn, List.getElem?_append_right hge] at hr
        exact List.mem_of_getElem? hr
      rw [List.mem_singleton.mp hmem, hphase]
      trivial

/-- A `Drain` begins: no other process holds a task. -/
lemma Inv.start (hM : M.Inv cfg) {S : Executor.State Task} (hstep : M.exec.step .start = some S) :
    Inv cfg { M with exec := S, conn := { M.conn with drainYieldRequested := false } } := by
  cases State.steps_of_step hstep with
  | start hscheduled =>
    have hbase := hM.toBase.spawn hstep ⟨rfl, rfl, rfl⟩
    have haway : ∀ q ∈ M.exec.procs ++ [.drain 0 .top], phase q = .away := by
      intro q hq
      by_contra hphase
      obtain ⟨j, hj⟩ := List.mem_iff_getElem?.mp hq
      have hlast : (M.exec.procs ++ [.drain 0 .top])[M.exec.procs.length]? =
          some (.drain 0 .top) := by simp
      obtain rfl := hbase.settled.index_eq hj hlast (owns_of_phase hphase)
        (by simp [Proc.owns, DrainPc.owns])
      rw [hlast] at hj
      obtain rfl := by simpa using hj
      exact hphase rfl
    obtain ⟨hprogress, hstable⟩ := hM.away fun q hq => haway q (List.mem_append_left _ hq)
    refine .of_away ⟨hbase.settled, hbase.queue, hbase.accepting, hbase.ownerClosing, ?_,
      hbase.released, hbase.silence⟩ haway hprogress ?_
    · exact ⟨hM.coherent.connected, hM.coherent.closing⟩
    · exact hstable.resetYield
  | op hl => simp [Label.process] at hl

/-- The flags agree already. -/
lemma Inv.sync (hM : M.Inv cfg) : Inv cfg { M with conn := sync M.exec.shared M.conn } := by
  rw [sync_eq hM.accepting hM.ownerClosing]
  exact hM

lemma Inv.stepExec {l : Executor.Label Task} (hM : M.Inv cfg)
    (h : M.stepExec cfg l = some M') : M'.Inv cfg := by
  cases l with
  | step i c =>
    obtain ⟨hfree, p, g', p', hp, hact, rfl⟩ := stepExec_step h
    have hop := act_op hact
    have hstep : M.exec.step (.step i c) = some (M.exec.put i (g', p')) := by
      simp [State.step, hp, hact]
    have hbase := hM.toBase.operated cfg hp hop hstep
    exact hM.operated hp hop (admitted_step hfree hp hact hbase) hbase
  | flush i =>
    obtain ⟨p, g', p', hp, hflush, rfl⟩ := stepExec_flush h
    have hop : Op i M.exec.shared p g' p' := flush_op hflush
    have hstep : M.exec.step (.flush i) = some (M.exec.put i (g', p')) := by
      simp [State.step, hp, hflush]
    have hbase := hM.toBase.operated cfg hp hop hstep
    exact hM.operated hp hop (admitted_flush hp hflush) hbase
  | post thread t =>
    obtain ⟨S, -, hS, rfl⟩ := stepExec_eq_some h
    cases State.steps_of_step hS with
    | post => exact (hM.spawn hS ⟨rfl, rfl, rfl⟩ rfl).sync
    | op hl => simp [Label.process] at hl
  | close =>
    obtain ⟨S, -, hS, rfl⟩ := stepExec_eq_some h
    cases State.steps_of_step hS with
    | close => exact (hM.spawn hS ⟨rfl, rfl, rfl⟩ rfl).sync
    | op hl => simp [Label.process] at hl
  | start =>
    obtain ⟨S, -, hS, rfl⟩ := stepExec_eq_some h
    exact (hM.start hS).sync

/-! ### Tasks -/

/-- What a task does to its connection. -/
lemma Base.changes {k : Kernel} {s : Local} {progress : Progress} (hM : Base M)
    (h : Changes cfg k {} M.loc s) : Base ⟨M.exec, s.conn, s.rt, progress⟩ where
  settled := hM.settled
  queue := h.sameQueue.queue.trans hM.queue
  accepting := h.sameQueue.acceptingTasks.trans hM.accepting
  ownerClosing := h.sameQueue.ownerClosing.trans hM.ownerClosing
  coherent := Moves.coherent h.moves hM.coherent
  released hmem := hM.released ((h.sameQueue.events.mem_iff rfl).mp hmem)
  silence := h.silence hM.silence

/-- A stretch of a task. -/
lemma Base.land {k : Kernel} {thread : Nat} {r : Resum Local Request Unit} (hM : Base M)
    (hsat : Sat Calls (Changes cfg k {}) (Rely cfg) (fun _ s' => Stable cfg s'.conn) M.loc r)
    (hp : M.exec.procs[i]? = some p) (hphase : phase p = .running)
    (h : M.land thread r = some M') : M'.Inv cfg := by
  cases r with
  | ret a s =>
    obtain rfl := by simpa [Machine.land] using h
    exact .of_running (hM.changes hsat.1) hp hphase hsat.2
  | call e s rest =>
    obtain ⟨hchanges, -, hrest⟩ := hsat
    cases e with
    | callback cb =>
      obtain rfl := by simpa [Machine.land] using h
      exact .of_running (hM.changes hchanges) hp hphase ⟨k, hrest⟩
    | postContinuation =>
      obtain ⟨S, hS, rfl⟩ := Option.map_eq_some_iff.mp h
      cases State.steps_of_step hS with
      | post =>
        have hlt : i < M.exec.procs.length := (List.getElem?_eq_some_iff.mp hp).1
        refine .of_running ((hM.changes hchanges).spawn hS ⟨rfl, rfl, rfl⟩)
          ((State.getElem?_spawn hlt).trans hp) hphase ⟨⟨k, fun s' hs hw => hrest s' ⟨hs, hw⟩⟩, ?_⟩
        exact ⟨thread, .enter, by simp [State.spawn], by simp [PostPc.pastPush]⟩
      | op hl => simp [Label.process] at hl

/-- A task that was popped is run only while the connection is not released. -/
lemma Base.not_returned (hM : Base M) {n : Nat} {node : Node Task}
    (hp : M.exec.procs[i]? = some (.drain n (.count node))) : .ownerReturned ∉ M.conn.trace := by
  intro hmem
  have hnone := (hM.released hmem).2
  simpa [Proc.fetches, DrainPc.fetches] using
    Pool.total_eq_zero.mp hnone _ (List.mem_of_getElem? hp)

/-- A task starts. -/
lemma Base.begin {n : Nat} {node : Node Task} {S : Executor.State Task} (hM : Base M)
    (hp : M.exec.procs[i]? = some (.drain n (.count node)))
    (hstep : M.exec.step (.step i .go) = some S) :
    S.procs[i]? = some (.drain n .running) ∧
      Base { M with exec := S, conn := M.conn.note (.ran node.task) } := by
  obtain rfl := by simpa [State.step, hp, act, drainAct] using hstep
  refine ⟨by rw [State.getElem?_put hp, if_pos rfl], ?_⟩
  constructor
  · exact hM.settled.step hstep
  · exact hM.queue
  · exact hM.accepting
  · exact hM.ownerClosing
  · exact ⟨hM.coherent.connected, hM.coherent.closing⟩
  · intro hmem
    refine (hM.released ?_).step hstep
    simpa [Conn.note] using hmem
  · exact hM.silence.active _ (hM.not_returned hp)

lemma startable_note {t : Task} {c : Conn} (h : Fetched cfg t c) (hr : .ownerReturned ∉ c.trace) :
    Startable cfg t (c.note (.ran t)) := by
  refine h.imp (fun hd => hd.note _) fun ⟨hu, hp, hready⟩ => ⟨⟨hu.note _, ?_⟩, hp, hready⟩
  simpa [Conn.note] using hr

lemma Inv.stepStart {k : Kernel} {thread : Nat} (hM : M.Inv cfg)
    (h : M.stepStart cfg i k thread = some M') : M'.Inv cfg := by
  unfold Machine.stepStart at h
  split at h
  · next n node hp =>
    split_ifs at h with hfits
    obtain ⟨S, hS, hland⟩ := Option.bind_eq_some_iff.mp h
    obtain ⟨hrunning, hbase⟩ := hM.toBase.begin hp hS
    have hnot := hM.toBase.not_returned hp
    have hholds : M.Holds cfg (.fetched node.task) := hM.phases i _ hp
    have hbegun : Begun node.task (M.conn.note (.ran node.task)) :=
      ⟨by simp [Conn.note], by simpa [Conn.note] using hnot⟩
    have hcovers : Covers cfg k {} node.task ⟨M.conn.note (.ran node.task), M.rt⟩ :=
      ⟨fun _ _ _ _ => trivial, fun _ _ => trivial, fun _ _ => trivial⟩
    have hsat := taskBody_spec (k := k) (s := ⟨_, M.rt⟩) hbegun (startable_note hholds.2 hnot)
      hcovers
    exact hbase.land hsat hrunning rfl hland
  · simp at h

lemma phase_of_runs (h : M.runs i = true) : ∃ n, M.exec.procs[i]? = some (.drain n .running) := by
  unfold runs at h
  split at h
  · next n hp => exact ⟨n, hp⟩
  · simp at h

/-- The task goes on after a callback. -/
lemma Inv.resume {thread : Nat} {rest : Suspended} (hM : M.Inv cfg)
    (hprogress : M.progress = .callback rest) (hruns : M.runs i = true)
    (h : M.land thread (rest M.loc) = some M') : M'.Inv cfg := by
  obtain ⟨n, hp⟩ := phase_of_runs hruns
  have hholds : M.TaskKept cfg := hM.phases i _ hp
  simp only [TaskKept, hprogress] at hholds
  obtain ⟨k, hk⟩ := hholds
  exact hM.toBase.land (hk M.loc .refl) hp rfl h

/-- The task goes on after the `Post` of its continuation. -/
lemma Inv.posted {thread j : Nat} {rest : Suspended} {author : Nat} {t : Task} (hM : M.Inv cfg)
    (hprogress : M.progress = .posting j rest) (hj : M.exec.procs[j]? = some (.post author t .done))
    (hruns : M.runs i = true) (h : M.land thread (rest M.loc) = some M') : M'.Inv cfg := by
  obtain ⟨n, hp⟩ := phase_of_runs hruns
  have hholds : M.TaskKept cfg := hM.phases i _ hp
  simp only [TaskKept, hprogress] at hholds
  obtain ⟨⟨k, hk⟩, _, pc, hpost, hwait⟩ := hholds
  obtain ⟨-, -, rfl⟩ : author = _ ∧ t = _ ∧ .done = pc := by simpa [hj] using hpost
  exact hM.toBase.land (hk M.loc .refl (hwait rfl)) hp rfl h

/-- A task ends. -/
lemma Inv.finish {yield : Bool} {S : Executor.State Task} (hM : M.Inv cfg)
    (hprogress : M.progress = .over) (hruns : M.runs i = true)
    (hstep : M.exec.step (.step i (.finish yield)) = some S) :
    Inv cfg { M with
      exec := S
      conn := { M.conn with drainYieldRequested := false }
      progress := .idle } := by
  obtain ⟨n, hp⟩ := phase_of_runs hruns
  have hstable : M.TaskKept cfg := hM.phases i _ hp
  simp only [TaskKept, hprogress] at hstable
  obtain rfl := by simpa [State.step, hp, act, drainAct] using hstep
  refine .of_away ?_ ?_ rfl hstable.resetYield
  · exact ⟨hM.settled.step hstep, hM.queue, hM.accepting, hM.ownerClosing,
      ⟨hM.coherent.connected, hM.coherent.closing⟩, fun hmem => (hM.released hmem).step hstep,
      hM.silence⟩
  · intro q hq
    obtain ⟨j, hj⟩ := List.mem_iff_getElem?.mp hq
    rw [State.getElem?_put hp] at hj
    split_ifs at hj with hij
    · obtain rfl := by simpa using hj
      unfold DrainPc.afterTask
      split_ifs <;> rfl
    · exact hM.toBase.away hp (by simp [phase]) hj (Ne.symm hij)

/-! ### Other threads -/

/-- Another thread changes the connection and reports it. -/
lemma Inv.outside {c : Conn} {e : Event} (hM : M.Inv cfg) (ho : Outside M.conn c)
    (hq : c.queue = M.conn.queue) (ha : c.acceptingTasks = M.conn.acceptingTasks)
    (hown : c.ownerClosing = M.conn.ownerClosing) (hcoherent : Coherent c)
    (htrace : c.trace = M.conn.trace ++ [e]) (he : e.active = false) (hr : e ≠ .ownerReturned) :
    Inv cfg { M with conn := c } where
  settled := hM.settled
  queue := hq.trans hM.queue
  accepting := ha.trans hM.accepting
  ownerClosing := hown.trans hM.ownerClosing
  coherent := hcoherent
  released hmem := by
    refine hM.released ?_
    simpa [htrace, hr.symm] using hmem
  silence := by
    show Silence c.trace
    rw [htrace]
    exact hM.silence.passive (by simpa using he)
  away haway := (hM.away haway).imp_right fun hstable => hstable.outside ho
  phases j p hp := (hM.phases j p hp).outside (.single ho) rfl fun _ _ _ ⟨thread, pc, hj, hpc⟩ =>
    ⟨thread, pc, hj, fun hpush => waiting_outside (hpc hpush) (.single ho)⟩

/-- Other connections change the runtime. -/
lemma Inv.others (hM : M.Inv cfg) (rt : Runtime) : Inv cfg { M with rt := rt } where
  settled := hM.settled
  queue := hM.queue
  accepting := hM.accepting
  ownerClosing := hM.ownerClosing
  coherent := hM.coherent
  released := hM.released
  silence := hM.silence
  away := hM.away
  phases j p hp := (hM.phases j p hp).outside .refl rfl fun _ _ _ hposting => hposting

theorem Inv.step {l : Label} (hM : M.Inv cfg) (h : M.step cfg l = some M') : M'.Inv cfg := by
  cases l with
  | exec l => exact hM.stepExec h
  | start i k thread => exact hM.stepStart h
  | resume i thread =>
    simp only [Machine.step] at h
    split at h
    · next rest hprogress =>
      split_ifs at h with hruns
      exact hM.resume hprogress hruns h
    · simp at h
  | posted i thread =>
    simp only [Machine.step] at h
    split at h
    · next j rest hprogress =>
      split at h
      · next author t hj =>
        split_ifs at h with hruns
        exact hM.posted hprogress hj hruns h
      · simp at h
    · simp at h
  | finish i =>
    simp only [Machine.step] at h
    split at h
    · next hprogress =>
      split_ifs at h with hruns
      obtain ⟨S, hS, rfl⟩ := Option.map_eq_some_iff.mp h
      exact hM.finish hprogress hruns hS
    · simp at h
  | connectBegin call =>
    obtain rfl := by simpa [Machine.step] using h
    exact hM.outside (.connectBegan call) rfl rfl rfl
      ⟨hM.coherent.connected, hM.coherent.closing⟩ rfl rfl (by simp)
  | connectMove call =>
    simp only [Machine.step] at h
    split_ifs at h with hidle
    · obtain rfl := by simpa using h
      exact hM.outside (.connectMoved call hidle) rfl rfl rfl ⟨by simp, by simp⟩ rfl rfl (by simp)
    · obtain rfl := by simpa using h
      exact hM
  | disconnectReturn call =>
    obtain rfl := by simpa [Machine.step] using h
    exact hM.outside (.disconnectReturned call) rfl rfl rfl
      ⟨hM.coherent.connected, hM.coherent.closing⟩ rfl rfl (by simp)
  | others rt =>
    obtain rfl := by simpa [Machine.step] using h
    exact hM.others rt

lemma inv_init : Inv cfg {} := by
  refine .of_away ⟨State.settled_init, rfl, rfl, rfl, ⟨by simp, by simp⟩, by simp, ?_⟩ (by simp) rfl
    (Or.inl ⟨Or.inl rfl, rfl, rfl, rfl, rfl⟩)
  exact History.always_nil

end Connx.Machine
