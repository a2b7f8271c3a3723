import Connx.Codec.Splitting
import Connx.Net.Refinement

/-!
# Stale events

An event names the registration it was produced for by a slot and a generation. It can wait in the
poll thread, in the timer queue or in the queue of a connection while its registration is closed
and its slot is taken again. It has an effect on a connection only if the connection still has that
id, and the registration is then the current one of the connection, unless the generation of the
slot has gone all the way round in between.
-/

namespace Connx

open Relation

variable {cfg : Config} {F : Facts}

/-! ### Registrations -/

namespace Runtime

open ConnectionTable (slotCount slotCount_snoc)

/-- The registration `reg` gave the connection `i` the id, was its latest one, and has not been
unregistered since. -/
def Current (rt : Runtime) (i reg : Nat) (id : ConnectionId) : Prop :=
  ∃ before after, rt.log = before ++ .registered i id :: after ∧
    (before.filterMap RegEvent.registration).length = reg ∧ ∀ e ∈ after, e.conn ≠ i

/-- How often the slot had been registered after the registration `reg`. -/
def slotCountAt (rt : Runtime) (slot : UInt32) (reg : Nat) : Nat :=
  slotCount slot (rt.registrations.take (reg + 1))

/-- The registration is the current one of the connection, or it has the same id because its slot
was registered a positive multiple of `2 ^ 32 - 1` times between the two. -/
def InForce (rt : Runtime) (i reg : Nat) : Prop :=
  ∃ cur id j, rt.Current i cur id ∧ rt.registrations[reg]? = some (j, id) ∧
    (cur = reg ∨ ∃ q, 0 < q ∧
      (rt.slotCountAt id.slot cur = rt.slotCountAt id.slot reg + q * (2 ^ 32 - 1) ∨
        rt.slotCountAt id.slot reg = rt.slotCountAt id.slot cur + q * (2 ^ 32 - 1)))

lemma Current.registrations {rt : Runtime} {i reg : Nat} {id : ConnectionId}
    (h : rt.Current i reg id) : rt.registrations[reg]? = some (i, id) := by
  obtain ⟨before, after, hlog, rfl, -⟩ := h
  simp [Runtime.registrations, hlog, RegEvent.registration]

/-- The table counts the registrations of each slot in its generation. -/
structure Counted (rt : Runtime) : Prop where
  free : rt.connections.FreeInBounds
  entries : ∀ s, (rt.connections.entry s).generation =
    ConnectionTable.generationAfter (slotCount s rt.registrations)
  ids : ∀ (reg j : Nat) (id : ConnectionId), rt.registrations[reg]? = some (j, id) →
    id.generation = ConnectionTable.generationAfter (rt.slotCountAt id.slot reg)

section counted

variable {rt rt' : Runtime}

lemma slotCountAt_mono {s : UInt32} {reg : Nat} {p : Nat × ConnectionId}
    (hreg : rt.registrations[reg]? = some p) (h : rt.registrations <+: rt'.registrations) :
    rt'.slotCountAt s reg = rt.slotCountAt s reg := by
  obtain ⟨l, hl⟩ := h
  have hlt := (List.getElem?_eq_some_iff.mp hreg).1
  rw [slotCountAt, slotCountAt, ← hl, List.take_append_of_le_length hlt]

/-- Two registrations of a slot are counted differently. -/
lemma slotCountAt_lt {s : UInt32} {reg reg' j : Nat} {id : ConnectionId} (hlt : reg < reg')
    (h : rt.registrations[reg']? = some (j, id)) (hs : id.slot = s) :
    rt.slotCountAt s reg < rt.slotCountAt s reg' := by
  have hbound := (List.getElem?_eq_some_iff.mp h).1
  have htake : rt.registrations.take (reg' + 1) = rt.registrations.take reg' ++ [(j, id)] := by
    rw [List.take_add_one, h]
    rfl
  have hle : slotCount s (rt.registrations.take (reg + 1)) ≤
      slotCount s (rt.registrations.take reg') :=
    (List.take_sublist_take_left (by omega)).countP_le
  rw [slotCountAt, slotCountAt, htake, slotCount_snoc, if_pos hs.symm]
  omega

lemma slotCountAt_pos {reg j : Nat} {id : ConnectionId}
    (h : rt.registrations[reg]? = some (j, id)) : 0 < rt.slotCountAt id.slot reg := by
  have hmem : (j, id) ∈ rt.registrations.take (reg + 1) :=
    List.mem_of_getElem? (by rw [List.getElem?_take_of_lt (Nat.lt_succ_self reg), h])
  exact List.countP_pos_iff.mpr ⟨_, hmem, by simp⟩

/-- Registrations with one id are one registration, or the generation went round. -/
lemma Counted.inForce {i cur reg j : Nat} {id : ConnectionId} (h : rt.Counted)
    (hcur : rt.Current i cur id) (hreg : rt.registrations[reg]? = some (j, id)) :
    rt.InForce i reg := by
  refine ⟨cur, id, j, hcur, hreg, ?_⟩
  have hcur' := hcur.registrations
  have hmod := ConnectionTable.modEq_of_generationAfter_eq (slotCountAt_pos hcur')
    (slotCountAt_pos hreg) ((h.ids _ _ _ hcur').symm.trans (h.ids _ _ _ hreg))
  rcases Nat.lt_trichotomy cur reg with hlt | heq | hlt
  · have hcount := slotCountAt_lt hlt hreg rfl
    obtain ⟨q, hq⟩ := (Nat.modEq_iff_dvd' hcount.le).mp hmod
    refine Or.inr ⟨q, ?_, Or.inr ?_⟩
    · rcases Nat.eq_zero_or_pos q with rfl | hpos
      · omega
      · exact hpos
    · rw [Nat.mul_comm]
      omega
  · exact Or.inl heq
  · have hcount := slotCountAt_lt hlt hcur' rfl
    obtain ⟨q, hq⟩ := (Nat.modEq_iff_dvd' hcount.le).mp hmod.symm
    refine Or.inr ⟨q, ?_, Or.inl ?_⟩
    · rcases Nat.eq_zero_or_pos q with rfl | hpos
      · omega
      · exact hpos
    · rw [Nat.mul_comm]
      omega

end counted

end Runtime

/-! ### Registrations along moves -/

/-- What a move of the connection `i` does to the table and the log, and to the id. -/
inductive Registers (i : Nat) (s s' : Local) : Prop
  | none (hc : s'.rt.connections = s.rt.connections) (hl : s'.rt.log = s.rt.log)
      (hid : s'.conn.id = s.conn.id)
  | register (hc : s'.rt.connections = (s.rt.connections.register i).2)
      (hl : s'.rt.log = s.rt.log ++ [.registered i (s.rt.connections.register i).1])
      (hid : s'.conn.id = (s.rt.connections.register i).1)
  | unregister (hc : s'.rt.connections = s.rt.connections.unregister s.conn.id)
      (hl : s'.rt.log = s.rt.log ++ [.unregistered i s.conn.id])
      (hid : s'.conn.id.valid = false)

lemma registers_closeConn (reason : CloseReason) (desc : ErrorText) (s : Local) :
    Registers cfg.self s (closeConn cfg reason desc s) := by
  by_cases hid : s.conn.id.valid = true
  · refine .unregister ?_ ?_ ?_
    · by_cases hfd : isValidSocketHandle s.conn.fd <;>
        simp [closeConn, closeFd, unregisterConn, Conn.note, hid, hfd, Runtime.closeSocket,
          Runtime.pollerRemove, Runtime.unregister]
    · by_cases hfd : isValidSocketHandle s.conn.fd <;>
        simp [closeConn, closeFd, unregisterConn, Conn.note, hid, hfd, Runtime.closeSocket,
          Runtime.pollerRemove, Runtime.unregister]
    · rw [closeConn_conn]
      simp only [hid, if_true]
      rfl
  · refine .none ?_ ?_ ?_
    · by_cases hfd : isValidSocketHandle s.conn.fd <;>
        simp [closeConn, closeFd, unregisterConn, Conn.note, hid, hfd, Runtime.closeSocket]
    · by_cases hfd : isValidSocketHandle s.conn.fd <;>
        simp [closeConn, closeFd, unregisterConn, Conn.note, hid, hfd, Runtime.closeSocket]
    · simp [closeConn_conn, hid]

lemma Change.registers {k : Kernel} {s s' : Local} (h : Change cfg k F s s') :
    Registers cfg.self s s' := by
  cases h with
  | bookkeeping c' p _ h => exact .none rfl rfl h.id
  | adopt call fd =>
    unfold startConnectTimer
    split_ifs
    · exact .register rfl rfl rfl
    · exact .register rfl rfl rfl
  | establish => exact .none rfl rfl rfl
  | append => exact .none rfl rfl rfl
  | deliver => exact .none rfl rfl rfl
  | commit => exact .none rfl rfl rfl
  | close reason desc =>
    have hclose : Registers cfg.self s (closeConn cfg reason desc s) := registers_closeConn _ _ _
    unfold noteClose
    split_ifs
    · cases hclose with
      | none hc hl hid => exact .none hc hl hid
      | register hc hl hid => exact .register hc hl hid
      | unregister hc hl hid => exact .unregister hc hl hid
    · exact hclose

lemma Move.registers {s s' : Local} (h : Move cfg F s s') : Registers cfg.self s s' := by
  cases h with
  | task h => exact h.registers
  | release =>
    unfold closeRelease
    split_ifs
    · exact .none rfl rfl rfl
    · exact registers_closeConn _ _ _
  | _ => exact .none rfl rfl rfl

namespace Runtime

open ConnectionTable (slotCount slotCount_snoc)

lemma Counted.of_eq {rt rt' : Runtime} (h : rt.Counted) (hc : rt'.connections = rt.connections)
    (hr : rt'.registrations = rt.registrations) : rt'.Counted where
  free := by rw [hc]; exact h.free
  entries s := by rw [hc, hr]; exact h.entries s
  ids reg j id hreg := by
    rw [slotCountAt, hr]
    exact h.ids reg j id (hr ▸ hreg)

lemma Counted.registers {i : Nat} {s s' : Local} (h : s.rt.Counted) (hr : Registers i s s') :
    s'.rt.Counted := by
  cases hr with
  | none hc hl => exact h.of_eq hc (by rw [Runtime.registrations, hl, Runtime.registrations])
  | unregister hc hl =>
    have hregs : s'.rt.registrations = s.rt.registrations := by
      simp [Runtime.registrations, hl, RegEvent.registration]
    refine ⟨?_, fun slot => ?_, fun reg j id hreg => ?_⟩
    · rw [hc]
      exact h.free.unregister _
    · rw [hc, hregs, ConnectionTable.generation_unregister]
      exact h.entries slot
    · rw [slotCountAt, hregs]
      exact h.ids reg j id (hregs ▸ hreg)
  | register hc hl =>
    have hregs : s'.rt.registrations =
        s.rt.registrations ++ [(i, (s.rt.connections.register i).1)] := by
      simp [Runtime.registrations, hl, RegEvent.registration]
    have hentries : ∀ slot, (s'.rt.connections.entry slot).generation =
        ConnectionTable.generationAfter (slotCount slot s'.rt.registrations) := by
      intro slot
      rw [hc, ConnectionTable.generation_register h.free, hregs, slotCount_snoc, h.entries]
      split_ifs
      · rw [ConnectionTable.generationAfter_succ]
      · rfl
    refine ⟨?_, hentries, fun reg j id hreg => ?_⟩
    · rw [hc]
      exact h.free.register i
    · rcases Nat.lt_or_ge reg s.rt.registrations.length with hlt | hge
      · have hold : s.rt.registrations[reg]? = some (j, id) := by
          rwa [hregs, List.getElem?_append_left hlt] at hreg
        rw [slotCountAt_mono hold ⟨_, hregs.symm⟩]
        exact h.ids reg j id hold
      · -- the new registration
        have hlen : s'.rt.registrations.length = s.rt.registrations.length + 1 := by simp [hregs]
        have hbound := (List.getElem?_eq_some_iff.mp hreg).1
        obtain rfl : reg = s.rt.registrations.length := by omega
        obtain ⟨rfl, rfl⟩ : i = j ∧ (s.rt.connections.register i).1 = id := by
          simpa [hregs] using hreg
        rw [slotCountAt, List.take_of_length_le (by omega), ← hentries, hc,
          ConnectionTable.generation_register h.free, if_pos rfl,
          ConnectionTable.generation_eq_register]

lemma Current.of_log {rt rt' : Runtime} {i reg : Nat} {id : ConnectionId}
    (h : rt.Current i reg id) (es : List RegEvent) (hl : rt'.log = rt.log ++ es)
    (hes : ∀ e ∈ es, e.conn ≠ i) : rt'.Current i reg id := by
  obtain ⟨before, after, hlog, hreg, hafter⟩ := h
  refine ⟨before, after ++ es, by simp [hl, hlog], hreg, fun e he => ?_⟩
  exact (List.mem_append.mp he).elim (hafter e) (hes e)

end Runtime

/-- The id of a connection is the one of its current registration. -/
def HasCurrentId (i : Nat) (s : Local) : Prop :=
  s.conn.id.valid = true → ∃ reg, s.rt.Current i reg s.conn.id

lemma HasCurrentId.registers {i : Nat} {s s' : Local} (h : HasCurrentId i s)
    (hr : Registers i s s') : HasCurrentId i s' := by
  intro hv
  cases hr with
  | none hc hl hid =>
    rw [hid] at hv ⊢
    obtain ⟨reg, hcur⟩ := h hv
    exact ⟨reg, hcur.of_log [] (by simp [hl]) (by simp)⟩
  | register hc hl hid =>
    rw [hid]
    exact ⟨_, s.rt.log, [], hl, rfl, by simp⟩
  | unregister hc hl hid => simp [hid] at hv

/-- The registrations of other connections do not matter. -/
lemma HasCurrentId.other {i j : Nat} {c : Conn} {s s' : Local} (h : HasCurrentId j ⟨c, s.rt⟩)
    (hr : Registers i s s') (hj : i ≠ j) : HasCurrentId j ⟨c, s'.rt⟩ := by
  intro hv
  obtain ⟨reg, hcur⟩ := h hv
  cases hr with
  | none hc hl hid => exact ⟨reg, hcur.of_log [] (by simp [hl]) (by simp)⟩
  | register hc hl hid => exact ⟨reg, hcur.of_log [_] hl (by simpa [RegEvent.conn] using hj)⟩
  | unregister hc hl hid => exact ⟨reg, hcur.of_log [_] hl (by simpa [RegEvent.conn] using hj)⟩

/-! ### Tasks that were posted for events -/

/-- The registration a task was posted for, when it handles an event. -/
def Task.registration : Task → Option Nat
  | .pollEvent ev => some ev.reg
  | .timerEvent ev => some ev.reg
  | _ => none

/-- A task about an event carries the id of its registration. -/
def Task.Genuine (rt : Runtime) (t : Task) : Prop :=
  ∀ reg, t.registration = some reg → ∃ id, t.eventId = some id ∧ rt.Reported reg id

lemma Task.Genuine.mono {rt rt' : Runtime} {t : Task} (h : t.Genuine rt)
    (hle : rt.registrations <+: rt'.registrations) : t.Genuine rt' := fun reg hreg => by
  obtain ⟨id, hid, hrep⟩ := h reg hreg
  exact ⟨id, hid, hrep.mono hle⟩

lemma Postable.genuine {s : Local} {t : Task} (h : Postable s t) : t.Genuine s.rt := by
  intro reg hreg
  cases t with
  | pollEvent ev =>
    obtain rfl : ev.reg = reg := by simpa [Task.registration] using hreg
    exact ⟨ev.id, rfl, h⟩
  | timerEvent ev =>
    obtain rfl : ev.reg = reg := by simpa [Task.registration] using hreg
    exact ⟨ev.id, rfl, h⟩
  | _ => simp [Task.registration] at hreg

/-- The tasks that are queued or have started. -/
def Conn.Holds (c : Conn) (t : Task) : Prop := t ∈ c.queue ∨ .ran t ∈ c.trace

lemma SameQueue.holds {c c' : Conn} {t : Task} (h : SameQueue c c') (ht : c'.Holds t) :
    c.Holds t := by
  refine ht.imp (fun hq => ?_) fun hran => (h.events.mem_iff rfl).mp hran
  rwa [← h.queue]

/-- Every task that is queued or has started was posted. -/
lemma Move.holds {s s' : Local} {t : Task} (h : Move cfg F s s') (ht : s'.conn.Holds t) :
    s.conn.Holds t ∨ Postable s t := by
  have hnote : ∀ e : Event, e ≠ .ran t → (s.conn.note e).Holds t → s.conn.Holds t := by
    rintro e he (hq | hran)
    · exact Or.inl hq
    · refine Or.inr ((List.mem_append.mp hran).resolve_right fun hlast => ?_)
      exact he (List.mem_singleton.mp hlast).symm
  cases h with
  | task h => exact Or.inl (h.sameQueue.holds ht)
  | connectBegan call => exact Or.inl (hnote _ (by simp) ht)
  | connectMoved call => exact Or.inl (hnote (.connectMoved call) (by simp) ht)
  | disconnectReturned call => exact Or.inl (hnote _ (by simp) ht)
  | push t' hpost =>
    rcases ht with hq | hran
    · rcases List.mem_append.mp hq with hold | hnew
      · exact Or.inl (Or.inl hold)
      · rw [List.mem_singleton.mp hnew]
        exact Or.inr hpost
    · exact Or.inl (Or.inr hran)
  | @start t' rest hq =>
    left
    rcases ht with hrest | hran
    · exact Or.inl (hq ▸ List.mem_cons_of_mem _ hrest)
    · rcases List.mem_append.mp hran with hold | hnew
      · exact Or.inr hold
      · obtain rfl : t = t' := by simpa using hnew
        exact Or.inl (hq ▸ List.mem_cons_self)
  | discard hq =>
    refine Or.inl (ht.imp_left fun hrest => ?_)
    rw [hq]
    exact List.mem_cons_of_mem _ hrest
  | release => exact Or.inl ((sameQueue_closeRelease _ s).holds ht)
  | returned => exact Or.inl (hnote _ (by simp) ht)
  | _ => exact Or.inl ht

/-- What holds of registrations and events in every world that is reached. -/
structure Tracked (w : World) : Prop where
  counted : w.rt.Counted
  ids : ∀ i, HasCurrentId i (w.loc i)
  genuine : ∀ i t, (w.conns i).Holds t → t.Genuine w.rt

lemma Tracked.move {cfgs : Nat → Config} {w : World} {i : Nat} {s' : Local} (h : Tracked w)
    (hm : Move (cfgOf cfgs i) F (w.loc i) s') : Tracked (w.set i s') := by
  have hreg : Registers i (w.loc i) s' := hm.registers
  have hgrows : w.rt.registrations <+: s'.rt.registrations := hm.grows.registrations
  refine ⟨h.counted.registers hreg, fun j => ?_, fun j t ht => ?_⟩
  · by_cases hj : i = j
    · subst hj
      rw [World.loc_set]
      exact (h.ids i).registers hreg
    · have hloc : (w.set i s').loc j = ⟨w.conns j, s'.rt⟩ := by
        simp [World.loc, World.set, Function.update_of_ne (Ne.symm hj)]
      rw [hloc]
      exact (h.ids j).other hreg hj
  · by_cases hj : i = j
    · subst hj
      have ht' : s'.conn.Holds t := by simpa [World.set] using ht
      rcases hm.holds ht' with hold | hpost
      · exact (h.genuine i t hold).mono hgrows
      · exact hpost.genuine.mono hgrows
    · have ht' : (w.conns j).Holds t := by
        simpa [World.set, Function.update_of_ne (Ne.symm hj)] using ht
      exact (h.genuine j t ht').mono hgrows

lemma tracked_of_steps {cfgs : Nat → Config} {w : World}
    (h : World.Steps cfgs F (System.world {}) w) : Tracked w := by
  refine h.invariant ?_ (fun w i s' hw hm => hw.move hm) fun w nowMs hw => ?_
  · refine ⟨⟨by simp [System.world, ConnectionTable.FreeInBounds], fun s => ?_, ?_⟩, ?_, ?_⟩
    · rfl
    · simp [System.world, Runtime.registrations]
    · intro i hv
      simp [System.world, World.loc, ConnectionId.valid] at hv
    · intro i t ht
      simp [System.world, Conn.Holds] at ht
  · exact ⟨⟨hw.counted.free, hw.counted.entries, hw.counted.ids⟩, hw.ids, hw.genuine⟩

/-! ### Runs -/

/-- A connection that has the id of an event: its registration is in force. -/
lemma Tracked.inForce {w : World} {i reg : Nat} {t : Task} (h : Tracked w)
    (ht : (w.conns i).Holds t) (hreg : t.registration = some reg)
    (hid : ∀ id, t.eventId = some id → (w.conns i).id = id) : w.rt.InForce i reg := by
  obtain ⟨id, hev, j, hrep⟩ := h.genuine i t ht reg hreg
  obtain rfl := hid id hev
  have hvalid : (w.conns i).id.valid = true := by
    obtain ⟨n, hn⟩ := Nat.exists_eq_add_of_lt (Runtime.slotCountAt_pos hrep)
    have hgen := h.counted.ids _ _ _ hrep
    rw [hn, Nat.zero_add, ConnectionTable.generationAfter_succ] at hgen
    simpa [ConnectionId.valid, hgen] using ConnectionTable.nextGeneration_ne_zero _
  obtain ⟨cur, hcur⟩ := h.ids i hvalid
  exact h.counted.inForce hcur hrep

lemma ran_of_lastRan {trace : List Event} {t : Task} (h : lastRan trace = some t) :
    .ran t ∈ trace := by
  induction trace using List.reverseRecOn with
  | nil => simp [lastRan] at h
  | append_singleton trace e ih =>
    by_cases he : ∃ task, e = .ran task
    · obtain ⟨task, rfl⟩ := he
      rw [lastRan_ran, Option.some_inj] at h
      simp [h]
    · rw [lastRan_snoc fun task htask => he ⟨task, htask⟩] at h
      exact List.mem_append_left _ (ih h)

lemma Task.eventId_of_registration {t : Task} {reg : Nat} (h : t.registration = some reg) :
    ∃ id, t.eventId = some id := by
  cases t with
  | pollEvent ev => exact ⟨ev.id, rfl⟩
  | timerEvent ev => exact ⟨ev.id, rfl⟩
  | _ => simp [Task.registration] at h

/-- The client and the task a step works on, and the connection as it is afterwards when the task
does nothing in the step. -/
def System.handling (S : System) : Label → Option (Nat × Task × Conn)
  | .drain i _ =>
    match (S.clients i).conn.queue with
    | t :: rest =>
      if (S.clients i).conn.ownerClosing then none
      else some (i, t, (S.clients i).conn.start t rest)
    | [] => none
  | .resume i => (lastRan (S.clients i).conn.trace).map fun t => (i, t, (S.clients i).conn)
  | _ => none

lemma System.loc_land (S : System) (i : Nat) (r : Local × Option Suspended) :
    (S.land i r).loc i = r.1 := by
  simp [System.land, System.loc, System.setClient]

/-- The two kinds of steps that work on a task: one starts it, the other goes on with it. -/
lemma System.handling_cases {cfgs : Nat → Config} {S S' : System} {l : Label} {i : Nat} {t : Task}
    {c : Conn} (hstep : S.step cfgs l = some S') (hl : S.handling l = some (i, t, c)) :
    (∃ k rest, (S.clients i).conn.queue = t :: rest ∧ c = (S.clients i).conn.start t rest ∧
        S' = S.land i (untilCallback (taskBody (cfgOf cfgs i) k t ⟨c, S.rt⟩))) ∨
      (∃ rest, (S.clients i).running = some rest ∧ lastRan (S.clients i).conn.trace = some t ∧
        c = (S.clients i).conn ∧ S' = S.land i (untilCallback (rest ⟨c, S.rt⟩))) := by
  cases l with
  | drain j k =>
    obtain ⟨-, ⟨hclosing, rfl⟩ | ⟨t', rest, hq, hopen, -, rfl⟩⟩ := drainStep_cases hstep
    · simp only [System.handling, hclosing, if_true] at hl
      split at hl <;> simp at hl
    · simp only [System.handling, hq, hopen, Bool.false_eq_true, if_false, Option.some_inj,
        Prod.mk.injEq] at hl
      obtain ⟨rfl, rfl, rfl⟩ := hl
      exact Or.inl ⟨k, rest, hq, rfl, rfl⟩
  | resume j =>
    obtain ⟨t', ht', heq⟩ := Option.map_eq_some_iff.mp hl
    obtain ⟨rfl, rfl, rfl⟩ : j = i ∧ t' = t ∧ (S.clients j).conn = c := by simpa using heq
    simp only [System.step] at hstep
    split at hstep
    · next rest hrun => exact Or.inr ⟨rest, hrun, ht', rfl, (Option.some_inj.mp hstep).symm⟩
    · simp at hstep
  | _ => simp [System.handling] at hl

/-- In every run, a step that works on an event leaves the connections and the runtime as they are,
or the registration of the event is in force for its connection. The tag of a valid id is not the
one of the wake descriptor. -/
theorem staleEvents_harmless (cfgs : Nat → Config) (ls : List Label) {S S' : System}
    (hexec : Run.exec (System.step cfgs) {} ls = some S) {l : Label}
    (hstep : S.step cfgs l = some S') {i : Nat} {t : Task} {c : Conn}
    (hl : S.handling l = some (i, t, c)) {reg : Nat} (hreg : t.registration = some reg) :
    (S'.loc i = ⟨c, S.rt⟩ ∨ S.rt.InForce i reg) ∧ (∀ j, j ≠ i → S'.clients j = S.clients j) ∧
      ∀ id : ConnectionId, id.valid = true → id.toUint64 ≠ 0 := by
  have hrefines := (reaches_of_exec hexec).refines
  have htracked : Tracked S.world := tracked_of_steps hrefines.steps
  have hi := hrefines.inv.client i
  obtain ⟨id, hev⟩ := Task.eventId_of_registration hreg
  have hinForce : (S.clients i).conn.Holds t → (S.clients i).conn.id = id → S.rt.InForce i reg := by
    intro ht hid
    refine htracked.inForce ht hreg fun id' hev' => ?_
    rw [hev, Option.some_inj] at hev'
    exact hid.trans hev'
  refine ⟨?_, ?_, fun id hv => ConnectionId.toUint64_ne_zero hv⟩
  · rcases System.handling_cases hstep hl with
      ⟨k, rest, hq, rfl, rfl⟩ | ⟨rest, hrun, hran, rfl, rfl⟩
    · by_cases hid : (S.clients i).conn.id = id
      · exact Or.inr (hinForce (Or.inl (by simp [hq])) hid)
      · left
        rw [System.loc_land, untilCallback_stale hev hid]
    · rcases hi.serves rest hrun t id hran hev with hid | hinert
      · exact Or.inr (hinForce (Or.inr (ran_of_lastRan hran)) hid)
      · left
        obtain ⟨k, hk⟩ := hi.keeps rest hrun
        rw [System.loc_land]
        exact (landed_untilCallback (hk (S.loc i) .refl)).inert hinert
  · intro j hj
    rcases System.handling_cases hstep hl with ⟨k, rest, -, -, rfl⟩ | ⟨rest, -, -, -, rfl⟩ <;>
      simp [System.land, System.setClient, Function.update_of_ne hj]

/-- An event for the first registration. -/
def firstReadable : PollEvent := { id := ⟨0, 1⟩, readable := true, reg := 0 }

/-- A readable event that is queued behind the task of a `Disconnect`. -/
def eventBehindDisconnect : List Label :=
  [.connectBegin 0, .connectMove 0 0, .connectPost 0 0 none,
    .drain 0 { openSocket := .opened 3, connect := .done }, .resume 0, .disconnectPost 0,
    .pollWait [firstReadable], .acquireEvent, .postAcquired, .drain 0 {}]

theorem staleEvents_harmless_behind_disconnect :
    ∃ S S',
      Run.exec (System.step (FixedLengthCodec.new 1).clients) {} eventBehindDisconnect = some S ∧
      S.step (FixedLengthCodec.new 1).clients (.drain 0 { recv := [.bytes [1]] }) = some S' ∧
      (S'.loc 0 = ⟨(S.clients 0).conn.start (.pollEvent firstReadable) [], S.rt⟩ ∨
        S.rt.InForce 0 0) := by
  have hrun : (Run.exec (System.step (FixedLengthCodec.new 1).clients) {} eventBehindDisconnect).map
      (fun S => (
        (S.step (FixedLengthCodec.new 1).clients (.drain 0 { recv := [.bytes [1]] })).isSome,
        (S.clients 0).conn.ownerClosing, (S.clients 0).conn.queue)) =
      some (true, false, [.pollEvent firstReadable]) := by
    decide +kernel
  obtain ⟨S, hS, heq⟩ := Option.map_eq_some_iff.mp hrun
  obtain ⟨hsome, hopen, hq⟩ : _ ∧ _ ∧ _ := by simpa using heq
  obtain ⟨S', hS'⟩ := Option.isSome_iff_exists.mp hsome
  have hl : S.handling (.drain 0 { recv := [.bytes [1]] }) = some (0, .pollEvent firstReadable,
      (S.clients 0).conn.start (.pollEvent firstReadable) []) := by
    simp [System.handling, hq, hopen]
  exact ⟨S, S', hS, hS',
    (staleEvents_harmless _ eventBehindDisconnect hS hS' hl rfl).1⟩

end Connx
