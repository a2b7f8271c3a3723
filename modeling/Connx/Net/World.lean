import Connx.Net.Connection.Tasks
import Connx.Net.System

/-!
# What can happen to connections

`Move` lists everything that can happen to one connection, with what holds of it then: a change by
its current task, a call of the application, the work of the executor. A `World` is what results
are about, the connections and the runtime; the executor and the program counters are gone. The
system of `Connx.Net.System` makes only moves, so that an invariant of moves is one of its runs.
-/

namespace Connx

open Relation

/-! ### Moves -/

/-- The event reports on the registration `reg`, whose id was `id`. -/
def Runtime.Reported (rt : Runtime) (reg : Nat) (id : ConnectionId) : Prop :=
  ∃ i, rt.registrations[reg]? = some (i, id)

/-- What is posted: events report on registrations, and a `Disconnect` posts before it returns. -/
def Postable (s : Local) : Task → Prop
  | .pollEvent ev => s.rt.Reported ev.reg ev.id
  | .timerEvent ev => s.rt.Reported ev.reg ev.id
  | .disconnect call => .disconnectReturned call ∉ s.conn.trace
  | _ => True

/-- Everything that can happen to one connection. -/
inductive Move (cfg : Config) (F : Facts) : Local → Local → Prop
  | task {s s' : Local} {k : Kernel} (h : Change cfg k F s s') : Move cfg F s s'
  | connectBegan {s : Local} (call : Nat) (h : .connectBegan call ∉ s.conn.trace) :
      Move cfg F s { s with conn := s.conn.note (.connectBegan call) }
  | connectMoved {s : Local} (call : Nat) (h : s.conn.state = .idle)
      (hbegan : .connectBegan call ∈ s.conn.trace) (hF : F.moving s.conn call) :
      Move cfg F s { s with conn := { s.conn.note (.connectMoved call) with
        state := .connecting, connected := false } }
  | disconnectReturned {s : Local} (call : Nat) :
      Move cfg F s { s with conn := s.conn.note (.disconnectReturned call) }
  | push {s : Local} (t : Task) (h : Postable s t) : Move cfg F s { s with conn := s.conn.push t }
  | ownerClosing {s : Local} :
      Move cfg F s { s with conn := { s.conn with ownerClosing := true } }
  | stopAccepting {s : Local} :
      Move cfg F s { s with conn := { s.conn with acceptingTasks := false } }
  | start {s : Local} {t : Task} {rest : List Task} (hq : s.conn.queue = t :: rest)
      (hown : .ownerReturned ∉ s.conn.trace) :
      Move cfg F s { s with conn := s.conn.start t rest }
  | discard {s : Local} {t : Task} {rest : List Task} (hq : s.conn.queue = t :: rest) :
      Move cfg F s { s with conn := { s.conn with queue := rest } }
  | release {s : Local} : Move cfg F s (closeRelease cfg s)
  | returned {s : Local} : Move cfg F s { s with conn := s.conn.note .ownerReturned }

abbrev Moves (cfg : Config) (F : Facts) : Local → Local → Prop := ReflTransGen (Move cfg F)

/-! ### Worlds -/

/-- The connections and the runtime they share. -/
@[ext]
structure World where
  conns : Nat → Conn
  rt : Runtime

namespace World

variable (cfgs : Nat → Config) (F : Facts)

def loc (w : World) (i : Nat) : Local := ⟨w.conns i, w.rt⟩

def set (w : World) (i : Nat) (s : Local) : World := ⟨Function.update w.conns i s.conn, s.rt⟩

@[simp] lemma loc_set (w : World) (i : Nat) (s : Local) : (w.set i s).loc i = s := by
  simp [loc, set]

@[simp] lemma set_set (w : World) (i : Nat) (s s' : Local) : (w.set i s).set i s' = w.set i s' := by
  simp [set]

@[simp] lemma set_loc (w : World) (i : Nat) : w.set i (w.loc i) = w := by
  simp [set, loc]

/-- One move of one connection, or the poll thread takes timers off the queue. -/
inductive Step : World → World → Prop
  | move {w : World} (i : Nat) {s' : Local} (h : Move (cfgOf cfgs i) F (w.loc i) s') :
      Step w (w.set i s')
  | popExpired {w : World} (nowMs : Int) :
      Step w { w with rt := { w.rt with timers := (w.rt.timers.popExpired nowMs).2 } }

abbrev Steps : World → World → Prop := ReflTransGen (Step cfgs F)

variable {cfgs F}

lemma steps_of_moves {w : World} {i : Nat} {s' : Local}
    (h : Moves (cfgOf cfgs i) F (w.loc i) s') : Steps cfgs F w (w.set i s') := by
  induction h with
  | refl => rw [set_loc]
  | @tail s₁ s₂ _ hstep ih =>
    refine ih.tail ?_
    have hmove : Step cfgs F (w.set i s₁) ((w.set i s₁).set i s₂) := .move i (by rwa [loc_set])
    rwa [set_set] at hmove

/-- Invariant rule for worlds. -/
theorem Steps.invariant {I : World → Prop} {w w' : World} (h : Steps cfgs F w w') (hw : I w)
    (hmove : ∀ w i s', I w → Move (cfgOf cfgs i) F (w.loc i) s' → I (w.set i s'))
    (hpop : ∀ w nowMs, I w →
      I { w with rt := { w.rt with timers := (w.rt.timers.popExpired nowMs).2 } }) : I w' := by
  induction h with
  | refl => exact hw
  | tail _ hstep ih =>
    cases hstep with
    | move i h => exact hmove _ i _ ih h
    | popExpired nowMs => exact hpop _ nowMs ih

/-- Invariant rule for what holds of each connection by itself. -/
theorem Steps.conn_invariant {P : Nat → Conn → Prop} {w w' : World} (h : Steps cfgs F w w')
    (hw : ∀ i, P i (w.conns i))
    (hmove : ∀ i s s', P i s.conn → Move (cfgOf cfgs i) F s s' → P i s'.conn) (i : Nat) :
    P i (w'.conns i) := by
  refine h.invariant (I := fun w => ∀ i, P i (w.conns i)) hw ?_ (fun w _ hw => hw) i
  intro w i s' hw hm j
  by_cases hj : j = i
  · subst hj
    simpa [set] using hmove j _ _ (hw j) hm
  · simpa [set, Function.update_of_ne hj] using hw j

end World

/-! ### The runtime along moves -/

namespace Runtime

lemma Reported.mono {rt rt' : Runtime} {reg : Nat} {id : ConnectionId} (h : rt.Reported reg id)
    (hle : rt.registrations <+: rt'.registrations) : rt'.Reported reg id := by
  obtain ⟨i, hi⟩ := h
  obtain ⟨l, hl⟩ := hle
  refine ⟨i, ?_⟩
  rw [← hl, List.getElem?_append_left (List.getElem?_eq_some_iff.mp hi).1, hi]

/-- Registrations are only added, and new timers are for registrations. -/
structure Grows (rt rt' : Runtime) : Prop where
  registrations : rt.registrations <+: rt'.registrations
  timers : ∀ ev ∈ rt'.timers.timers, ev ∈ rt.timers.timers ∨ rt'.Reported ev.reg ev.id

lemma Grows.of_eq {rt rt' : Runtime} (hr : rt'.registrations = rt.registrations)
    (ht : rt'.timers = rt.timers) : Grows rt rt' :=
  ⟨by rw [hr], fun ev hev => Or.inl (by rwa [← ht])⟩

lemma Grows.refl (rt : Runtime) : Grows rt rt := .of_eq rfl rfl

lemma Grows.trans {a b c : Runtime} (h : Grows a b) (h' : Grows b c) : Grows a c := by
  refine ⟨h.registrations.trans h'.registrations, fun ev hev => ?_⟩
  rcases h'.timers ev hev with hb | hc
  · exact (h.timers ev hb).imp_right fun hr => hr.mono h'.registrations
  · exact Or.inr hc

@[simp] lemma registrations_register (rt : Runtime) (i : Nat) :
    (rt.register i).2.registrations = rt.registrations ++ [(i, (rt.register i).1)] := by
  simp [register, registrations, RegEvent.registration]

end Runtime

section grows

variable {cfg : Config} {k : Kernel} {F : Facts}

lemma grows_closeConn (reason : CloseReason) (desc : ErrorText) (s : Local) :
    s.rt.Grows (closeConn cfg reason desc s).rt := by
  by_cases hid : s.conn.id.valid <;> by_cases hfd : isValidSocketHandle s.conn.fd <;>
    refine .of_eq ?_ ?_ <;>
    simp [closeConn, closeFd, unregisterConn, Conn.note, hid, hfd, Runtime.closeSocket,
      Runtime.pollerRemove, Runtime.registrations, Runtime.unregister, RegEvent.registration]

lemma grows_closeRelease (s : Local) : s.rt.Grows (closeRelease cfg s).rt := by
  unfold closeRelease
  split_ifs
  · exact .refl _
  · exact grows_closeConn _ _ _

lemma grows_adopt (fd : Int) (s : Local) :
    s.rt.Grows (startConnectTimer cfg k (adoptSocket cfg fd s)).rt := by
  let rt := ((s.rt.openSocket cfg.self fd).register cfg.self).2
  have hadopt : (adoptSocket cfg fd s).rt = rt := rfl
  have hreg : rt.registrations = s.rt.registrations ++
      [(cfg.self, ((s.rt.openSocket cfg.self fd).register cfg.self).1)] :=
    Runtime.registrations_register _ _
  have hgrows : s.rt.Grows rt := ⟨⟨_, hreg.symm⟩, fun ev hev => Or.inl hev⟩
  unfold startConnectTimer
  split_ifs
  · refine ⟨hgrows.registrations, fun ev hev => ?_⟩
    rcases TimerQueue.mem_add hev with rfl | hmem
    · refine Or.inr ⟨cfg.self, ?_⟩
      change rt.registrations[rt.registrations.length - 1]? = _
      simp [hreg, adoptSocket]
    · exact Or.inl hmem
  · exact hgrows

lemma Change.grows {s s' : Local} (h : Change cfg k F s s') : s.rt.Grows s'.rt := by
  cases h with
  | bookkeeping => exact .of_eq rfl rfl
  | adopt call fd => exact grows_adopt fd s
  | establish => exact .refl _
  | append => exact .refl _
  | deliver => exact .refl _
  | commit => exact .refl _
  | close reason desc => exact grows_closeConn _ _ _

lemma Move.grows {s s' : Local} (h : Move cfg F s s') : s.rt.Grows s'.rt := by
  cases h with
  | task h => exact h.grows
  | release => exact grows_closeRelease s
  | _ => exact .refl _

lemma Moves.grows {s s' : Local} (h : Moves cfg F s s') : s.rt.Grows s'.rt := by
  induction h with
  | refl => exact .refl _
  | tail _ hstep ih => exact ih.trans hstep.grows

end grows

/-! ### The state along moves -/

/-- `connected_` agrees with `state_`, and `kClosing` does not outlast a change. -/
structure Coherent (c : Conn) : Prop where
  connected : c.connected = true ↔ c.state = .connected
  closing : c.state ≠ .closing

section coherent

variable {cfg : Config} {k : Kernel} {F : Facts}

lemma coherent_closeConn (reason : CloseReason) (desc : ErrorText) (s : Local) :
    Coherent (closeConn cfg reason desc s).conn := by
  rw [closeConn_conn]
  exact ⟨by simp, by simp⟩

variable (cfg) in
lemma coherent_closeRelease {s : Local} (h : Coherent s.conn) :
    Coherent (closeRelease cfg s).conn := by
  unfold closeRelease
  split_ifs
  · exact h
  · exact coherent_closeConn _ _ _

lemma Change.coherent {s s' : Local} (h : Change cfg k F s s') (hs : Coherent s.conn) :
    Coherent s'.conn := by
  cases h with
  | bookkeeping c' p _ h => exact ⟨by rw [h.connected, h.state]; exact hs.connected,
      by rw [h.state]; exact hs.closing⟩
  | adopt call fd =>
    obtain ⟨id, deadline, hconn⟩ := adopt_conn cfg k fd s
    rw [hconn]
    exact ⟨hs.connected, hs.closing⟩
  | establish => exact ⟨by simp, by simp⟩
  | append => exact ⟨hs.connected, hs.closing⟩
  | deliver => exact ⟨hs.connected, hs.closing⟩
  | commit => exact ⟨hs.connected, hs.closing⟩
  | close reason desc =>
    have hclose : Coherent (closeConn cfg reason desc s).conn := coherent_closeConn reason desc s
    unfold noteClose
    split_ifs
    · exact ⟨hclose.connected, hclose.closing⟩
    · exact hclose

lemma Move.coherent {s s' : Local} (h : Move cfg F s s') (hs : Coherent s.conn) :
    Coherent s'.conn := by
  cases h with
  | task h => exact h.coherent hs
  | connectMoved => exact ⟨by simp, by simp⟩
  | release => exact coherent_closeRelease _ hs
  | _ => exact ⟨hs.connected, hs.closing⟩

lemma Moves.coherent {s s' : Local} (h : Moves cfg F s s') (hs : Coherent s.conn) :
    Coherent s'.conn := by
  induction h with
  | refl => exact hs
  | tail _ hstep ih => exact hstep.coherent ih

end coherent

end Connx
