import Connx.Net.Connection.Interference

/-!
# Rules for the code of tasks, and the specification of closing

The rely-guarantee judgement of `Connx.Lib.Resumption` for tasks: the guarantee is `Changes`, the
rely is `Rely`. The modules that follow give one specification for each function of the code.
-/

namespace Connx

open Relation Resum

variable {cfg : Config} {k : Kernel} {F : Facts}

/-- The program, started in `s`, makes only the listed changes and ends as `Q` says. -/
abbrev Does (cfg : Config) (k : Kernel) (F : Facts) {α : Type} (m : ConnM α) (s : Local)
    (Q : α → Local → Prop) : Prop :=
  Sat Calls (Changes cfg k F) (Rely cfg) Q s (m s)

section rules

variable {α β : Type} {s : Local} {P : α → Local → Prop} {Q : β → Local → Prop}

lemma Does.bind {m : ConnM α} {f : α → ConnM β} (h : Does cfg k F m s P)
    (hf : ∀ a s', P a s' → Does cfg k F (f a) s' Q) : Does cfg k F (m >>= f) s Q :=
  Sat.bind h hf

lemma Does.pure {b : β} (h : Q b s) : Does cfg k F (pure b) s Q := ⟨.refl, h⟩

lemma Does.getConn_bind {f : Conn → ConnM β} (h : Does cfg k F (f s.conn) s Q) :
    Does cfg k F (getConn >>= f) s Q := h

lemma Does.modifyConn {g : Conn → Conn} {Q : Unit → Local → Prop}
    (hg : Changes cfg k F s { s with conn := g s.conn })
    (h : Q () { s with conn := g s.conn }) : Does cfg k F (modifyConn g) s Q := ⟨hg, h⟩

lemma Does.modify_bind {g : Local → Local} {f : Unit → ConnM β}
    (hg : Changes cfg k F s (g s)) (h : Does cfg k F (f ()) (g s) Q) :
    Does cfg k F (Act.modify g >>= f) s Q :=
  Sat.enter hg h

/-- Two changes that count as one. -/
lemma Does.modify_modify_bind {g g' : Local → Local} {f : Unit → ConnM β}
    (hg : Changes cfg k F s (g' (g s))) (h : Does cfg k F (f ()) (g' (g s)) Q) :
    Does cfg k F (Act.modify g >>= fun _ => Act.modify g' >>= f) s Q :=
  Sat.enter hg h

lemma Does.modifyConn_bind {g : Conn → Conn} {f : Unit → ConnM β}
    (hg : Changes cfg k F s { s with conn := g s.conn })
    (h : Does cfg k F (f ()) { s with conn := g s.conn } Q) :
    Does cfg k F (Connx.modifyConn g >>= f) s Q :=
  Sat.enter hg h

/-- A change of the connection together with the callback that reports it. -/
lemma Does.callback {g : Conn → Conn} {cb : Callback} {Q : Unit → Local → Prop}
    (hg : Changes cfg k F s { s with conn := (g s.conn).note (.call cb) })
    (h : ∀ s', Rely cfg (.callback cb) { s with conn := (g s.conn).note (.call cb) } s' → Q () s') :
    Does cfg k F (Connx.modifyConn g >>= fun _ => Connx.callback cb) s Q :=
  ⟨hg, List.getLast?_concat, fun s' hs' => ⟨.refl, h s' hs'⟩⟩

lemma Does.callback_bind {g : Conn → Conn} {cb : Callback} {f : Unit → ConnM β}
    (hg : Changes cfg k F s { s with conn := (g s.conn).note (.call cb) })
    (h : ∀ s', Rely cfg (.callback cb) { s with conn := (g s.conn).note (.call cb) } s' →
      Does cfg k F (f ()) s' Q) :
    Does cfg k F (Connx.modifyConn g >>= fun _ => Connx.callback cb >>= f) s Q :=
  ⟨hg, List.getLast?_concat, fun s' hs' => h s' hs'⟩

lemma Does.mono {m : ConnM β} {Q' : β → Local → Prop} (h : Does cfg k F m s Q)
    (hQ : ∀ b s', Q b s' → Q' b s') : Does cfg k F m s Q' :=
  Sat.mono h hQ

end rules

/-- The task `t` began and has reported nothing since; the connection is not released. -/
structure Begun (t : Task) (c : Conn) : Prop where
  last : c.trace.getLast? = some (.ran t)
  notReturned : .ownerReturned ∉ c.trace

lemma Begun.acting {t : Task} {c : Conn} (h : Begun t c) : c.Acting := Or.inr ⟨t, h.last⟩

lemma Begun.of_trace {t : Task} {c c' : Conn} (h : Begun t c) (hc : c'.trace = c.trace) :
    Begun t c' :=
  ⟨by rw [hc]; exact h.last, by rw [hc]; exact h.notReturned⟩

lemma Live.acting {c : Conn} (h : Live c) : c.Acting := Or.inl h.connected

/-- A change of fields that no invariant looks at. -/
lemma changes_bookkeeping {s : Local} {c' : Conn} (hacting : s.conn.Acting)
    (h : s.conn.SameCore c') :
    Changes cfg k F s { s with conn := c' } :=
  .single (.bookkeeping c' s.rt.poller hacting h)

lemma changes_pollerSet {s : Local} (hacting : s.conn.Acting) (fd : Int) (id : ConnectionId)
    (interest : Interest) :
    Changes cfg k F s { s with rt := s.rt.pollerSet fd id interest } :=
  .single (.bookkeeping s.conn _ hacting (.of_core rfl))

section bookkeeping

variable {c c' : Conn}

lemma Live.bookkeeping (h : Live c) (hd : c'.deferredClosePending = true →
      NetworkClose c'.deferredCloseReason c'.deferredCloseDesc)
    (hc : c.SameCore c') : Live c' where
  state := hc.state.trans h.state
  connected := hc.connected.trans h.connected
  deferred := hd
  parsed_le := by rw [hc.parsed, hc.recvBuffer]; exact h.parsed_le
  notReturned := by rw [hc.trace]; exact h.notReturned

lemma Serving.bookkeeping (h : Serving cfg c) (hd : c'.deferredClosePending = true →
      NetworkClose c'.deferredCloseReason c'.deferredCloseDesc)
    (hc : c.SameCore c') : Serving cfg c' where
  toLive := h.toLive.bookkeeping hd hc
  parsed := hc.parsed.trans h.parsed
  ready := by
    unfold Ready Waiting
    rw [hc.recvBuffer, hc.queue, hc.acceptingTasks]
    exact h.ready

end bookkeeping

/-! ### Closing -/

lemma Conn.active_of_not_idle {c : Conn} (h : ¬ (c.state = .idle ∨ c.state = .closing)) :
    c.Active := by
  unfold Conn.Active
  cases hs : c.state <;> simp [hs] at h ⊢

lemma startClose_inactive {s : Local} (h : s.conn.state = .idle ∨ s.conn.state = .closing)
    (reason : CloseReason) (desc : ErrorText) : startClose cfg reason desc s = .ret () s := by
  simp [startClose, Platform.startClose, getConn, h]

lemma startClose_active {s : Local} (h : s.conn.Active) (reason : CloseReason)
    (desc : ErrorText) :
    startClose cfg reason desc s =
      if closeNotifies reason then
        .call (.callback (closeCallback reason desc))
          { closeConn cfg reason desc s with
            conn := noteClose reason desc (closeConn cfg reason desc s).conn }
          fun s' => .ret () s'
      else
        .ret () { closeConn cfg reason desc s with
          conn := noteClose reason desc (closeConn cfg reason desc s).conn } := by
  have hs : ¬ (s.conn.state = .idle ∨ s.conn.state = .closing) := by
    rcases h with h | h <;> simp [h]
  simp only [startClose, Platform.startClose, getConn, hs, Act.bind_apply, Act.get_apply, ret_bind,
    Act.pure_apply, if_false, modifyConn, Act.modify_apply, Platform.finishClose, noteClose]
  split_ifs <;> rfl

lemma startClose_spec {s : Local} {reason : CloseReason} {desc : ErrorText}
    (hacting : s.conn.Acting) (hact : s.conn.Active) (hcause : Cause cfg F s.conn reason desc)
    (hown : closeNotifies reason = true → .ownerReturned ∉ s.conn.trace) :
    Does cfg k F (startClose cfg reason desc) s fun _ s' => Down s'.conn := by
  have hchange := Change.close (k := k) reason desc hacting hact hcause hown
  have hdown : Down (noteClose reason desc (closeConn cfg reason desc s).conn) := by
    unfold noteClose
    split_ifs
    · exact (down_closeConn _ _ _).note _
    · exact down_closeConn _ _ _
  unfold Does
  rw [startClose_active hact]
  split_ifs with hnotify
  · refine ⟨.single hchange, ?_, fun s' hs' => ⟨.refl, hdown.meanwhile hs'⟩⟩
    simp [Calls, noteClose, hnotify, Conn.note]
  · exact ⟨.single hchange, hdown⟩

/-- On an established connection every close reports to a handler that is still there. -/
lemma Live.startClose {s : Local} {reason : CloseReason} {desc : ErrorText} (h : Live s.conn)
    (hcause : Cause cfg F s.conn reason desc) :
    Does cfg k F (startClose cfg reason desc) s fun _ s' => Down s'.conn :=
  startClose_spec h.acting h.active hcause fun _ => h.notReturned

/-- A close at the beginning of a task, whatever the connection does then. -/
lemma Begun.startClose {t : Task} {s : Local} {reason : CloseReason} {desc : ErrorText}
    (hb : Begun t s.conn) (h : Down s.conn ∨ Serving cfg s.conn)
    (hcause : s.conn.Active → Cause cfg F s.conn reason desc) :
    Does cfg k F (startClose cfg reason desc) s fun _ s' => Down s'.conn := by
  have hclose : s.conn.Active → Does cfg k F (Connx.startClose cfg reason desc) s fun _ s' =>
      Down s'.conn := fun hact =>
    startClose_spec hb.acting hact (hcause hact) fun _ => hb.notReturned
  rcases h with hd | hs
  · rcases hd.state with hidle | hconn
    · rw [Does, startClose_inactive (Or.inl hidle)]
      exact ⟨.refl, hd⟩
    · exact hclose (Or.inl hconn)
  · exact hclose hs.active

/-- An attempt that failed. -/
lemma Begun.connectFailed {t : Task} {s : Local} (hb : Begun t s.conn) (desc : ErrorText)
    (h : Down s.conn ∨ Serving cfg s.conn) (hF : s.conn.state = .connected → F.strayFail) :
    Does cfg k F (Connx.startClose cfg .connectFailed desc) s fun _ s' => Down s'.conn := by
  refine hb.startClose h fun hact => ?_
  rcases hact with hconn | hup
  · exact .attemptFailed hconn desc
  · exact .stray hup (hF hup) desc

end Connx
