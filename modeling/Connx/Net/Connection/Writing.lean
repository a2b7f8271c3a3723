import Connx.Net.Connection.Rules

/-!
# Functions that leave the write side alone

The functions that read and parse change nothing that the write side of a connection uses, unless
they close it. So an invariant of the write side that a close restores holds whenever they call
out, and when they end. The module states this once for all such invariants.
-/

namespace Connx

open Relation Resum

/-! ### The write side -/

/-- The tasks that started since the connection was last established. -/
def ranInPeriod (trace : List Event) : List Task :=
  trace.foldl (fun ts e => match e with
    | .call .onConnected => []
    | .ran t => ts ++ [t]
    | _ => ts) []

@[simp] lemma ranInPeriod_onConnected (trace : List Event) :
    ranInPeriod (trace ++ [.call .onConnected]) = [] := by
  simp [ranInPeriod]

@[simp] lemma ranInPeriod_ran (trace : List Event) (t : Task) :
    ranInPeriod (trace ++ [.ran t]) = ranInPeriod trace ++ [t] := by
  simp [ranInPeriod]

/-- A task for an event has the id of a registration. -/
def Task.HasValidId : Task → Prop
  | .pollEvent ev => ev.id.valid = true
  | _ => True

/-- Two connections with the same write side. -/
structure Conn.SameWriting (c c' : Conn) : Prop where
  state : c'.state = c.state
  connected : c'.connected = c.connected
  id : c'.id = c.id
  fd : c'.fd = c.fd
  pollInterest : c'.pollInterest = c.pollInterest
  sendBuffer : c'.sendBuffer = c.sendBuffer
  pendingBytes : c'.pendingBytes = c.pendingBytes
  bytesSent : c'.bytesSent = c.bytesSent
  output : c'.output = c.output
  ran : ranInPeriod c'.trace = ranInPeriod c.trace
  queue : ∀ t ∈ c'.queue, t ∈ c.queue ∨ t.HasValidId

/-- The fields of the write side that change only together. -/
def Conn.writing (c : Conn) :=
  (c.state, c.connected, c.id, c.fd, c.pollInterest, c.sendBuffer, c.pendingBytes, c.bytesSent,
    c.output)

lemma Conn.SameWriting.of_writing {c c' : Conn} (h : c'.writing = c.writing)
    (hran : ranInPeriod c'.trace = ranInPeriod c.trace)
    (hqueue : ∀ t ∈ c'.queue, t ∈ c.queue ∨ t.HasValidId) : c.SameWriting c' := by
  simp only [Conn.writing, Prod.mk.injEq] at h
  obtain ⟨hstate, hconnected, hid, hfd, hinterest, hbuffer, hpending, hsent, houtput⟩ := h
  exact ⟨hstate, hconnected, hid, hfd, hinterest, hbuffer, hpending, hsent, houtput, hran, hqueue⟩

/-- A change of other fields. -/
lemma Conn.SameWriting.of_eq {c c' : Conn} (h : c'.writing = c.writing)
    (htrace : c'.trace = c.trace) (hqueue : c'.queue = c.queue) : c.SameWriting c' :=
  .of_writing h (by rw [htrace]) fun _ ht => .inl (hqueue ▸ ht)

/-- An event that neither starts a task nor establishes the connection. -/
lemma Conn.SameWriting.note (c : Conn) {e : Event} (hran : ∀ t, e ≠ .ran t)
    (hcall : e ≠ .call .onConnected) : c.SameWriting (c.note e) := by
  refine .of_writing rfl ?_ fun _ => .inl
  cases e with
  | ran t => exact absurd rfl (hran t)
  | call cb =>
    cases cb with
    | onConnected => exact absurd rfl hcall
    | _ => simp [ranInPeriod, Conn.note]
  | _ => simp [ranInPeriod, Conn.note]

lemma Conn.SameWriting.closeNote (c : Conn) (reason : CloseReason) (desc : ErrorText) :
    c.SameWriting (noteClose reason desc c) := by
  unfold noteClose closeCallback
  split_ifs
  · exact .note c (by simp) (by simp)
  · exact .note c (by simp) (by simp)
  · exact .of_eq rfl rfl rfl

/-! ### Invariants of the write side -/

section tends

variable {cfg : Config} {k : Kernel} {J I : Local → Prop} {G : Local → Local → Prop}
variable {α β : Type} {s : Local} {P : α → Local → Prop} {Q : β → Local → Prop}

/-- The program, started in `s`, changes the state by `G` and calls out where `I` holds; if each
call leaves `I` true, it ends as `Q` says. -/
abbrev Tends (I : Local → Prop) (G : Local → Local → Prop) (m : ConnM α) (s : Local)
    (Q : α → Local → Prop) : Prop :=
  Sat (fun _ => I) G (fun _ _ => I) Q s (m s)

lemma Tends.getConn_bind {f : Conn → ConnM β} (h : Tends I G (f s.conn) s Q) :
    Tends I G (getConn >>= f) s Q := h

variable [IsPreorder Local G]

lemma Tends.bind {m : ConnM α} {f : α → ConnM β} (h : Tends I G m s P)
    (hf : ∀ a s', P a s' → Tends I G (f a) s' Q) : Tends I G (m >>= f) s Q :=
  Sat.bind h hf

lemma Tends.pure {b : β} (h : Q b s) : Tends I G (pure b) s Q := ⟨refl_of G s, h⟩

lemma Tends.modify_bind {g : Local → Local} {f : Unit → ConnM β} (hg : G s (g s))
    (h : Tends I G (f ()) (g s) Q) : Tends I G (Act.modify g >>= f) s Q :=
  Sat.enter hg h

/-- Two changes that count as one. -/
lemma Tends.modify_modify_bind {g g' : Local → Local} {f : Unit → ConnM β}
    (hg : G s (g' (g s))) (h : Tends I G (f ()) (g' (g s)) Q) :
    Tends I G (Act.modify g >>= fun _ => Act.modify g' >>= f) s Q :=
  Sat.enter hg h

lemma Tends.modifyConn_bind {g : Conn → Conn} {f : Unit → ConnM β}
    (hg : G s { s with conn := g s.conn }) (h : Tends I G (f ()) { s with conn := g s.conn } Q) :
    Tends I G (Connx.modifyConn g >>= f) s Q :=
  Sat.enter hg h

lemma Tends.call {e : Request} (h : I s) : Tends I G (Act.call e) s fun _ => I :=
  ⟨refl_of G s, h, fun s' hs' => ⟨refl_of G s', hs'⟩⟩

/-- A change of the connection together with the callback that reports it. -/
lemma Tends.callback {g : Conn → Conn} {cb : Callback}
    (hg : G s { s with conn := (g s.conn).note (.call cb) })
    (h : I { s with conn := (g s.conn).note (.call cb) }) :
    Tends I G (Connx.modifyConn g >>= fun _ => Connx.callback cb) s fun _ => I :=
  ⟨hg, h, fun s' hs' => ⟨refl_of G s', hs'⟩⟩

/-- `I` holds between the functions of a task and `J` also inside them. A change outside the write
side keeps `I`, and a close restores it. -/
structure Spares (cfg : Config) (J I : Local → Prop) (G : Local → Local → Prop) : Prop where
  inside : ∀ {s}, I s → J s
  same : ∀ {s c'}, I s → s.conn.SameWriting c' →
    I { s with conn := c' } ∧ G s { s with conn := c' }
  close : ∀ {s} (reason : CloseReason) (desc : ErrorText), J s →
    I (closeConn cfg reason desc s) ∧ G s (closeConn cfg reason desc s)

namespace Spares

variable (h : Spares cfg J I G)

include h

/-- A change outside the write side. -/
lemma modifyConn_bind {g : Conn → Conn} {f : Unit → ConnM β} (hs : I s)
    (hg : s.conn.SameWriting (g s.conn))
    (hf : ∀ s', s'.conn = g s.conn → I s' → Tends I G (f ()) s' Q) :
    Tends I G (Connx.modifyConn g >>= f) s Q :=
  .modifyConn_bind (h.same hs hg).2 (hf _ rfl (h.same hs hg).1)

lemma callback {cb : Callback} (hs : I s) (hcb : cb ≠ .onConnected) :
    Tends I G (callback cb) s fun _ => I :=
  h.modifyConn_bind hs (.note _ (by simp) (by simpa using hcb)) fun _ _ hs' => .call hs'

/-! ### Closing -/

lemma startClose_of_inside (reason : CloseReason) (desc : ErrorText) (hJ : J s)
    (hact : s.conn.Active) : Tends I G (startClose cfg reason desc) s fun _ => I := by
  obtain ⟨hI, hG⟩ := h.close reason desc hJ
  obtain ⟨hI', hG'⟩ := h.same hI (.closeNote _ reason desc)
  have hG'' := trans_of G hG hG'
  unfold Tends
  rw [startClose_active hact]
  split_ifs
  · exact ⟨hG'', hI', fun s' hs' => ⟨refl_of G s', hs'⟩⟩
  · exact ⟨hG'', hI'⟩

lemma startClose (reason : CloseReason) (desc : ErrorText) (hs : I s) :
    Tends I G (startClose cfg reason desc) s fun _ => I := by
  by_cases hidle : s.conn.state = .idle ∨ s.conn.state = .closing
  · rw [Tends, startClose_inactive hidle]
    exact ⟨refl_of G s, hs⟩
  · exact h.startClose_of_inside reason desc (h.inside hs) (Conn.active_of_not_idle hidle)

lemma finishDeferredClose (hs : I s) : Tends I G (finishDeferredClose cfg) s fun _ => I := by
  dsimp only [Connx.finishDeferredClose, Platform.finishDeferredClose]
  refine .getConn_bind ?_
  split_ifs
  · exact h.modifyConn_bind hs (.of_eq rfl rfl rfl) fun s' _ hs' => h.startClose _ _ hs'
  · exact .pure hs

/-! ### Parsing and reading -/

lemma scheduleParseContinuation (hs : I s) :
    Tends I G (scheduleParseContinuation cfg) s fun _ => I := by
  dsimp only [Connx.scheduleParseContinuation, Platform.scheduleParseContinuation]
  refine .getConn_bind ?_
  split_ifs
  · exact .pure hs
  · exact h.modifyConn_bind hs (.of_eq rfl rfl rfl) fun s' _ hs' => .call hs'

lemma decode (data : List Byte) (hs : I s) :
    Tends I G ((posix cfg).decode cfg.codec data) s fun _ => I := by
  dsimp only [Platform.decode]
  exact .getConn_bind (h.modifyConn_bind hs (.of_eq rfl rfl rfl) fun _ _ hs' => .pure hs')

lemma parseLoop (merged : List Byte) (fuel offset : Nat) (hs : I s) :
    Tends I G (parseLoop cfg merged fuel offset) s fun _ => I := by
  induction fuel generalizing offset s with
  | zero => exact .pure hs
  | succ fuel ih =>
    dsimp only [Connx.parseLoop, Platform.parseLoop]
    split_ifs
    · exact .pure hs
    refine .bind (h.decode _ hs) fun ⟨result, consumed⟩ s₁ hs₁ => ?_
    dsimp only
    split_ifs
    · exact .pure hs₁
    · exact .bind (h.startClose _ _ hs₁) fun _ _ hs₂ => .pure hs₂
    · refine h.modifyConn_bind hs₁ (.of_eq rfl rfl rfl) fun s₂ _ hs₂ => ?_
      refine .bind (h.callback hs₂ (by simp)) fun _ s₃ hs₃ => .getConn_bind ?_
      split_ifs
      · exact .pure hs₃
      · exact ih _ hs₃

lemma yieldOrFinish (fuel : Nat) (hs : I s) : Tends I G (yieldOrFinish cfg fuel) s fun _ => I := by
  dsimp only [Connx.yieldOrFinish, Platform.yieldOrFinish]
  refine .getConn_bind ?_
  split_ifs
  · refine .bind (h.scheduleParseContinuation hs) fun _ s₁ hs₁ => ?_
    exact h.modifyConn_bind hs₁ (.of_eq rfl rfl rfl) fun _ _ hs₂ => .pure hs₂
  · exact .bind (h.finishDeferredClose hs) fun _ _ hs₁ => Tends.getConn_bind (.pure hs₁)

lemma parseTail (offset fuel : Nat) (hs : I s) :
    Tends I G (parseTail cfg offset fuel) s fun _ => I := by
  dsimp only [Connx.parseTail, Platform.parseTail]
  split_ifs
  · refine .bind (P := fun _ => I) ?_ fun b s₁ hs₁ => ?_
    · dsimp only [Platform.moveRecvHeader]
      exact .getConn_bind (h.modifyConn_bind hs (.of_eq rfl rfl rfl) fun _ _ hs' => .pure hs')
    · split_ifs
      · exact h.yieldOrFinish fuel hs₁
      · exact .bind (h.startClose _ _ hs₁) fun _ _ hs₂ => .pure hs₂
  · exact h.yieldOrFinish fuel hs

lemma parseInput (hs : I s) : Tends I G (parseInput cfg) s fun _ => I := by
  dsimp only [Connx.parseInput, Platform.parseInput]
  refine h.modifyConn_bind hs (.of_eq rfl rfl rfl) fun s₁ _ hs₁ => .getConn_bind ?_
  split_ifs
  · exact .bind (h.finishDeferredClose hs₁) fun _ _ hs₂ => Tends.getConn_bind (.pure hs₂)
  · refine .bind (h.parseLoop _ _ _ hs₁) ?_
    rintro (_ | ⟨offset, fuel⟩) s₂ hs₂
    · exact .pure hs₂
    · exact h.parseTail offset fuel hs₂

lemma recvLoop (rs : List RecvResult) (n : Nat) (hs : I s) :
    Tends I G (recvLoop rs n) s fun _ => I := by
  induction rs generalizing n s with
  | nil => exact .pure hs
  | cons r rs ih =>
    unfold Connx.recvLoop
    split_ifs
    · exact .pure hs
    · match r with
      | .bytes [] => exact .pure hs
      | .bytes (b :: bs) =>
        refine h.modifyConn_bind hs ?_ fun _ _ hs₁ => ih _ hs₁
        exact .of_writing rfl
          (Conn.SameWriting.note s.conn (e := .appended _) (by simp) (by simp)).ran fun _ => .inl
      | .eintr => exact ih _ hs
      | .eagain => exact .pure hs
      | .failed e => exact .pure hs

lemma closeAfterParse (status : ParseStatus) (close : Option (CloseReason × ErrorText))
    (hs : I s) : Tends I G (closeAfterParse cfg status close) s fun _ => I := by
  match close, status with
  | none, _ => exact .pure hs
  | some _, .closed => exact .pure hs
  | some (reason, desc), .yielded =>
    have hdefer : s.conn.SameWriting (deferCloseUntilInputDrained reason desc s.conn) :=
      .of_eq rfl rfl rfl
    exact ⟨(h.same hs hdefer).2, (h.same hs hdefer).1⟩
  | some (reason, desc), .done => exact h.startClose reason desc hs

lemma platformHandleReadable (hs : I s) :
    Tends I G (platformHandleReadable cfg k) s fun _ => I := by
  refine .bind (h.recvLoop _ _ hs) fun close s₁ hs₁ => .getConn_bind ?_
  split_ifs
  · exact .bind (h.parseInput hs₁) fun _ _ hs₂ => h.closeAfterParse _ _ hs₂
  · exact h.closeAfterParse _ _ hs₁

lemma continueParse (hs : I s) : Tends I G (continueParse cfg) s fun _ => I := by
  refine .getConn_bind ?_
  split_ifs
  · exact .bind (h.parseInput hs) fun _ _ hs₁ => .pure hs₁
  · exact .pure hs

/-! ### Events -/

/-- What is read leaves the connection established if the event goes on. -/
lemma handleReadableEvent (ev : PollEvent) (hs : I s) (hc : s.conn.connected = true) :
    Tends I G (handleReadableEvent cfg k ev) s fun b s' =>
      I s' ∧ (b = true → s'.conn.connected = true) := by
  unfold Connx.handleReadableEvent
  split_ifs
  · exact .bind (h.platformHandleReadable hs) fun _ s₁ hs₁ => .getConn_bind (.pure ⟨hs₁, id⟩)
  · exact .pure ⟨hs, fun _ => hc⟩

lemma handleErrorEvent (ev : PollEvent) (hs : I s) :
    Tends I G (handleErrorEvent cfg k ev) s fun _ => I := by
  refine .getConn_bind ?_
  split
  · exact h.startClose _ _ hs
  · exact h.startClose _ _ hs

lemma handleTimerEvent (ev : TimerEvent) (hs : I s) :
    Tends I G (handleTimerEvent cfg ev) s fun _ => I := by
  refine .getConn_bind ?_
  split_ifs
  · exact .pure hs
  · exact h.startClose _ _ hs
  · exact .pure hs

end Spares

end tends

end Connx
