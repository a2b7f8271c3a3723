import Connx.Net.Connection.Changes

/-!
# The states between tasks, and what interference leaves of them

`Stable` describes a connection between two of its tasks, `Serving` an established connection
while a task of it runs. A task that is suspended finds an established connection as it left it,
up to the queue and the history, or released.
-/

namespace Connx

open Relation

variable {cfg : Config}

/-! ### Stable states -/

/-- A connection that is established. -/
structure Up (c : Conn) : Prop where
  state : c.state = .connected
  connected : c.connected = true
  deferred : c.deferredClosePending = true → NetworkClose c.deferredCloseReason c.deferredCloseDesc
  parsed_le : c.parsed ≤ c.recvBuffer.content.length

/-- A connection that is established and whose owner still has it. -/
structure Live (c : Conn) : Prop extends Up c where
  notReturned : .ownerReturned ∉ c.trace

/-- A connection that is not established. -/
structure Down (c : Conn) : Prop where
  state : c.state = .idle ∨ c.state = .connecting
  connected : c.connected = false
  deferred : c.deferredClosePending = false
  content : c.recvBuffer.content = []
  parsed : c.parsed = 0

/-- A parse continuation is queued, unless the connection takes no tasks any more. -/
def Waiting (c : Conn) : Prop := .parseContinuation ∈ c.queue ∨ c.acceptingTasks = false

/-- Complete messages are left in the buffer only if a parse continuation will come. -/
def Ready (cfg : Config) (c : Conn) : Prop := Drained cfg c.recvBuffer.content ∨ Waiting c

/-- What holds of a connection between two of its tasks. -/
def Stable (cfg : Config) (c : Conn) : Prop := Down c ∨ (Up c ∧ c.parsed = 0 ∧ Ready cfg c)

/-- An established connection between two functions of a task. -/
structure Serving (cfg : Config) (c : Conn) : Prop extends Live c where
  parsed : c.parsed = 0
  ready : Ready cfg c

lemma Up.active {c : Conn} (h : Up c) : c.Active := Or.inr h.state

lemma Down.not_connected {c : Conn} (h : Down c) : c.connected ≠ true := by simp [h.connected]

lemma Serving.stable {c : Conn} (h : Serving cfg c) : Stable cfg c :=
  Or.inr ⟨h.toUp, h.parsed, h.ready⟩

lemma Serving.input {c : Conn} (h : Serving cfg c) : c.input = c.recvBuffer.content := by
  simp [Conn.input, h.parsed]

/-! ### The operations of other threads -/

lemma down_closeConn (reason : CloseReason) (desc : ErrorText) (s : Local) :
    Down (closeConn cfg reason desc s).conn := by
  rw [closeConn_conn]
  exact ⟨Or.inl rfl, rfl, rfl, rfl, rfl⟩

lemma Down.note {c : Conn} (h : Down c) (e : Event) : Down (c.note e) :=
  ⟨h.state, h.connected, h.deferred, h.content, h.parsed⟩

lemma Up.note {c : Conn} (h : Up c) (e : Event) : Up (c.note e) :=
  ⟨h.state, h.connected, h.deferred, h.parsed_le⟩

lemma Stable.note {c : Conn} (h : Stable cfg c) (e : Event) : Stable cfg (c.note e) :=
  h.imp (fun hd => hd.note e) fun ⟨hu, hp, hr⟩ => ⟨hu.note e, hp, hr⟩

lemma Stable.resetYield {c : Conn} (h : Stable cfg c) :
    Stable cfg { c with drainYieldRequested := false } :=
  h.imp (fun hd => ⟨hd.state, hd.connected, hd.deferred, hd.content, hd.parsed⟩)
    fun ⟨hu, hp, hr⟩ => ⟨⟨hu.state, hu.connected, hu.deferred, hu.parsed_le⟩, hp, hr⟩

lemma down_closeRelease {s : Local} (h : s.conn.Active ∨ Down s.conn) :
    Down (closeRelease cfg s).conn := by
  unfold closeRelease
  split_ifs with hs
  · rcases h with (h | h) | h
    · simp [h] at hs
    · simp [h] at hs
    · exact h
  · exact down_closeConn _ _ _

/-- Two connections that differ in their queue and their history only. -/
structure SameButQueue (c c' : Conn) : Prop where
  eq : c' = { c with
    queue := c'.queue, acceptingTasks := c'.acceptingTasks, ownerClosing := c'.ownerClosing
    trace := c'.trace }
  notReturned : .ownerReturned ∉ c.trace → .ownerReturned ∉ c'.trace
  waiting : Waiting c → Waiting c'

namespace SameButQueue

lemma refl (c : Conn) : SameButQueue c c := ⟨rfl, id, id⟩

lemma trans {a b c : Conn} (h : SameButQueue a b) (h' : SameButQueue b c) : SameButQueue a c :=
  ⟨by rw [h'.eq, h.eq], h'.notReturned ∘ h.notReturned, h'.waiting ∘ h.waiting⟩

lemma note (c : Conn) {e : Event} (he : e ≠ .ownerReturned) : SameButQueue c (c.note e) :=
  ⟨rfl, fun h => by simpa [Conn.note] using ⟨h, he.symm⟩, id⟩

variable {c c' : Conn}

lemma recvBuffer (h : SameButQueue c c') : c'.recvBuffer = c.recvBuffer := by rw [h.eq]

lemma up (hs : SameButQueue c c') (h : Up c) : Up c' := by
  rw [hs.eq]
  exact ⟨h.state, h.connected, h.deferred, h.parsed_le⟩

lemma live (hs : SameButQueue c c') (h : Live c) : Live c' :=
  ⟨hs.up h.toUp, hs.notReturned h.notReturned⟩

lemma ready (hs : SameButQueue c c') (h : Ready cfg c) : Ready cfg c' := by
  unfold Ready
  rw [hs.recvBuffer]
  exact h.imp_right hs.waiting

lemma serving (hs : SameButQueue c c') (h : Serving cfg c) : Serving cfg c' :=
  ⟨hs.live h.toLive, by rw [hs.eq]; exact h.parsed, hs.ready h.ready⟩

end SameButQueue

/-! ### During a suspension -/

section interference

variable {c c' : Conn}

/-- Another thread cannot bring a connection up. -/
lemma Down.outside (h : Down c) (ho : Outside c c') : Down c' := by
  cases ho with
  | connectBegan call => exact h.note _
  | connectMoved call hs => exact ⟨Or.inr rfl, rfl, h.deferred, h.content, h.parsed⟩
  | disconnectReturned call => exact h.note _
  | push t => exact ⟨h.state, h.connected, h.deferred, h.content, h.parsed⟩
  | ownerClosing => exact ⟨h.state, h.connected, h.deferred, h.content, h.parsed⟩
  | stopAccepting => exact ⟨h.state, h.connected, h.deferred, h.content, h.parsed⟩

/-- Another thread leaves an established connection as it is. -/
lemma Up.outside (h : Up c) (ho : Outside c c') : SameButQueue c c' := by
  cases ho with
  | connectBegan call => exact .note _ (by simp)
  | connectMoved call hs => simp [h.state] at hs
  | disconnectReturned call => exact .note _ (by simp)
  | push t => exact ⟨rfl, id, fun h => h.imp (List.mem_append_left _) id⟩
  | ownerClosing => exact ⟨rfl, id, id⟩
  | stopAccepting => exact ⟨rfl, id, fun _ => Or.inr rfl⟩

lemma Stable.outside (h : Stable cfg c) (ho : Outside c c') : Stable cfg c' := by
  refine h.imp (fun h => h.outside ho) fun ⟨hu, hp, hr⟩ => ?_
  have hs := hu.outside ho
  exact ⟨hs.up hu, by rw [hs.eq]; exact hp, hs.ready hr⟩

lemma Up.outsides (h : Up c) (ho : ReflTransGen Outside c c') : SameButQueue c c' := by
  induction ho with
  | refl => exact .refl _
  | tail _ hstep ih => exact ih.trans ((ih.up h).outside hstep)

lemma Down.releasing (h : Down c) (ho : Releasing cfg c c') : Down c' := by
  cases ho with
  | discard hq ha => exact ⟨h.state, h.connected, h.deferred, h.content, h.parsed⟩
  | close rt => exact down_closeRelease (Or.inr h)
  | returned hc => exact h.note _

/-- A release takes an established connection down before it returns. -/
lemma Up.releasing (h : Up c) (ho : Releasing cfg c c') : SameButQueue c c' ∨ Down c' := by
  cases ho with
  | discard hq ha => exact Or.inl ⟨rfl, id, fun _ => Or.inr ha⟩
  | close rt => exact Or.inr (down_closeRelease (Or.inl h.active))
  | returned hc => simp [h.connected] at hc

lemma Down.meanwhile (h : Down c) (ho : ReflTransGen (Meanwhile cfg) c c') : Down c' := by
  induction ho with
  | refl => exact h
  | tail _ hstep ih => exact hstep.elim ih.outside ih.releasing

/-- A callback leaves an established connection as it is, or releases it. -/
lemma Up.meanwhile (h : Up c) (ho : ReflTransGen (Meanwhile cfg) c c') :
    SameButQueue c c' ∨ Down c' := by
  induction ho with
  | refl => exact Or.inl (.refl _)
  | tail _ hstep ih =>
    rcases ih with hsame | hdown
    · rcases hstep with ho | hr
      · exact Or.inl (hsame.trans ((hsame.up h).outside ho))
      · exact ((hsame.up h).releasing hr).imp_left hsame.trans
    · exact Or.inr (hstep.elim hdown.outside hdown.releasing)

end interference

end Connx
