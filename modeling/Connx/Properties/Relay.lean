import Connx.Properties.CodecStreams
import Connx.Properties.SendStream

/-!
# Messages from one client to another

The peers of the library's clients are servers. A server that relays bytes, or sends them back,
connects the output of one client with the input of another one, or of the same. If every message
is a frame of the receiver's codec then messages arrive one by one as they were sent, however the
kernels and the network cut the stream.
-/

namespace Connx

open Framing

/-- The message of a `SendBuffer` task. -/
def Task.message : Task → Option (List Byte)
  | .send msg => some msg
  | _ => none

/-- The messages whose `SendBuffer` tasks started since the connection was last established. -/
def sentMessages (trace : List Event) : List (List Byte) :=
  (ranInPeriod trace).filterMap Task.message

lemma flatten_sentMessages (trace : List Event) :
    (sentMessages trace).flatten = payloads trace := by
  unfold sentMessages payloads
  induction ranInPeriod trace with
  | nil => rfl
  | cons t ts ih =>
    rw [List.flatMap_cons, ← ih]
    cases t <;> rfl

/-- What the receiver got is the first part of what the sender's kernel took. -/
structure Relayed (sender receiver : Conn) : Prop where
  sending : sender.connected = true
  wire : (period receiver.trace).received <+: acceptedBytes sender.output

/-- What arrives of the messages of a sender. -/
structure MessagesArrive (sender : Conn) (receiver : Client) : Prop where
  inOrder : (period receiver.conn.trace).delivered <+: sentMessages sender.trace
  complete : receiver.Idle → sender.sendBuffer.isEmpty = true →
    (period receiver.conn.trace).received = acceptedBytes sender.output →
    (period receiver.conn.trace).delivered = sentMessages sender.trace

/-- In every run of a sender and every run of a receiver, joined by a relay: the receiver's handler
is called with the messages that were sent, each once and in order. -/
theorem messagesArrive_of_relayed (cfgs cfgs' : Nat → Config) (ls ls' : List Label)
    {S S' : System} (hexec : Run.exec (System.step cfgs) {} ls = some S)
    (hexec' : Run.exec (System.step cfgs') {} ls' = some S') (i j : Nat)
    (hcfg : (cfgOf cfgs' j).PrefixStable)
    (hframes : ∀ m ∈ sentMessages (S.clients i).conn.trace, IsFrame (cfgOf cfgs' j).answer m)
    (hrelay : Relayed (S.clients i).conn (S'.clients j).conn) :
    MessagesArrive (S.clients i).conn (S'.clients j) := by
  have hi := (sends_of_exec hexec).settled i
  have hj := framed_of_exec hexec' j hcfg
  have hstream : acceptedBytes (S.clients i).conn.output ++ (S.clients i).conn.sendBuffer.content =
      (sentMessages (S.clients i).conn.trace).flatten := by
    have hstream := hi.stream (hi.connected.mp hrelay.sending)
    rwa [List.append_nil, ← flatten_sentMessages] at hstream
  constructor
  · obtain ⟨y, hparses, -⟩ := hj.parses
    refine hcfg.answer.prefix_of_written hframes hparses ?_
    exact hrelay.wire.trans ⟨_, hstream⟩
  · intro hidle hempty hreceived
    obtain ⟨hinput, hdrained⟩ := hidle.drained hexec'
    rw [← hinput] at hdrained
    obtain ⟨hall, -⟩ := hj.complete hcfg hidle.connected (hcfg.drained hdrained).1
    rw [hall, hreceived, ← hcfg.answer.frames_flatten hframes, ← hstream,
      (ByteBuffer.isEmpty_iff _).mp hempty, List.append_nil]

/-- A server sends two messages back in other pieces than it got them. -/
def echoed : List Label :=
  [.connectBegin 0, .connectMove 0 0, .connectPost 0 0 none,
    .drain 0 { openSocket := .opened 3, connect := .done }, .resume 0,
    .sendCheck 0 [1], .sendPost 0 [1], .drain 0 {},
    .sendCheck 0 [2], .sendPost 0 [2], .drain 0 {},
    .pollWait [{ id := ⟨0, 1⟩, writable := true, reg := 0 }], .acquireEvent, .postAcquired,
    .drain 0 { send := [.sent 1, .sent 1] },
    .pollWait [{ id := ⟨0, 1⟩, readable := true, reg := 0 }], .acquireEvent, .postAcquired,
    .drain 0 { recv := [.bytes [1, 2]] }, .resume 0, .resume 0]

theorem messagesArrive_echoed :
    ∃ S, Run.exec (System.step (FixedLengthCodec.new 1).clients) {} echoed = some S ∧
      (period (S.clients 0).conn.trace).delivered = [[1], [2]] ∧
      MessagesArrive (S.clients 0).conn (S.clients 0) := by
  have hrun : (Run.exec (System.step (FixedLengthCodec.new 1).clients) {} echoed).map (fun S =>
      ((period (S.clients 0).conn.trace).delivered, sentMessages (S.clients 0).conn.trace,
        (S.clients 0).conn.connected, (period (S.clients 0).conn.trace).received,
        acceptedBytes (S.clients 0).conn.output)) =
      some ([[1], [2]], [[1], [2]], true, [1, 2], [1, 2]) := by
    decide +kernel
  obtain ⟨S, hS, heq⟩ := Option.map_eq_some_iff.mp hrun
  simp only [Prod.mk.injEq] at heq
  obtain ⟨hdelivered, hsent, hconnected, hreceived, haccepted⟩ := heq
  refine ⟨S, hS, hdelivered, messagesArrive_of_relayed _ _ echoed echoed hS hS 0 0
    ((FixedLengthCodec.new 1).prefixStable rfl) ?_ ⟨hconnected, ?_⟩⟩
  · rw [hsent]
    decide
  · rw [hreceived, haccepted]

end Connx
