import Connx.Properties.Framing

/-!
# What the delimiter and the fixed length codec deliver

The handler of a client with one of these codecs sees the received stream cut in the plain way: at
every delimiter, or into chunks of one size. This holds in every state of every run, for what was
delivered so far; once no parse continuation is queued the buffer holds the piece that is not
complete. Neither codec ever closes a connection.
-/

namespace Connx

open Framing History

/-! ### Framing in reachable states -/

section reachable

variable {cfgs : Nat → Config} {ls : List Label} {S : System}

lemma framed_of_exec (hexec : Run.exec (System.step cfgs) {} ls = some S) (i : Nat)
    (hcfg : (cfgOf cfgs i).PrefixStable) : Framed (cfgOf cfgs i) (S.clients i).conn :=
  (reaches_of_exec hexec).refines.steps.conn_invariant
    (P := fun j c => (cfgOf cfgs j).PrefixStable → Framed (cfgOf cfgs j) c)
    (fun _ _ => framed_init) (fun _ _ _ hs hm hcfg => hm.framed hcfg (hs hcfg)) i hcfg

/-- No task runs, and none is queued that would go on with the input. -/
structure Client.Idle (client : Client) : Prop where
  running : client.running = none
  connected : client.conn.connected = true
  accepting : client.conn.acceptingTasks = true
  queue : .parseContinuation ∉ client.conn.queue

/-- The input of an idle client is drained, and all of it is in the buffer. -/
lemma Client.Idle.drained {i : Nat} (h : (S.clients i).Idle)
    (hexec : Run.exec (System.step cfgs) {} ls = some S) :
    (S.clients i).conn.input = (S.clients i).conn.recvBuffer.content ∧
      Drained (cfgOf cfgs i) (S.clients i).conn.recvBuffer.content := by
  have hstable := ((reaches_of_exec hexec).refines.inv.client i).stable h.running
  obtain ⟨-, hparsed, hready⟩ := hstable.resolve_left fun hd => hd.not_connected h.connected
  refine ⟨by rw [Conn.input, hparsed, List.drop_zero], hready.resolve_right ?_⟩
  rintro (hmem | hacc)
  · exact h.queue hmem
  · rw [h.accepting] at hacc
    cases hacc

end reachable

/-- One answer of a stateless codec is all its answers. -/
lemma Config.PrefixStable.answer_of_more {cfg : Config} (h : cfg.PrefixStable) {x : List Byte}
    {call n : Nat} (hmore : cfg.codec call x = (.needMoreData, n)) : cfg.answer x = .more := by
  rw [Config.answer, h.stateless 0 call, hmore]

/-- A codec whose answer never is an error closes nothing. -/
lemma Framed.no_decodeError {cfg : Config} {c : Conn} (h : Framed cfg c)
    (hne : ∀ x, cfg.answer x ≠ .error) : .closing .error .protocolDecodeError ∉ c.trace := by
  intro hmem
  obtain ⟨before, after, htrace⟩ := List.append_of_mem hmem
  exact hne _ (h.rejected before _ after htrace rfl).2.2

/-! ### The delimiter codec -/

namespace DelimiterCodec

variable (c : DelimiterCodec)

/-- The stream of the latest connected period, as the handler sees it. -/
structure Splits (client : Client) : Prop where
  framed : ∀ m ∈ (period client.conn.trace).delivered,
    ∃ body, m = body ++ [c.delimiter] ∧ c.delimiter ∉ body
  inOrder : (period client.conn.trace).delivered.map List.dropLast <+:
    (period client.conn.trace).received.splitOn c.delimiter
  complete : client.Idle → (period client.conn.trace).received.splitOn c.delimiter =
    (period client.conn.trace).delivered.map List.dropLast ++ [client.conn.recvBuffer.content]
  noError : .closing .error .protocolDecodeError ∉ client.conn.trace

/-- In every run a client with a delimiter codec delivers the received stream split at the
delimiters. -/
theorem splits_of_exec (cfgs : Nat → Config) (ls : List Label) {S : System}
    (hexec : Run.exec (System.step cfgs) {} ls = some S) (i : Nat)
    (hcodec : (cfgs i).codec = c.codec) : c.Splits (S.clients i) := by
  have hanswer : (cfgOf cfgs i).answer = delimited c.delimiter := c.answer_eq hcodec
  have hframed := framed_of_exec hexec i (c.prefixStable hcodec)
  obtain ⟨y, hparses, hy⟩ := hframed.parses
  rw [hanswer] at hparses
  refine ⟨?_, ?_, fun hidle => ?_, ?_⟩
  · exact hparses.forall_mem fun x n hx => delimited_take hx
  · exact ⟨_, hparses.splitOn.symm⟩
  · obtain ⟨hinput, hdrained⟩ := hidle.drained hexec
    rw [hparses.splitOn, hy hidle.connected, hinput]
    congr 1
    refine List.splitOn_eq_singleton ?_
    rcases hdrained with hnil | ⟨call, n, hmore⟩
    · rw [hnil]
      exact List.not_mem_nil
    · rw [← delimited_eq_more, ← hanswer]
      exact (c.prefixStable hcodec).answer_of_more hmore
  · refine hframed.no_decodeError fun x => ?_
    rw [hanswer]
    exact delimited_ne_error

/-- Clients whose messages end with a zero byte. -/
def zeroEnded : Nat → Config := fun i => { self := i, codec := codec ⟨0⟩ }

/-- A message, and the beginning of another one in the same chunk. -/
def oneAndAHalf : List Label :=
  [.connectBegin 0, .connectMove 0 0, .connectPost 0 0 none,
    .drain 0 { openSocket := .opened 3, connect := .done }, .resume 0,
    .pollWait [{ id := ⟨0, 1⟩, readable := true, reg := 0 }], .acquireEvent, .postAcquired,
    .drain 0 { recv := [.bytes [1, 2], .bytes [0, 3]] }, .resume 0]

theorem splits_oneAndAHalf :
    ∃ S, Run.exec (System.step zeroEnded) {} oneAndAHalf = some S ∧
      (period (S.clients 0).conn.trace).delivered = [[1, 2, 0]] ∧
      (S.clients 0).conn.recvBuffer.content = [3] ∧ Splits ⟨0⟩ (S.clients 0) := by
  have hrun : (Run.exec (System.step zeroEnded) {} oneAndAHalf).map (fun S =>
      ((period (S.clients 0).conn.trace).delivered, (S.clients 0).conn.recvBuffer.content)) =
        some ([[1, 2, 0]], [3]) := by
    decide +kernel
  obtain ⟨S, hS, heq⟩ := Option.map_eq_some_iff.mp hrun
  obtain ⟨hdelivered, hcontent⟩ := Prod.ext_iff.mp heq
  exact ⟨S, hS, hdelivered, hcontent, splits_of_exec ⟨0⟩ zeroEnded oneAndAHalf hS 0 rfl⟩

end DelimiterCodec

/-! ### The fixed length codec -/

namespace FixedLengthCodec

variable (c : FixedLengthCodec)

/-- The stream of the latest connected period, as the handler sees it. -/
structure Chunks (client : Client) : Prop where
  sizes : ∀ m ∈ (period client.conn.trace).delivered, m.length = c.fixedLength
  inOrder : (period client.conn.trace).delivered.flatten <+: (period client.conn.trace).received
  complete : client.Idle → (period client.conn.trace).received =
      (period client.conn.trace).delivered.flatten ++ client.conn.recvBuffer.content ∧
    (period client.conn.trace).delivered.length =
      (period client.conn.trace).received.length / c.fixedLength ∧
    client.conn.recvBuffer.content.length =
      (period client.conn.trace).received.length % c.fixedLength
  noError : .closing .error .protocolDecodeError ∉ client.conn.trace

/-- In every run a client with a fixed length codec delivers the received stream in chunks of that
length. -/
theorem chunks_of_exec (cfgs : Nat → Config) (ls : List Label) {S : System}
    (hexec : Run.exec (System.step cfgs) {} ls = some S) (i : Nat)
    (hcodec : (cfgs i).codec = c.codec) : c.Chunks (S.clients i) := by
  have hanswer : (cfgOf cfgs i).answer = fixed c.fixedLength := c.answer_eq hcodec
  have hframed := framed_of_exec hexec i (c.prefixStable hcodec)
  obtain ⟨y, hparses, hy⟩ := hframed.parses
  rw [hanswer] at hparses
  refine ⟨?_, ?_, fun hidle => ?_, ?_⟩
  · exact hparses.forall_mem fun x n hx => length_take_of_fixed hx
  · exact ⟨y, hparses.flatten⟩
  · obtain ⟨hinput, hdrained⟩ := hidle.drained hexec
    rw [hy hidle.connected, hinput] at hparses
    have hshort : (S.clients i).conn.recvBuffer.content.length < c.fixedLength := by
      rcases hdrained with hnil | ⟨call, n, hmore⟩
      · rw [hnil]
        exact c.pos
      · rw [← fixed_eq_more, ← hanswer]
        exact (c.prefixStable hcodec).answer_of_more hmore
    have hlength : (S.clients i).conn.recvBuffer.content.length +
        c.fixedLength * (period (S.clients i).conn.trace).delivered.length =
          (period (S.clients i).conn.trace).received.length := by
      rw [hparses.length_fixed, Nat.mul_comm, Nat.add_comm]
    obtain ⟨hdiv, hmod⟩ := (Nat.div_mod_unique c.pos).mpr ⟨hlength, hshort⟩
    exact ⟨hparses.flatten.symm, hdiv.symm, hmod.symm⟩
  · refine hframed.no_decodeError fun x => ?_
    rw [hanswer]
    exact fixed_ne_error

/-- Clients whose messages have two bytes. -/
def pairs : Nat → Config := fun i => { self := i, codec := codec (new 2) }

/-- Five bytes in three chunks. -/
def fiveBytes : List Label :=
  [.connectBegin 0, .connectMove 0 0, .connectPost 0 0 none,
    .drain 0 { openSocket := .opened 3, connect := .done }, .resume 0,
    .pollWait [{ id := ⟨0, 1⟩, readable := true, reg := 0 }], .acquireEvent, .postAcquired,
    .drain 0 { recv := [.bytes [1], .bytes [2, 3, 4], .bytes [5]] }, .resume 0, .resume 0]

theorem chunks_fiveBytes :
    ∃ S, Run.exec (System.step pairs) {} fiveBytes = some S ∧
      (period (S.clients 0).conn.trace).delivered = [[1, 2], [3, 4]] ∧
      (S.clients 0).conn.recvBuffer.content = [5] ∧ Chunks (new 2) (S.clients 0) := by
  have hrun : (Run.exec (System.step pairs) {} fiveBytes).map (fun S =>
      ((period (S.clients 0).conn.trace).delivered, (S.clients 0).conn.recvBuffer.content)) =
        some ([[1, 2], [3, 4]], [5]) := by
    decide +kernel
  obtain ⟨S, hS, heq⟩ := Option.map_eq_some_iff.mp hrun
  obtain ⟨hdelivered, hcontent⟩ := Prod.ext_iff.mp heq
  exact ⟨S, hS, hdelivered, hcontent, chunks_of_exec (new 2) pairs fiveBytes hS 0 rfl⟩

end FixedLengthCodec

end Connx
