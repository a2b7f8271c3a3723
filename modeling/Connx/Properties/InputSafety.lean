import Connx.Properties.Framing

/-!
# `ParseInput` under an arbitrary codec

The codec is user code: its answers may be wrong, and may change from call to call. Whatever it
answers, one `ParseInput` decodes at most its budget of messages, and hands on only bytes of the
buffer it merged. Over a connected period the handler is given the received bytes one after the
other, and the bytes it was not given yet are the ones in the buffer.
-/

namespace Connx

open Relation Resum History

variable {cfg : Config}

/-! ### One call of `ParseInput` -/

/-- The payload is a range of the merged buffer, and not empty. -/
def NonemptyRange (merged payload : List Byte) : Prop :=
  payload ≠ [] ∧ ∃ offset, offset + payload.length ≤ merged.length ∧
    payload = (merged.drop offset).take payload.length

/-- The request hands on bytes of the merged buffer, if it hands on any. -/
def Request.WithinBuffer (merged : List Byte) : Request → Prop
  | .callback (.onMessage payload) => NonemptyRange merged payload
  | _ => True

lemma nonemptyRange_take {merged : List Byte} {offset n : Nat} (hpos : 0 < n)
    (hle : n ≤ merged.length - offset) : NonemptyRange merged ((merged.drop offset).take n) := by
  have hlen : ((merged.drop offset).take n).length = n := by
    rw [List.length_take, List.length_drop]
    omega
  exact ⟨List.ne_nil_of_length_pos (by omega), offset, by omega, by rw [hlen]⟩

section bounded

variable (merged : List Byte)

/-- A close makes one call, and delivers nothing. -/
lemma bounded_startClose (reason : CloseReason) (desc : ErrorText) (s : Local) :
    Bounded (Request.WithinBuffer merged) 1 (startClose cfg reason desc s) := by
  by_cases h : s.conn.state = .idle ∨ s.conn.state = .closing
  · rw [startClose_inactive h]
    exact bounded_ret _ _
  · rw [startClose_active (Conn.active_of_not_idle h)]
    split_ifs
    · refine ⟨?_, fun s' => bounded_ret _ _⟩
      unfold closeCallback
      split_ifs <;> trivial
    · exact bounded_ret _ _

lemma bounded_finishDeferredClose (s : Local) :
    Bounded (Request.WithinBuffer merged) 1 (finishDeferredClose cfg s) := by
  unfold finishDeferredClose
  change Bounded _ 1 ((ite _ _ _ : ConnM Unit) s)
  split_ifs
  · exact bounded_startClose merged _ _ _
  · exact bounded_ret _ _

/-- The loop delivers at most one message for each unit of its budget, and may then close. -/
lemma bounded_parseLoop (fuel offset : Nat) (s : Local) :
    Bounded (Request.WithinBuffer merged) (fuel + 1) (parseLoop cfg merged fuel offset s) := by
  induction fuel generalizing offset s with
  | zero => exact bounded_ret _ _
  | succ fuel ih =>
    unfold parseLoop Platform.parseLoop
    split_ifs with hend
    · exact bounded_ret _ _
    -- no matter what the codec answers
    refine (Bounded.bind (n := 0) (bounded_ret _ _) fun r s' => ?_).mono (Nat.zero_add _).le
    obtain ⟨result, consumed⟩ := r
    dsimp only
    split_ifs with hmore hbad
    · exact bounded_ret _ _
    · refine Bounded.mono (Bounded.bind_silent (bounded_startClose merged _ _ s') ?_)
        (Nat.le_add_left 1 _)
      exact fun _ _ => bounded_ret _ _
    · obtain ⟨-, hpos, hle⟩ : result ≠ .error ∧ consumed ≠ 0 ∧
          consumed ≤ merged.length - offset := by simpa using hbad
      refine ⟨nonemptyRange_take (Nat.pos_of_ne_zero hpos) hle, fun s'' => ?_⟩
      change Bounded _ _ ((ite _ _ _ : ConnM (Option (Nat × Nat))) s'')
      split_ifs
      · exact bounded_ret _ _
      · exact ih _ _

lemma bounded_parseTail (offset fuel : Nat) (s : Local) :
    Bounded (Request.WithinBuffer merged) 1 (parseTail cfg offset fuel s) := by
  have hyield : ∀ s', Bounded (Request.WithinBuffer merged) 1 (yieldOrFinish cfg fuel s') := by
    intro s'
    change Bounded _ 1 ((ite _ _ _ : ConnM ParseStatus) s')
    split_ifs
    · refine Bounded.bind_silent ?_ fun _ _ => bounded_ret _ _
      change Bounded _ 1 ((ite _ _ _ : ConnM Unit) s')
      split_ifs
      · exact bounded_ret _ _
      · exact ⟨trivial, fun _ => bounded_ret _ _⟩
    · exact (bounded_finishDeferredClose merged s').bind_silent fun _ _ => bounded_ret _ _
  unfold parseTail Platform.parseTail
  split_ifs
  · change Bounded _ 1 ((ite _ _ _ : ConnM ParseStatus) _)
    split_ifs
    · exact hyield _
    · exact (bounded_startClose merged _ _ _).bind_silent fun _ _ => bounded_ret _ _
  · exact hyield s

end bounded

/-- One `ParseInput`, whatever the buffer holds, the codec answers and the handler does: it ends
after at most its budget of messages, a close and a `Post`, and hands on bytes of its buffer. -/
lemma bounded_parseInput (s : Local) :
    Bounded (Request.WithinBuffer s.conn.recvBuffer.merge) (parseMessageBudget + 2)
      (parseInput cfg s) := by
  let merged := s.conn.recvBuffer.merge
  change Bounded (Request.WithinBuffer merged) (parseMessageBudget + 1 + 1)
    ((ite _ _ _ : ConnM ParseStatus) _)
  split_ifs
  · refine Bounded.mono (Bounded.bind_silent (bounded_finishDeferredClose merged _) ?_)
      (Nat.le_add_left 1 _)
    exact fun _ _ => bounded_ret _ _
  · refine (bounded_parseLoop merged parseMessageBudget 0 _).bind ?_
    rintro (_ | ⟨offset, fuel⟩) s'
    · exact bounded_ret _ _
    · exact bounded_parseTail merged offset fuel s'

/-! ### Accounting along moves -/

/-- What was handed to the handler and what is left in the buffer are what was received. -/
structure Accounted (c : Conn) : Prop extends Coherent c where
  received : ∃ y, (period c.trace).delivered.flatten ++ y = (period c.trace).received ∧
    (c.connected = true → y = c.input)
  parsed_le : c.parsed ≤ c.recvBuffer.content.length
  cleared : c.connected = false → c.recvBuffer.content = []
  messages : Always (fun before e => ∀ m, e = .call (.onMessage m) → m ≠ [] ∧
    (period before).delivered.flatten ++ m <+: (period before).received) c.trace
  bufferState : .closing .error .protocolBufferStateError ∉ c.trace

namespace Accounted

variable {c c' : Conn}

/-- Events that are no part of a connected period. -/
lemma quiet (h : Accounted c) (hcoh : Coherent c') (es : List Event)
    (htrace : c'.trace = c.trace ++ es) (hes : ∀ e ∈ es, e.Quiet)
    (hconn : c'.connected = c.connected) (hbuf : c'.recvBuffer = c.recvBuffer)
    (hparsed : c'.parsed = c.parsed) : Accounted c' where
  toCoherent := hcoh
  received := by
    rw [htrace, period_append, foldl_observe_of_quiet hes, hconn, Conn.input, hbuf, hparsed]
    exact h.received
  parsed_le := by rw [hparsed, hbuf]; exact h.parsed_le
  cleared := by rw [hconn, hbuf]; exact h.cleared
  messages := by
    rw [htrace]
    exact h.messages.append fun e he before m hm => absurd hm ((hes e he).ne_onMessage m)
  bufferState := by
    rw [htrace, List.mem_append, not_or]
    exact ⟨h.bufferState, fun hmem => (hes _ hmem).ne_closing _ _ rfl⟩

lemma received_input (h : Accounted c) (hc : c.connected = true) :
    (period c.trace).delivered.flatten ++ c.input = (period c.trace).received := by
  obtain ⟨y, hy, hinput⟩ := h.received
  rwa [← hinput hc]

lemma establish (h : Accounted c) (hc : c.connected = false)
    (hcoh : Coherent { c.note (.call .onConnected) with state := .connected, connected := true }) :
    Accounted { c.note (.call .onConnected) with state := .connected, connected := true } where
  toCoherent := hcoh
  received := by
    refine ⟨[], ?_, fun _ => ?_⟩
    · simp [Conn.note, Period.observe]
    · simp [Conn.input, Conn.note, h.cleared hc]
  parsed_le := h.parsed_le
  cleared := by simp
  messages := always_snoc.mpr ⟨h.messages, by simp⟩
  bufferState := by simpa [Conn.note] using h.bufferState

lemma append (h : Accounted c) (hc : c.connected = true) (data : List Byte) :
    Accounted (appendInput data c) where
  connected := h.connected
  closing := h.closing
  received := by
    refine ⟨c.input ++ data, ?_, fun _ => ?_⟩
    · simp [appendInput, Conn.note, Period.observe, ← h.received_input hc]
    · change _ = (c.recvBuffer.addSlice data).content.drop c.parsed
      rw [ByteBuffer.content_addSlice, List.drop_append_of_le_length h.parsed_le]
      rfl
  parsed_le := by
    refine h.parsed_le.trans ?_
    simp [appendInput, ConnFields.appendInput, Conn.note]
  cleared hdown := by simp [appendInput, ConnFields.appendInput, Conn.note, hc] at hdown
  messages := always_snoc.mpr ⟨h.messages, by simp⟩
  bufferState := by simpa [appendInput, Conn.note] using h.bufferState

lemma deliver (h : Accounted c) (hc : c.connected = true) {n : Nat} (hpos : 0 < n)
    (hle : n ≤ c.input.length) :
    Accounted { c.note (.call (.onMessage (c.input.take n))) with parsed := c.parsed + n } where
  connected := h.connected
  closing := h.closing
  received := by
    refine ⟨c.input.drop n, ?_, fun _ => List.drop_drop⟩
    simpa [Conn.note, Period.observe] using h.received_input hc
  parsed_le := by
    have hparsed := h.parsed_le
    have hlen : c.input.length = c.recvBuffer.content.length - c.parsed := List.length_drop
    change c.parsed + n ≤ c.recvBuffer.content.length
    omega
  cleared hdown := by simp [Conn.note, hc] at hdown
  messages := by
    refine always_snoc.mpr ⟨h.messages, fun m hm => ?_⟩
    obtain rfl : c.input.take n = m := by simpa using hm
    refine ⟨List.ne_nil_of_length_pos (by rw [List.length_take]; omega), ?_⟩
    rw [← h.received_input hc]
    exact (List.prefix_append_right_inj _).mpr <| List.take_prefix _ _
  bufferState := by simpa [Conn.note] using h.bufferState

lemma commit (h : Accounted c) (hc : c.connected = true) :
    Accounted { c with recvBuffer := (c.recvBuffer.moveHeader c.parsed).2, parsed := 0 } where
  connected := h.connected
  closing := h.closing
  received := by
    refine ⟨c.input, h.received_input hc, fun _ => ?_⟩
    rw [Conn.input, Conn.input, (c.recvBuffer.moveHeader_of_le h.parsed_le).2, List.drop_zero]
  parsed_le := Nat.zero_le _
  cleared hdown := by
    have hdown' : c.connected = false := hdown
    simp [hc] at hdown'
  messages := h.messages
  bufferState := h.bufferState

lemma closeConn {s : Local} (h : Accounted s.conn) {reason : CloseReason} {desc : ErrorText}
    (hdesc : reason = .error → desc ≠ .protocolBufferStateError) :
    Accounted (closeConn cfg reason desc s).conn where
  toCoherent := coherent_closeConn _ _ _
  received := by
    obtain ⟨y, hy, -⟩ := h.received
    refine ⟨y, ?_, by simp [closeConn_conn]⟩
    rw [closeConn_trace]
    simpa [Period.observe] using hy
  parsed_le := by simp [closeConn_conn]
  cleared := by simp [closeConn_conn]
  messages := by
    rw [closeConn_trace]
    exact always_snoc.mpr ⟨h.messages, by simp⟩
  bufferState := by
    rw [closeConn_trace, List.mem_append, not_or]
    refine ⟨h.bufferState, fun hmem => ?_⟩
    obtain ⟨rfl, rfl⟩ : CloseReason.error = reason ∧ ErrorText.protocolBufferStateError = desc := by
      simpa using hmem
    exact hdesc rfl rfl

end Accounted

variable {F : Facts}

/-- No cause of a close is a wrong state of the buffer. -/
lemma Cause.ne_bufferState {c : Conn} {reason : CloseReason} {desc : ErrorText}
    (h : Cause cfg F c reason desc) (hr : reason = .error) : desc ≠ .protocolBufferStateError := by
  subst hr
  rintro rfl
  cases h with
  | drained _ _ hn => simp [NetworkClose] at hn

/-- A step of the input keeps the accounts, whatever the codec answered. -/
lemma Accounted.step {c c' : Conn} (hs : Accounted c) (h : InputStep cfg F c c') :
    Accounted c' := by
  cases h with
  | quiet es hes htrace hcoh hconn hbuf hparsed =>
    exact hs.quiet hcoh es htrace hes hconn hbuf hparsed
  | establish hc hcoh => exact hs.establish hc hcoh
  | append data hc => exact hs.append hc data
  | deliver call n hc _ hpos hle => exact hs.deliver hc hpos hle
  | commit hc => exact hs.commit hc
  | close reason desc hcause =>
    refine hs.closeConn fun hr => ?_
    exact (hcause.resolve_left (by simp [hr])).ne_bufferState hr

lemma accounted_init : Accounted {} where
  connected := by simp
  closing := by simp
  received := ⟨[], rfl, by simp⟩
  parsed_le := Nat.zero_le _
  cleared := fun _ => rfl
  messages := always_nil
  bufferState := by simp

/-! ### Runs -/

/-- What the handler was given in the latest connected period. -/
structure InputSafe (client : Client) : Prop where
  inOrder : (period client.conn.trace).delivered.flatten <+: (period client.conn.trace).received
  messages : ∀ before m after, client.conn.trace = before ++ .call (.onMessage m) :: after →
    m ≠ [] ∧ (period before).delivered.flatten ++ m <+: (period before).received
  buffered : client.running = none → client.conn.connected = true →
    (period client.conn.trace).received =
        (period client.conn.trace).delivered.flatten ++ client.conn.recvBuffer.content ∧
      (period client.conn.trace).received.length =
        (period client.conn.trace).delivered.flatten.length + client.conn.recvBuffer.getBufferLength
  bufferState : .closing .error .protocolBufferStateError ∉ client.conn.trace

/-- Whatever the codec answers: one `ParseInput` ends and hands on only ranges of its buffer, and in
every run the handler is given the bytes of the stream in order, each of them once. -/
theorem inputSafe_of_exec (cfgs : Nat → Config) (ls : List Label) {S : System}
    (hexec : Run.exec (System.step cfgs) {} ls = some S) (i : Nat) :
    (∀ s : Local, Bounded (Request.WithinBuffer s.conn.recvBuffer.merge) (parseMessageBudget + 2)
      (parseInput (cfgOf cfgs i) s)) ∧ InputSafe (S.clients i) := by
  have hrefines := (reaches_of_exec hexec).refines
  have haccounted : Accounted (S.clients i).conn :=
    hrefines.steps.conn_invariant (P := fun _ => Accounted) (fun _ => accounted_init)
      (fun _ _ _ hs hm => hm.preserves (fun _ _ => Accounted.step) hs.toCoherent hs) i
  refine ⟨bounded_parseInput, ?_, fun before m after h => ?_, fun hrun hc => ?_,
    haccounted.bufferState⟩
  · obtain ⟨y, hy, -⟩ := haccounted.received
    exact ⟨y, hy⟩
  · exact haccounted.messages before _ after h m rfl
  · have hstable := (hrefines.inv.client i).stable hrun
    obtain ⟨-, hp, -⟩ := hstable.resolve_left fun hd => hd.not_connected hc
    have hreceived := haccounted.received_input hc
    rw [Conn.input, hp, List.drop_zero] at hreceived
    refine ⟨hreceived.symm, ?_⟩
    rw [← hreceived, List.length_append, ByteBuffer.getBufferLength_eq]

/-- A codec whose first answer is right and whose other answers are longer than the buffer. -/
def hostileCodec : Nat → Config := fun i =>
  { self := i, codec := fun call x => (.success, if call = 0 then 2 else x.length + 1) }

/-- A chunk of three bytes for the hostile codec. -/
def hostileRun : List Label :=
  [.connectBegin 0, .connectMove 0 0, .connectPost 0 0 none,
    .drain 0 { openSocket := .opened 3, connect := .done }, .resume 0,
    .pollWait [{ id := ⟨0, 1⟩, readable := true, reg := 0 }], .acquireEvent, .postAcquired,
    .drain 0 { recv := [.bytes [1, 2, 3]] }, .resume 0]

theorem inputSafe_hostileRun :
    ∃ S, Run.exec (System.step hostileCodec) {} hostileRun = some S ∧
      (period (S.clients 0).conn.trace).delivered = [[1, 2]] ∧ InputSafe (S.clients 0) := by
  have hrun : (Run.exec (System.step hostileCodec) {} hostileRun).map
      (fun S => (period (S.clients 0).conn.trace).delivered) = some [[1, 2]] := by
    decide +kernel
  obtain ⟨S, hS, hdelivered⟩ := Option.map_eq_some_iff.mp hrun
  exact ⟨S, hS, hdelivered, (inputSafe_of_exec hostileCodec hostileRun hS 0).2⟩

end Connx
