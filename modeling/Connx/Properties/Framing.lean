import Connx.Codec.Splitting
import Connx.Lib.Cutting
import Connx.Lib.History
import Connx.Net.Refinement

/-!
# Framing of the received bytes

`ParseInput` takes at most a budget of messages off the front of the buffer, yields, and goes on in
a later task, while further bytes may have been appended. With a prefix-stable codec none of this is
visible to the handler: what was delivered is what decoding the whole stream gives, as far as it
went. All of it is delivered when no parse continuation is queued, and when the codec rejects the
stream.

A close by the peer that `recv` reports waits for the parse continuation. An error event and a
failing send do not wait, and the frames that are still in the buffer are lost.
-/

namespace Connx

open Relation Framing History

/-! ### Prefix-stable codecs -/

/-- The answer depends only on the buffer, and is final unless it asks for more. -/
structure Config.PrefixStable (cfg : Config) : Prop where
  stateless : ∀ m n x, cfg.codec m x = cfg.codec n x
  success : ∀ x n, cfg.codec 0 x = (.success, n) →
    0 < n ∧ n ≤ x.length ∧ ∀ y, cfg.codec 0 (x ++ y) = (.success, n)
  error : ∀ x, (cfg.codec 0 x).1 = .error → ∀ y, (cfg.codec 0 (x ++ y)).1 = .error

/-- The answer of the codec about a buffer. -/
def Config.answer (cfg : Config) (x : List Byte) : Answer :=
  match cfg.codec 0 x with
  | (.success, n) => .frame n
  | (.needMoreData, _) => .more
  | (.error, _) => .error

section answer

variable {cfg : Config}

lemma Config.answer_eq_frame {x : List Byte} {n : Nat} :
    cfg.answer x = .frame n ↔ cfg.codec 0 x = (.success, n) := by
  unfold Config.answer
  split <;> simp_all

lemma Config.answer_eq_error {x : List Byte} :
    cfg.answer x = .error ↔ (cfg.codec 0 x).1 = .error := by
  unfold Config.answer
  split <;> simp_all

lemma Config.PrefixStable.answer (h : cfg.PrefixStable) : Framing.PrefixStable cfg.answer where
  pos hx := (h.success _ _ (Config.answer_eq_frame.mp hx)).1
  le hx := (h.success _ _ (Config.answer_eq_frame.mp hx)).2.1
  frame hx y := Config.answer_eq_frame.mpr ((h.success _ _ (Config.answer_eq_frame.mp hx)).2.2 y)
  error hx y := Config.answer_eq_error.mpr (h.error _ (Config.answer_eq_error.mp hx) y)

lemma Config.prefixStable_of_answer (hstateless : ∀ m n x, cfg.codec m x = cfg.codec n x)
    (h : Framing.PrefixStable cfg.answer) : cfg.PrefixStable where
  stateless := hstateless
  success x n hx := by
    rw [← Config.answer_eq_frame] at hx
    exact ⟨h.pos hx, h.le hx, fun y => Config.answer_eq_frame.mp (h.frame hx y)⟩
  error x hx y := Config.answer_eq_error.mp (h.error (Config.answer_eq_error.mpr hx) y)

/-- Input that is drained has no frame at its front and is not rejected. -/
lemma Config.PrefixStable.drained (h : cfg.PrefixStable) {x : List Byte} (hx : Drained cfg x) :
    frames cfg.answer x = [] ∧ ¬ Rejects cfg.answer x := by
  have hno : ∀ n, cfg.answer x ≠ .frame n := by
    intro n hn
    rcases hx with rfl | ⟨call, m, hmore⟩
    · exact absurd (h.answer.le hn) (Nat.not_le.mpr (h.answer.pos hn))
    · rw [h.stateless call 0] at hmore
      simp [Config.answer, hmore] at hn
  obtain ⟨hframes, hrem⟩ := PrefixStable.cut_of_no_frame hno
  refine ⟨hframes, fun ⟨hne, herr⟩ => ?_⟩
  rw [hrem] at hne herr
  obtain ⟨call, m, hmore⟩ := hx.resolve_left hne
  rw [h.stateless call 0] at hmore
  simp [Config.answer, hmore] at herr

/-- Input the code closes the connection for is rejected at its front. -/
lemma Config.PrefixStable.rejected (h : cfg.PrefixStable) {x : List Byte} (hx : Rejected cfg x) :
    frames cfg.answer x = [] ∧ Rejects cfg.answer x := by
  obtain ⟨hne, call, n, hmore, hn, hbad⟩ := hx
  rw [h.stateless call 0] at hmore hn hbad
  have herr : cfg.answer x = .error := by
    rw [Config.answer_eq_error]
    rcases hbad with herr | hlen
    · exact herr
    · cases hres : (cfg.codec 0 x).1 with
      | error => rfl
      | needMoreData => exact absurd hres hmore
      | success =>
        obtain ⟨hpos, hle, -⟩ := h.success x n (Prod.ext hres hn)
        omega
  have hno : ∀ n, cfg.answer x ≠ .frame n := by simp [herr]
  obtain ⟨hframes, hrem⟩ := PrefixStable.cut_of_no_frame hno
  exact ⟨hframes, by rw [Rejects, hrem]; exact ⟨hne, herr⟩⟩

end answer

namespace DelimiterCodec

variable (c : DelimiterCodec) {cfg : Config}

lemma answer_eq (hcodec : cfg.codec = c.codec) : cfg.answer = delimited c.delimiter := by
  funext x
  unfold Config.answer delimited
  rw [hcodec, codec, decode, memchr]
  cases x.findIdx? (· == c.delimiter) with
  | none => rfl
  | some pos => rfl

lemma prefixStable (hcodec : cfg.codec = c.codec) : cfg.PrefixStable := by
  refine Config.prefixStable_of_answer (fun _ _ _ => by rw [hcodec]; rfl) ?_
  rw [c.answer_eq hcodec]
  exact prefixStable_delimited c.delimiter

end DelimiterCodec

namespace FixedLengthCodec

variable (c : FixedLengthCodec) {cfg : Config}

lemma answer_eq (hcodec : cfg.codec = c.codec) : cfg.answer = fixed c.fixedLength := by
  funext x
  unfold Config.answer fixed
  rw [hcodec, codec, decode]
  split_ifs <;> rfl

lemma prefixStable (hcodec : cfg.codec = c.codec) : cfg.PrefixStable := by
  refine Config.prefixStable_of_answer (fun _ _ _ => by rw [hcodec]; rfl) ?_
  rw [c.answer_eq hcodec]
  exact prefixStable_fixed c.pos

end FixedLengthCodec

/-! ### Connected periods -/

/-- The bytes received and the messages delivered since the connection was last established, and
whether it still is. -/
structure Period where
  received : List Byte := []
  delivered : List (List Byte) := []
  up : Bool := false

def Period.observe (p : Period) : Event → Period
  | .call .onConnected => { up := true }
  | .call (.onMessage m) => { p with delivered := p.delivered ++ [m] }
  | .appended data => { p with received := p.received ++ data }
  | .closing _ _ => { p with up := false }
  | _ => p

/-- The latest connected period of a history. -/
def period (trace : List Event) : Period := trace.foldl Period.observe {}

@[simp] lemma period_append (t es : List Event) :
    period (t ++ es) = es.foldl Period.observe (period t) :=
  List.foldl_append

/-- The event is no part of a connected period. -/
def Event.Quiet (e : Event) : Prop := ∀ p : Period, p.observe e = p

lemma Event.Quiet.ne_onMessage {e : Event} (h : e.Quiet) (m : List Byte) :
    e ≠ .call (.onMessage m) := by
  rintro rfl
  simpa [Period.observe] using congrArg Period.delivered (h {})

lemma Event.Quiet.ne_closing {e : Event} (h : e.Quiet) (reason : CloseReason) (desc : ErrorText) :
    e ≠ .closing reason desc := by
  rintro rfl
  simpa [Period.observe] using congrArg Period.up (h { up := true })

lemma foldl_observe_of_quiet {es : List Event} (h : ∀ e ∈ es, e.Quiet) (p : Period) :
    es.foldl Period.observe p = p := by
  induction es with
  | nil => rfl
  | cons e es ih =>
    rw [List.foldl_cons, h e List.mem_cons_self]
    exact ih fun e' he' => h e' (List.mem_cons_of_mem _ he')

lemma quiet_closeCallback (reason : CloseReason) (desc : ErrorText) :
    (Event.call (closeCallback reason desc)).Quiet := by
  intro p
  unfold closeCallback
  split_ifs <;> rfl

/-! ### Moves as steps of the input -/

variable {cfg : Config} {F : Facts}

/-- What a move does to the received bytes and to the history. -/
inductive InputStep (cfg : Config) (F : Facts) : Conn → Conn → Prop
  | quiet {c c' : Conn} (es : List Event) (hes : ∀ e ∈ es, e.Quiet)
      (htrace : c'.trace = c.trace ++ es) (hcoh : Coherent c')
      (hconn : c'.connected = c.connected) (hbuf : c'.recvBuffer = c.recvBuffer)
      (hparsed : c'.parsed = c.parsed) : InputStep cfg F c c'
  | establish {c : Conn} (hc : c.connected = false)
      (hcoh : Coherent
        { c.note (.call .onConnected) with state := .connected, connected := true }) :
      InputStep cfg F c
        { c.note (.call .onConnected) with state := .connected, connected := true }
  | append {c : Conn} (data : List Byte) (hc : c.connected = true) :
      InputStep cfg F c (appendInput data c)
  | deliver {c : Conn} (call n : Nat) (hc : c.connected = true)
      (hcodec : cfg.codec call c.input = (.success, n)) (hpos : 0 < n)
      (hle : n ≤ c.input.length) :
      InputStep cfg F c
        { c.note (.call (.onMessage (c.input.take n))) with parsed := c.parsed + n }
  | commit {c : Conn} (hc : c.connected = true) :
      InputStep cfg F c
        { c with recvBuffer := (c.recvBuffer.moveHeader c.parsed).2, parsed := 0 }
  | close {s : Local} (reason : CloseReason) (desc : ErrorText)
      (h : reason = .release ∨ Cause cfg F s.conn reason desc) :
      InputStep cfg F s.conn (closeConn cfg reason desc s).conn

abbrev InputSteps (cfg : Config) (F : Facts) : Conn → Conn → Prop := ReflTransGen (InputStep cfg F)

lemma InputSteps.same {c c' : Conn} (hcoh : Coherent c') (htrace : c'.trace = c.trace)
    (hconn : c'.connected = c.connected) (hbuf : c'.recvBuffer = c.recvBuffer)
    (hparsed : c'.parsed = c.parsed) : InputSteps cfg F c c' :=
  .single (.quiet [] (by simp) (by simpa using htrace) hcoh hconn hbuf hparsed)

lemma InputSteps.event {c c' : Conn} (e : Event) (he : e.Quiet) (htrace : c'.trace = c.trace ++ [e])
    (hcoh : Coherent c') (hconn : c'.connected = c.connected) (hbuf : c'.recvBuffer = c.recvBuffer)
    (hparsed : c'.parsed = c.parsed) : InputSteps cfg F c c' :=
  .single (.quiet [e] (by simpa using he) htrace hcoh hconn hbuf hparsed)

lemma Change.inputSteps {k : Kernel} {s s' : Local} (h : Change cfg k F s s')
    (hs : Coherent s.conn) : InputSteps cfg F s.conn s'.conn := by
  have hcoh := h.coherent hs
  cases h with
  | bookkeeping c' p _ h => exact .same hcoh h.trace h.connected h.recvBuffer h.parsed
  | adopt call fd =>
    obtain ⟨id, deadline, hconn⟩ := adopt_conn cfg k fd s
    rw [hconn] at hcoh ⊢
    exact .same hcoh rfl rfl rfl rfl
  | establish _ hstate =>
    have hdown : s.conn.connected = false := by simpa [hstate] using mt hs.connected.mp
    exact .single (.establish hdown hcoh)
  | append data hc => exact .single (.append data hc)
  | deliver call n hc hcodec hpos hle => exact .single (.deliver call n hc hcodec hpos hle)
  | commit hc => exact .single (.commit hc)
  | close reason desc _ _ hcause =>
    refine .head (.close reason desc (Or.inr hcause)) ?_
    unfold noteClose at hcoh ⊢
    split_ifs at hcoh ⊢
    · exact InputSteps.event _ (quiet_closeCallback reason desc) rfl hcoh rfl rfl rfl
    · exact .refl

lemma Move.inputSteps {s s' : Local} (h : Move cfg F s s') (hs : Coherent s.conn) :
    InputSteps cfg F s.conn s'.conn := by
  have hcoh := h.coherent hs
  cases h with
  | task h => exact h.inputSteps hs
  | connectBegan call => exact .event _ (fun _ => rfl) rfl hcoh rfl rfl rfl
  | connectMoved call hidle =>
    have hdown : s.conn.connected = false := by simpa [hidle] using mt hs.connected.mp
    exact .event _ (fun _ => rfl) rfl hcoh hdown.symm rfl rfl
  | disconnectReturned call => exact .event _ (fun _ => rfl) rfl hcoh rfl rfl rfl
  | push t => exact .same hcoh rfl rfl rfl rfl
  | ownerClosing => exact .same hcoh rfl rfl rfl rfl
  | stopAccepting => exact .same hcoh rfl rfl rfl rfl
  | start => exact .event _ (fun _ => rfl) rfl hcoh rfl rfl rfl
  | discard => exact .same hcoh rfl rfl rfl rfl
  | returned => exact .event _ (fun _ => rfl) rfl hcoh rfl rfl rfl
  | release =>
    unfold closeRelease
    split_ifs
    · exact .refl
    · exact .single (.close .release .empty (Or.inl rfl))

/-- A property that steps of the input keep is kept by moves. -/
lemma Move.preserves {P : Conn → Prop} (hstep : ∀ c c', P c → InputStep cfg F c c' → P c')
    {s s' : Local} (h : Move cfg F s s') (hs : Coherent s.conn) (hP : P s.conn) : P s'.conn := by
  have hsteps := h.inputSteps hs
  generalize s'.conn = c' at hsteps ⊢
  induction hsteps with
  | refl => exact hP
  | tail _ hlast ih => exact hstep _ _ ih hlast

/-! ### Framing along moves -/

/-- What was delivered and what is left in the buffer make up what was received. -/
structure Framed (cfg : Config) (c : Conn) : Prop extends Coherent c where
  up : (period c.trace).up = c.connected
  parses : ∃ y, Parses cfg.answer (period c.trace).received (period c.trace).delivered y ∧
    (c.connected = true → y = c.input)
  parsed_le : c.parsed ≤ c.recvBuffer.content.length
  cleared : c.connected = false → c.recvBuffer.content = []
  messages : Always (fun before e => ∀ m, e = .call (.onMessage m) →
    (period before).up = true) c.trace
  rejected : Always (fun before e => e = .closing .error .protocolDecodeError →
    (period before).delivered = frames cfg.answer (period before).received ∧
      Rejects cfg.answer (period before).received) c.trace

namespace Framed

variable {c c' : Conn}

/-- Events that are no part of a connected period. -/
lemma quiet (h : Framed cfg c) (hcoh : Coherent c') (es : List Event)
    (htrace : c'.trace = c.trace ++ es) (hes : ∀ e ∈ es, e.Quiet)
    (hconn : c'.connected = c.connected) (hbuf : c'.recvBuffer = c.recvBuffer)
    (hparsed : c'.parsed = c.parsed) : Framed cfg c' := by
  have hperiod : period c'.trace = period c.trace := by
    rw [htrace, period_append, foldl_observe_of_quiet hes]
  have hinput : c'.input = c.input := by rw [Conn.input, hbuf, hparsed, Conn.input]
  refine ⟨hcoh, ?_, ?_, ?_, ?_, ?_, ?_⟩
  · rw [hperiod, hconn]
    exact h.up
  · rw [hperiod, hconn, hinput]
    exact h.parses
  · rw [hparsed, hbuf]
    exact h.parsed_le
  · rw [hconn, hbuf]
    exact h.cleared
  · rw [htrace]
    exact h.messages.append fun e he before m hm => absurd hm ((hes e he).ne_onMessage m)
  · rw [htrace]
    exact h.rejected.append fun e he before hcl => absurd hcl ((hes e he).ne_closing _ _)

lemma parses_input (h : Framed cfg c) (hc : c.connected = true) :
    Parses cfg.answer (period c.trace).received (period c.trace).delivered c.input := by
  obtain ⟨y, hy, hinput⟩ := h.parses
  rwa [← hinput hc]

/-- When the buffer holds no frame, all frames were delivered. -/
lemma complete (h : Framed cfg c) (hcfg : cfg.PrefixStable) (hc : c.connected = true)
    (hf : frames cfg.answer c.input = []) :
    (period c.trace).delivered = frames cfg.answer (period c.trace).received ∧
      (Rejects cfg.answer (period c.trace).received ↔ Rejects cfg.answer c.input) := by
  obtain ⟨hframes, hrem⟩ := hcfg.answer.cut_of_parses (h.parses_input hc)
  refine ⟨by rw [hframes, hf, List.append_nil], ?_⟩
  rw [Rejects, Rejects, hrem]

lemma establish (h : Framed cfg c) (hc : c.connected = false)
    (hcoh : Coherent { c.note (.call .onConnected) with state := .connected, connected := true }) :
    Framed cfg { c.note (.call .onConnected) with state := .connected, connected := true } := by
  have hperiod : period (c.trace ++ [.call .onConnected]) = { up := true } := by
    simp [Period.observe]
  refine ⟨hcoh, ?_, ⟨[], ?_, fun _ => ?_⟩, h.parsed_le, by simp, ?_, ?_⟩
  · exact congrArg Period.up hperiod
  · change Parses cfg.answer (period (c.trace ++ [_])).received _ _
    rw [Conn.note, hperiod]
    exact .nil []
  · simp [Conn.input, Conn.note, h.cleared hc]
  · exact always_snoc.mpr ⟨h.messages, by simp⟩
  · exact always_snoc.mpr ⟨h.rejected, by simp⟩

lemma append (h : Framed cfg c) (hcfg : cfg.PrefixStable) (hc : c.connected = true)
    (data : List Byte) : Framed cfg (appendInput data c) := by
  have hinput : (appendInput data c).input = c.input ++ data := by
    change (c.recvBuffer.addSlice data).content.drop c.parsed = _
    rw [ByteBuffer.content_addSlice, List.drop_append_of_le_length h.parsed_le]
    rfl
  refine ⟨⟨h.connected, h.closing⟩, ?_, ⟨_, ?_, fun _ => hinput.symm⟩, ?_, ?_, ?_, ?_⟩
  · simpa [appendInput, ConnFields.appendInput, Conn.note, Period.observe] using h.up
  · simpa [appendInput, Conn.note, Period.observe] using
      hcfg.answer.parses_append (h.parses_input hc) data
  · have hle := h.parsed_le
    simp only [appendInput, ConnFields.appendInput, ByteBuffer.content_addSlice,
      List.length_append]
    omega
  · intro hdown
    simp [appendInput, ConnFields.appendInput, Conn.note, hc] at hdown
  · exact always_snoc.mpr ⟨h.messages, by simp⟩
  · exact always_snoc.mpr ⟨h.rejected, by simp⟩

lemma deliver (h : Framed cfg c) (hcfg : cfg.PrefixStable) (hc : c.connected = true)
    {call n : Nat} (hcodec : cfg.codec call c.input = (.success, n)) (hle : n ≤ c.input.length) :
    Framed cfg { c.note (.call (.onMessage (c.input.take n))) with parsed := c.parsed + n } := by
  have hframe : cfg.answer c.input = .frame n := by
    rw [Config.answer_eq_frame, ← hcodec]
    exact hcfg.stateless _ _ _
  have hlen : c.input.length = c.recvBuffer.content.length - c.parsed := List.length_drop
  have hparsed := h.parsed_le
  refine ⟨⟨h.connected, h.closing⟩, ?_, ⟨c.input.drop n, ?_, fun _ => ?_⟩, ?_, ?_, ?_, ?_⟩
  · simpa [Conn.note, Period.observe] using h.up
  · simpa [Conn.note, Period.observe] using (h.parses_input hc).snoc hframe
  · exact List.drop_drop
  · change c.parsed + n ≤ c.recvBuffer.content.length
    omega
  · intro hdown
    simp [Conn.note, hc] at hdown
  · refine always_snoc.mpr ⟨h.messages, fun _ _ => ?_⟩
    rw [h.up, hc]
  · exact always_snoc.mpr ⟨h.rejected, by simp⟩

lemma commit (h : Framed cfg c) (hc : c.connected = true) :
    Framed cfg { c with recvBuffer := (c.recvBuffer.moveHeader c.parsed).2, parsed := 0 } := by
  obtain ⟨-, hcontent⟩ := c.recvBuffer.moveHeader_of_le h.parsed_le
  refine ⟨⟨h.connected, h.closing⟩, h.up, ⟨c.input, h.parses_input hc, fun _ => ?_⟩, Nat.zero_le _,
    ?_, h.messages, h.rejected⟩
  · rw [Conn.input, Conn.input, hcontent, List.drop_zero]
  · intro hdown
    have hdown' : c.connected = false := hdown
    simp [hc] at hdown'

lemma closeConn {s : Local} (h : Framed cfg s.conn) (reason : CloseReason) (desc : ErrorText)
    (hreject : reason = .error → desc = .protocolDecodeError →
      (period s.conn.trace).delivered = frames cfg.answer (period s.conn.trace).received ∧
        Rejects cfg.answer (period s.conn.trace).received) :
    Framed cfg (closeConn cfg reason desc s).conn := by
  have hcoh : Coherent (Connx.closeConn cfg reason desc s).conn := coherent_closeConn _ _ _
  obtain ⟨y, hy, -⟩ := h.parses
  have hperiod : period (Connx.closeConn cfg reason desc s).conn.trace =
      { period s.conn.trace with up := false } := by
    rw [closeConn_trace]
    simp [Period.observe]
  refine ⟨hcoh, ?_, ⟨y, ?_, ?_⟩, ?_, ?_, ?_, ?_⟩
  · rw [hperiod, closeConn_conn]
  · rwa [hperiod]
  · simp [closeConn_conn]
  · simp [closeConn_conn]
  · simp [closeConn_conn]
  · rw [closeConn_trace]
    exact always_snoc.mpr ⟨h.messages, by simp⟩
  · rw [closeConn_trace]
    refine always_snoc.mpr ⟨h.rejected, fun hcl => ?_⟩
    obtain ⟨rfl, rfl⟩ : reason = .error ∧ desc = .protocolDecodeError := by simpa using hcl
    exact hreject rfl rfl

end Framed

/-- A step of the input keeps the framing. -/
lemma Framed.step {c c' : Conn} (hs : Framed cfg c) (hcfg : cfg.PrefixStable)
    (h : InputStep cfg F c c') : Framed cfg c' := by
  cases h with
  | quiet es hes htrace hcoh hconn hbuf hparsed =>
    exact hs.quiet hcoh es htrace hes hconn hbuf hparsed
  | establish hc hcoh => exact hs.establish hc hcoh
  | append data hc => exact hs.append hcfg hc data
  | deliver call n hc hcodec _ hle => exact hs.deliver hcfg hc hcodec hle
  | commit hc => exact hs.commit hc
  | close reason desc hcause =>
    refine hs.closeConn reason desc ?_
    rintro rfl rfl
    cases hcause.resolve_left (by simp) with
    | decodeError hc hr =>
      obtain ⟨hframes, hrejects⟩ := hcfg.rejected hr
      obtain ⟨hall, hiff⟩ := hs.complete hcfg hc hframes
      exact ⟨hall, hiff.mpr hrejects⟩
    | drained _ _ hn => simp [NetworkClose] at hn

lemma Move.framed {s s' : Local} (h : Move cfg F s s') (hcfg : cfg.PrefixStable)
    (hs : Framed cfg s.conn) : Framed cfg s'.conn :=
  h.preserves (fun _ _ hc hstep => hc.step hcfg hstep) hs.toCoherent hs

lemma framed_init : Framed cfg {} where
  connected := by simp
  closing := by simp
  up := rfl
  parses := ⟨[], .nil [], by simp⟩
  parsed_le := Nat.zero_le _
  cleared := fun _ => rfl
  messages := always_nil
  rejected := always_nil

/-! ### Runs -/

/-- What the handler has seen of the stream of the latest connected period. -/
structure FramesDelivered (cfg : Config) (client : Client) : Prop where
  inOrder : (period client.conn.trace).delivered <+:
    frames cfg.answer (period client.conn.trace).received
  complete : client.running = none → client.conn.connected = true →
    client.conn.acceptingTasks = true → .parseContinuation ∉ client.conn.queue →
    (period client.conn.trace).delivered = frames cfg.answer (period client.conn.trace).received ∧
      ¬ Rejects cfg.answer (period client.conn.trace).received
  rejected : ∀ before after,
    client.conn.trace = before ++ .closing .error .protocolDecodeError :: after →
    (period before).delivered = frames cfg.answer (period before).received ∧
      Rejects cfg.answer (period before).received
  messages : ∀ before m after,
    client.conn.trace = before ++ .call (.onMessage m) :: after → (period before).up = true

/-- In every run a prefix-stable codec delivers the frames of the whole stream, however it was cut
into chunks and wherever the parser yielded. -/
theorem framesDelivered_of_prefixStable (cfgs : Nat → Config) (ls : List Label) {S : System}
    (hexec : Run.exec (System.step cfgs) {} ls = some S) (i : Nat)
    (hcfg : (cfgOf cfgs i).PrefixStable) : FramesDelivered (cfgOf cfgs i) (S.clients i) := by
  have hrefines := (reaches_of_exec hexec).refines
  have hframed : Framed (cfgOf cfgs i) (S.clients i).conn :=
    hrefines.steps.conn_invariant
      (P := fun j c => (cfgOf cfgs j).PrefixStable → Framed (cfgOf cfgs j) c)
      (fun _ _ => framed_init) (fun _ _ _ hs hm hcfg => hm.framed hcfg (hs hcfg)) i hcfg
  refine ⟨?_, fun hrun hc hacc hq => ?_, fun before after h => ?_, fun before m after h => ?_⟩
  · obtain ⟨y, hy, -⟩ := hframed.parses
    exact hcfg.answer.prefix_of_parses hy
  · have hstable := (hrefines.inv.client i).stable hrun
    obtain ⟨-, hp, hready⟩ := hstable.resolve_left fun hd => hd.not_connected hc
    have hdrained : Drained (cfgOf cfgs i) (S.clients i).conn.input := by
      have h := hready.resolve_right fun hw => hw.elim hq (by simp [hacc])
      simpa [Conn.input, hp] using h
    obtain ⟨hframes, hnot⟩ := hcfg.drained hdrained
    obtain ⟨hall, hiff⟩ := hframed.complete hcfg hc hframes
    exact ⟨hall, mt hiff.mp hnot⟩
  · exact hframed.rejected before _ after h rfl
  · exact hframed.messages before _ after h m rfl

/-- Three bytes that arrive in two chunks. -/
def twoChunks : List Label :=
  [.connectBegin 0, .connectMove 0 0, .connectPost 0 0 none,
    .drain 0 { openSocket := .opened 3, connect := .done }, .resume 0,
    .pollWait [{ id := ⟨0, 1⟩, readable := true, reg := 0 }], .acquireEvent, .postAcquired,
    .drain 0 { recv := [.bytes [1, 2]] }, .resume 0, .resume 0,
    .pollWait [{ id := ⟨0, 1⟩, readable := true, reg := 0 }], .acquireEvent, .postAcquired,
    .drain 0 { recv := [.bytes [3]] }, .resume 0]

theorem framesDelivered_twoChunks :
    ∃ S, Run.exec (System.step (FixedLengthCodec.new 1).clients) {} twoChunks = some S ∧
      (period (S.clients 0).conn.trace).delivered = [[1], [2], [3]] ∧
      FramesDelivered (cfgOf (FixedLengthCodec.new 1).clients 0) (S.clients 0) := by
  have hrun : (Run.exec (System.step (FixedLengthCodec.new 1).clients) {} twoChunks).map
      (fun S => (period (S.clients 0).conn.trace).delivered) = some [[1], [2], [3]] := by
    decide +kernel
  obtain ⟨S, hS, hdelivered⟩ := Option.map_eq_some_iff.mp hrun
  exact ⟨S, hS, hdelivered, framesDelivered_of_prefixStable _ twoChunks hS 0
    ((FixedLengthCodec.new 1).prefixStable rfl)⟩

end Connx
