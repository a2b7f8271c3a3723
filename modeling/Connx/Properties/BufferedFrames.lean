import Connx.Properties.Framing

/-!
# Frames that are buffered when a connection is closed

After a burst `ParseInput` yields with complete frames left in the buffer. A close that `recv`
reports is deferred until they are delivered. `HandlePollEvent` closes at once on an error event,
and so do a send and a change of interest that fail: what is left in the buffer then is dropped.
-/

namespace Connx

open Relation Framing History

variable {cfg : Config} {i : Nat}

/-- When `OnClosed` is called, the frames that were received have been delivered, unless it is the
codec that rejected the stream. -/
def FramesSurviveClose (cfg : Config) (trace : List Event) : Prop :=
  Always (fun before e => e = .call .onClosed →
    before.getLast? = some (.closing .error .protocolDecodeError) ∨
      (period before).delivered = frames cfg.answer (period before).received) trace

/-- Errors close the connection `i` only over input without a complete frame. -/
def noFrameLost (i : Nat) : Facts where
  abrupt cfg x := cfg.self = i → frames cfg.answer x = []

lemma FramesSurviveClose.append {t es : List Event} (h : FramesSurviveClose cfg t)
    (hes : .call .onClosed ∉ es) : FramesSurviveClose cfg (t ++ es) := by
  refine Always.append h fun e he before hclosed => ?_
  subst hclosed
  exact absurd he hes

/-- A reported close: the codec rejected the input, or there was no frame in it. -/
lemma Cause.framesSurvive {c : Conn} {reason : CloseReason} {desc : ErrorText}
    (h : Cause cfg (noFrameLost i) c reason desc) (hi : cfg.self = i) (hcfg : cfg.PrefixStable)
    (hc : Framed cfg c) (hn : closeNotifies reason = true)
    (hcb : closeCallback reason desc = .onClosed) :
    (reason = .error ∧ desc = .protocolDecodeError) ∨
      (period c.trace).delivered = frames cfg.answer (period c.trace).received := by
  cases h with
  | user => simp [closeNotifies] at hn
  | attemptFailed => simp [closeCallback] at hcb
  | timeout => simp [closeCallback] at hcb
  | decodeError => exact Or.inl ⟨rfl, rfl⟩
  | drained hup hd => exact Or.inr (hc.complete hcfg hup (hcfg.drained hd).1).1
  | abrupt hup hF => exact Or.inr (hc.complete hcfg hup (hF hi)).1
  | stray => simp [closeCallback] at hcb

lemma Change.framesSurviveClose {k : Kernel} {s s' : Local}
    (h : Change cfg k (noFrameLost i) s s') (hi : cfg.self = i) (hcfg : cfg.PrefixStable)
    (hs : Framed cfg s.conn) (ht : FramesSurviveClose cfg s.conn.trace) :
    FramesSurviveClose cfg s'.conn.trace := by
  cases h with
  | bookkeeping c' p _ h => rwa [h.trace]
  | adopt call fd =>
    obtain ⟨id, deadline, hconn⟩ := adopt_conn cfg k fd s
    rwa [hconn]
  | establish => exact ht.append (by simp)
  | append data => exact ht.append (by simp)
  | deliver call n => exact ht.append (by simp)
  | commit => exact ht
  | close reason desc _ _ hcause =>
    have hclosing : FramesSurviveClose cfg (s.conn.trace ++ [.closing reason desc]) :=
      ht.append (by simp)
    unfold noteClose
    split_ifs with hn
    · simp only [Conn.note, closeConn_trace]
      refine always_snoc.mpr ⟨hclosing, fun hcb => ?_⟩
      rw [Event.call.injEq] at hcb
      refine (hcause.framesSurvive hi hcfg hs hn hcb).imp ?_ fun hall => ?_
      · rintro ⟨rfl, rfl⟩
        simp
      · simpa [Period.observe] using hall
    · simpa only [closeConn_trace] using hclosing

lemma Move.framesSurviveClose {s s' : Local} (h : Move cfg (noFrameLost i) s s')
    (hi : cfg.self = i) (hcfg : cfg.PrefixStable) (hs : Framed cfg s.conn)
    (ht : FramesSurviveClose cfg s.conn.trace) : FramesSurviveClose cfg s'.conn.trace := by
  cases h with
  | task h => exact h.framesSurviveClose hi hcfg hs ht
  | connectBegan call => exact ht.append (by simp)
  | connectMoved call => exact ht.append (by simp)
  | disconnectReturned call => exact ht.append (by simp)
  | start => exact ht.append (by simp)
  | returned => exact ht.append (by simp)
  | release =>
    unfold closeRelease
    split_ifs
    · exact ht
    · rw [closeConn_trace]
      exact ht.append (by simp)
  | _ => exact ht

/-! ### Runs -/

/-- The step runs a task of the client `i` that can close the connection without looking at its
input, and a complete frame is in what it would leave in the buffer. -/
def System.losesFrames (cfgs : Nat → Config) (i : Nat) (S : System) : Label → Prop
  | .drain j k => j = i ∧ (S.clients i).conn.ownerClosing = false ∧
      ∃ t y, (S.clients i).conn.queue.head? = some t ∧
        AbruptInput (cfgOf cfgs i) k (S.clients i).conn t y ∧ frames (cfgOf cfgs i).answer y ≠ []
  | _ => False

lemma AbruptInput.of_start {k : Kernel} {c : Conn} {t t' : Task} {rest : List Task}
    {y : List Byte} (h : AbruptInput cfg k (c.start t' rest) t y) : AbruptInput cfg k c t y := by
  cases h with
  | errorEvent ev hid he => exact .errorEvent ev hid he
  | writable ev hid hw hr hk => exact .writable ev hid hw hr hk
  | readWritable ev hid hw hr hk hrest => exact .readWritable (c := c) ev hid hw hr hk hrest
  | send msg hk => exact .send msg hk

lemma ok_noFrameLost {cfgs : Nat → Config} (S : System) (l : Label)
    (h : ¬ S.losesFrames cfgs i l) : Ok cfgs (noFrameLost i) S l := by
  cases l with
  | drain j k =>
    intro t rest hopen hq _
    refine ⟨fun _ _ _ _ => trivial, fun _ _ => trivial, fun y hy hj => ?_⟩
    obtain rfl : j = i := hj
    by_contra hne
    exact h ⟨rfl, hopen, t, y, by simp [hq], hy.of_start, hne⟩
  | _ => trivial

/-- In every run in which the client `i` meets no error event and no failing send while a complete
frame is left in its buffer, all frames are delivered before `OnClosed`. -/
theorem framesSurviveClose_of_no_frame_lost (cfgs : Nat → Config) (ls : List Label) {S : System}
    (hexec : Run.exec (System.step cfgs) {} ls = some S) (i : Nat)
    (hcfg : (cfgOf cfgs i).PrefixStable)
    (hok : Run.Meets (System.step cfgs) (fun S l => ¬ S.losesFrames cfgs i l) {} ls) :
    FramesSurviveClose (cfgOf cfgs i) (S.clients i).conn.trace := by
  have hreach : Reaches cfgs (noFrameLost i) ls S := ⟨hexec, hok.mono ok_noFrameLost⟩
  have hinv := hreach.refines.steps.conn_invariant
    (P := fun j c => (cfgOf cfgs j).PrefixStable → j = i →
      Framed (cfgOf cfgs j) c ∧ FramesSurviveClose (cfgOf cfgs j) c.trace)
    (fun _ _ _ => ⟨framed_init, always_nil⟩) ?_ i hcfg rfl
  · exact hinv.2
  · intro j s s' hs hm hcfg' hj
    obtain ⟨hframed, hlossless⟩ := hs hcfg' hj
    exact ⟨hm.framed hcfg' hframed, hm.framesSurviveClose hj hcfg' hframed hlossless⟩

/-- The step runs no task that can close the connection without looking at its input. -/
def System.closesInOrder (S : System) : Label → Bool
  | .drain i k =>
    match (S.clients i).conn.queue.head? with
    | some (.pollEvent ev) => !ev.error && !k.sendFails
    | some (.send _) => k.modifySend.isNone
    | _ => true
  | _ => true

lemma not_losesFrames_of_closesInOrder {cfgs : Nat → Config} (S : System) (l : Label)
    (h : S.closesInOrder l = true) : ¬ S.losesFrames cfgs i l := by
  cases l with
  | drain j k =>
    rintro ⟨rfl, -, t, y, hq, habrupt, -⟩
    simp only [System.closesInOrder, hq] at h
    cases habrupt with
    | errorEvent ev _ he => simp [he] at h
    | writable ev _ _ _ hk => simp [hk] at h
    | readWritable ev _ _ _ hk => simp [hk] at h
    | send msg hk => simp [Option.isNone_iff_eq_none.mp h] at hk
  | _ => exact id

/-- Two bytes, and then the end of the stream. -/
def endOfStream : List Label :=
  [.connectBegin 0, .connectMove 0 0, .connectPost 0 0 none,
    .drain 0 { openSocket := .opened 3, connect := .done }, .resume 0,
    .pollWait [{ id := ⟨0, 1⟩, readable := true, reg := 0 }], .acquireEvent, .postAcquired,
    .drain 0 { recv := [.bytes [1, 2], .bytes []] }, .resume 0, .resume 0, .resume 0]

theorem framesSurviveClose_endOfStream :
    ∃ S, Run.exec (System.step (FixedLengthCodec.new 1).clients) {} endOfStream = some S ∧
      (S.clients 0).conn.trace.getLast? = some (.call .onClosed) ∧
      FramesSurviveClose (cfgOf (FixedLengthCodec.new 1).clients 0) (S.clients 0).conn.trace := by
  have hrun : (Run.exec (System.step (FixedLengthCodec.new 1).clients) {} endOfStream).map
      (fun S => (S.clients 0).conn.trace.getLast?) = some (some (.call .onClosed)) := by
    decide +kernel
  obtain ⟨S, hS, hclosed⟩ := Option.map_eq_some_iff.mp hrun
  refine ⟨S, hS, hclosed, framesSurviveClose_of_no_frame_lost _ endOfStream hS 0
    ((FixedLengthCodec.new 1).prefixStable rfl) ?_⟩
  have hcheck : Run.check (System.step (FixedLengthCodec.new 1).clients) System.closesInOrder {}
      endOfStream = true := by
    decide +kernel
  exact (Run.meets_of_check _ hcheck).mono not_losesFrames_of_closesInOrder

/-- A burst of 65 bytes, after which the parser yields, and an error event that is reported while
the burst is being parsed. -/
def errorAfterBurst : List Label :=
  [Label.connectBegin 0, .connectMove 0 0, .connectPost 0 0 none,
    .drain 0 { openSocket := .opened 3, connect := .done }, .resume 0,
    .pollWait [{ id := ⟨0, 1⟩, readable := true, reg := 0 }], .acquireEvent, .postAcquired,
    .drain 0 { recv := [.bytes (List.replicate 65 0)] },
    .pollWait [{ id := ⟨0, 1⟩, error := true, errorCode := 104, reg := 0 }],
    .acquireEvent, .postAcquired] ++
  List.replicate 64 (Label.resume 0) ++ [Label.drain 0 {}]

/-- The 65th frame is never delivered. -/
theorem frame_lost_errorAfterBurst :
    ∃ S, Run.exec (System.step (FixedLengthCodec.new 1).clients) {} errorAfterBurst = some S ∧
      ¬ FramesSurviveClose (cfgOf (FixedLengthCodec.new 1).clients 0) (S.clients 0).conn.trace := by
  have hrun : (Run.exec (System.step (FixedLengthCodec.new 1).clients) {} errorAfterBurst).map
      (fun S => let t := (S.clients 0).conn.trace
        (t.getLast?, t.dropLast.getLast?, (period t.dropLast).delivered.length,
          (frames (cfgOf (FixedLengthCodec.new 1).clients 0).answer
            (period t.dropLast).received).length)) =
      some (some (.call .onClosed), some (.closing .error (.errno 104)), 64, 65) := by
    decide +kernel
  obtain ⟨S, hS, hlast⟩ := Option.map_eq_some_iff.mp hrun
  obtain ⟨hclosed, hclosing, hdelivered, hframes⟩ : _ ∧ _ ∧ _ ∧ _ := by simpa using hlast
  refine ⟨S, hS, fun h => ?_⟩
  rcases h _ _ [] (List.dropLast_append_getLast? _ hclosed).symm rfl with hdecode | hall
  · simp [hclosing] at hdecode
  · rw [hall, hframes] at hdelivered
    simp at hdelivered

end Connx
