import Connx.Net.Connection.Rules

/-!
# Specifications of the functions that read and parse

`ParseInput` hands on the messages at the front of the buffer until its budget is used up or the
codec asks for more; in the first case it leaves a parse continuation behind.
-/

namespace Connx

open Relation Resum

variable {cfg : Config} {k : Kernel} {F : Facts}

/-! ### Input -/

/-- The end of `ParseInput` on drained input: a deferred close is carried out. -/
lemma finishParse_spec {s : Local} (hl : Live s.conn) (hd : Drained cfg s.conn.input) :
    Does cfg k F (do finishDeferredClose cfg; doneOrClosed cfg) s fun r s' =>
      (r = .done ∧ s' = s) ∨ (r = .closed ∧ Down s'.conn) := by
  have hclosed : ∀ s' : Local, Down s'.conn → Does cfg k F (doneOrClosed cfg) s' fun r s'' =>
      (r = .done ∧ s'' = s) ∨ (r = .closed ∧ Down s''.conn) := by
    intro s' h
    refine .getConn_bind (.pure (Or.inr ⟨?_, h⟩))
    simp [h.connected]
  by_cases hdef : s.conn.deferredClosePending = true
  · refine Does.bind (P := fun _ s' => Down s'.conn) ?_ fun _ s' => hclosed s'
    dsimp only [finishDeferredClose, Platform.finishDeferredClose]
    refine .getConn_bind ?_
    rw [if_pos hdef]
    refine .modifyConn_bind (changes_bookkeeping hl.acting (.of_core rfl)) (Live.startClose ?_ ?_)
    · exact hl.bookkeeping (by simp) (.of_core rfl)
    · exact .drained (by exact hl.connected) (by exact hd) (hl.deferred hdef)
  · refine Does.bind (P := fun _ s' => s' = s) ?_ ?_
    · refine .getConn_bind ?_
      rw [if_neg hdef]
      exact .pure rfl
    · rintro _ _ rfl
      refine .getConn_bind (.pure (Or.inl ⟨?_, rfl⟩))
      simp [hl.connected]

/-- What the decode loop leaves of the connection it started on. -/
structure LoopDone (cfg : Config) (c : Conn) (merged : List Byte) (offset fuel offset' fuel' : Nat)
    (c' : Conn) : Prop where
  live : Live c'
  content : c'.recvBuffer.content = merged
  parsed : c'.parsed = offset'
  pending : c'.parseContinuationPending = c.parseContinuationPending
  decodes : ∃ ms, Decodes cfg (merged.drop offset) ms (merged.drop offset') ∧
    ms.length + fuel' = fuel
  drained : fuel' = 0 ∨ Drained cfg (merged.drop offset')

lemma parseLoop_spec {merged : List Byte} (fuel : Nat) {offset : Nat} {s : Local}
    (hl : Live s.conn) (hm : s.conn.recvBuffer.content = merged) (hp : s.conn.parsed = offset) :
    Does cfg k F (parseLoop cfg merged fuel offset) s fun r s' => match r with
      | none => Down s'.conn
      | some (offset', fuel') => LoopDone cfg s.conn merged offset fuel offset' fuel' s'.conn := by
  -- on the messages left in the budget
  induction fuel generalizing offset s with
  | zero => exact .pure ⟨hl, hm, hp, rfl, ⟨[], .nil _, by simp⟩, Or.inl rfl⟩
  | succ fuel ih =>
    have hstop : ∀ s' : Local, Live s'.conn → s'.conn.recvBuffer.content = merged →
        s'.conn.parsed = offset →
        s'.conn.parseContinuationPending = s.conn.parseContinuationPending →
        Drained cfg (merged.drop offset) →
        LoopDone cfg s.conn merged offset (fuel + 1) offset (fuel + 1) s'.conn :=
      fun s' hl' hm' hp' hq hd => ⟨hl', hm', hp', hq, ⟨[], .nil _, by simp⟩, Or.inr hd⟩
    dsimp only [parseLoop, Platform.parseLoop]
    split_ifs with hend
    · refine .pure (hstop s hl hm hp rfl (Or.inl ?_))
      exact List.drop_eq_nil_of_le hend
    -- the codec answers
    refine Does.bind (P := fun r s' => r = cfg.codec s.conn.decodeCalls (merged.drop offset) ∧
      s' = { s with conn := { s.conn with decodeCalls := s.conn.decodeCalls + 1 } }) ?_ ?_
    · dsimp only [Platform.decode]
      exact .getConn_bind (.modifyConn_bind (changes_bookkeeping hl.acting (.of_core rfl))
        (.pure ⟨rfl, rfl⟩))
    rintro ⟨result, consumed⟩ _ ⟨hcodec, rfl⟩
    have hl₁ : Live { s.conn with decodeCalls := s.conn.decodeCalls + 1 } :=
      hl.bookkeeping hl.deferred (.of_core rfl)
    have hinput : merged.drop offset = s.conn.input := by rw [Conn.input, hm, hp]
    rw [hinput] at hcodec
    dsimp only
    split_ifs with hmore hbad
    · refine .pure (hstop _ hl₁ hm hp rfl (Or.inr ⟨s.conn.decodeCalls, consumed, ?_⟩))
      rw [hinput, ← hcodec, hmore]
    · refine Does.bind (P := fun _ s' => Down s'.conn) (hl₁.startClose ?_) fun _ s' h => .pure h
      have hne : s.conn.input ≠ [] := by
        rw [← hinput]
        exact fun h => hend (List.drop_eq_nil_iff.mp h)
      refine .decodeError (by exact hl.connected) ⟨hne, s.conn.decodeCalls, consumed, ?_⟩
      change (cfg.codec s.conn.decodeCalls s.conn.input).1 ≠ _ ∧
        (cfg.codec s.conn.decodeCalls s.conn.input).2 = _ ∧
        ((cfg.codec s.conn.decodeCalls s.conn.input).1 = _ ∨ _ ∨ s.conn.input.length < _)
      rw [← hcodec, ← hinput, List.length_drop]
      exact ⟨hmore, rfl, hbad⟩
    · obtain ⟨hnoerr, hpos, hle⟩ : result ≠ .error ∧ consumed ≠ 0 ∧
          consumed ≤ s.conn.input.length := by
        rw [← hinput, List.length_drop]
        simpa using hbad
      have hsucc : cfg.codec s.conn.decodeCalls s.conn.input = (.success, consumed) := by
        rw [← hcodec]
        cases result <;> simp_all
      have hlive : Live ({ s.conn with
          decodeCalls := s.conn.decodeCalls + 1, parsed := offset + consumed }.note
            (.call (.onMessage ((merged.drop offset).take consumed)))) := by
        refine ⟨⟨hl.state, hl.connected, hl.deferred, ?_⟩, ?_⟩
        · change offset + consumed ≤ s.conn.recvBuffer.content.length
          rw [← hinput, List.length_drop] at hle
          rw [hm]
          omega
        · simpa [Conn.note] using hl.notReturned
      refine .callback_bind ?_ fun s' hs' => .getConn_bind ?_
      · rw [hinput, ← hp]
        exact .single (.deliver (s := ⟨_, _⟩) s.conn.decodeCalls consumed (by exact hl.connected)
          (by exact hsucc) (Nat.pos_of_ne_zero hpos) (by exact hle) (by exact hl.notReturned))
      · rcases hlive.toUp.meanwhile hs' with hsame | hdown
        · have hl' := hsame.live hlive
          rw [hl'.connected]
          refine (ih hl' ?_ ?_).mono ?_
          · rw [hsame.recvBuffer]; exact hm
          · rw [hsame.eq]; rfl
          · rintro (_ | ⟨offset', fuel'⟩) s'' h
            · exact h
            · refine ⟨h.live, h.content, h.parsed, h.pending.trans ?_, ?_, h.drained⟩
              · rw [hsame.eq]; rfl
              · obtain ⟨ms, hms, hlen⟩ := h.decodes
                refine ⟨_ :: ms, .cons s.conn.decodeCalls consumed ?_ ?_ ?_ ?_, ?_⟩
                · rw [hinput]; exact hsucc
                · exact Nat.pos_of_ne_zero hpos
                · rw [hinput]; exact hle
                · rwa [List.drop_drop]
                · simp only [List.length_cons]; omega
        · rw [hdown.connected]
          exact .pure hdown

/-- `Post` of the parse continuation. -/
lemma scheduleParseContinuation_spec {s : Local} (hl : Live s.conn)
    (hpend : s.conn.parseContinuationPending = false) :
    Does cfg k F (scheduleParseContinuation cfg) s fun _ s' =>
      SameButQueue { s.conn with parseContinuationPending := true } s'.conn ∧
        Waiting s'.conn := by
  have hl' : Live { s.conn with parseContinuationPending := true } :=
    hl.bookkeeping hl.deferred (.of_core rfl)
  dsimp only [scheduleParseContinuation, Platform.scheduleParseContinuation]
  refine .getConn_bind ?_
  rw [hpend]
  refine .modifyConn_bind (changes_bookkeeping hl.acting (.of_core rfl)) ?_
  refine ⟨.refl, hl.connected, fun s' ⟨hs', hq⟩ => ⟨.refl, ?_, hq⟩⟩
  exact hl'.toUp.outsides hs'

/-- How `ParseInput` leaves a connection whose input was parsed up to `rest`. -/
def ParseDone (cfg : Config) (rest : List Byte) (c : Conn) : ParseStatus → Prop
  | .closed => Down c
  | .done => Live c ∧ c.parsed = 0 ∧ c.recvBuffer.content = rest ∧ Drained cfg rest
  | .yielded => Live c ∧ c.parsed = 0 ∧ c.recvBuffer.content = rest ∧ Waiting c

lemma finishParse_done {s : Local} (hl : Live s.conn) (hp : s.conn.parsed = 0)
    (hd : Drained cfg s.conn.recvBuffer.content) :
    Does cfg k F (do finishDeferredClose cfg; doneOrClosed cfg) s fun r s' =>
      ParseDone cfg s.conn.recvBuffer.content s'.conn r := by
  have hinput : s.conn.input = s.conn.recvBuffer.content := by simp [Conn.input, hp]
  refine (finishParse_spec hl (by rwa [hinput])).mono ?_
  rintro r s' (⟨rfl, rfl⟩ | ⟨rfl, hdown⟩)
  · exact ⟨hl, hp, rfl, hd⟩
  · exact hdown

lemma yieldOrFinish_spec {fuel : Nat} {s : Local} (hl : Live s.conn) (hp : s.conn.parsed = 0)
    (hpend : s.conn.parseContinuationPending = false)
    (hd : fuel = 0 ∨ Drained cfg s.conn.recvBuffer.content) :
    Does cfg k F (yieldOrFinish cfg fuel) s fun r s' =>
      ParseDone cfg s.conn.recvBuffer.content s'.conn r := by
  dsimp only [yieldOrFinish, Platform.yieldOrFinish]
  refine .getConn_bind ?_
  rw [ByteBuffer.getBufferLength_eq]
  split_ifs with hyield
  · refine Does.bind (scheduleParseContinuation_spec hl hpend) fun _ s' ⟨hsame, hw⟩ => ?_
    have hl' := hsame.live (hl.bookkeeping hl.deferred (.of_core rfl))
    refine .modifyConn_bind (changes_bookkeeping hl'.acting (.of_core rfl)) (.pure ?_)
    refine ⟨hl'.bookkeeping hl'.deferred (.of_core rfl), ?_, ?_, hw⟩
    · change s'.conn.parsed = 0
      rw [hsame.eq]; exact hp
    · change s'.conn.recvBuffer.content = _
      rw [hsame.recvBuffer]
  · refine finishParse_done hl hp (hd.elim (fun hfuel => Or.inl ?_) id)
    by_contra hne
    exact hyield ⟨hfuel, List.length_pos_iff.mpr hne, hl.connected⟩

lemma parseTail_spec {offset fuel : Nat} {s : Local} (hl : Live s.conn)
    (hp : s.conn.parsed = offset) (hpend : s.conn.parseContinuationPending = false)
    (hd : fuel = 0 ∨ Drained cfg (s.conn.recvBuffer.content.drop offset)) :
    Does cfg k F (parseTail cfg offset fuel) s fun r s' =>
      ParseDone cfg (s.conn.recvBuffer.content.drop offset) s'.conn r := by
  dsimp only [parseTail, Platform.parseTail]
  split_ifs with hoff
  · have hle : s.conn.parsed ≤ s.conn.recvBuffer.content.length := hl.parsed_le
    obtain ⟨hok, hcontent⟩ := s.conn.recvBuffer.moveHeader_of_le hle
    rw [hp] at hok hcontent
    let c : Conn :=
      { s.conn with recvBuffer := (s.conn.recvBuffer.moveHeader offset).2, parsed := 0 }
    have hcommit : Changes cfg k F s { s with conn := c } := by
      subst hp
      exact .single (.commit hl.connected hle)
    have hlive : Live c :=
      ⟨⟨hl.state, hl.connected, hl.deferred, Nat.zero_le _⟩, hl.notReturned⟩
    refine Does.bind (P := fun b s' => b = true ∧ s' = { s with conn := c }) ?_ ?_
    · dsimp only [Platform.moveRecvHeader]
      exact .getConn_bind (.modifyConn_bind hcommit (.pure ⟨hok, rfl⟩))
    · rintro _ _ ⟨rfl, rfl⟩
      rw [← hcontent] at hd ⊢
      exact yieldOrFinish_spec hlive rfl hpend hd
  · obtain rfl : offset = 0 := by omega
    rw [List.drop_zero] at hd ⊢
    exact yieldOrFinish_spec hl hp hpend hd

/-- What is left in the buffer is what one parse leaves of `x`. -/
lemma ParseDone.leftover {x rest : List Byte} {c : Conn} {r : ParseStatus}
    (h : ParseDone cfg rest c r) (hx : Leftover cfg x rest) :
    ParseDone cfg c.recvBuffer.content c r ∧
      (r ≠ .closed → Leftover cfg x c.recvBuffer.content) := by
  cases r with
  | closed => exact ⟨h, by simp⟩
  | done =>
    obtain ⟨hl, hp, rfl, hd⟩ := h
    exact ⟨⟨hl, hp, rfl, hd⟩, fun _ => hx⟩
  | yielded =>
    obtain ⟨hl, hp, rfl, hw⟩ := h
    exact ⟨⟨hl, hp, rfl, hw⟩, fun _ => hx⟩

/-- `ParseInput` hands on the messages at the front of the buffer, as far as its budget goes. -/
lemma parseInput_spec {s : Local} (hl : Live s.conn) (hp : s.conn.parsed = 0) :
    Does cfg k F (parseInput cfg) s fun r s' =>
      ParseDone cfg s'.conn.recvBuffer.content s'.conn r ∧
        (r ≠ .closed → Leftover cfg s.conn.recvBuffer.content s'.conn.recvBuffer.content) := by
  let c : Conn := { s.conn with parseContinuationPending := false }
  have hlive : Live c := hl.bookkeeping hl.deferred (.of_core rfl)
  have hbook : Changes cfg k F s { s with conn := c } :=
    changes_bookkeeping hl.acting (.of_core rfl)
  dsimp only [parseInput, Platform.parseInput]
  refine .modifyConn_bind hbook (.getConn_bind ?_)
  rw [ByteBuffer.getBufferLength_eq]
  split_ifs with hempty
  · have hnil : Drained cfg c.recvBuffer.content := Or.inl (List.length_eq_zero_iff.mp hempty)
    refine (finishParse_done (s := { s with conn := c }) hlive hp hnil).mono fun r s' h => ?_
    exact h.leftover ⟨[], .nil _, Nat.zero_le _, Or.inr hnil⟩
  · refine Does.bind (parseLoop_spec parseMessageBudget (s := { s with conn := c }) hlive
      (ByteBuffer.merge_eq_content _).symm hp) ?_
    rintro (_ | ⟨offset, fuel⟩) s' h
    · exact .pure ⟨h, fun hne => absurd rfl hne⟩
    · obtain ⟨ms, hms, hlen⟩ := h.decodes
      have hrest := h.drained
      rw [← h.content] at hrest
      refine (parseTail_spec h.live h.parsed h.pending hrest).mono fun r s'' h'' => ?_
      refine h''.leftover ⟨ms, ?_, by omega, ?_⟩
      · rw [h.content]
        simpa using hms
      · exact hrest.imp_left (by omega)

/-! ### Reading -/

/-- The bytes the loop of `PlatformHandleReadable` appends to the buffer. -/
def readBytes : List RecvResult → Nat → List Byte
  | [], _ => []
  | r :: rs, bytesThisEvent =>
    if maxReadBytesPerEvent ≤ bytesThisEvent then []
    else match r with
      | .bytes [] => []
      | .bytes data => data ++ readBytes rs (bytesThisEvent + data.length)
      | .eintr => readBytes rs bytesThisEvent
      | .eagain => []
      | .failed _ => []

lemma recvLoop_spec (rs : List RecvResult) {n : Nat} {s : Local} (hl : Live s.conn)
    (hp : s.conn.parsed = 0) :
    Does cfg k F (recvLoop rs n) s fun r s' => Live s'.conn ∧ s'.conn.parsed = 0 ∧
      s'.conn.recvBuffer.content = s.conn.recvBuffer.content ++ readBytes rs n ∧
      ∀ close ∈ r, NetworkClose close.1 close.2 := by
  induction rs generalizing n s with
  | nil => exact .pure ⟨hl, hp, by simp [readBytes], by simp⟩
  | cons r rs ih =>
    unfold recvLoop readBytes
    split_ifs with hbudget
    · exact .pure ⟨hl, hp, by simp, by simp⟩
    · match r with
      | .bytes [] => exact .pure ⟨hl, hp, by simp, by simp [NetworkClose]⟩
      | .bytes (b :: bs) =>
        have hlive : Live (appendInput (b :: bs) s.conn) := by
          refine ⟨⟨hl.state, hl.connected, hl.deferred, ?_⟩, ?_⟩
          · change s.conn.parsed ≤ _
            rw [hp]; exact Nat.zero_le _
          · simpa [appendInput, Conn.note] using hl.notReturned
        refine .modifyConn_bind (.single (.append _ hl.connected (by simp))) ?_
        refine (ih (s := ⟨_, _⟩) hlive hp).mono ?_
        rintro r s' ⟨hl', hp', hc', hn'⟩
        refine ⟨hl', hp', hc'.trans ?_, hn'⟩
        simp [ConnFields.appendInput]
      | .eintr => exact ih hl hp
      | .eagain => exact .pure ⟨hl, hp, by simp, by simp⟩
      | .failed e => exact .pure ⟨hl, hp, by simp, by simp [NetworkClose]⟩

/-- The close the reading loop asks for comes after the messages that were read before it: at once
when the input is drained, with the parse continuation when it is not. -/
lemma closeAfterParse_spec {r : ParseStatus} {close : Option (CloseReason × ErrorText)} {s : Local}
    {x : List Byte} (h : ParseDone cfg x s.conn r)
    (hclose : ∀ p ∈ close, NetworkClose p.1 p.2) :
    Does cfg k F (closeAfterParse cfg r close) s fun _ s' =>
      Down s'.conn ∨ (r ≠ .closed ∧ Serving cfg s'.conn ∧ s'.conn.recvBuffer.content = x) := by
  match close, r with
  | none, .closed => exact .pure (Or.inl h)
  | none, .done =>
    obtain ⟨hl, hp, rfl, hd⟩ := h
    exact .pure (Or.inr ⟨by simp, ⟨hl, hp, Or.inl hd⟩, rfl⟩)
  | none, .yielded =>
    obtain ⟨hl, hp, rfl, hw⟩ := h
    exact .pure (Or.inr ⟨by simp, ⟨hl, hp, Or.inr hw⟩, rfl⟩)
  | some (reason, desc), .closed => exact .pure (Or.inl h)
  | some (reason, desc), .done =>
    obtain ⟨hl, hp, rfl, hd⟩ := h
    refine (hl.startClose (.drained hl.connected ?_ (hclose _ rfl))).mono fun _ _ => Or.inl
    simpa [Conn.input, hp] using hd
  | some (reason, desc), .yielded =>
    obtain ⟨hl, hp, rfl, hw⟩ := h
    refine .modifyConn (changes_bookkeeping hl.acting (.of_core rfl)) (Or.inr ⟨by simp, ?_, rfl⟩)
    exact ⟨hl.bookkeeping (fun _ => hclose _ rfl) (.of_core rfl), hp, Or.inr hw⟩

lemma platformHandleReadable_spec {s : Local} (h : Serving cfg s.conn) :
    Does cfg k F (platformHandleReadable cfg k) s fun _ s' =>
      Down s'.conn ∨ (Serving cfg s'.conn ∧
        Leftover cfg (s.conn.recvBuffer.content ++ readBytes k.recv 0)
          s'.conn.recvBuffer.content) := by
  refine Does.bind (recvLoop_spec k.recv h.toLive h.parsed) fun close s₁ ⟨hl, hp, hc, hn⟩ => ?_
  refine .getConn_bind ?_
  rw [ByteBuffer.getBufferLength_eq, ← hc]
  split_ifs with hpos
  · refine Does.bind (parseInput_spec hl hp) fun r s₂ ⟨hdone, hleft⟩ => ?_
    refine (closeAfterParse_spec hdone hn).mono fun _ s' h' => h'.imp_right ?_
    rintro ⟨hr, hserving, hcontent⟩
    exact ⟨hserving, by rw [hcontent]; exact hleft hr⟩
  · have hnil : s₁.conn.recvBuffer.content = [] :=
      List.length_eq_zero_iff.mp (Nat.eq_zero_of_not_pos hpos)
    have hdrained : Drained cfg s₁.conn.recvBuffer.content := Or.inl hnil
    refine (closeAfterParse_spec (r := .done) ⟨hl, hp, rfl, hdrained⟩ hn).mono fun _ s' h' => ?_
    refine h'.imp_right fun ⟨_, hserving, hcontent⟩ => ⟨hserving, ?_⟩
    rw [hcontent]
    exact ⟨[], .nil _, Nat.zero_le _, Or.inr hdrained⟩

end Connx
