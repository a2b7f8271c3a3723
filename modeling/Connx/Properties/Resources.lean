import Connx.Codec.Splitting
import Connx.Net.Refinement

/-!
# No orphaned resources

An idle connection holds no id and no socket, the only table entry of a connection is the one its
id names, and every socket it opened is closed or is its current one.

This holds in every run in which `ConnectResolved` finds the attempt it belongs to: the connection
is connecting and holds no id. The code does not check this, so a `ConnectResolved` that runs after
its attempt was cancelled opens a socket on an idle connection.
-/

namespace Connx

open Relation

/-! ### What a connection owns -/

/-- What holds of a connection and of what the runtime has of it. -/
structure Owned (i : Nat) (s : Local) : Prop where
  idle : s.conn.state = .idle → s.conn.id.valid = false
  handle : s.conn.id.valid = false → isValidSocketHandle s.conn.fd = false
  entry : ∀ (n : Nat) (e : Entry), s.rt.connections.entries[n]? = some e → e.active = true →
    e.conn = some i →
    s.conn.id.valid = true ∧ n = s.conn.id.slot.toNat ∧ e.generation = s.conn.id.generation
  socket : ∀ fd, (i, fd) ∈ s.rt.sockets → isValidSocketHandle fd = true ∧ fd = s.conn.fd

/-- What the runtime has of the connection `j` did not grow. -/
structure LeavesAlone (j : Nat) (rt rt' : Runtime) : Prop where
  entry : ∀ (n : Nat) (e : Entry), rt'.connections.entries[n]? = some e → e.active = true →
    e.conn = some j →
    rt.connections.entries[n]? = some e
  socket : ∀ fd, (j, fd) ∈ rt'.sockets → (j, fd) ∈ rt.sockets

lemma Owned.leavesAlone {i : Nat} {c : Conn} {rt rt' : Runtime} (h : Owned i ⟨c, rt⟩)
    (hle : LeavesAlone i rt rt') : Owned i ⟨c, rt'⟩ where
  idle := h.idle
  handle := h.handle
  entry n e hn ha hc := h.entry n e (hle.entry n e hn ha hc) ha hc
  socket fd hfd := h.socket fd (hle.socket fd hfd)

/-- A change that touches neither the id, nor the socket, nor the runtime. -/
lemma Owned.same {i : Nat} {s s' : Local} (h : Owned i s) (hid : s'.conn.id = s.conn.id)
    (hfd : s'.conn.fd = s.conn.fd) (hrt : LeavesAlone i s.rt s'.rt)
    (hstate : s'.conn.state = .idle → s.conn.state = .idle) : Owned i s' where
  idle hs := by rw [hid]; exact h.idle (hstate hs)
  handle hs := by rw [hfd]; exact h.handle (hid ▸ hs)
  entry n e hn ha hc := by rw [hid]; exact h.entry n e (hrt.entry n e hn ha hc) ha hc
  socket fd hmem := by rw [hfd]; exact h.socket fd (hrt.socket fd hmem)

lemma LeavesAlone.refl (j : Nat) (rt : Runtime) : LeavesAlone j rt rt :=
  ⟨fun _ _ h _ _ => h, fun _ h => h⟩

variable {cfg : Config} {F : Facts}

section close

variable (reason : CloseReason) (desc : ErrorText) (s : Local)

lemma leavesAlone_closeConn (j : Nat) : LeavesAlone j s.rt (closeConn cfg reason desc s).rt where
  entry n e hn ha hc := by
    rw [closeConn_connections] at hn
    split_ifs at hn with hid
    · exact (ConnectionTable.active_unregister hid hn ha).1
    · exact hn
  socket fd hfd := by
    rw [closeConn_sockets] at hfd
    split_ifs at hfd
    · exact (List.mem_filter.mp hfd).1
    · exact hfd

variable {s}

/-- A close gives back everything the connection owns. -/
lemma Owned.closeConn (h : Owned cfg.self s) : Owned cfg.self (closeConn cfg reason desc s) where
  idle _ := by
    rw [closeConn_conn]
    dsimp only
    split_ifs with hid
    · rfl
    · simpa using hid
  handle _ := by
    rw [closeConn_conn]
    dsimp only
    split_ifs with hfd
    · rfl
    · simpa using hfd
  entry n e hn ha hc := by
    rw [closeConn_connections] at hn
    split_ifs at hn with hid
    · obtain ⟨hold, hne⟩ := ConnectionTable.active_unregister hid hn ha
      obtain ⟨-, hslot, hgen⟩ := h.entry n e hold ha hc
      exact absurd ⟨hslot, hgen⟩ hne
    · exact absurd (h.entry n e hn ha hc).1 hid
  socket fd hfd := by
    rw [closeConn_sockets] at hfd
    split_ifs at hfd with hvalid
    · obtain ⟨hmem, hne⟩ := List.mem_filter.mp hfd
      simp [(h.socket fd hmem).2] at hne
    · obtain ⟨hval, rfl⟩ := h.socket fd hfd
      exact absurd hval hvalid

end close

section adopt

variable (k : Kernel) (fd : Int) (s : Local)

lemma leavesAlone_adopt {j : Nat} (hj : j ≠ cfg.self) :
    LeavesAlone j s.rt (startConnectTimer cfg k (adoptSocket cfg fd s)).rt := by
  obtain ⟨hconns, hsockets, -, -, -⟩ := adopt_runtime cfg k fd s
  constructor
  · intro n e hn ha hc
    rw [hconns] at hn
    rcases ConnectionTable.active_register hn ha with ⟨-, rfl⟩ | hold
    · exact absurd (Option.some_inj.mp hc).symm hj
    · exact hold
  · intro fd' hfd'
    rw [hsockets] at hfd'
    simpa [hj] using hfd'

variable {k fd s}

/-- A connection that owns nothing may take a socket. -/
lemma Owned.adopt (h : Owned cfg.self s) (hid : s.conn.id.valid = false)
    (hs : s.conn.state = .connecting) (hfd : isValidSocketHandle fd = true) :
    Owned cfg.self (startConnectTimer cfg k (adoptSocket cfg fd s)) := by
  obtain ⟨hconns, hsockets, hid', hfd', hstate⟩ := adopt_runtime cfg k fd s
  have hvalid : (s.rt.connections.register cfg.self).1.valid = true :=
    ConnectionTable.valid_register _
  constructor
  · intro hidle
    simp [hstate, hs] at hidle
  · intro hinvalid
    simp [hid', hvalid] at hinvalid
  · intro n e hn ha hc
    rw [hconns] at hn
    rw [hid']
    rcases ConnectionTable.active_register hn ha with ⟨rfl, rfl⟩ | hold
    · exact ⟨hvalid, rfl, rfl⟩
    · exact absurd (h.entry n e hold ha hc).1 (by simp [hid])
  · intro fd'' hmem
    rw [hsockets] at hmem
    rw [hfd']
    rcases List.mem_cons.mp hmem with heq | hold
    · obtain rfl : fd'' = fd := congrArg Prod.snd heq
      exact ⟨hfd, rfl⟩
    · obtain ⟨hval, rfl⟩ := h.socket fd'' hold
      simp [h.handle hid] at hval

end adopt

/-! ### Runs -/

/-- `ConnectResolved` opens a socket only for the attempt it belongs to. -/
def opensForItsAttempt : Facts where
  opening s fd := s.conn.state = .connecting ∧ s.conn.id.valid = false ∧
    isValidSocketHandle fd = true

lemma Change.leavesAlone {k : Kernel} {s s' : Local} (h : Change cfg k F s s') {j : Nat}
    (hj : j ≠ cfg.self) : LeavesAlone j s.rt s'.rt := by
  cases h with
  | bookkeeping => exact ⟨fun _ _ h _ _ => h, fun _ h => h⟩
  | adopt call fd => exact leavesAlone_adopt k fd s hj
  | close reason desc => exact leavesAlone_closeConn reason desc s j
  | _ => exact .refl _ _

lemma Move.leavesAlone {s s' : Local} (h : Move cfg F s s') {j : Nat} (hj : j ≠ cfg.self) :
    LeavesAlone j s.rt s'.rt := by
  cases h with
  | task h => exact h.leavesAlone hj
  | release =>
    unfold closeRelease
    split_ifs
    · exact .refl _ _
    · exact leavesAlone_closeConn .release .empty s j
  | _ => exact .refl _ _

lemma Change.owned {k : Kernel} {s s' : Local} (h : Change cfg k opensForItsAttempt s s')
    (hs : Owned cfg.self s) : Owned cfg.self s' := by
  cases h with
  | bookkeeping c' p _ h =>
    refine hs.same h.id h.fd ⟨fun _ _ h _ _ => h, fun _ h => h⟩ fun hidle => ?_
    rw [← h.state]
    exact hidle
  | adopt call fd _ hopen => exact hs.adopt hopen.2.1 hopen.1 hopen.2.2
  | establish => exact hs.same rfl rfl (.refl _ _) (by simp)
  | append => exact hs.same rfl rfl (.refl _ _) id
  | deliver => exact hs.same rfl rfl (.refl _ _) id
  | commit => exact hs.same rfl rfl (.refl _ _) id
  | close reason desc =>
    have hclose := hs.closeConn reason desc
    unfold noteClose
    split_ifs
    · exact hclose.same rfl rfl (.refl _ _) id
    · exact hclose

lemma Move.owned {s s' : Local} (h : Move cfg opensForItsAttempt s s') (hs : Owned cfg.self s) :
    Owned cfg.self s' := by
  cases h with
  | task h => exact h.owned hs
  | connectMoved => exact hs.same rfl rfl (.refl _ _) (by simp)
  | release =>
    unfold closeRelease
    split_ifs
    · exact hs
    · exact hs.closeConn .release .empty
  | _ => exact hs.same rfl rfl (.refl _ _) id

/-- The connection holds nothing while it is idle, the table has no other entry of it, and it has
no other socket open. -/
structure NoOrphans (i : Nat) (s : Local) : Prop where
  idle : s.conn.state = .idle → s.conn.id.valid = false ∧ isValidSocketHandle s.conn.fd = false
  entry : ∀ (n : Nat) (e : Entry), s.rt.connections.entries[n]? = some e → e.active = true →
    e.conn = some i → s.conn.id.valid = true ∧ n = s.conn.id.slot.toNat ∧
      e.generation = s.conn.id.generation
  socket : ∀ fd, (i, fd) ∈ s.rt.sockets → fd = s.conn.fd

/-- The step runs a `ConnectResolved` that opens a socket although its attempt is over or the
connection still has one. -/
def System.opensAstray (S : System) : Label → Bool
  | .drain i k =>
    !(S.clients i).conn.ownerClosing &&
      (match (S.clients i).conn.queue.head?, k.openSocket with
        | some (.connectResolved _), .opened _ =>
          !decide ((S.clients i).conn.state = .connecting) || (S.clients i).conn.id.valid
        | _, _ => false)
  | _ => false

lemma ok_opensForItsAttempt (cfgs : Nat → Config) (S : System) (l : Label)
    (h : S.opensAstray l = false) : Ok cfgs opensForItsAttempt S l := by
  cases l with
  | drain i k =>
    intro t rest hopen hq hfits
    refine ⟨?_, fun _ _ => trivial, fun _ _ => trivial⟩
    rintro call fd rfl hk
    have hstate : (S.clients i).conn.state = .connecting ∧ (S.clients i).conn.id.valid = false := by
      simpa [System.opensAstray, hopen, hq, hk] using h
    have hfd : isValidSocketHandle fd = true := by
      simp only [Kernel.fits, hk, Bool.and_eq_true] at hfits
      exact hfits.1
    exact ⟨hstate.1, hstate.2, hfd⟩
  | connectMove i call => trivial
  | _ => trivial

/-- In every run in which `ConnectResolved` opens sockets only for the attempt it belongs to, no
connection leaves a socket or a table entry behind. -/
theorem noOrphans_of_opens_for_its_attempt (cfgs : Nat → Config) (ls : List Label) {S : System}
    (hexec : Run.exec (System.step cfgs) {} ls = some S)
    (hok : Run.Meets (System.step cfgs) (fun S l => S.opensAstray l = false) {} ls) (i : Nat) :
    NoOrphans i (S.loc i) := by
  have hreach : Reaches cfgs opensForItsAttempt ls S :=
    ⟨hexec, hok.mono (ok_opensForItsAttempt cfgs)⟩
  have howned : ∀ i, Owned i (S.world.loc i) := by
    refine hreach.refines.steps.invariant (I := fun w => ∀ i, Owned i (w.loc i)) ?_ ?_ ?_
    · exact fun i => ⟨fun _ => rfl, fun _ => rfl, by simp [System.world, World.loc],
        by simp [System.world, World.loc]⟩
    · intro w i s' hw hm j
      by_cases hj : j = i
      · subst hj
        rw [World.loc_set]
        exact hm.owned (hw j)
      · have hle : LeavesAlone j w.rt s'.rt := hm.leavesAlone hj
        simpa [World.loc, World.set, Function.update_of_ne hj] using (hw j).leavesAlone hle
    · exact fun w nowMs hw i => (hw i).leavesAlone ⟨fun _ _ h _ _ => h, fun _ h => h⟩
  have h := howned i
  exact ⟨fun hidle => ⟨h.idle hidle, h.handle (h.idle hidle)⟩, h.entry,
    fun fd hfd => (h.socket fd hfd).2⟩

/-- A connection that is established and then closed by `Disconnect` leaves nothing behind. -/
theorem noOrphans_after_disconnect :
    ∃ S, Run.exec (System.step (FixedLengthCodec.new 1).clients) {}
        [.connectBegin 0, .connectMove 0 0, .connectPost 0 0 none,
          .drain 0 { openSocket := .opened 3, connect := .done }, .resume 0,
          .disconnectPost 0, .drain 0 {}] = some S ∧ NoOrphans 0 (S.loc 0) := by
  refine ⟨_, rfl, noOrphans_of_opens_for_its_attempt (FixedLengthCodec.new 1).clients
    [.connectBegin 0, .connectMove 0 0, .connectPost 0 0 none,
      .drain 0 { openSocket := .opened 3, connect := .done }, .resume 0,
      .disconnectPost 0, .drain 0 {}] rfl ?_ 0⟩
  exact (Run.meets_of_check (fun S l => !S.opensAstray l) rfl).mono
    fun S l h => by simpa using h

/-- `Disconnect` is queued before `Connect` moves the state, so it cancels the attempt; the
`ConnectResolved` that comes later gives the idle connection a socket and an id. -/
theorem orphan_after_cancelled_attempt :
    ∃ S, Run.exec (System.step (FixedLengthCodec.new 1).clients) {}
        [.disconnectPost 0, .connectBegin 0, .connectMove 0 1, .drain 0 {},
          .connectPost 0 1 none, .drain 0 { openSocket := .opened 3 }] = some S ∧
      (S.clients 0).running.isNone = true ∧ ¬ NoOrphans 0 (S.loc 0) := by
  refine ⟨_, rfl, rfl, fun h => ?_⟩
  have hidle := (h.idle rfl).1
  revert hidle
  decide

end Connx
