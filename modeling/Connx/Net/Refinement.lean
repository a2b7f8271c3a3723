import Mathlib.Data.List.Induction
import Connx.Net.World

/-!
# The system makes only moves

An invariant of the system that speaks about suspended tasks and program counters, and from it the
result on which the properties of connections rest: every step of an admissible run is a sequence
of moves of connections, so that what moves preserve holds in every state reached.
-/

namespace Connx

open Relation

variable {cfg : Config} {F : Facts}

/-! ### What changes leave alone -/

/-- The events a task adds to the history of its connection. -/
def Event.ofTask : Event → Bool
  | .call _ => true
  | .appended _ => true
  | .closing _ _ => true
  | _ => false

/-- The events that happened were all added by a task. -/
def TaskEvents (c c' : Conn) : Prop :=
  ∃ es, c'.trace = c.trace ++ es ∧ ∀ e ∈ es, e.ofTask = true

/-- The executor's part of the connection is the same. -/
structure SameQueue (c c' : Conn) : Prop where
  queue : c'.queue = c.queue
  acceptingTasks : c'.acceptingTasks = c.acceptingTasks
  ownerClosing : c'.ownerClosing = c.ownerClosing
  events : TaskEvents c c'

lemma TaskEvents.trans {a b c : Conn} (h : TaskEvents a b) (h' : TaskEvents b c) :
    TaskEvents a c := by
  obtain ⟨es, htrace, hes⟩ := h
  obtain ⟨es', htrace', hes'⟩ := h'
  refine ⟨es ++ es', by rw [htrace', htrace, List.append_assoc], fun e he => ?_⟩
  exact (List.mem_append.mp he).elim (hes e) (hes' e)

namespace SameQueue

lemma refl (c : Conn) : SameQueue c c := ⟨rfl, rfl, rfl, [], by simp, by simp⟩

lemma trans {a b c : Conn} (h : SameQueue a b) (h' : SameQueue b c) : SameQueue a c :=
  ⟨h'.queue.trans h.queue, h'.acceptingTasks.trans h.acceptingTasks,
    h'.ownerClosing.trans h.ownerClosing, h.events.trans h'.events⟩

lemma note (c : Conn) {e : Event} (he : e.ofTask = true) : SameQueue c (c.note e) :=
  ⟨rfl, rfl, rfl, [e], rfl, by simpa using he⟩

end SameQueue

lemma sameQueue_closeConn (cfg : Config) (reason : CloseReason) (desc : ErrorText) (s : Local) :
    SameQueue s.conn (closeConn cfg reason desc s).conn := by
  rw [closeConn_conn]
  exact ⟨rfl, rfl, rfl, [.closing reason desc], rfl, by simp [Event.ofTask]⟩

/-- A task leaves the queue alone. -/
lemma Change.sameQueue {k : Kernel} {s s' : Local} (h : Change cfg k F s s') :
    SameQueue s.conn s'.conn := by
  cases h with
  | bookkeeping c' p _ h =>
    exact ⟨h.queue, h.acceptingTasks, h.ownerClosing, [], by simp [h.trace], by simp⟩
  | adopt call fd _ _ =>
    obtain ⟨id, deadline, hconn⟩ := adopt_conn cfg k fd s
    rw [hconn]
    exact ⟨rfl, rfl, rfl, [], by simp, by simp⟩
  | establish => exact ⟨rfl, rfl, rfl, (SameQueue.note s.conn (e := .call _) rfl).events⟩
  | append data => exact ⟨rfl, rfl, rfl, (SameQueue.note s.conn (e := .appended _) rfl).events⟩
  | deliver call n => exact ⟨rfl, rfl, rfl, (SameQueue.note s.conn (e := .call _) rfl).events⟩
  | commit => exact ⟨rfl, rfl, rfl, [], by simp, by simp⟩
  | close reason desc =>
    refine (sameQueue_closeConn cfg reason desc s).trans ?_
    unfold noteClose
    split_ifs
    · exact .note _ rfl
    · exact .refl _

lemma Changes.sameQueue {k : Kernel} {s s' : Local} (h : Changes cfg k F s s') :
    SameQueue s.conn s'.conn := by
  induction h with
  | refl => exact .refl _
  | tail _ hstep ih => exact ih.trans hstep.sameQueue

/-- Once the owner has the connection back, no task is queued and none is accepted. -/
def Silent (c : Conn) : Prop :=
  .ownerReturned ∈ c.trace → c.queue = [] ∧ c.acceptingTasks = false

lemma TaskEvents.mem_iff {c c' : Conn} (h : TaskEvents c c') {e : Event} (he : e.ofTask = false) :
    e ∈ c'.trace ↔ e ∈ c.trace := by
  obtain ⟨es, htrace, hes⟩ := h
  rw [htrace, List.mem_append]
  refine ⟨fun h => h.resolve_right fun hmem => ?_, Or.inl⟩
  simp [hes e hmem] at he

lemma SameQueue.silent {c c' : Conn} (h : SameQueue c c') (hc : Silent c) : Silent c' := by
  intro hr
  rw [h.queue, h.acceptingTasks]
  exact hc ((h.events.mem_iff rfl).mp hr)

/-! ### The event a task is about -/

/-- The id a task was posted for, when it handles an event. -/
def Task.eventId : Task → Option ConnectionId
  | .pollEvent ev => some ev.id
  | .timerEvent ev => some ev.id
  | _ => none

/-- The task that started last. -/
def lastRan (trace : List Event) : Option Task :=
  trace.foldl (fun last e => match e with
    | .ran t => some t
    | _ => last) none

lemma lastRan_snoc {t : List Event} {e : Event} (h : ∀ task, e ≠ .ran task) :
    lastRan (t ++ [e]) = lastRan t := by
  cases e with
  | ran task => exact absurd rfl (h task)
  | _ => simp [lastRan]

lemma lastRan_append {t es : List Event} (h : ∀ e ∈ es, ∀ task, e ≠ .ran task) :
    lastRan (t ++ es) = lastRan t := by
  induction es using List.reverseRecOn with
  | nil => rw [List.append_nil]
  | append_singleton es e ih =>
    rw [← List.append_assoc, lastRan_snoc (h e (by simp))]
    exact ih fun e' he' => h e' (List.mem_append_left _ he')

lemma lastRan_ran (t : List Event) (task : Task) : lastRan (t ++ [.ran task]) = some task := by
  simp [lastRan]

/-- A connection on which no task can act. -/
def Inert (c : Conn) : Prop := c.connected = false ∧ ∀ t, c.trace.getLast? ≠ some (.ran t)

/-- While a task that handles an event can act, the connection has the id of the event. -/
def Serves (c : Conn) : Prop := ∀ t id, lastRan c.trace = some t → t.eventId = some id →
  c.id = id ∨ Inert c

/-- Events that keep the id, or come with a close. -/
lemma Serves.append {c c' : Conn} (h : Serves c) (es : List Event)
    (htrace : c'.trace = c.trace ++ es) (hes : ∀ e ∈ es, ∀ t, e ≠ .ran t)
    (hid : c'.id = c.id ∨ (c'.connected = false ∧ es ≠ []))
    (hinert : Inert c → c'.connected = false) : Serves c' := by
  have hlast : (∀ t, c.trace.getLast? ≠ some (.ran t)) ∨ es ≠ [] →
      ∀ t, c'.trace.getLast? ≠ some (.ran t) := by
    intro hor t hlast
    rw [htrace, List.getLast?_append] at hlast
    rcases hor' : es.getLast? with _ | e
    · rw [hor', Option.none_or] at hlast
      exact hor.elim (fun hc => hc t hlast) fun hne => hne (List.getLast?_eq_none_iff.mp hor')
    · rw [hor', Option.some_or, Option.some_inj] at hlast
      exact hes e (List.mem_of_getLast? hor') t hlast
  intro t id ht hev
  rw [htrace, lastRan_append hes] at ht
  rcases h t id ht hev with hsame | hc
  · rcases hid with hid | ⟨hdown, hne⟩
    · exact Or.inl (hid.trans hsame)
    · exact Or.inr ⟨hdown, hlast (Or.inr hne)⟩
  · exact Or.inr ⟨hinert hc, hlast (Or.inl hc.2)⟩

lemma Change.not_inert {k : Kernel} {s s' : Local} (h : Change cfg k F s s') : ¬ Inert s.conn := by
  rintro ⟨hdown, hran⟩
  have hacting : ¬ s.conn.Acting := by
    rintro (hc | ⟨t, ht⟩)
    · simp [hdown] at hc
    · exact hran t ht
  cases h with
  | bookkeeping c' p ha h => exact hacting ha
  | adopt call fd hlast => exact hran _ hlast
  | establish ha => exact hacting ha
  | append data hc => exact hacting (Or.inl hc)
  | deliver call n hc => exact hacting (Or.inl hc)
  | commit hc => exact hacting (Or.inl hc)
  | close reason desc ha => exact hacting ha

lemma Changes.eq_of_inert {k : Kernel} {s s' : Local} (h : Changes cfg k F s s')
    (hs : Inert s.conn) : s' = s := by
  rcases ReflTransGen.cases_head h with heq | ⟨t, ht, -⟩
  · exact heq.symm
  · exact absurd hs ht.not_inert

lemma Change.serves {k : Kernel} {s s' : Local} (h : Change cfg k F s s') (hs : Serves s.conn) :
    Serves s'.conn := by
  have hinert : ∀ {p : Prop}, Inert s.conn → p := fun hi => absurd hi h.not_inert
  cases h with
  | bookkeeping c' p _ h =>
    exact hs.append [] (by simp [h.trace]) (by simp) (Or.inl h.id) hinert
  | adopt call fd hlast =>
    -- no event is being handled
    obtain ⟨id, deadline, hconn⟩ := adopt_conn cfg k fd s
    obtain ⟨before, hbefore⟩ := List.getLast?_eq_some_iff.mp hlast
    intro t id' ht hev
    rw [hconn] at ht
    rw [hbefore, lastRan_ran, Option.some_inj] at ht
    simp [← ht, Task.eventId] at hev
  | establish => exact hs.append [.call .onConnected] rfl (by simp) (Or.inl rfl) hinert
  | append data => exact hs.append [.appended data] rfl (by simp) (Or.inl rfl) hinert
  | deliver call n => exact hs.append [.call _] rfl (by simp) (Or.inl rfl) hinert
  | commit => exact hs.append [] (by simp) (by simp) (Or.inl rfl) hinert
  | close reason desc =>
    have hclose : Serves (closeConn cfg reason desc s).conn :=
      hs.append [.closing reason desc] (closeConn_trace cfg reason desc s) (by simp)
        (Or.inr ⟨by rw [closeConn_conn], by simp⟩) hinert
    unfold noteClose
    split_ifs
    · exact hclose.append [.call _] rfl (by simp) (Or.inl rfl) fun hi => hi.1
    · exact hclose

lemma Changes.serves {k : Kernel} {s s' : Local} (h : Changes cfg k F s s') (hs : Serves s.conn) :
    Serves s'.conn := by
  induction h with
  | refl => exact hs
  | tail _ hstep ih => exact hstep.serves ih

/-! ### Suspended tasks -/

/-- What is left of a task keeps to the listed changes, whatever happens in its callback. -/
def Keeps (cfg : Config) (F : Facts) (rest : Suspended) (c : Conn) : Prop :=
  ∃ k, ∀ s : Local, ReflTransGen (Meanwhile cfg) c s.conn →
    Resum.Sat Calls (Changes cfg k F) (Rely cfg) (fun _ s' => Stable cfg s'.conn) s (rest s)

lemma Keeps.meanwhile {rest : Suspended} {c c' : Conn} (h : Keeps cfg F rest c)
    (ho : ReflTransGen (Meanwhile cfg) c c') : Keeps cfg F rest c' := by
  obtain ⟨k, hk⟩ := h
  exact ⟨k, fun s hs => hk s (ho.trans hs)⟩

/-- How a task leaves its connection at its end or at a callback. -/
structure Landed (cfg : Config) (F : Facts) (s : Local) (r : Local × Option Suspended) : Prop where
  moves : Moves cfg F s r.1
  stable : r.2 = none → Stable cfg r.1.conn
  keeps : ∀ rest, r.2 = some rest → Keeps cfg F rest r.1.conn
  silent : Silent s.conn → Silent r.1.conn
  events : TaskEvents s.conn r.1.conn
  serves : Serves s.conn → Serves r.1.conn
  inert : Inert s.conn → r.1 = s
  last : ∀ rest, r.2 = some rest → ∃ cb, r.1.conn.trace.getLast? = some (.call cb)

lemma Changes.moves {k : Kernel} {s s' : Local} (h : Changes cfg k F s s') : Moves cfg F s s' :=
  ReflTransGen.mono (fun _ _ h => Move.task h) _ _ h

/-- `Post` as a move. -/
lemma moves_post {s : Local} {t : Task} (h : Postable s t) :
    Moves cfg F s { s with conn := s.conn.post t } := by
  unfold Conn.post
  split_ifs
  · exact .single (.push t h)
  · exact .refl

lemma outside_post (c : Conn) (t : Task) : ReflTransGen Outside c (c.post t) := by
  unfold Conn.post
  split_ifs
  · exact .single (.push t)
  · exact .refl

lemma mem_post (c : Conn) (t : Task) :
    t ∈ (c.post t).queue ∨ (c.post t).acceptingTasks = false := by
  unfold Conn.post
  split_ifs with h
  · exact Or.inl (by simp [Conn.push])
  · exact Or.inr (by simpa using h)

@[simp] lemma trace_post (c : Conn) (t : Task) : (c.post t).trace = c.trace := by
  unfold Conn.post
  split_ifs <;> rfl

lemma Serves.post {c : Conn} (h : Serves c) (t : Task) : Serves (c.post t) := by
  unfold Conn.post
  split_ifs
  · exact h
  · exact h

lemma Silent.post {c : Conn} (h : Silent c) (t : Task) : Silent (c.post t) := by
  unfold Conn.post
  split_ifs with ha
  · intro hr
    simp [(h hr).2] at ha
  · exact h

lemma landed_untilCallback {k : Kernel} {s : Local} {m : Resum Local Request Unit}
    (h : Resum.Sat Calls (Changes cfg k F) (Rely cfg) (fun _ s' => Stable cfg s'.conn) s m) :
    Landed cfg F s (untilCallback m) := by
  induction m generalizing s with
  | ret a s' => exact ⟨h.1.moves, fun _ => h.2, by simp [untilCallback], h.1.sameQueue.silent,
      h.1.sameQueue.events, h.1.serves, h.1.eq_of_inert, by simp [untilCallback]⟩
  | call e s' rest ih =>
    obtain ⟨hchanges, hcall, hrest⟩ := h
    cases e with
    | callback cb =>
      refine ⟨hchanges.moves, by simp [untilCallback], ?_, hchanges.sameQueue.silent,
        hchanges.sameQueue.events, hchanges.serves, hchanges.eq_of_inert, ?_⟩
      · rintro _ ⟨⟩
        exact ⟨k, hrest⟩
      · rintro _ ⟨⟩
        exact ⟨cb, hcall⟩
    | postContinuation =>
      let s'' : Local := { s' with conn := s'.conn.post .parseContinuation }
      have h'' := ih s'' (hrest s'' ⟨outside_post _ _, mem_post _ _⟩)
      have hevents : TaskEvents s'.conn s''.conn := ⟨[], by simp [s'', trace_post], by simp⟩
      refine ⟨?_, h''.stable, h''.keeps, ?_, ?_, ?_, ?_, h''.last⟩
      · exact (hchanges.moves.trans (moves_post (t := .parseContinuation) trivial)).trans h''.moves
      · exact fun hs => h''.silent ((hchanges.sameQueue.silent hs).post _)
      · exact (hchanges.sameQueue.events.trans hevents).trans h''.events
      · exact fun hs => h''.serves ((hchanges.serves hs).post _)
      · intro hs
        obtain rfl := hchanges.eq_of_inert hs
        exact absurd hcall (by simp [Calls, hs.1])

/-- An event for another id does nothing. -/
lemma untilCallback_stale {k : Kernel} {t : Task} {id : ConnectionId} {s : Local}
    (ht : t.eventId = some id) (hid : s.conn.id ≠ id) :
    untilCallback (taskBody cfg k t s) = (s, none) := by
  cases t with
  | pollEvent ev =>
    obtain rfl : ev.id = id := by simpa [Task.eventId] using ht
    simp [taskBody, handlePollEvent, getConn, hid.symm, untilCallback, Act.bind_apply]
  | timerEvent ev =>
    obtain rfl : ev.id = id := by simpa [Task.eventId] using ht
    simp [taskBody, handleTimerEvent, Platform.handleTimerEvent, getConn, hid.symm, untilCallback,
      Act.bind_apply]
  | _ => simp [Task.eventId] at ht

/-! ### Releasing a connection -/

lemma untilCallback_release (s : Local) :
    (untilCallback (startClose cfg .release .empty s)).1 = closeRelease cfg s := by
  unfold closeRelease
  split_ifs with hs
  · rw [startClose_inactive hs]
    rfl
  · rw [startClose_active (Conn.active_of_not_idle hs)]
    rfl

lemma drainClosing_eq (s : Local) :
    drainClosing cfg s = closeRelease cfg ⟨s.conn.drainTaskQueue, s.rt⟩ :=
  untilCallback_release _

variable (cfg) in
lemma sameQueue_closeRelease (s : Local) : SameQueue s.conn (closeRelease cfg s).conn := by
  unfold closeRelease
  split_ifs
  · exact .refl _
  · exact sameQueue_closeConn _ _ _ _

/-- The queue is empty and nothing else happened to the executor. -/
lemma sameQueue_drainClosing (cfg : Config) (s : Local) :
    SameQueue s.conn.drainTaskQueue (drainClosing cfg s).conn := by
  rw [drainClosing_eq]
  exact sameQueue_closeRelease cfg ⟨s.conn.drainTaskQueue, s.rt⟩

lemma moves_discard {s : Local} :
    Moves cfg F s ⟨s.conn.drainTaskQueue, s.rt⟩ := by
  obtain ⟨c, rt⟩ := s
  induction hq : c.queue generalizing c with
  | nil => rw [Conn.drainTaskQueue, ← hq]
  | cons t rest ih =>
    refine .head (.discard hq) ?_
    exact ih { c with queue := rest } rfl

lemma moves_drainClosing {s : Local} : Moves cfg F s (drainClosing cfg s) := by
  rw [drainClosing_eq]
  exact moves_discard.tail .release

lemma moves_closeFromCallback {s : Local} : Moves cfg F s (closeFromCallback cfg s) := by
  refine .head .ownerClosing (.head .stopAccepting ?_)
  exact moves_drainClosing.tail .returned

lemma meanwhile_discard {c : Conn} (h : c.acceptingTasks = false) :
    ReflTransGen (Meanwhile cfg) c c.drainTaskQueue := by
  induction hq : c.queue generalizing c with
  | nil => rw [Conn.drainTaskQueue, ← hq]
  | cons t rest ih =>
    refine .head (Or.inr (.discard hq h)) ?_
    exact ih (c := { c with queue := rest }) h rfl

/-- After a release the connection is down. -/
lemma connected_closeRelease {s : Local} (hs : Coherent s.conn) :
    (closeRelease cfg s).conn.connected = false := by
  unfold closeRelease
  split_ifs with hidle
  · have hne : s.conn.state ≠ .connected := by
      rcases hidle with h | h <;> simp [h]
    simpa using mt hs.connected.mp hne
  · rw [closeConn_conn]

/-- A release by the handler is what a callback may do. -/
lemma meanwhile_closeFromCallback {s : Local} (hs : Coherent s.conn) :
    ReflTransGen (Meanwhile cfg) s.conn (closeFromCallback cfg s).conn := by
  have hstop : ReflTransGen (Meanwhile cfg) s.conn s.conn.stopTasks :=
    .head (Or.inl .ownerClosing) (.single (Or.inl .stopAccepting))
  unfold closeFromCallback
  rw [drainClosing_eq]
  refine .tail (.tail (hstop.trans (meanwhile_discard rfl)) (Or.inr (.close s.rt))) (Or.inr ?_)
  exact .returned (connected_closeRelease (s := ⟨_, _⟩) ⟨hs.connected, hs.closing⟩)

lemma serves_closeFromCallback {s : Local} (h : Serves s.conn) (hs : Coherent s.conn) :
    Serves (closeFromCallback cfg s).conn := by
  obtain ⟨-, -, -, es, htrace, hes⟩ := sameQueue_drainClosing cfg ⟨s.conn.stopTasks, s.rt⟩
  have hdown : (drainClosing cfg ⟨s.conn.stopTasks, s.rt⟩).conn.connected = false := by
    rw [drainClosing_eq]
    exact connected_closeRelease (s := ⟨_, _⟩) ⟨hs.connected, hs.closing⟩
  refine h.append (es ++ [.ownerReturned]) ?_ ?_ (Or.inr ⟨hdown, by simp⟩) fun _ => hdown
  · change (drainClosing cfg ⟨s.conn.stopTasks, s.rt⟩).conn.trace ++ [.ownerReturned] = _
    rw [htrace, List.append_assoc]
    rfl
  · intro e he t
    rcases List.mem_append.mp he with hmem | hmem
    · rintro rfl
      simpa [Event.ofTask] using hes _ hmem
    · simp [List.mem_singleton.mp hmem]

/-! ### The invariant -/

/-- What holds of a client at every step. -/
structure ClientInv (cfg : Config) (F : Facts) (c : Client) : Prop where
  stable : c.running = none → Stable cfg c.conn
  keeps : ∀ rest, c.running = some rest → Keeps cfg F rest c.conn
  reported : ∀ rest, c.running = some rest → ∀ t, c.conn.trace.getLast? ≠ some (.ran t)
  serves : ∀ rest, c.running = some rest → Serves c.conn
  silent : Silent c.conn
  coherent : Coherent c.conn
  begun : ∀ call ∈ c.begun, .connectBegan call ∈ c.conn.trace

/-- The task is about an event that reports on a registration. -/
def Task.OfEvent (rt : Runtime) : Task → Prop
  | .pollEvent ev => rt.Reported ev.reg ev.id
  | .timerEvent ev => rt.Reported ev.reg ev.id
  | _ => False

/-- What holds of the poll thread and the timers. -/
structure PollInv (S : System) : Prop where
  events : ∀ ev ∈ S.poll.events, S.rt.Reported ev.reg ev.id
  timers : ∀ ev ∈ S.poll.timers, S.rt.Reported ev.reg ev.id
  queued : ∀ ev ∈ S.rt.timers.timers, S.rt.Reported ev.reg ev.id
  acquired : ∀ p ∈ S.poll.acquired, p.2.OfEvent S.rt

/-- No call with a number from `n` on has left a trace. -/
def FreshFrom (n : Nat) (c : Client) : Prop :=
  ∀ call, n ≤ call → .connectBegan call ∉ c.conn.trace ∧
    .disconnectReturned call ∉ c.conn.trace ∧ call ∉ c.leaving

structure Inv (cfgs : Nat → Config) (F : Facts) (S : System) : Prop where
  client : ∀ i, ClientInv (cfgOf cfgs i) F (S.clients i)
  fresh : ∀ i, FreshFrom S.calls (S.clients i)
  poll : PollInv S

/-- The steps of a run about which the facts are true. -/
def Ok (cfgs : Nat → Config) (F : Facts) (S : System) : Label → Prop
  | .drain i k => ∀ t rest, (S.clients i).conn.ownerClosing = false →
      (S.clients i).conn.queue = t :: rest → k.fits S.rt = true →
      Covers (cfgOf cfgs i) k F t ⟨(S.clients i).conn.start t rest, S.rt⟩
  | .connectMove i call => F.moving (S.clients i).conn call
  | _ => True

def System.world (S : System) : World := ⟨fun i => (S.clients i).conn, S.rt⟩

/-- What a step has to show. -/
structure Refines (cfgs : Nat → Config) (F : Facts) (S S' : System) : Prop where
  inv : Inv cfgs F S'
  steps : World.Steps cfgs F S.world S'.world

/-! ### Steps of threads -/

lemma Outside.mem {c c' : Conn} (h : Outside c c') {e : Event} (he : e ∈ c.trace) :
    e ∈ c'.trace := by
  cases h <;> simp [Conn.note, Conn.push, he]

lemma Outside.last_ne_ran {c c' : Conn} (h : Outside c c')
    (hc : ∀ t, c.trace.getLast? ≠ some (.ran t)) (t : Task) :
    c'.trace.getLast? ≠ some (.ran t) := by
  cases h with
  | connectBegan call => simp [Conn.note]
  | connectMoved call => simp [Conn.note]
  | disconnectReturned call => simp [Conn.note]
  | push t' => exact hc t
  | ownerClosing => exact hc t
  | stopAccepting => exact hc t

lemma Outside.serves {c c' : Conn} (h : Outside c c') (hc : Serves c) : Serves c' := by
  cases h with
  | connectBegan call => exact hc.append [_] rfl (by simp) (Or.inl rfl) And.left
  | connectMoved call => exact hc.append [_] rfl (by simp) (Or.inl rfl) fun _ => rfl
  | disconnectReturned call => exact hc.append [_] rfl (by simp) (Or.inl rfl) And.left
  | push t => exact hc
  | ownerClosing => exact hc
  | stopAccepting => exact hc

namespace ClientInv

variable {c : Client}

/-- A step of another thread. -/
lemma outside (h : ClientInv cfg F c) {c' : Client} (ho : Outside c.conn c'.conn)
    (hrun : c'.running = c.running) (hsilent : Silent c'.conn) (hcoh : Coherent c'.conn)
    (hbegun : ∀ call ∈ c'.begun, call ∈ c.begun ∨ .connectBegan call ∈ c'.conn.trace) :
    ClientInv cfg F c' where
  stable hr := (h.stable (hrun ▸ hr)).outside ho
  keeps rest hr := (h.keeps rest (hrun ▸ hr)).meanwhile (.single (Or.inl ho))
  reported rest hr := ho.last_ne_ran (h.reported rest (hrun ▸ hr))
  serves rest hr := ho.serves (h.serves rest (hrun ▸ hr))
  silent := hsilent
  coherent := hcoh
  begun call hcall := (hbegun call hcall).elim (fun hc => ho.mem (h.begun call hc)) id

/-- A step that leaves the connection alone. -/
lemma same (h : ClientInv cfg F c) {c' : Client} (hconn : c'.conn = c.conn)
    (hrun : c'.running = c.running) (hbegun : ∀ call ∈ c'.begun, call ∈ c.begun) :
    ClientInv cfg F c' where
  stable hr := by rw [hconn]; exact h.stable (hrun ▸ hr)
  keeps rest hr := by rw [hconn]; exact h.keeps rest (hrun ▸ hr)
  reported rest hr := by rw [hconn]; exact h.reported rest (hrun ▸ hr)
  serves rest hr := by rw [hconn]; exact h.serves rest (hrun ▸ hr)
  silent := by rw [hconn]; exact h.silent
  coherent := by rw [hconn]; exact h.coherent
  begun call hcall := by rw [hconn]; exact h.begun call (hbegun call hcall)

lemma post (h : ClientInv cfg F c) {c' : Client} (t : Task) (hconn : c'.conn = c.conn.post t)
    (hrun : c'.running = c.running) (hbegun : c'.begun = c.begun) : ClientInv cfg F c' := by
  have hbegun' : ∀ call ∈ c'.begun, call ∈ c.begun := fun call hc => hbegun ▸ hc
  have hsilent : Silent c'.conn := hconn ▸ h.silent.post t
  unfold Conn.post at hconn
  split_ifs at hconn
  · refine h.outside (hconn ▸ .push t) hrun hsilent ?_ fun call hc => Or.inl (hbegun' call hc)
    rw [hconn]
    exact ⟨h.coherent.connected, h.coherent.closing⟩
  · exact h.same hconn hrun hbegun'

end ClientInv

variable {cfgs : Nat → Config} {S : System} {i : Nat}

lemma System.world_setClient (c : Client) (rt : Runtime) (n : Nat) :
    System.world { S.setClient i c with rt := rt, calls := n } = S.world.set i ⟨c.conn, rt⟩ := by
  ext j : 2
  · by_cases hj : j = i
    · subst hj
      simp [System.world, System.setClient, World.set]
    · simp [System.world, System.setClient, World.set, Function.update_of_ne hj]
  · rfl

lemma PollInv.grows {S S' : System} (h : PollInv S) (hpoll : S'.poll = S.poll)
    (hgrows : S.rt.Grows S'.rt) : PollInv S' where
  events ev hev := (h.events ev (hpoll ▸ hev)).mono hgrows.registrations
  timers ev hev := (h.timers ev (hpoll ▸ hev)).mono hgrows.registrations
  queued ev hev := (hgrows.timers ev hev).elim
    (fun hev => (h.queued ev hev).mono hgrows.registrations) id
  acquired p hp := by
    have := h.acquired p (hpoll ▸ hp)
    obtain ⟨j, t⟩ := p
    cases t with
    | pollEvent ev => exact Runtime.Reported.mono this hgrows.registrations
    | timerEvent ev => exact Runtime.Reported.mono this hgrows.registrations
    | _ => exact this

/-- A step that changes one client, and perhaps the runtime, by moves. -/
lemma Inv.setClient (hS : Inv cfgs F S) {c : Client} {rt : Runtime} {n : Nat}
    (hc : ClientInv (cfgOf cfgs i) F c) (hfresh : FreshFrom n c) (hn : S.calls ≤ n)
    (hmoves : Moves (cfgOf cfgs i) F (S.loc i) ⟨c.conn, rt⟩) :
    Refines cfgs F S { S.setClient i c with rt := rt, calls := n } where
  inv := by
    refine ⟨fun j => ?_, fun j => ?_, hS.poll.grows rfl hmoves.grows⟩
    · by_cases hj : j = i
      · subst hj
        simpa [System.setClient] using hc
      · simpa [System.setClient, Function.update_of_ne hj] using hS.client j
    · by_cases hj : j = i
      · subst hj
        simpa [System.setClient] using hfresh
      · intro call hcall
        simpa [System.setClient, Function.update_of_ne hj] using hS.fresh j call (hn.trans hcall)
  steps := by
    rw [System.world_setClient]
    exact World.steps_of_moves hmoves

/-- The front of the queue can be started. -/
lemma startable_start {t : Task} {rest : List Task} {c : Conn} (h : Stable cfg c)
    (hr : .ownerReturned ∉ c.trace) (hq : c.queue = t :: rest) :
    Startable cfg t (c.start t rest) := by
  refine h.imp (fun hd => ?_) fun ⟨hu, hp, hready⟩ => ⟨⟨?_, ?_⟩, hp, ?_⟩
  · exact ⟨hd.state, hd.connected, hd.deferred, hd.content, hd.parsed⟩
  · exact ⟨hu.state, hu.connected, hu.deferred, hu.parsed_le⟩
  · simpa [Conn.start, Conn.note] using hr
  · rcases hready with hdrained | hmem | hacc
    · exact Or.inr (Or.inl hdrained)
    · rw [hq] at hmem
      rcases List.mem_cons.mp hmem with rfl | hmem
      · exact Or.inl rfl
      · exact Or.inr (Or.inr (Or.inl hmem))
    · exact Or.inr (Or.inr (Or.inr hacc))

section threads

variable (hS : Inv cfgs F S)

include hS

lemma refines_connectBegin : Refines cfgs F S (S.connectBegin i) := by
  have hi := hS.client i
  obtain ⟨hnew, -, -⟩ := hS.fresh i S.calls le_rfl
  have hmove : Move (cfgOf cfgs i) F (S.loc i)
      { S.loc i with conn := (S.loc i).conn.note (.connectBegan S.calls) } :=
    .connectBegan S.calls hnew
  refine hS.setClient ?_ ?_ (Nat.le_succ _) (.single hmove)
  · refine hi.outside (.connectBegan S.calls) rfl ?_ (hmove.coherent hi.coherent) ?_
    · intro hr
      exact hi.silent (by simpa [Conn.note] using hr)
    · intro call hcall
      rcases List.mem_cons.mp hcall with rfl | hmem
      · exact Or.inr (by simp [Conn.note])
      · exact Or.inl hmem
  · intro call hcall
    obtain ⟨h₁, h₂, h₃⟩ := hS.fresh i call (by omega)
    refine ⟨?_, ?_, h₃⟩
    · simp [Conn.note, h₁]
      omega
    · simp [Conn.note, h₂]

lemma refines_connectMove {call : Nat} (hF : F.moving (S.clients i).conn call) {S' : System}
    (h : S.connectMove i call = some S') : Refines cfgs F S S' := by
  have hi := hS.client i
  unfold System.connectMove at h
  dsimp only at h
  split_ifs at h with hcall hidle
  · obtain rfl := Option.some_inj.mp h
    have hmove : Move (cfgOf cfgs i) F (S.loc i) { S.loc i with
        conn := { (S.loc i).conn.note (.connectMoved call) with
          state := .connecting, connected := false } } :=
      .connectMoved call hidle (hi.begun call hcall) hF
    refine hS.setClient ?_ ?_ le_rfl (.single hmove)
    · refine hi.outside (.connectMoved call hidle) rfl ?_ (hmove.coherent hi.coherent) ?_
      · intro hr
        exact hi.silent (by simpa [Conn.note] using hr)
      · exact fun call' hcall' => Or.inl (List.mem_of_mem_erase hcall')
    · intro call' hcall'
      simpa [Conn.note] using hS.fresh i call' hcall'
  · obtain rfl := Option.some_inj.mp h
    refine hS.setClient (hi.same rfl rfl ?_) (hS.fresh i) le_rfl .refl
    exact fun call' hcall' => List.mem_of_mem_erase hcall'

/-- A step that posts a task. -/
lemma refines_post {c : Client} {n : Nat} (t : Task) (ht : Postable (S.loc i) t)
    (hconn : c.conn = (S.clients i).conn.post t) (hrun : c.running = (S.clients i).running)
    (hbegun : c.begun = (S.clients i).begun) (hn : S.calls ≤ n)
    (hleaving : ∀ call ∈ c.leaving, call ∈ (S.clients i).leaving ∨ call < n) :
    Refines cfgs F S { S.setClient i c with rt := S.rt, calls := n } := by
  refine hS.setClient ((hS.client i).post t hconn hrun hbegun) ?_ hn ?_
  · intro call hcall
    obtain ⟨h₁, h₂, h₃⟩ := hS.fresh i call (hn.trans hcall)
    rw [hconn, trace_post]
    refine ⟨h₁, h₂, fun hmem => ?_⟩
    rcases hleaving call hmem with hold | hlt
    · exact h₃ hold
    · omega
  · rw [hconn]
    exact moves_post ht

lemma refines_disconnectReturn {call : Nat} (hcall : call ∈ (S.clients i).leaving) :
    Refines cfgs F S (S.setClient i { S.clients i with
      conn := (S.clients i).conn.note (.disconnectReturned call)
      leaving := (S.clients i).leaving.erase call }) := by
  have hi := hS.client i
  have hmove : Move (cfgOf cfgs i) F (S.loc i)
      { S.loc i with conn := (S.loc i).conn.note (.disconnectReturned call) } :=
    .disconnectReturned call
  refine hS.setClient ?_ ?_ le_rfl (.single hmove)
  · refine hi.outside (.disconnectReturned call) rfl ?_ (hmove.coherent hi.coherent) ?_
    · intro hr
      exact hi.silent (by simpa [Conn.note] using hr)
    · exact fun call' hcall' => Or.inl hcall'
  · intro call' hcall'
    obtain ⟨h₁, h₂, h₃⟩ := hS.fresh i call' hcall'
    have hne : call' ≠ call := fun h => h₃ (h ▸ hcall)
    exact ⟨by simpa [Conn.note] using h₁, by simpa [Conn.note, hne] using h₂,
      fun hmem => h₃ (List.mem_of_mem_erase hmem)⟩

lemma refines_ownerClosing :
    Refines cfgs F S (S.setConn i { (S.clients i).conn with ownerClosing := true }) := by
  have hi := hS.client i
  refine hS.setClient ?_ (hS.fresh i) le_rfl (.single .ownerClosing)
  exact hi.outside .ownerClosing rfl hi.silent ⟨hi.coherent.connected, hi.coherent.closing⟩
    fun call hcall => Or.inl hcall

lemma refines_stopAccepting :
    Refines cfgs F S (S.setConn i { (S.clients i).conn with acceptingTasks := false }) := by
  have hi := hS.client i
  refine hS.setClient ?_ (hS.fresh i) le_rfl (.single .stopAccepting)
  exact hi.outside .stopAccepting rfl (fun hr => ⟨(hi.silent hr).1, rfl⟩)
    ⟨hi.coherent.connected, hi.coherent.closing⟩ fun call hcall => Or.inl hcall

/-- `CloseFromOwner` returns to a thread that found the connection idle. -/
lemma refines_ownerReturn (hacc : (S.clients i).conn.acceptingTasks = false)
    (hrun : (S.clients i).running = none) (hq : (S.clients i).conn.queue = []) :
    Refines cfgs F S (S.setConn i ((S.clients i).conn.note .ownerReturned)) := by
  have hi := hS.client i
  refine hS.setClient ⟨fun _ => ?_, ?_, ?_, ?_, ?_, ?_, ?_⟩ ?_ le_rfl (.single .returned)
  · refine (hi.stable hrun).imp (fun h => h.note _) fun ⟨hu, hp, hr⟩ => ?_
    exact ⟨⟨hu.state, hu.connected, hu.deferred, hu.parsed_le⟩, hp, hr⟩
  · simp [hrun]
  · simp [hrun]
  · simp [hrun]
  · exact fun _ => ⟨hq, hacc⟩
  · exact ⟨hi.coherent.connected, hi.coherent.closing⟩
  · intro call hcall
    simpa [Conn.note] using hi.begun call hcall
  · intro call hcall
    simpa [Conn.note] using hS.fresh i call hcall

/-- The connection after moves that leave the calls of threads alone. -/
lemma refines_land {r : Local × Option Suspended}
    (hmoves : Moves (cfgOf cfgs i) F (S.loc i) r.1)
    (hstable : r.2 = none → Stable (cfgOf cfgs i) r.1.conn)
    (hkeeps : ∀ rest, r.2 = some rest → Keeps (cfgOf cfgs i) F rest r.1.conn)
    (hlast : ∀ rest, r.2 = some rest → ∀ t, r.1.conn.trace.getLast? ≠ some (.ran t))
    (hserves : ∀ rest, r.2 = some rest → Serves r.1.conn)
    (hsilent : Silent r.1.conn)
    (hbegan : ∀ call, .connectBegan call ∈ r.1.conn.trace ↔
      .connectBegan call ∈ (S.clients i).conn.trace)
    (hreturned : ∀ call, .disconnectReturned call ∈ r.1.conn.trace ↔
      .disconnectReturned call ∈ (S.clients i).conn.trace) :
    Refines cfgs F S (S.land i r) := by
  have hi := hS.client i
  refine hS.setClient ⟨hstable, hkeeps, hlast, hserves, hsilent, ?_, ?_⟩ ?_ le_rfl hmoves
  · exact hmoves.coherent hi.coherent
  · exact fun call hcall => (hbegan call).mpr (hi.begun call hcall)
  · intro call hcall
    obtain ⟨h₁, h₂, h₃⟩ := hS.fresh i call hcall
    exact ⟨mt (hbegan call).mp h₁, mt (hreturned call).mp h₂, h₃⟩

/-- A stretch of a task. -/
lemma refines_stretch {s : Local} {r : Local × Option Suspended}
    (hmoves : Moves (cfgOf cfgs i) F (S.loc i) s) (hsilent : Silent s.conn)
    (hmem : ∀ e, (∀ t, e ≠ .ran t) → (e ∈ s.conn.trace ↔ e ∈ (S.clients i).conn.trace))
    (hserves : ∀ rest, r.2 = some rest → Serves s.conn)
    (hland : Landed (cfgOf cfgs i) F s r) : Refines cfgs F S (S.land i r) := by
  refine refines_land hS (hmoves.trans hland.moves) hland.stable hland.keeps ?_
    (fun rest hrest => hland.serves (hserves rest hrest)) (hland.silent hsilent)
    (fun call => ?_) fun call => ?_
  · intro rest hrest t
    obtain ⟨cb, hcb⟩ := hland.last rest hrest
    simp [hcb]
  · rw [hland.events.mem_iff rfl, hmem _ (by simp)]
  · rw [hland.events.mem_iff rfl, hmem _ (by simp)]

lemma refines_drainClosing (hrun : (S.clients i).running = none) :
    Refines cfgs F S (S.land i (drainClosing (cfgOf cfgs i) (S.loc i), none)) := by
  have hi := hS.client i
  have hsame := sameQueue_drainClosing (cfgOf cfgs i) (S.loc i)
  refine refines_land hS moves_drainClosing (fun _ => Or.inl ?_) (by simp) (by simp) (by simp) ?_
    (fun call => hsame.events.mem_iff rfl) fun call => hsame.events.mem_iff rfl
  · rw [drainClosing_eq]
    refine down_closeRelease ?_
    rcases hi.stable hrun with hd | ⟨hu, _, _⟩
    · exact Or.inr ⟨hd.state, hd.connected, hd.deferred, hd.content, hd.parsed⟩
    · exact Or.inl hu.active
  · exact hsame.silent fun hr => ⟨rfl, (hi.silent hr).2⟩

lemma refines_releaseInCallback {rest : Suspended} (hrun : (S.clients i).running = some rest) :
    Refines cfgs F S
      (S.land i (closeFromCallback (cfgOf cfgs i) (S.loc i), (S.clients i).running)) := by
  have hi := hS.client i
  have hsame := sameQueue_drainClosing (cfgOf cfgs i) ⟨(S.clients i).conn.stopTasks, S.rt⟩
  refine refines_land hS moves_closeFromCallback (by simp [hrun]) ?_ ?_ ?_ ?_
    (fun call => ?_) fun call => ?_
  · intro rest' hrest'
    exact (hi.keeps rest' hrest').meanwhile (meanwhile_closeFromCallback (s := S.loc i) hi.coherent)
  · intro _ _ t
    simp [closeFromCallback, Conn.note]
  · exact fun rest' hrest' => serves_closeFromCallback (hi.serves rest' hrest') hi.coherent
  · exact fun _ => ⟨hsame.queue, hsame.acceptingTasks⟩
  · refine Iff.trans ?_ (hsame.events.mem_iff rfl)
    simp [closeFromCallback, Conn.note, System.loc]
  · refine Iff.trans ?_ (hsame.events.mem_iff rfl)
    simp [closeFromCallback, Conn.note, System.loc]

lemma refines_drain {k : Kernel} {t : Task} {rest : List Task}
    (hrun : (S.clients i).running = none) (hq : (S.clients i).conn.queue = t :: rest)
    (hF : Covers (cfgOf cfgs i) k F t ⟨(S.clients i).conn.start t rest, S.rt⟩) :
    Refines cfgs F S (S.land i (untilCallback
      (taskBody (cfgOf cfgs i) k t ⟨(S.clients i).conn.start t rest, S.rt⟩))) := by
  have hi := hS.client i
  have hr : .ownerReturned ∉ (S.clients i).conn.trace := fun hr => by
    simpa [hq] using (hi.silent hr).1
  have hbegun : Begun t ((S.clients i).conn.start t rest) :=
    ⟨by simp [Conn.start, Conn.note], by simpa [Conn.start, Conn.note] using hr⟩
  have hdoes := taskBody_spec (s := ⟨(S.clients i).conn.start t rest, S.rt⟩) hbegun
    (startable_start (hi.stable hrun) hr hq) hF
  refine refines_stretch hS (.single (.start hq hr)) ?_ ?_ ?_ (landed_untilCallback hdoes)
  · exact fun hret => absurd hret hbegun.notReturned
  · intro e he
    simp [Conn.start, Conn.note, he t, System.loc]
  · intro rest' hrest' t' id ht hev
    obtain rfl : t = t' := by simpa [Conn.start, Conn.note, lastRan_ran] using ht
    by_contra hne
    have hstale : untilCallback (taskBody (cfgOf cfgs i) k t
        ⟨(S.clients i).conn.start t rest, S.rt⟩) = (_, none) :=
      untilCallback_stale hev fun hid => hne (Or.inl hid)
    simp [hstale] at hrest'

lemma refines_resume {rest : Suspended} (hrun : (S.clients i).running = some rest) :
    Refines cfgs F S (S.land i (untilCallback (rest (S.loc i)))) := by
  have hi := hS.client i
  obtain ⟨k, hk⟩ := hi.keeps rest hrun
  exact refines_stretch hS .refl hi.silent (fun _ _ => Iff.rfl) (fun _ _ => hi.serves rest hrun)
    (landed_untilCallback (hk (S.loc i) .refl))

end threads

/-! ### Steps of the poll thread -/

lemma PollEvent.reported {ev : PollEvent} {rt : Runtime} (h : ev.reports rt = true) :
    rt.Reported ev.reg ev.id := by
  unfold PollEvent.reports at h
  split at h
  · next j id hreg => exact ⟨j, by rw [hreg, beq_iff_eq.mp h, ConnectionId.fromUint64_toUint64]⟩
  · simp at h

/-- A step of the poll thread that leaves the connections alone. -/
lemma Inv.setPoll (hS : Inv cfgs F S) {p : PollThread} {timers : TimerQueue}
    (hsteps : World.Steps cfgs F S.world ⟨S.world.conns, { S.rt with timers := timers }⟩)
    (hp : PollInv { S with poll := p, rt := { S.rt with timers := timers } }) :
    Refines cfgs F S { S with poll := p, rt := { S.rt with timers := timers } } :=
  ⟨⟨hS.client, hS.fresh, hp⟩, hsteps⟩

lemma refines_pollStep (hS : Inv cfgs F S) {l : Label} {S' : System} (h : S.pollStep l = some S') :
    Refines cfgs F S S' := by
  have hp := hS.poll
  cases l with
  | pollWait events =>
    simp only [System.pollStep] at h
    split_ifs at h with hidle
    obtain rfl := Option.some_inj.mp h
    refine hS.setPoll .refl ⟨fun ev hev => ?_, hp.timers, hp.queued, hp.acquired⟩
    exact PollEvent.reported (hidle.2 ev hev)
  | acquireEvent =>
    simp only [System.pollStep] at h
    split at h
    · next ev rest hacq hevents =>
      obtain rfl := Option.some_inj.mp h
      have hmem : ∀ ev' ∈ ev :: rest, S.rt.Reported ev'.reg ev'.id := hevents ▸ hp.events
      refine hS.setPoll .refl ⟨fun ev' hev' => ?_, hp.timers, hp.queued, fun p hp => ?_⟩
      · exact hmem ev' (List.mem_cons_of_mem _ hev')
      · obtain ⟨j, -, rfl⟩ := Option.mem_map.mp hp
        exact hmem ev List.mem_cons_self
    · simp at h
  | popExpired nowMs =>
    simp only [System.pollStep] at h
    split_ifs at h with hidle
    obtain rfl := Option.some_inj.mp h
    refine hS.setPoll (.single (.popExpired nowMs)) ⟨hp.events, fun ev hev => ?_, fun ev hev => ?_,
      hp.acquired⟩
    · exact hp.queued ev (TimerQueue.mem_of_mem_popExpired hev)
    · exact hp.queued ev (TimerQueue.mem_of_mem_rest hev)
  | acquireTimer =>
    simp only [System.pollStep] at h
    split at h
    · next ev rest hacq htimers =>
      obtain rfl := Option.some_inj.mp h
      have hmem : ∀ ev' ∈ ev :: rest, S.rt.Reported ev'.reg ev'.id := htimers ▸ hp.timers
      refine hS.setPoll .refl ⟨hp.events, fun ev' hev' => ?_, hp.queued, fun p hp => ?_⟩
      · exact hmem ev' (List.mem_cons_of_mem _ hev')
      · obtain ⟨j, -, rfl⟩ := Option.mem_map.mp hp
        exact hmem ev List.mem_cons_self
    · simp at h
  | postAcquired =>
    simp only [System.pollStep] at h
    split at h
    · next j t hacq =>
      obtain rfl := Option.some_inj.mp h
      have ht : t.OfEvent S.rt := hp.acquired (j, t) hacq
      have hpost : Postable (S.loc j) t := by
        cases t with
        | pollEvent ev => exact ht
        | timerEvent ev => exact ht
        | _ => exact ht.elim
      have href := refines_post hS (i := j)
        (c := { S.clients j with conn := (S.clients j).conn.post t }) t hpost rfl rfl rfl le_rfl
        fun call hcall => Or.inl hcall
      refine ⟨⟨href.inv.client, href.inv.fresh, ?_⟩, href.steps⟩
      exact ⟨href.inv.poll.events, href.inv.poll.timers, href.inv.poll.queued, by simp⟩
    · simp at h
  | _ => simp [System.pollStep] at h

/-! ### Runs -/

lemma drainStep_cases {k : Kernel} {S' : System} (h : S.drainStep cfgs i k = some S') :
    (S.clients i).running = none ∧
      (((S.clients i).conn.ownerClosing = true ∧
          S' = S.land i (drainClosing (cfgOf cfgs i) (S.loc i), none)) ∨
        ∃ t rest, (S.clients i).conn.queue = t :: rest ∧
          (S.clients i).conn.ownerClosing = false ∧ k.fits S.rt = true ∧
          S' = S.land i (untilCallback
            (taskBody (cfgOf cfgs i) k t ⟨(S.clients i).conn.start t rest, S.rt⟩))) := by
  unfold System.drainStep at h
  dsimp only at h
  split at h
  · simp at h
  · next hrun =>
    refine ⟨by simpa using hrun, ?_⟩
    split at h
    · next hclosing => exact Or.inl ⟨hclosing, (Option.some_inj.mp h).symm⟩
    · next hclosing =>
      split at h
      · simp at h
      · next t rest hq =>
        split at h
        · next hfits =>
          exact Or.inr ⟨t, rest, hq, by simpa using hclosing, hfits, (Option.some_inj.mp h).symm⟩
        · simp at h

/-- Every admissible step keeps the invariant and is a sequence of moves. -/
theorem step_refines (hS : Inv cfgs F S) {l : Label} {S' : System} (hok : Ok cfgs F S l)
    (h : S.step cfgs l = some S') : Refines cfgs F S S' := by
  cases l with
  | connectBegin i =>
    obtain rfl := Option.some_inj.mp h
    exact refines_connectBegin hS
  | connectMove i call => exact refines_connectMove hS hok h
  | connectPost i call error =>
    simp only [System.step, System.connectPost] at h
    split_ifs at h with hcall
    obtain rfl := Option.some_inj.mp h
    refine refines_post hS (System.resolvedTask call error) ?_ rfl rfl rfl le_rfl
      fun _ h => Or.inl h
    cases error <;> trivial
  | disconnectPost i =>
    obtain rfl := Option.some_inj.mp h
    refine refines_post hS (.disconnect S.calls) (hS.fresh i S.calls le_rfl).2.1 rfl rfl rfl
      (Nat.le_succ _) fun call hcall => ?_
    rcases List.mem_cons.mp hcall with rfl | hmem
    · exact Or.inr (Nat.lt_succ_self _)
    · exact Or.inl hmem
  | disconnectReturn i call =>
    simp only [System.step] at h
    split_ifs at h with hcall
    obtain rfl := Option.some_inj.mp h
    exact refines_disconnectReturn hS hcall
  | sendCheck i msg =>
    simp only [System.step] at h
    split_ifs at h with hmsg
    obtain rfl := Option.some_inj.mp h
    exact hS.setClient ((hS.client i).same rfl rfl fun _ h => h) (hS.fresh i) le_rfl .refl
  | sendPost i msg =>
    simp only [System.step] at h
    split_ifs at h with hmsg
    obtain rfl := Option.some_inj.mp h
    exact refines_post hS (.send msg) trivial rfl rfl rfl le_rfl fun _ h => Or.inl h
  | ownerClosing i =>
    simp only [System.step] at h
    split_ifs at h with hclosing
    obtain rfl := Option.some_inj.mp h
    exact refines_ownerClosing hS
  | stopAccepting i =>
    simp only [System.step] at h
    split_ifs at h with hclosing
    obtain rfl := Option.some_inj.mp h
    exact refines_stopAccepting hS
  | ownerReturn i =>
    simp only [System.step] at h
    split_ifs at h with hidle
    obtain rfl := Option.some_inj.mp h
    obtain ⟨-, hacc, hrun, hq, -⟩ := hidle
    exact refines_ownerReturn hS (by simpa using hacc) (by simpa using hrun) hq
  | releaseInCallback i =>
    simp only [System.step] at h
    split_ifs at h with hrun
    obtain rfl := Option.some_inj.mp h
    obtain ⟨rest, hrest⟩ := Option.isSome_iff_exists.mp hrun.1
    exact refines_releaseInCallback hS hrest
  | drain i k =>
    obtain ⟨hrun, ⟨-, rfl⟩ | ⟨t, rest, hq, hopen, hfits, rfl⟩⟩ := drainStep_cases h
    · exact refines_drainClosing hS hrun
    · exact refines_drain hS hrun hq (hok t rest hopen hq hfits)
  | resume i =>
    simp only [System.step] at h
    split at h
    · next rest hrun =>
      obtain rfl := Option.some_inj.mp h
      exact refines_resume hS hrun
    · simp at h
  | pollWait events => exact refines_pollStep hS (l := .pollWait events) h
  | acquireEvent => exact refines_pollStep hS (l := .acquireEvent) h
  | popExpired nowMs => exact refines_pollStep hS (l := .popExpired nowMs) h
  | acquireTimer => exact refines_pollStep hS (l := .acquireTimer) h
  | postAcquired => exact refines_pollStep hS (l := .postAcquired) h

lemma inv_init : Inv cfgs F {} where
  client i := ⟨fun _ => Or.inl ⟨Or.inl rfl, rfl, rfl, rfl, rfl⟩, by simp, by simp, by simp,
    fun hr => by simp at hr, ⟨by simp, by simp⟩, by simp⟩
  fresh i call _ := by simp
  poll := ⟨by simp, by simp, by simp, by simp⟩

/-- The run of the system from its start: its steps are admissible, and it leads to `S`. -/
structure Reaches (cfgs : Nat → Config) (F : Facts) (ls : List Label) (S : System) : Prop where
  exec : Run.exec (System.step cfgs) {} ls = some S
  ok : Run.Meets (System.step cfgs) (Ok cfgs F) {} ls

/-- An admissible run keeps the invariant and is a sequence of moves. -/
theorem Reaches.refines {ls : List Label} {S : System} (h : Reaches cfgs F ls S) :
    Refines cfgs F {} S := by
  refine Run.exec_invariant (Ok cfgs F) (I := Refines cfgs F {}) ?_ h.exec h.ok
    ⟨inv_init, .refl⟩
  intro S l S' hS hok hstep
  have h' := step_refines hS.inv hok hstep
  exact ⟨h'.inv, hS.steps.trans h'.steps⟩

/-- A run about whose steps nothing is assumed. -/
lemma reaches_of_exec {ls : List Label} {S : System}
    (h : Run.exec (System.step cfgs) {} ls = some S) : Reaches cfgs {} ls S := by
  refine ⟨h, Run.meets_of_forall (fun S l => ?_) _ _⟩
  cases l with
  | drain i k =>
    exact fun _ _ _ _ _ => ⟨fun _ _ _ _ => trivial, fun _ _ => trivial, fun _ _ => trivial⟩
  | _ => trivial

end Connx
