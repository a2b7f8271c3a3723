import Connx.Lib.Progress
import Connx.Net.Windows.Runs

/-!
# What a connection on Windows comes to

In an infinite run in which the poll thread, the worker and the system get on with their work, every
operation completes, and every completion comes to the task that handles it. What is before it in
the queues is the rank: the poll thread and the worker only take from the front, and everything else
is added at the end.
-/

namespace Connx.Windows

open Resum
open Poll (Operation Outcome Completion Service maxCompletions)

/-- The steps of the poll thread. -/
def Label.ofPollThread : Label → Bool
  | .wait => true
  | .acquire => true
  | .postAcquired => true
  | _ => false

/-- The steps of the worker that drains the connection. -/
def Label.ofWorker : Label → Bool
  | .drain _ => true
  | .resume => true
  | _ => false

/-- The system completes the operation. -/
def Label.completes (op : Operation) : Label → Bool
  | .complete op' _ => op' = op
  | _ => false

/-- The connection with the id is established and accepts tasks. -/
structure Alive (id : ConnectionId) (w : World) : Prop where
  connected : w.conn.connected = true
  accepting : w.conn.acceptingTasks = true
  current : w.conn.id = id

/-- The completions on their way to the task queue, first those that get there first; `none` is a
wake-up. -/
def World.pipe (w : World) : List (Option Completion) :=
  w.acquired.toList.map some ++ w.events.map some ++ w.service.done

variable {cfg : Config} {S S' : System} {w w' : World} {l : Label} {id : ConnectionId}
  {ev : Completion} {op : Operation}

lemma mem_landed : ev ∈ w.landed ↔ .completion ev ∈ w.conn.queue ∨ some ev ∈ w.pipe := by
  have hevent : ∀ t : Task, t.event = some ev ↔ t = .completion ev := by
    intro t
    cases t <;> simp [Task.event]
  simp [World.landed, World.pipe, List.mem_filterMap, hevent]

/-! ### What a step does -/

/-- Nothing is lost. -/
structure Grows (w w' : World) : Prop where
  started : w.service.started ≤ w'.service.started
  done : w.service.done <+: w'.service.done
  events : w'.events = w.events
  acquired : w'.acquired = w.acquired
  queue : w.conn.queue <+: w'.conn.queue
  sent : w'.sent = w.sent
  given : ∀ id, w.given id <+: w'.given id

lemma Stretch.grows (h : Stretch w w') : Grows w w' := by
  obtain ⟨ops, hservice⟩ := h.service
  obtain ⟨n, hqueue⟩ := h.queue
  refine ⟨?_, ?_, h.events, h.acquired, ?_, h.sent, h.given⟩
  · rw [hservice]
    exact Multiset.le_add_left _ _
  · rw [hservice]
  · exact hqueue ▸ List.prefix_append _ _

/-- The steps, as far as completions, tasks and the output are concerned. -/
inductive Effect (cfg : Config) (S S' : System) : Label → Prop where
  | task {k : Kernel} {t : Task} {rest : List Task} (hrunning : S.running = none)
      (hqueue : S.world.conn.queue = t :: rest)
      (heq : S' = untilCallback (taskBody cfg k t (S.world.pop rest)))
      (h : Stretch (S.world.pop rest) S'.world) : Effect cfg S S' (.drain k)
  | resumed {rest : Suspended} (hrunning : S.running = some rest)
      (heq : S' = untilCallback (rest S.world)) (h : Stretch S.world S'.world) :
      Effect cfg S S' .resume
  | closed {l : Label} (hclosed : S'.world.conn.connected = false)
      (hsent : S'.world.sent = S.world.sent) (hgiven : S'.world.given = S.world.given) :
      Effect cfg S S' l
  | other {l : Label} (hpoll : l.ofPollThread = false) (hworker : l.ofWorker = false)
      (hsystem : ∀ op, l.completes op = false) (hrunning : S'.running = S.running)
      (h : Grows S.world S'.world) : Effect cfg S S' l
  | complete {op : Operation} {o : Outcome} (hop : op ∈ S.world.service.started)
      (hfits : o.Fits op) (heq : S' = { S with world := S.world.complete op o }) :
      Effect cfg S S' (.complete op o)
  | wait (hevents : S.world.events = []) (hacquired : S.world.acquired = none)
      (heq : S' = { S with world := S.world.wait }) : Effect cfg S S' .wait
  | acquire {ev : Completion} {rest : List Completion} (hacquired : S.world.acquired = none)
      (hevents : S.world.events = ev :: rest)
      (heq : S' = { S with world := S.world.acquire ev rest }) : Effect cfg S S' .acquire
  | postAcquired {ev : Completion} (hacquired : S.world.acquired = some ev)
      (heq : S' = { S with world := S.world.postAcquired ev }) : Effect cfg S S' .postAcquired

lemma Grows.of_eq (h : w'.around = w.around) : Grows w w' := (Stretch.of_eq h).grows

lemma drainClosing_histories (w : World) :
    w.drainClosing.sent = w.sent ∧ w.drainClosing.given = w.given := by
  obtain ⟨c, hc⟩ := drainClosing_eq w
  rw [hc]
  exact ⟨rfl, rfl⟩

lemma grows_post (w : World) (t : Task) : Grows w (w.setConn (w.conn.post t)) := by
  refine ⟨le_rfl, List.prefix_rfl, rfl, rfl, ?_, rfl, fun _ => List.prefix_rfl⟩
  unfold World.setConn Conn.post
  split_ifs
  · exact List.prefix_append _ _
  · exact List.prefix_rfl

lemma effect_envStep (h : S.world.envStep l = some w) : Effect cfg S { S with world := w } l := by
  cases l with
  | connectMove =>
    obtain ⟨-, heq⟩ := Option.ite_none_right_eq_some.mp h
    obtain rfl := Option.some.inj heq
    exact .other rfl rfl (fun _ => rfl) rfl (.of_eq rfl)
  | post t =>
    obtain ⟨-, heq⟩ := Option.ite_none_right_eq_some.mp h
    obtain rfl := Option.some.inj heq
    exact .other rfl rfl (fun _ => rfl) rfl (grows_post _ t)
  | ownerClosing =>
    obtain rfl := Option.some.inj h
    exact .other rfl rfl (fun _ => rfl) rfl (.of_eq rfl)
  | stopAccepting =>
    obtain ⟨-, heq⟩ := Option.ite_none_right_eq_some.mp h
    obtain rfl := Option.some.inj heq
    exact .other rfl rfl (fun _ => rfl) rfl (.of_eq rfl)
  | foreign op =>
    obtain ⟨-, heq⟩ := Option.ite_none_right_eq_some.mp h
    obtain rfl := Option.some.inj heq
    refine .other rfl rfl (fun _ => rfl) rfl ?_
    exact ⟨Multiset.le_cons_self _ _, List.prefix_rfl, rfl, rfl, List.prefix_rfl, rfl,
      fun _ => List.prefix_rfl⟩
  | complete op o =>
    obtain ⟨⟨hop, hfits⟩, heq⟩ := Option.ite_none_right_eq_some.mp h
    obtain rfl := Option.some.inj heq
    exact .complete hop hfits rfl
  | wake =>
    obtain rfl := Option.some.inj h
    refine .other rfl rfl (fun _ => rfl) rfl ?_
    exact ⟨le_rfl, List.prefix_append _ _, rfl, rfl, List.prefix_rfl, rfl,
      fun _ => List.prefix_rfl⟩
  | wait =>
    obtain ⟨⟨hevents, hacquired⟩, heq⟩ := Option.ite_none_right_eq_some.mp h
    obtain rfl := Option.some.inj heq
    exact .wait hevents hacquired rfl
  | acquire =>
    simp only [World.envStep] at h
    split at h
    · rename_i ev rest hacquired hevents
      obtain rfl := Option.some.inj h
      exact .acquire hacquired hevents rfl
    · simp at h
  | postAcquired =>
    simp only [World.envStep] at h
    split at h
    · rename_i ev hacquired
      obtain rfl := Option.some.inj h
      exact .postAcquired hacquired rfl
    · simp at h
  | _ => simp [World.envStep] at h

lemma SystemInv.effect (h : SystemInv S) (hok : Ok S l) (hstep : S.step cfg l = some S') :
    Effect cfg S S' l := by
  have henv : (S.world.envStep l).map ({ S with world := · }) = some S' →
      Effect cfg S S' l := by
    intro hmap
    obtain ⟨w, hw, rfl⟩ := Option.map_eq_some_iff.mp hmap
    exact effect_envStep hw
  cases l with
  | drain k =>
    simp only [System.step, System.drainStep] at hstep
    split_ifs at hstep with hrunning hclosing
    · obtain rfl := Option.some.inj hstep
      obtain ⟨hsent, hgiven⟩ := drainClosing_histories S.world
      exact .closed h.inv.drainClosing.2 hsent hgiven
    · have hnone : S.running = none := by simpa using hrunning
      split at hstep
      · simp at hstep
      · rename_i t rest hqueue
        obtain rfl := Option.some.inj hstep
        have hdoes : Does (taskBody cfg k t) (S.world.pop rest) fun _ w' => Done w' :=
          taskBody_spec h.inv (h.resting hnone) hqueue hok
        exact .task hnone hqueue rfl (stretch_untilCallback hdoes)
  | resume =>
    simp only [System.step] at hstep
    split at hstep
    · rename_i rest hrest
      obtain rfl := Option.some.inj hstep
      exact .resumed hrest rfl (stretch_untilCallback (h.running rest hrest _ (.refl h.inv)))
    · simp at hstep
  | releaseInCallback =>
    obtain ⟨-, heq⟩ := Option.ite_none_right_eq_some.mp hstep
    obtain rfl := Option.some.inj heq
    obtain ⟨hsent, hgiven⟩ := drainClosing_histories
      (S.world.setConn { S.world.conn with ownerClosing := true, acceptingTasks := false })
    exact .closed h.inv.closeFromCallback.2 hsent hgiven
  | _ => exact henv hstep

/-! ### The output only grows -/

lemma Effect.sent (h : Effect cfg S S' l) (id : ConnectionId) :
    S.world.sent id <+: S'.world.sent id := by
  have hsame : S'.world.sent = S.world.sent → S.world.sent id <+: S'.world.sent id :=
    fun heq => heq ▸ List.prefix_rfl
  cases h with
  | task _ _ _ h => exact hsame h.sent
  | resumed _ _ h => exact hsame h.sent
  | closed _ hsent _ => exact hsame hsent
  | other _ _ _ _ h => exact hsame h.sent
  | @complete op o _ _ heq =>
    subst heq
    simp only [World.complete]
    split_ifs with hkind
    · by_cases hid : id = op.id
      · subst hid
        simp [Bytes.add]
      · simp [Bytes.add, hid]
    · exact List.prefix_rfl
  | wait _ _ heq => exact hsame (heq ▸ rfl)
  | acquire _ _ heq => exact hsame (heq ▸ rfl)
  | postAcquired _ heq => exact hsame (heq ▸ rfl)

lemma Effect.given (h : Effect cfg S S' l) (id : ConnectionId) :
    S.world.given id <+: S'.world.given id := by
  have hsame : S'.world.given = S.world.given → S.world.given id <+: S'.world.given id :=
    fun heq => heq ▸ List.prefix_rfl
  cases h with
  | task _ _ _ h => exact h.given id
  | resumed _ _ h => exact h.given id
  | closed _ _ hgiven => exact hsame hgiven
  | other _ _ _ _ h => exact h.given id
  | complete _ _ heq => exact hsame (heq ▸ rfl)
  | wait _ _ heq => exact hsame (heq ▸ rfl)
  | acquire _ _ heq => exact hsame (heq ▸ rfl)
  | postAcquired _ heq => exact hsame (heq ▸ rfl)

/-! ### The system completes what was started -/

/-- An operation stays with the system until it completes. -/
lemma Effect.started (h : Effect cfg S S' l) (halive : S'.world.conn.connected = true)
    (hop : op ∈ S.world.service.started) :
    op ∈ S'.world.service.started ∧ l.completes op = false ∨
      ∃ o : Outcome, l = .complete op o ∧ o.Fits op ∧
        S' = { S with world := S.world.complete op o } := by
  cases h with
  | task _ _ _ h => exact Or.inl ⟨Multiset.mem_of_le h.grows.started hop, rfl⟩
  | resumed _ _ h => exact Or.inl ⟨Multiset.mem_of_le h.grows.started hop, rfl⟩
  | closed hclosed => simp [hclosed] at halive
  | other _ _ hsystem _ h => exact Or.inl ⟨Multiset.mem_of_le h.started hop, hsystem op⟩
  | @complete op' o _ hfits heq =>
    by_cases hne : op' = op
    · subst hne
      exact Or.inr ⟨o, rfl, hfits, heq⟩
    · subst heq
      refine Or.inl ⟨?_, by simp [Label.completes, hne]⟩
      exact (Multiset.mem_erase_of_ne (Ne.symm hne)).mpr hop
  | wait _ _ heq => exact Or.inl ⟨heq ▸ hop, rfl⟩
  | acquire _ _ heq => exact Or.inl ⟨heq ▸ hop, rfl⟩
  | postAcquired _ heq => exact Or.inl ⟨heq ▸ hop, rfl⟩

/-! ### The poll thread brings completions to the queue -/

/-- What the poll thread has to do before it posts the completion. -/
def World.distance (ev : Completion) (w : World) : Nat :=
  3 * w.pipe.idxOf (some ev) +
    if w.acquired.isSome then 0 else if w.events ≠ [] then 1 else 2

lemma distance_append (more : List (Option Completion)) (hpipe : w'.pipe = w.pipe ++ more)
    (hevents : w'.events = w.events) (hacquired : w'.acquired = w.acquired)
    (hmem : some ev ∈ w.pipe) :
    some ev ∈ w'.pipe ∧ w'.distance ev = w.distance ev := by
  refine ⟨hpipe ▸ List.mem_append_left _ hmem, ?_⟩
  rw [World.distance, World.distance, hpipe, hevents, hacquired, List.idxOf_append_of_mem hmem]

lemma Grows.distance (h : Grows w w') (hmem : some ev ∈ w.pipe) :
    some ev ∈ w'.pipe ∧ w'.distance ev = w.distance ev := by
  obtain ⟨more, hdone⟩ := h.done
  refine distance_append more ?_ h.events h.acquired hmem
  simp [World.pipe, h.events, h.acquired, ← hdone]

lemma distance_wait (hevents : w.events = []) (hacquired : w.acquired = none)
    (hmem : some ev ∈ w.pipe) : some ev ∈ w.wait.pipe ∧ w.wait.distance ev < w.distance ev := by
  obtain ⟨woken, hdone, -, hend⟩ := collect_step maxCompletions w.service.done
  have hpipe : w.pipe = w.service.done := by simp [World.pipe, hevents, hacquired]
  have hpipe' : w.wait.pipe = (collect maxCompletions w.service.done).1.map some ++
      (collect maxCompletions w.service.done).2 := by simp [World.pipe, World.wait, hacquired]
  rw [hpipe] at hmem
  simp only [World.distance, hpipe, hpipe', hevents, hacquired]
  simp only [World.wait, hacquired]
  generalize collect maxCompletions w.service.done = p at *
  obtain ⟨reports, rest⟩ := p
  dsimp only at hdone hend ⊢
  rw [hdone] at hmem ⊢
  cases woken with
  | false =>
    simp only [Bool.false_eq_true, if_false, List.append_nil] at hmem ⊢
    have hne : reports ≠ [] := by
      rintro rfl
      simp [maxCompletions] at hend
      simp [hend] at hmem
    exact ⟨hmem, by simp [hne]⟩
  | true =>
    simp only [if_true, List.append_assoc, List.singleton_append] at hmem ⊢
    by_cases hreports : some ev ∈ reports.map some
    · have hne : reports ≠ [] := by
        rintro rfl
        simp at hreports
      refine ⟨List.mem_append_left _ hreports, ?_⟩
      rw [List.idxOf_append_of_mem hreports, List.idxOf_append_of_mem hreports]
      simp [hne]
    · have hrest : some ev ∈ rest := by simpa [hreports] using hmem
      refine ⟨List.mem_append_right _ hrest, ?_⟩
      rw [List.idxOf_append_of_notMem hreports, List.idxOf_append_of_notMem hreports,
        List.idxOf_cons_ne _ (by simp)]
      split_ifs <;> omega

lemma distance_pop (first : Option Completion) (hpipe : w.pipe = first :: w'.pipe)
    (hne : first ≠ some ev) (hmem : some ev ∈ w.pipe) :
    some ev ∈ w'.pipe ∧ w'.distance ev < w.distance ev := by
  rw [hpipe] at hmem
  refine ⟨(List.mem_cons.mp hmem).resolve_left (Ne.symm hne), ?_⟩
  rw [World.distance, World.distance, hpipe, List.idxOf_cons_ne _ hne]
  split_ifs <;> omega

lemma distance_acquire {first : Completion} {rest : List Completion}
    (hacquired : w.acquired = none) (hevents : w.events = first :: rest)
    (hown : ev.id.valid = true ∧ ev.id = w.conn.id) (hmem : some ev ∈ w.pipe) :
    some ev ∈ (w.acquire first rest).pipe ∧
      (w.acquire first rest).distance ev < w.distance ev := by
  by_cases hfirst : first.id.valid = true ∧ first.id = w.conn.id
  · have hget : (w.acquire first rest).acquired = some first := if_pos hfirst
    have hpipe : (w.acquire first rest).pipe = w.pipe := by
      rw [World.pipe, World.pipe, hget, hacquired, hevents]
      rfl
    refine ⟨hpipe ▸ hmem, ?_⟩
    rw [World.distance, World.distance, hpipe, hget]
    simp [hacquired, hevents]
  · refine distance_pop (some first) ?_ ?_ hmem
    · simp [World.pipe, World.acquire, hacquired, hevents, hfirst]
    · intro heq
      obtain rfl := Option.some.inj heq
      exact hfirst hown

lemma distance_postAcquired {first : Completion} (hacquired : w.acquired = some first)
    (hne : first ≠ ev) (hmem : some ev ∈ w.pipe) :
    some ev ∈ (w.postAcquired first).pipe ∧
      (w.postAcquired first).distance ev < w.distance ev := by
  refine distance_pop (some first) ?_ (by simpa using hne) hmem
  simp [World.pipe, World.postAcquired, hacquired]

/-- Every step of the poll thread brings the completion nearer to the queue. -/
lemma Effect.nearer (h : Effect cfg S S' l) (hinv : Inv S.world) (halive : Alive ev.id S.world)
    (halive' : Alive ev.id S'.world) (hmem : some ev ∈ S.world.pipe) :
    .completion ev ∈ S'.world.conn.queue ∨ some ev ∈ S'.world.pipe ∧
      S'.world.distance ev ≤ S.world.distance ev ∧
        (l.ofPollThread = true → S'.world.distance ev < S.world.distance ev) := by
  have hkeeps : l.ofPollThread = false →
      some ev ∈ S'.world.pipe ∧ S'.world.distance ev = S.world.distance ev →
      some ev ∈ S'.world.pipe ∧ S'.world.distance ev ≤ S.world.distance ev ∧
        (l.ofPollThread = true → S'.world.distance ev < S.world.distance ev) :=
    fun hpoll h => ⟨h.1, h.2.le, fun htrue => by simp [hpoll] at htrue⟩
  cases h with
  | @task k t rest _ _ _ h =>
    have hpop : some ev ∈ (S.world.pop rest).pipe := hmem
    exact Or.inr (hkeeps rfl (h.grows.distance hpop))
  | resumed _ _ h => exact Or.inr (hkeeps rfl (h.grows.distance hmem))
  | closed hclosed => simp [halive'.connected] at hclosed
  | other hpoll _ _ _ h => exact Or.inr (hkeeps hpoll (h.distance hmem))
  | @complete op o _ _ heq =>
    subst heq
    refine Or.inr (hkeeps rfl (distance_append [some (op.report o)] ?_ rfl rfl hmem))
    simp [World.pipe, World.complete]
  | wait hevents hacquired heq =>
    subst heq
    obtain ⟨hmem', hlt⟩ := distance_wait hevents hacquired hmem
    exact Or.inr ⟨hmem', hlt.le, fun _ => hlt⟩
  | acquire hacquired hevents heq =>
    subst heq
    have hown : ev.id.valid = true ∧ ev.id = S.world.conn.id :=
      ⟨halive.current ▸ (hinv.up halive.connected).valid, halive.current.symm⟩
    obtain ⟨hmem', hlt⟩ := distance_acquire hacquired hevents hown hmem
    exact Or.inr ⟨hmem', hlt.le, fun _ => hlt⟩
  | @postAcquired first hacquired heq =>
    subst heq
    by_cases hne : first = ev
    · subst hne
      refine Or.inl ?_
      simp [World.postAcquired, Conn.post, halive.accepting]
    · obtain ⟨hmem', hlt⟩ := distance_postAcquired hacquired hne hmem
      exact Or.inr ⟨hmem', hlt.le, fun _ => hlt⟩

/-! ### The worker comes to what is in the queue -/

/-- How far the current task is from its end. -/
noncomputable def System.depth (S : System) : Ordinal.{0} :=
  match S.running with
  | none => 0
  | some rest => ⨆ w, Order.succ (rest w).depth

lemma depth_untilCallback (m : Resum World Request Unit) :
    (untilCallback m).depth ≤ m.depth := by
  induction m with
  | ret a w => exact le_rfl
  | call e w rest ih =>
    cases e with
    | callback cb => exact le_rfl
    | postContinuation => exact (ih _).trans (depth_lt_iSup rest _).le

/-- What the worker has to do before it takes the completion from the queue. -/
noncomputable def System.ahead (ev : Completion) (S : System) : ℕ ×ₗ Ordinal.{0} :=
  toLex (S.world.conn.queue.idxOf (.completion ev), S.depth)

/-- Only the worker takes tasks from the queue. -/
lemma Effect.queue (h : Effect cfg S S' l) (hconn : S'.world.conn.connected = true)
    (hworker : l.ofWorker = false) :
    S.world.conn.queue <+: S'.world.conn.queue ∧ S'.running = S.running := by
  cases h with
  | task => simp [Label.ofWorker] at hworker
  | resumed => simp [Label.ofWorker] at hworker
  | closed hclosed => simp [hconn] at hclosed
  | other _ _ _ hrunning h => exact ⟨h.queue, hrunning⟩
  | complete _ _ heq => exact ⟨heq ▸ List.prefix_rfl, heq ▸ rfl⟩
  | wait _ _ heq => exact ⟨heq ▸ List.prefix_rfl, heq ▸ rfl⟩
  | acquire _ _ heq => exact ⟨heq ▸ List.prefix_rfl, heq ▸ rfl⟩
  | postAcquired _ heq =>
    subst heq
    exact ⟨(grows_post S.world _).queue, rfl⟩

/-- A send that failed closes the connection. -/
lemma connected_failed_send {k : Kernel} {rest : List Task} (hinv : Inv w)
    (halive : Alive ev.id w) (hkind : ev.operation = .send) (herror : ev.errorCode ≠ none) :
    (untilCallback (taskBody cfg k (.completion ev) (w.pop rest))).world.conn.connected =
      false := by
  obtain ⟨code, hcode⟩ := Option.ne_none_iff_exists'.mp herror
  have hstate := (hinv.up halive.connected).state
  have heq : taskBody cfg k (.completion ev) (w.pop rest) =
      startClose .error (.common (.errno code))
        ((w.pop rest).setConn { (w.pop rest).conn with sendPending := false }) := by
    have hid : (w.pop rest).conn.id = ev.id := halive.current
    have hconn : (w.pop rest).conn.connected = true := halive.connected
    simp [taskBody, handlePollEvent, handleSendCompletion, getConn, modifyConn, hid, hkind, hconn,
      hcode, World.setConn]
  rw [heq, startClose_active (by simp [World.pop, World.setConn, hstate])]
  exact connected_closedConn

/-- A send that was handled is not under way any more. -/
lemma landed_handled {rest : List Task} (hinv : Inv w) (halive : Alive ev.id w)
    (hqueue : w.conn.queue = .completion ev :: rest) (hkind : ev.operation = .send)
    (h : Stretch (w.pop rest) w') :
    ∀ ev' ∈ w'.landed, ev'.operation = .send → ev'.id ≠ ev.id := by
  have hlanded : w.landed = ev :: (w.pop rest).landed := landed_pop hqueue
  have hsame : w'.landed = (w.pop rest).landed := by
    obtain ⟨ops, hservice⟩ := h.service
    obtain ⟨n, hposted⟩ := h.queue
    have hnone : (List.replicate n Task.parseContinuation).filterMap Task.event = [] := by
      simp [List.filterMap_replicate, Task.event]
    simp [World.landed, h.events, h.acquired, hservice, hposted, hnone]
  have hsend := hinv.send
  rw [hlanded] at hsend
  have hzero := (hsend.handle hkind halive.current.symm).2.eq_zero
  rw [hsame, ← halive.current]
  exact (inFlight_eq_zero.mp hzero).2

/-- Every step of the worker comes nearer to the completion in the queue, up to the one that handles
it. -/
lemma Effect.sooner (h : Effect cfg S S' l) (hinv : Inv S.world) (halive : Alive ev.id S.world)
    (halive' : Alive ev.id S'.world) (hkind : ev.operation = .send)
    (hmem : .completion ev ∈ S.world.conn.queue) :
    (ev.errorCode = none ∧ ∀ ev' ∈ S'.world.landed, ev'.operation = .send → ev'.id ≠ ev.id) ∨
      .completion ev ∈ S'.world.conn.queue ∧ S'.ahead ev ≤ S.ahead ev ∧
        (l.ofWorker = true → S'.ahead ev < S.ahead ev) := by
  by_cases hworker : l.ofWorker = true
  swap
  · have hfalse : l.ofWorker = false := by simpa using hworker
    obtain ⟨⟨more, hqueue⟩, hrunning⟩ := h.queue halive'.connected hfalse
    have hahead : S'.ahead ev = S.ahead ev := by
      rw [System.ahead, System.ahead, System.depth, System.depth, hrunning, ← hqueue,
        List.idxOf_append_of_mem hmem]
    refine Or.inr ⟨hqueue ▸ List.mem_append_left _ hmem, hahead.le, fun htrue => ?_⟩
    exact absurd htrue hworker
  cases h with
  | @task k t rest _ hqueue heq h =>
    by_cases ht : t = .completion ev
    · subst ht
      by_cases herror : ev.errorCode = none
      · exact Or.inl ⟨herror, landed_handled hinv halive hqueue hkind h⟩
      · have hclosed := halive'.connected
        rw [heq, connected_failed_send hinv halive hkind herror] at hclosed
        simp at hclosed
    · obtain ⟨n, hposted⟩ := h.queue
      have hrest : .completion ev ∈ rest := by
        rw [hqueue] at hmem
        exact (List.mem_cons.mp hmem).resolve_left (Ne.symm ht)
      have hlt : S'.ahead ev < S.ahead ev := by
        refine Prod.Lex.toLex_lt_toLex.mpr (Or.inl ?_)
        have hposted' : S'.world.conn.queue = rest ++ List.replicate n .parseContinuation := hposted
        simp only [hposted', hqueue]
        rw [List.idxOf_append_of_mem hrest, List.idxOf_cons_ne _ ht]
        exact Nat.lt_succ_self _
      exact Or.inr ⟨hposted ▸ List.mem_append_left _ hrest, hlt.le, fun _ => hlt⟩
  | @resumed rest hrunning heq h =>
    obtain ⟨n, hposted⟩ := h.queue
    have hlt : S'.ahead ev < S.ahead ev := by
      refine Prod.Lex.toLex_lt_toLex.mpr (Or.inr ⟨?_, ?_⟩)
      · simp only [hposted]
        exact List.idxOf_append_of_mem hmem
      · have hdepth : S.depth = ⨆ w, Order.succ (rest w).depth := by rw [System.depth, hrunning]
        dsimp only
        rw [heq, hdepth]
        exact (depth_untilCallback _).trans_lt (depth_lt_iSup rest _)
    exact Or.inr ⟨hposted ▸ List.mem_append_left _ hmem, hlt.le, fun _ => hlt⟩
  | closed hclosed => simp [halive'.connected] at hclosed
  | other _ hfalse => simp [hfalse] at hworker
  | complete => simp [Label.ofWorker] at hworker
  | wait => simp [Label.ofWorker] at hworker
  | acquire => simp [Label.ofWorker] at hworker
  | postAcquired => simp [Label.ofWorker] at hworker

/-! ### Infinite runs -/

/-- The system gets on with a send under the id: it takes at least one byte, or the send fails. (A
slice whose length is a multiple of `2 ^ 32` is started as a send of nothing.) -/
def Label.Serves (id : ConnectionId) : Label → Prop
  | .complete op o => op.kind = .send → op.id = id → 0 < o.bytes ∨ o.error.isSome = true
  | _ => True

/-- What the surroundings keep to when they get on with what is to be sent. -/
structure Working (S : System) (l : Label) : Prop where
  ok : Ok S l
  serves : l.Serves S.world.conn.id

instance (id : ConnectionId) : ∀ l : Label, Decidable (l.Serves id)
  | .complete op o =>
    inferInstanceAs (Decidable (op.kind = .send → op.id = id → 0 < o.bytes ∨ o.error.isSome = true))
  | .connectMove | .post _ | .ownerClosing | .stopAccepting | .releaseInCallback | .drain _
  | .resume | .foreign _ | .wake | .wait | .acquire | .postAcquired => .isTrue trivial

lemma working_iff : Working S l ↔ Ok S l ∧ l.Serves S.world.conn.id :=
  ⟨fun h => ⟨h.ok, h.serves⟩, fun h => ⟨h.1, h.2⟩⟩

instance (S : System) (l : Label) : Decidable (Working S l) :=
  decidable_of_iff' _ working_iff

/-- While nothing has completed, `Wait` returns nothing. -/
lemma step_wait_idle (hevents : S.world.events = []) (hacquired : S.world.acquired = none)
    (hdone : S.world.service.done = []) : S.step cfg .wait = some S := by
  have hwait : S.world.wait = S.world := by
    rw [World.wait, hdone, show collect maxCompletions [] = ([], []) from rfl]
    dsimp only
    rw [← hdone, ← hevents]
  simp [System.step, World.envStep, hevents, hacquired, hwait]

section runs

variable {r : Run.Forever (System.step cfg) {}} {n m : Nat}

lemma systemInv_forever (hok : ∀ n, Ok (r.state n) (r.label n)) (n : Nat) :
    SystemInv (r.state n) :=
  Run.Forever.invariant (fun _ _ _ h hok hstep => h.step hok hstep) hok systemInv_init n

lemma effect_forever (hok : ∀ n, Ok (r.state n) (r.label n)) (n : Nat) :
    Effect cfg (r.state n) (r.state (n + 1)) (r.label n) :=
  (systemInv_forever hok n).effect (hok n) (r.next n)

lemma sent_forever (hok : ∀ n, Ok (r.state n) (r.label n)) (hnm : n ≤ m) :
    (r.state n).world.sent id <+: (r.state m).world.sent id := by
  induction m, hnm using Nat.le_induction with
  | base => exact List.prefix_rfl
  | succ m _ ih => exact ih.trans ((effect_forever hok m).sent id)

lemma given_forever (hok : ∀ n, Ok (r.state n) (r.label n)) (hnm : n ≤ m) :
    (r.state n).world.given id <+: (r.state m).world.given id := by
  induction m, hnm using Nat.le_induction with
  | base => exact List.prefix_rfl
  | succ m _ ih => exact ih.trans ((effect_forever hok m).given id)

/-- A completion comes to the queue. -/
lemma queued_of_fair (hok : ∀ n, Ok (r.state n) (r.label n))
    (hpoll : r.Fair (fun _ => True) (·.ofPollThread = true))
    (halive : Alive ev.id (r.state n).world) (hmem : some ev ∈ (r.state n).world.pipe) :
    ∃ m, n ≤ m ∧ (Alive ev.id (r.state m).world →
      .completion ev ∈ (r.state m).world.conn.queue) := by
  refine Run.Forever.leadsTo
    (I := fun S => SystemInv S ∧ Alive ev.id S.world ∧ some ev ∈ S.world.pipe)
    (fun S => S.world.distance ev)
    (fun S => Alive ev.id S.world → .completion ev ∈ S.world.conn.queue)
    hpoll hok (fun _ _ => trivial) ?_ ⟨systemInv_forever hok n, halive, hmem⟩
  rintro S l S' ⟨hinv, halive, hmem⟩ hok hstep
  by_cases halive' : Alive ev.id S'.world
  · rcases (hinv.effect hok hstep).nearer hinv.inv halive halive' hmem with hqueue | hnear
    · exact Or.inl fun _ => hqueue
    · exact Or.inr ⟨⟨hinv.step hok hstep, halive', hnear.1⟩, hnear.2⟩
  · exact Or.inl fun htrue => absurd htrue halive'

/-- A completion of a send is handled. -/
lemma handled_of_fair (hok : ∀ n, Ok (r.state n) (r.label n))
    (hpoll : r.Fair (fun _ => True) (·.ofPollThread = true))
    (hworker : r.Fair (fun S => S.world.conn.queue ≠ [] ∨ S.running.isSome = true)
      (·.ofWorker = true))
    (halive : Alive ev.id (r.state n).world) (hkind : ev.operation = .send)
    (hlanded : ev ∈ (r.state n).world.landed) :
    ∃ m, n ≤ m ∧ (Alive ev.id (r.state m).world → ev.errorCode = none ∧
      ∀ ev' ∈ (r.state m).world.landed, ev'.operation = .send → ev'.id ≠ ev.id) := by
  obtain ⟨n', hn', hqueue⟩ : ∃ n', n ≤ n' ∧ (Alive ev.id (r.state n').world →
      .completion ev ∈ (r.state n').world.conn.queue) := by
    rcases mem_landed.mp hlanded with hmem | hmem
    · exact ⟨n, le_rfl, fun _ => hmem⟩
    · exact queued_of_fair hok hpoll halive hmem
  by_cases halive' : Alive ev.id (r.state n').world
  swap
  · exact ⟨n', hn', fun htrue => absurd htrue halive'⟩
  suffices hlater : ∃ m, n' ≤ m ∧ (Alive ev.id (r.state m).world → ev.errorCode = none ∧
      ∀ ev' ∈ (r.state m).world.landed, ev'.operation = .send → ev'.id ≠ ev.id) by
    obtain ⟨m, hm, h⟩ := hlater
    exact ⟨m, hn'.trans hm, h⟩
  refine Run.Forever.leadsTo
    (I := fun S => SystemInv S ∧ Alive ev.id S.world ∧ .completion ev ∈ S.world.conn.queue)
    (fun S => S.ahead ev)
    (fun S => Alive ev.id S.world → ev.errorCode = none ∧
      ∀ ev' ∈ S.world.landed, ev'.operation = .send → ev'.id ≠ ev.id)
    hworker hok (fun S h => Or.inl (List.ne_nil_of_mem h.2.2)) ?_
    ⟨systemInv_forever hok n', halive', hqueue halive'⟩
  rintro S l S' ⟨hinv, halive, hmem⟩ hok hstep
  by_cases halive' : Alive ev.id S'.world
  · rcases (hinv.effect hok hstep).sooner hinv.inv halive halive' hkind hmem with hdone | hnear
    · exact Or.inl fun _ => hdone
    · exact Or.inr ⟨⟨hinv.step hok hstep, halive', hnear.1⟩, hnear.2⟩
  · exact Or.inl fun htrue => absurd htrue halive'

/-- What a completed send adds to the output. -/
lemma sent_complete {o : Outcome} (hkind : op.kind = .send) (hfits : o.Fits op) :
    ((w.complete op o).sent op.id).length = (w.sent op.id).length + o.bytes := by
  have hlength : o.bytes ≤ op.buffer.length := hfits.1.trans (Nat.mod_le _ _)
  simp [World.complete, hkind, Bytes.add, hlength]

lemma landed_complete {o : Outcome} : op.report o ∈ (w.complete op o).landed :=
  mem_landed.mpr (Or.inr (by simp [World.pipe, World.complete]))

/-- The system takes something of a send, or reports that it failed. -/
lemma completed_of_fair (hworks : ∀ n, Working (r.state n) (r.label n))
    (hsystem : r.Fair (op ∈ ·.world.service.started) (·.completes op = true))
    (halive : Alive op.id (r.state n).world) (hkind : op.kind = .send)
    (hop : op ∈ (r.state n).world.service.started) :
    ∃ m, n ≤ m ∧ (Alive op.id (r.state m).world →
      ((r.state n).world.sent op.id).length < ((r.state m).world.sent op.id).length ∨
      ∃ ev ∈ (r.state m).world.landed,
        ev.operation = .send ∧ ev.id = op.id ∧ ev.errorCode ≠ none) := by
  refine Run.Forever.leadsTo
    (I := fun S => SystemInv S ∧ Alive op.id S.world ∧ op ∈ S.world.service.started ∧
      ((r.state n).world.sent op.id).length ≤ (S.world.sent op.id).length)
    (fun _ => 0)
    (fun S => Alive op.id S.world →
      ((r.state n).world.sent op.id).length < (S.world.sent op.id).length ∨
      ∃ ev ∈ S.world.landed, ev.operation = .send ∧ ev.id = op.id ∧ ev.errorCode ≠ none)
    hsystem hworks (fun _ h => h.2.2.1) ?_
    ⟨systemInv_forever (fun n => (hworks n).ok) n, halive, hop, le_rfl⟩
  rintro S l S' ⟨hinv, halive, hop, hle⟩ hworks hstep
  by_cases halive' : Alive op.id S'.world
  swap
  · exact Or.inl fun htrue => absurd htrue halive'
  have heffect := hinv.effect hworks.ok hstep
  rcases heffect.started halive'.connected hop with ⟨hop', hother⟩ | ⟨o, rfl, hfits, rfl⟩
  · refine Or.inr ⟨⟨hinv.step hworks.ok hstep, halive', hop', ?_⟩, le_rfl, fun htrue => ?_⟩
    · exact hle.trans (heffect.sent op.id).length_le
    · simp [hother] at htrue
  · refine Or.inl fun _ => ?_
    rcases hworks.serves hkind halive.current.symm with hbytes | herror
    · refine Or.inl ?_
      rw [sent_complete hkind hfits]
      omega
    · exact Or.inr ⟨_, landed_complete, hkind, rfl, Option.isSome_iff_ne_none.mp herror⟩

/-- As long as the system has not taken everything, it takes more. -/
lemma sends_more (hworks : ∀ n, Working (r.state n) (r.label n))
    (hpoll : r.Fair (fun _ => True) (·.ofPollThread = true))
    (hworker : r.Fair (fun S => S.world.conn.queue ≠ [] ∨ S.running.isSome = true)
      (·.ofWorker = true))
    (hsystem : ∀ op : Operation, op.kind = .send →
      r.Fair (op ∈ ·.world.service.started) (·.completes op = true))
    (halive : Alive id (r.state n).world)
    (hless : ((r.state n).world.sent id).length < ((r.state n).world.given id).length) :
    ∃ m, n ≤ m ∧ (Alive id (r.state m).world →
      ((r.state n).world.sent id).length < ((r.state m).world.sent id).length) := by
  have hok : ∀ n, Ok (r.state n) (r.label n) := fun n => (hworks n).ok
  -- what has landed is handled first
  obtain ⟨n₁, hn₁, hhandled⟩ : ∃ n₁, n ≤ n₁ ∧ (Alive id (r.state n₁).world →
      ∀ ev ∈ (r.state n₁).world.landed, ev.operation = .send → ev.id ≠ id) := by
    by_cases hlanded : ∀ ev ∈ (r.state n).world.landed, ev.operation = .send → ev.id ≠ id
    · exact ⟨n, le_rfl, fun _ => hlanded⟩
    push Not at hlanded
    obtain ⟨ev, hmem, hkind, rfl⟩ := hlanded
    obtain ⟨n₁, hn₁, hhandled⟩ := handled_of_fair hok hpoll hworker halive hkind hmem
    exact ⟨n₁, hn₁, fun halive₁ => (hhandled halive₁).2⟩
  by_cases halive₁ : Alive id (r.state n₁).world
  swap
  · exact ⟨n₁, hn₁, fun htrue => absurd htrue halive₁⟩
  have hsent : ((r.state n).world.sent id).length ≤ ((r.state n₁).world.sent id).length :=
    (sent_forever hok hn₁).length_le
  rcases hsent.lt_or_eq with hlt | heq
  · exact ⟨n₁, hn₁, fun _ => hlt⟩
  -- then the next send is with the system
  have hinv := (systemInv_forever hok n₁).inv
  have hgiven := hinv.given_eq halive₁.connected halive₁.accepting
    (halive₁.current.symm ▸ hhandled halive₁)
  rw [halive₁.current] at hgiven
  have hcontent : (r.state n₁).world.conn.sendBuffer.content ≠ [] := by
    intro hnil
    have hle : ((r.state n).world.given id).length ≤ ((r.state n₁).world.given id).length :=
      (given_forever hok hn₁).length_le
    rw [hgiven, hnil, List.append_nil] at hle
    omega
  obtain ⟨op, hop, hkind, hid⟩ := hinv.send.started_of_not_landed halive₁.accepting
    (hinv.pushed hcontent) (halive₁.current.symm ▸ hhandled halive₁)
  obtain rfl : op.id = id := hid.trans halive₁.current
  obtain ⟨m, hm, hmore⟩ := completed_of_fair hworks (hsystem op hkind) halive₁ hkind hop
  by_cases halive₂ : Alive op.id (r.state m).world
  swap
  · exact ⟨m, hn₁.trans hm, fun htrue => absurd htrue halive₂⟩
  rcases hmore halive₂ with hlt | ⟨ev, hmem, hkind', hid', herror⟩
  · exact ⟨m, hn₁.trans hm, fun _ => heq.trans_lt hlt⟩
  · rw [← hid'] at halive₂
    obtain ⟨m', hm', hclosed⟩ := handled_of_fair hok hpoll hworker halive₂ hkind' hmem
    refine ⟨m', hn₁.trans (hm.trans hm'), fun halive₃ => absurd (hclosed ?_).1 herror⟩
    rwa [hid']

end runs

end Connx.Windows
