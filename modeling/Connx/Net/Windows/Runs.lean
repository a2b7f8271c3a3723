import Connx.Lib.Simulation
import Connx.Net.Windows.Tasks

/-!
# Runs of a connection on Windows

The invariant along every run, and what the runs are for the poller: runs of its service.
-/

namespace Connx.Windows

open Resum
open Poll (Operation Outcome Completion Service ServiceOp)

variable {cfg : Config} {w w' : World} {S S' : System}

/-- The rest of a task goes on from wherever its callback leaves it. -/
def Good (rest : Suspended) (w : World) : Prop :=
  ∀ w', Meanwhile w w' → Sat Calls Stretch RelyOn (fun _ w => Done w) w' (rest w')

/-- The invariant of the system. -/
structure SystemInv (S : System) : Prop where
  inv : Inv S.world
  resting : S.running = none → Settled S.world.conn
  running : ∀ rest, S.running = some rest → Good rest S.world

lemma SystemInv.ended (h : Done w) : SystemInv ⟨w, none⟩ :=
  ⟨h.toInv, fun _ => h.toSettled, fun _ hrest => by simp at hrest⟩

/-- A stretch of a task ends in a callback or with the task. -/
lemma systemInv_untilCallback {m : Resum World Request Unit}
    (h : Sat Calls Stretch RelyOn (fun _ w => Done w) w m) : SystemInv (untilCallback m) := by
  induction m generalizing w with
  | ret a w₁ => exact .ended h.2
  | call e w₁ rest ih =>
    cases e with
    | callback cb =>
      refine ⟨h.2.1, fun hnone => by simp [untilCallback] at hnone, fun rest' hrest => ?_⟩
      obtain rfl := Option.some.inj hrest
      exact h.2.2
    | postContinuation => exact ih _ (h.2.2 _ rfl)

/-- Something happens around the task, if there is one. -/
lemma SystemInv.meanwhile (h : SystemInv S) (hw : Meanwhile S.world w) :
    SystemInv { S with world := w } where
  inv := hw.inv
  resting hnone := hw.settled (h.resting hnone)
  running rest hrest w' hw' := h.running rest hrest w' (hw.trans hw')

/-- The queue is thrown away while the connection is down. -/
lemma Inv.clearQueue (h : Inv w) (hconn : w.conn.connected = false) : Inv (w.pop []) := by
  have hdown := h.down hconn
  have hsub : (w.pop []).landed.Sublist w.landed := by
    have heq : w.landed = w.conn.queue.filterMap Task.event ++ (w.pop []).landed := by
      simp [World.landed, World.pop, World.setConn]
    rw [heq]
    exact List.sublist_append_right _ _
  have hrecv := h.recv
  have hsend := h.send
  rw [hdown.recvPending] at hrecv
  rw [hdown.sendPending] at hsend
  have hzero : ∀ kind, inFlight w.service.started w.landed kind w.conn.id = 0 →
      inFlight w.service.started (w.pop []).landed kind w.conn.id = 0 := fun kind hkind =>
    Nat.le_zero.mp ((inFlight_drop hsub).trans hkind.le)
  suffices hmean : Meanwhile w (w.pop []) from hmean.inv
  refine h.dispatch hsub (fun haccept => ⟨haccept, fun kind hkind => ?_⟩) ?_
  · rcases hkind with rfl | rfl
    · exact (hzero _ hrecv.eq_zero).trans hrecv.eq_zero.symm
    · exact (hzero _ hsend.eq_zero).trans hsend.eq_zero.symm
  · intro hpending
    simp [hdown.continuation] at hpending

lemma Inv.closable_clearQueue (h : Inv w) : Closable (w.pop []) := by
  have hsub : (w.pop []).landed ⊆ w.landed := by
    intro ev hev
    simp only [World.landed, World.pop, World.setConn, List.mem_append] at hev ⊢
    tauto
  exact ⟨h.known.drop hsub, h.wire, fun ev hev => h.sound ev (hsub hev), h.closes⟩

/-- `DrainTaskQueue` and `StartClose(kRelease)`. -/
lemma Inv.drainClosing (h : Inv w) :
    Inv w.drainClosing ∧ w.drainClosing.conn.connected = false := by
  have heq : w.drainClosing =
      (untilCallback (startClose .release (.common .empty) (w.pop []))).world := rfl
  by_cases hstate : (w.pop []).conn.state = .idle ∨ (w.pop []).conn.state = .closing
  · have hconn := h.state_of_idle (hstate.resolve_right h.notClosing)
    rw [heq, startClose_inactive hstate]
    exact ⟨h.clearQueue hconn, hconn⟩
  · rw [heq, startClose_active hstate]
    exact ⟨h.closable_clearQueue.inv (expected_common _), connected_closedConn⟩

lemma Inv.closeFromCallback (h : Inv w) :
    Inv w.closeFromCallback ∧ w.closeFromCallback.conn.connected = false := by
  have hstop : Meanwhile w
      (w.setConn { w.conn with ownerClosing := true, acceptingTasks := false }) :=
    h.dispatch (.refl _) (fun hfalse => by simp at hfalse) fun _ _ => id
  exact hstop.inv.drainClosing

lemma Inv.meanwhile_closeFromCallback (h : Inv w) : Meanwhile w w.closeFromCallback :=
  ⟨h.closeFromCallback.1, fun htrue => absurd (h.closeFromCallback.2.symm.trans htrue) (by simp)⟩

/-- One step keeps the invariant. -/
theorem SystemInv.step {l : Label} (h : SystemInv S) (hok : Ok S l)
    (hstep : S.step cfg l = some S') : SystemInv S' := by
  have henv : ∀ {l : Label}, Ok S l → (S.world.envStep l).map ({ S with world := · }) = some S' →
      SystemInv S' := by
    intro l hok hmap
    obtain ⟨w, hw, rfl⟩ := Option.map_eq_some_iff.mp hmap
    refine h.meanwhile (h.inv.envStep ?_ hw)
    cases l <;> exact hok
  cases l with
  | drain k =>
    simp only [System.step, System.drainStep] at hstep
    split_ifs at hstep with hrunning hclosing
    · obtain rfl := Option.some.inj hstep
      obtain ⟨hinv, hconn⟩ := h.inv.drainClosing
      exact .ended (hinv.done hconn)
    · have hsettled := h.resting (by simpa using hrunning)
      split at hstep
      · simp at hstep
      · rename_i t rest hqueue
        obtain rfl := Option.some.inj hstep
        exact systemInv_untilCallback (taskBody_spec h.inv hsettled hqueue hok)
  | resume =>
    simp only [System.step] at hstep
    split at hstep
    · rename_i rest hrest
      obtain rfl := Option.some.inj hstep
      exact systemInv_untilCallback (h.running rest hrest _ (.refl h.inv))
    · simp at hstep
  | releaseInCallback =>
    obtain ⟨-, heq⟩ := Option.ite_none_right_eq_some.mp hstep
    obtain rfl := Option.some.inj heq
    exact h.meanwhile h.inv.meanwhile_closeFromCallback
  | _ => exact henv hok hstep

lemma systemInv_init : SystemInv {} := by
  refine .ended ?_
  refine Inv.done ?_ rfl
  exact
    { known := ⟨by simp, by simp, fun hvalid => absurd hvalid (by decide), by simp,
        by simp [World.landed], fun _ _ => ⟨rfl, rfl, rfl, rfl⟩⟩
      wire := ⟨by simp, by simp, by simp, by simp⟩
      recv := .empty rfl
      send := .empty rfl
      output := ⟨rfl, fun hvalid => absurd hvalid (by decide)⟩
      input := fun hvalid => absurd hvalid (by decide)
      sound := by simp [World.landed]
      notClosing := by decide
      up := fun hconn => by simp at hconn
      down := fun _ => ⟨rfl, rfl, rfl, rfl, rfl, rfl, rfl⟩
      socket := fun hvalid => absurd hvalid (by decide)
      parsed := le_rfl
      deferred := expected_common _
      closes := by simp
      continuation := fun hpending => by simp at hpending
      pushed := fun hne => absurd rfl hne }

/-- The invariant holds along every run. -/
theorem systemInv_of_exec {ls : List Label} (hexec : Run.exec (System.step cfg) {} ls = some S)
    (hok : Run.Meets (System.step cfg) Ok {} ls) : SystemInv S :=
  Run.exec_invariant Ok (fun _ _ _ h hok hstep => h.step hok hstep) hexec hok systemInv_init

/-! ### What the connection does to the service -/

lemma stretch_untilCallback {Q : Unit → World → Prop} {m : Resum World Request Unit}
    (h : Sat Calls Stretch RelyOn Q w m) : Stretch w (untilCallback m).world := by
  induction m generalizing w with
  | ret a w₁ => exact h.1
  | call e w₁ rest ih =>
    cases e with
    | callback cb => exact h.1
    | postContinuation =>
      have hpost := Stretch.post w₁
      exact IsTrans.trans _ _ _ h.1 (IsTrans.trans _ _ _ hpost (ih _ (h.2.2 _ rfl)))

/-- Operations are started one after the other. -/
lemma follows_started (ops : List Operation) {s : Service} (hopened : s.opened = true) :
    Run.Follows Service.Step s (ops.map .accepted)
      { s with started := (ops : Multiset Operation) + s.started } := by
  induction ops generalizing s with
  | nil => simpa using Run.Follows.nil s
  | cons op ops ih =>
    have hrest := ih (s := { s with started := op ::ₘ s.started }) hopened
    refine .cons (.accepted op hopened) ?_
    simpa [← Multiset.cons_coe, Multiset.cons_add] using hrest

lemma Stretch.follows (h : Stretch w w') (hopened : w.service.opened = true) :
    w'.service.opened = true ∧ ∃ os, Run.Follows Service.Step w.service os w'.service := by
  obtain ⟨ops, heq⟩ := h.service
  rw [heq]
  exact ⟨hopened, _, follows_started ops hopened⟩

lemma collect_step (n : Nat) (done : List (Option Completion)) :
    ∃ woken : Bool, done = (collect n done).1.map some ++ (if woken then [none] else []) ++
        (collect n done).2 ∧ (collect n done).1.length ≤ n ∧
      (woken = true ∨ (collect n done).1.length = n ∨ (collect n done).2 = []) := by
  induction n generalizing done with
  | zero => exact ⟨false, by simp [collect], by simp [collect], by simp [collect]⟩
  | succ n ih =>
    rcases done with _ | ⟨_ | ev, done⟩
    · exact ⟨false, by simp [collect], by simp [collect], by simp [collect]⟩
    · exact ⟨true, by simp [collect], by simp [collect], by simp [collect]⟩
    · obtain ⟨woken, hdone, hlength, hend⟩ := ih done
      refine ⟨woken, ?_, ?_, ?_⟩
      · simpa [collect] using hdone
      · simpa [collect] using hlength
      · simpa [collect] using hend

lemma follows_of_eq (h : w'.service = w.service) (hopened : w.service.opened = true) :
    w'.service.opened = true ∧ ∃ os, Run.Follows Service.Step w.service os w'.service := by
  rw [h]
  exact ⟨hopened, [], .nil _⟩

lemma envStep_service {l : Label} (hopened : w.service.opened = true)
    (hstep : w.envStep l = some w') :
    w'.service.opened = true ∧ ∃ os, Run.Follows Service.Step w.service os w'.service := by
  cases l with
  | connectMove =>
    obtain ⟨-, heq⟩ := Option.ite_none_right_eq_some.mp hstep
    obtain rfl := Option.some.inj heq
    exact follows_of_eq rfl hopened
  | post t =>
    obtain ⟨-, heq⟩ := Option.ite_none_right_eq_some.mp hstep
    obtain rfl := Option.some.inj heq
    exact follows_of_eq rfl hopened
  | ownerClosing =>
    obtain rfl := Option.some.inj hstep
    exact follows_of_eq rfl hopened
  | stopAccepting =>
    obtain ⟨-, heq⟩ := Option.ite_none_right_eq_some.mp hstep
    obtain rfl := Option.some.inj heq
    exact follows_of_eq rfl hopened
  | foreign op =>
    obtain ⟨-, heq⟩ := Option.ite_none_right_eq_some.mp hstep
    obtain rfl := Option.some.inj heq
    exact ⟨hopened, [.accepted op], .cons (.accepted op hopened) (.nil _)⟩
  | complete op o =>
    obtain ⟨⟨hop, hfits⟩, heq⟩ := Option.ite_none_right_eq_some.mp hstep
    obtain rfl := Option.some.inj heq
    exact ⟨hopened, [.completed op o],
      .cons (.completed op o _ (Multiset.cons_erase hop).symm hfits) (.nil _)⟩
  | wake =>
    obtain rfl := Option.some.inj hstep
    exact ⟨hopened, [.wake], .cons (.wake hopened) (.nil _)⟩
  | wait =>
    obtain ⟨-, heq⟩ := Option.ite_none_right_eq_some.mp hstep
    obtain rfl := Option.some.inj heq
    obtain ⟨woken, hdone, hlength, hend⟩ := collect_step Poll.maxCompletions w.service.done
    exact ⟨hopened, [.wait _], .cons (.wait _ woken _ hdone hlength hend) (.nil _)⟩
  | acquire =>
    simp only [World.envStep] at hstep
    split at hstep
    · obtain rfl := Option.some.inj hstep
      exact follows_of_eq rfl hopened
    · simp at hstep
  | postAcquired =>
    simp only [World.envStep] at hstep
    split at hstep
    · obtain rfl := Option.some.inj hstep
      exact follows_of_eq rfl hopened
    · simp at hstep
  | _ => simp [World.envStep] at hstep

/-- Closing changes nothing but the connection. -/
lemma drainClosing_eq (w : World) : ∃ c : Conn, w.drainClosing = w.setConn c := by
  have heq : w.drainClosing =
      (untilCallback (startClose .release (.common .empty) (w.pop []))).world := rfl
  by_cases hstate : (w.pop []).conn.state = .idle ∨ (w.pop []).conn.state = .closing
  · rw [heq, startClose_inactive hstate]
    exact ⟨_, rfl⟩
  · rw [heq, startClose_active hstate]
    exact ⟨_, rfl⟩

lemma drainClosing_service (w : World) : w.drainClosing.service = w.service := by
  obtain ⟨c, hc⟩ := drainClosing_eq w
  rw [hc]
  rfl

/-- Every step is some steps of the service. -/
lemma SystemInv.service {l : Label} (h : SystemInv S) (hok : Ok S l)
    (hopened : S.world.service.opened = true) (hstep : S.step cfg l = some S') :
    S'.world.service.opened = true ∧
      ∃ os, Run.Follows Service.Step S.world.service os S'.world.service := by
  have henv : (S.world.envStep l).map ({ S with world := · }) = some S' →
      S'.world.service.opened = true ∧
        ∃ os, Run.Follows Service.Step S.world.service os S'.world.service := by
    intro hmap
    obtain ⟨w, hw, rfl⟩ := Option.map_eq_some_iff.mp hmap
    exact envStep_service hopened hw
  cases l with
  | drain k =>
    simp only [System.step, System.drainStep] at hstep
    split_ifs at hstep with hrunning hclosing
    · obtain rfl := Option.some.inj hstep
      exact follows_of_eq (drainClosing_service _) hopened
    · have hsettled := h.resting (by simpa using hrunning)
      split at hstep
      · simp at hstep
      · rename_i t rest hqueue
        obtain rfl := Option.some.inj hstep
        have hdoes : Does (taskBody cfg k t) (S.world.pop rest) fun _ w' => Done w' :=
          taskBody_spec h.inv hsettled hqueue hok
        exact (stretch_untilCallback hdoes).follows hopened
  | resume =>
    simp only [System.step] at hstep
    split at hstep
    · rename_i rest hrest
      obtain rfl := Option.some.inj hstep
      exact (stretch_untilCallback (h.running rest hrest _ (.refl h.inv))).follows hopened
    · simp at hstep
  | releaseInCallback =>
    obtain ⟨-, heq⟩ := Option.ite_none_right_eq_some.mp hstep
    obtain rfl := Option.some.inj heq
    exact follows_of_eq (drainClosing_service _) hopened
  | _ => exact henv hstep

/-- What a run does to the poller is a run of its service. -/
theorem service_of_exec {ls : List Label} (hexec : Run.exec (System.step cfg) {} ls = some S)
    (hok : Run.Meets (System.step cfg) Ok {} ls) :
    ∃ os, Run.Follows Service.Step { opened := true } os S.world.service := by
  have hrun : SystemInv S ∧ S.world.service.opened = true ∧
      ∃ os, Run.Follows Service.Step { opened := true } os S.world.service := by
    refine Run.exec_invariant (I := fun S => SystemInv S ∧ S.world.service.opened = true ∧
      ∃ os, Run.Follows Service.Step { opened := true } os S.world.service) Ok ?_ hexec hok
      ⟨systemInv_init, rfl, [], .nil _⟩
    rintro S l S' ⟨h, hopened, os, hos⟩ hok hstep
    obtain ⟨hopened', os', hos'⟩ := h.service hok hopened hstep
    exact ⟨h.step hok hstep, hopened', os ++ os', Run.follows_append.mpr ⟨_, hos, hos'⟩⟩
  exact hrun.2.2

end Connx.Windows
