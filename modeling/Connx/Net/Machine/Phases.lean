import Connx.Net.Machine.Basic
import Connx.Net.Refinement
import Connx.Net.Executor.Order
import Connx.Net.Executor.Release

/-!
# What the executor does to its connection

`Acts` lists what an operation of the executor does to the connection, with the phase in which it
finds the process and the one in which it leaves it. The owner of the drain is the only process that
is not away, so the phase of the owner says what is known of the connection.
-/

namespace Connx

open Executor Relation

/-- What a process is doing with the tasks of the connection: it has popped a task, runs one, is
inside `CloseFromOwner` called by one, or is in the branch of `Drain` that closes the connection. -/
inductive Phase where
  | away
  | fetched (t : Task)
  | running
  | nested
  | closing
  deriving DecidableEq

def phase : Proc Task → Phase
  | .drain _ (.count node) => .fetched node.task
  | .drain _ .running => .running
  | .drain _ (.releasing _) => .nested
  | .drain _ (.discarding _) => .nested
  | .drain _ .startClose => .nested
  | .drain _ (.closing _) => .closing
  | .drain _ .closeConn => .closing
  | _ => .away

lemma owns_of_phase {p : Proc Task} (h : phase p ≠ .away) : 0 < p.owns := by
  cases p with
  | drain n pc => cases pc <;> simp [phase, Proc.owns, DrainPc.owns] at h ⊢
  | _ => simp [phase] at h

lemma phase_of_serves {p : Proc Task} (h : p.serves = 0) :
    phase p = .away ∨ phase p = .closing := by
  cases p with
  | drain n pc => cases pc <;> simp [phase, Proc.serves, DrainPc.serves] at h ⊢
  | _ => exact .inl rfl

lemma phase_of_settled {p : Proc Task} (h : p.settled = true) : phase p = .away := by
  cases p with
  | closer pc => rfl
  | _ => simp [Proc.settled] at h

/-- The tasks in the queue. -/
def tasks (g : Shared Task) : List Task := g.nodes.map Node.task

structure SameTasks (g g' : Shared Task) : Prop where
  tasks : tasks g' = tasks g
  accepting : g'.accepting = g.accepting
  ownerClosing : g'.ownerClosing = g.ownerClosing

lemma SameTasks.of_frame {g g' : Shared Task} {locked : Bool} {waiters : List (Nat × Wait)}
    (h : g' = { g with locked := locked, waiters := waiters }) : SameTasks g g' := by
  subst h
  exact ⟨rfl, rfl, rfl⟩

/-- What an operation that turns `p` into `p'` does to the connection. -/
inductive Acts (cfg : Config) (g g' : Shared Task) (p p' : Proc Task) (s : Local) : Local → Prop
  | pass (h : SameTasks g g') (hphase : phase p' = phase p) : Acts cfg g g' p p' s s
  | push {thread : Nat} {t : Task} (hp : p = .post thread t .exchange)
      (hp' : p' = .post thread t .link) (ht : tasks g' = tasks g ++ [t]) :
      Acts cfg g g' p p' s { s with conn := s.conn.push t }
  | ownerClosing (ht : tasks g' = tasks g) (hphase : phase p' = phase p)
      (hphase' : phase p = .away ∨ phase p = .nested) :
      Acts cfg g g' p p' s { s with conn := { s.conn with ownerClosing := true } }
  | stopAccepting (ht : tasks g' = tasks g) (hphase : phase p' = phase p)
      (hphase' : phase p = .away ∨ phase p = .nested) :
      Acts cfg g g' p p' s { s with conn := { s.conn with acceptingTasks := false } }
  | fetch {t : Task} {rest : List Task} (ht : tasks g = t :: rest) (ht' : tasks g' = rest)
      (hphase : phase p = .away) (hphase' : phase p' = .fetched t) :
      Acts cfg g g' p p' s { s with conn := { s.conn with queue := s.conn.queue.tail } }
  | discard {t : Task} {rest : List Task} (ht : tasks g = t :: rest) (ht' : tasks g' = rest)
      (hphase : phase p' = phase p)
      (hphase' : phase p = .nested ∧ p.pastWait = true ∨ phase p = .closing) :
      Acts cfg g g' p p' s { s with conn := { s.conn with queue := s.conn.queue.tail } }
  | begins {t : Task} (h : SameTasks g g') (hphase : phase p = .fetched t) : Acts cfg g g' p p' s s
  | ends (h : SameTasks g g') (hphase : phase p = .running) (hphase' : phase p' = .away) :
      Acts cfg g g' p p' s s
  | enters (h : SameTasks g g') (hphase : phase p = .running) (hphase' : phase p' = .nested) :
      Acts cfg g g' p p' s s
  | closes (h : SameTasks g g') (hphase : phase p = .away) (hphase' : phase p' = .closing) :
      Acts cfg g g' p p' s s
  | inside {n : Nat} (h : SameTasks g g') (hp : p = .drain n .startClose)
      (hphase' : phase p' = .running) :
      Acts cfg g g' p p' s
        { closeRelease cfg s with conn := (closeRelease cfg s).conn.note .ownerReturned }
  | release (h : SameTasks g g') (hphase : phase p = .closing) (hphase' : phase p' = .away) :
      Acts cfg g g' p p' s (closeRelease cfg s)
  | returned (h : SameTasks g g') (hp : p.settled = true) (hp' : phase p' = .away) :
      Acts cfg g g' p p' s { s with conn := s.conn.note .ownerReturned }

namespace Machine

variable {cfg : Config} {g g' : Shared Task} {p p' : Proc Task} {s : Local} {i : Nat}

lemma sync_eq {c : Conn} (ha : c.acceptingTasks = g.accepting)
    (ho : c.ownerClosing = g.ownerClosing) : sync g c = c := by
  simp only [sync, ← ha, ← ho]

lemma startRelease_eq (s : Local) : startRelease cfg s = closeRelease cfg s :=
  untilCallback_release s

/-- The connection after the operation. -/
def acted (cfg : Config) (g' : Shared Task) (p p' : Proc Task) (s : Local) : Local :=
  ⟨sync g' (effect cfg p p' s).conn, (effect cfg p p' s).rt⟩

section

variable (ha : s.conn.acceptingTasks = g.accepting) (ho : s.conn.ownerClosing = g.ownerClosing)

include ha ho

/-- The connection is as the list says, and the operation leaves the flags alone. -/
lemma acts_of_effect {s' : Local} (h : Acts cfg g g' p p' s s')
    (hg : g'.accepting = g.accepting ∧ g'.ownerClosing = g.ownerClosing)
    (heffect : effect cfg p p' s = s')
    (hs' : s'.conn.acceptingTasks = s.conn.acceptingTasks ∧
      s'.conn.ownerClosing = s.conn.ownerClosing) : Acts cfg g g' p p' s (acted cfg g' p p' s) := by
  have heq : acted cfg g' p p' s = s' := by
    rw [acted, heffect, sync_eq]
    · rw [hs'.1, ha, hg.1]
    · rw [hs'.2, ho, hg.2]
  rwa [heq]

lemma acts_pass (h : SameTasks g g') (hphase : phase p' = phase p)
    (heffect : effect cfg p p' s = s) : Acts cfg g g' p p' s (acted cfg g' p p' s) :=
  acts_of_effect ha ho (.pass h hphase) ⟨h.accepting, h.ownerClosing⟩ heffect ⟨rfl, rfl⟩

lemma acts_of_post {thread : Nat} {t : Task} {pc pc' : PostPc} (h : PostStep i g t pc g' pc') :
    Acts cfg g g' (.post thread t pc) (.post thread t pc') s
      (acted cfg g' (.post thread t pc) (.post thread t pc') s) := by
  cases h with
  | exchange =>
    exact acts_of_effect ha ho (.push rfl rfl (by simp [tasks])) ⟨rfl, rfl⟩ rfl ⟨rfl, rfl⟩
  | link =>
    refine acts_pass ha ho ⟨?_, rfl, rfl⟩ rfl rfl
    simp only [tasks, List.map_map]
    congr 1
    funext node
    simp only [Function.comp_apply]
    split_ifs <;> rfl
  | notify h => exact acts_pass ha ho (.of_frame h.frame) rfl rfl
  | notified h => exact acts_pass ha ho (.of_frame h.frame) rfl rfl
  | notifiedWon h => exact acts_pass ha ho (.of_frame h.frame) rfl rfl
  | _ => exact acts_pass ha ho ⟨rfl, rfl, rfl⟩ rfl rfl

omit ha ho in
lemma tasks_of_front {node : Node Task} (h : g.front = some node) (fate : Fate) :
    tasks g = node.task :: tasks (g.take node fate) := by
  simp only [tasks, Shared.take]
  conv_lhs => rw [(Shared.front_eq_some h).1]
  rfl

lemma acts_of_discarding {n n' : Nat} {pc pc' : DiscardPc} (h : DiscardStep g pc g' (some pc')) :
    Acts cfg g g' (.drain n (.discarding pc)) (.drain n' (.discarding pc')) s
      (acted cfg g' (.drain n (.discarding pc)) (.drain n' (.discarding pc')) s) := by
  cases h with
  | take h =>
    exact acts_of_effect ha ho (.discard (tasks_of_front h .discarded) rfl rfl (.inl ⟨rfl, rfl⟩))
      ⟨rfl, rfl⟩ rfl ⟨rfl, rfl⟩
  | _ => exact acts_pass ha ho ⟨rfl, rfl, rfl⟩ rfl rfl

lemma acts_of_closing {n n' : Nat} {pc pc' : DiscardPc} (h : DiscardStep g pc g' (some pc')) :
    Acts cfg g g' (.drain n (.closing pc)) (.drain n' (.closing pc')) s
      (acted cfg g' (.drain n (.closing pc)) (.drain n' (.closing pc')) s) := by
  cases h with
  | take h =>
    exact acts_of_effect ha ho (.discard (tasks_of_front h .discarded) rfl rfl (.inr rfl))
      ⟨rfl, rfl⟩ rfl ⟨rfl, rfl⟩
  | _ => exact acts_pass ha ho ⟨rfl, rfl, rfl⟩ rfl rfl

lemma acts_of_drain {n n' : Nat} {pc pc' : DrainPc Task} (h : DrainStep i g n pc g' n' pc') :
    Acts cfg g g' (.drain n pc) (.drain n' pc') s
      (acted cfg g' (.drain n pc) (.drain n' pc') s) := by
  have hrelease := sameQueue_closeRelease cfg s
  cases h with
  | topClosing =>
    exact acts_of_effect ha ho (.closes ⟨rfl, rfl, rfl⟩ rfl rfl) ⟨rfl, rfl⟩ rfl ⟨rfl, rfl⟩
  | take h =>
    exact acts_of_effect ha ho (.fetch (tasks_of_front h .run) rfl rfl rfl) ⟨rfl, rfl⟩ rfl
      ⟨rfl, rfl⟩
  | count =>
    exact acts_of_effect ha ho (.begins ⟨rfl, rfl, rfl⟩ rfl) ⟨rfl, rfl⟩ rfl ⟨rfl, rfl⟩
  | finish =>
    exact acts_of_effect ha ho (.ends ⟨rfl, rfl, rfl⟩ rfl rfl) ⟨rfl, rfl⟩ rfl ⟨rfl, rfl⟩
  | finishYield =>
    exact acts_of_effect ha ho (.ends ⟨rfl, rfl, rfl⟩ rfl rfl) ⟨rfl, rfl⟩ rfl ⟨rfl, rfl⟩
  | close =>
    exact acts_of_effect ha ho (.enters ⟨rfl, rfl, rfl⟩ rfl rfl) ⟨rfl, rfl⟩ rfl ⟨rfl, rfl⟩
  | releasing h => exact acts_pass ha ho (.of_frame h.frame) rfl rfl
  | released h => exact acts_pass ha ho (.of_frame h.frame) rfl rfl
  | discarding h => exact acts_of_discarding ha ho h
  | discarded h =>
    cases h
    exact acts_pass ha ho ⟨rfl, rfl, rfl⟩ rfl rfl
  | startClose =>
    have heffect : effect cfg (.drain n .startClose) (.drain n .running) s =
        { closeRelease cfg s with conn := (closeRelease cfg s).conn.note .ownerReturned } := by
      simp only [effect, startRelease_eq]
    exact acts_of_effect ha ho (.inside ⟨rfl, rfl, rfl⟩ rfl rfl) ⟨rfl, rfl⟩ heffect
      ⟨hrelease.acceptingTasks, hrelease.ownerClosing⟩
  | closing h => exact acts_of_closing ha ho h
  | closed h =>
    cases h
    exact acts_pass ha ho ⟨rfl, rfl, rfl⟩ rfl rfl
  | closeConn =>
    exact acts_of_effect ha ho (.release ⟨rfl, rfl, rfl⟩ rfl rfl) ⟨rfl, rfl⟩ (startRelease_eq s)
      ⟨hrelease.acceptingTasks, hrelease.ownerClosing⟩
  | notifying _ h => exact acts_pass ha ho (.of_frame h.frame) rfl rfl
  | notified h => exact acts_pass ha ho (.of_frame h.frame) rfl rfl
  | ended h => exact acts_pass ha ho (.of_frame h.frame) rfl rfl
  | _ => exact acts_pass ha ho ⟨rfl, rfl, rfl⟩ rfl rfl

lemma acts_of_closer {pc pc' : CloserPc} (h : CloserStep i g pc g' pc') :
    Acts cfg g g' (.closer pc) (.closer pc') s (acted cfg g' (.closer pc) (.closer pc') s) := by
  cases h with
  | releasing h => exact acts_pass ha ho (.of_frame h.frame) rfl rfl
  | released h => exact acts_pass ha ho (.of_frame h.frame) rfl rfl
  | waiting h => cases h <;> exact acts_pass ha ho ⟨rfl, rfl, rfl⟩ rfl rfl
  | waited h =>
    cases h
    exact acts_of_effect ha ho (.returned ⟨rfl, rfl, rfl⟩ rfl rfl) ⟨rfl, rfl⟩ rfl ⟨rfl, rfl⟩
  | _ => exact acts_pass ha ho ⟨rfl, rfl, rfl⟩ rfl rfl

/-- A store of `CloseFromOwner` becomes visible. -/
lemma acts_of_flush {pc pc' : ReleasePc} (h : FlushStep g pc g' pc') (hphase : phase p' = phase p)
    (hphase' : phase p = .away ∨ phase p = .nested) (heffect : effect cfg p p' s = s) :
    Acts cfg g g' p p' s (acted cfg g' p p' s) := by
  cases h with
  | ownerClosing =>
    have heq : acted cfg { g with ownerClosing := true } p p' s =
        { s with conn := { s.conn with ownerClosing := true } } := by
      simp only [acted, heffect, sync, ← ha]
    rw [heq]
    exact .ownerClosing rfl hphase hphase'
  | accepting =>
    have heq : acted cfg { g with accepting := false } p p' s =
        { s with conn := { s.conn with acceptingTasks := false } } := by
      simp only [acted, heffect, sync, ← ho]
    rw [heq]
    exact .stopAccepting rfl hphase hphase'

theorem acts_of_op (h : Op i g p g' p') : Acts cfg g g' p p' s (acted cfg g' p p' s) := by
  cases h with
  | post h => exact acts_of_post ha ho h
  | drain h => exact acts_of_drain ha ho h
  | closer h => exact acts_of_closer ha ho h
  | flushNested h => exact acts_of_flush ha ho h rfl (.inr rfl) rfl
  | flushCloser h => exact acts_of_flush ha ho h rfl (.inl rfl) rfl
  | flushDrain h => cases h <;> exact acts_pass ha ho ⟨rfl, rfl, rfl⟩ rfl rfl

end

end Machine

end Connx
