import Connx.Lib.Simulation
import Connx.Net.Connection.Basic

/-!
# What a poller is for

`poller.h` has one implementation for each system. What the rest of the library expects of them is
stated here without any of the systems: a poller watches descriptors, each under the id of a
connection and with an interest, reports what happens to them under these ids, and can be woken up.

A call of `Add` or `Modify` that fails may have been carried out in part. The descriptor is then
`unsettled`, and all that is known is which ids it can be reported under.
-/

namespace Connx.Poll

/-- `PollEvent`, as `Wait` of a POSIX poller fills it in. -/
structure Report where
  id : ConnectionId
  readable : Bool := false
  writable : Bool := false
  error : Bool := false
  errorCode : Int := 0
  deriving DecidableEq, Repr

/-- The event that `PollLoop` dispatches for the report; `reg` names the registration. -/
def Report.event (r : Report) (reg : Nat) : PollEvent where
  id := r.id
  readable := r.readable
  writable := r.writable
  error := r.error
  errorCode := r.errorCode
  reg := reg

/-- `while (read(...) > 0)` on a descriptor that does not block: `left` is what there is to read,
and one `read` takes `take left` of it. The fuel is enough if it is at least `left`. -/
def drain (take : Nat → Nat) : Nat → Nat → Nat
  | 0, left => left
  | fuel + 1, left => if left = 0 then left else drain take fuel (left - take left)

lemma drain_eq_zero {take : Nat → Nat} (htake : ∀ n, 0 < n → 0 < take n) {fuel left : Nat}
    (h : left ≤ fuel) : drain take fuel left = 0 := by
  induction fuel generalizing left with
  | zero => exact Nat.le_zero.mp h
  | succ fuel ih =>
    rw [drain]
    split_ifs with hzero
    · exact hzero
    · have hpos := htake left (Nat.pos_of_ne_zero hzero)
      exact ih (by omega)

/-- What a poller knows about a descriptor. -/
inductive Watch where
  | absent
  | watched (id : ConnectionId) (interest : Interest)
  | unsettled (ids : List ConnectionId)
  deriving DecidableEq, Repr

/-- The ids a descriptor can be reported under. -/
def Watch.ids : Watch → List ConnectionId
  | .absent => []
  | .watched id _ => [id]
  | .unsettled ids => ids

/-- A report on a descriptor says something, and nothing about writing unless that is watched. -/
def Watch.Allows (w : Watch) (r : Report) : Prop :=
  r.id ∈ w.ids ∧ (r.readable = true ∨ r.writable = true ∨ r.error = true) ∧
    ∀ id interest, w = .watched id interest → r.writable = true → interest.writable = true

/-- What `Wait` comes back with; `woken` says that it took a wake-up. -/
inductive WaitResult where
  | closed
  | failed
  | interrupted
  | timeout
  | events (reports : List Report) (woken : Bool)
  deriving DecidableEq, Repr

/-- The reports of a call of `Wait`. -/
def WaitResult.reports : WaitResult → List Report
  | .events reports _ => reports
  | _ => []

/-- The calls of a poller with their results, and the close of a watched socket. `Add` and `Modify`
are not told apart. -/
inductive Op where
  | init (error : Bool)
  | shutdown
  | set (fd : Int) (id : ConnectionId) (interest : Interest) (ok : Bool)
  | remove (fd : Int)
  | close (fd : Int)
  | wake
  | wait (result : WaitResult)
  deriving DecidableEq, Repr

/-- The state of a poller. -/
structure Spec where
  opened : Bool := false
  watch : Int → Watch := fun _ => .absent
  wake : Bool := false

namespace Spec

variable (s : Spec) (fd : Int) (w : Watch)

/-- Something else is known about one descriptor. -/
def put : Spec := { s with watch := Function.update s.watch fd w }

@[simp] lemma opened_put : (s.put fd w).opened = s.opened := rfl

@[simp] lemma watch_put_self : (s.put fd w).watch fd = w := Function.update_self ..

variable {s fd} in
lemma watch_put_of_ne {fd' : Int} (h : fd' ≠ fd) : (s.put fd w).watch fd' = s.watch fd' :=
  Function.update_of_ne h ..

end Spec

/-- What a poller may do. -/
inductive Spec.Step : Spec → Op → Spec → Prop
  | init {s : Spec} (h : s.opened = false) : Step s (.init false) { opened := true }
  | initAgain {s : Spec} (h : s.opened = true) : Step s (.init false) s
  | initFailed {s : Spec} (h : s.opened = false) (error : Bool) : Step s (.init error) s
  | shutdown {s : Spec} : Step s .shutdown {}
  | set {s : Spec} (fd : Int) (id : ConnectionId) (interest : Interest) (h : s.opened = true) :
      Step s (.set fd id interest true) (s.put fd (.watched id interest))
  | refused {s : Spec} (fd : Int) (id : ConnectionId) (interest : Interest) :
      Step s (.set fd id interest false) s
  | halfDone {s : Spec} (fd : Int) (id : ConnectionId) (interest : Interest) :
      Step s (.set fd id interest false) (s.put fd (.unsettled (id :: (s.watch fd).ids)))
  | remove {s : Spec} (fd : Int) : Step s (.remove fd) (s.put fd .absent)
  | close {s : Spec} (fd : Int) : Step s (.close fd) (s.put fd .absent)
  | wake {s : Spec} : Step s .wake { s with wake := s.opened }
  | waitClosed {s : Spec} (h : s.opened = false) : Step s (.wait .closed) s
  | waitFailed {s : Spec} : Step s (.wait .failed) s
  | waitInterrupted {s : Spec} : Step s (.wait .interrupted) s
  | timeout {s : Spec} (hopen : s.opened = true) (h : s.wake = false) : Step s (.wait .timeout) s
  | events {s : Spec} (reports : List Report) (woken : Bool)
      (hne : reports ≠ [] ∨ woken = true) (hwoken : woken = true → s.wake = true)
      (hreports : ∀ r ∈ reports, ∃ fd, (s.watch fd).Allows r) :
      Step s (.wait (.events reports woken)) { s with wake := s.wake && !woken }

/-- A call of `Wait` that comes back with events of the kernel, some of which are wake-ups. -/
lemma Spec.Step.ready {s : Spec} {ε : Type} {evs : List ε} (isWake : ε → Bool) (report : ε → Report)
    (hne : evs ≠ []) (hwake : ∀ e ∈ evs, isWake e = true → s.wake = true)
    (hallows : ∀ e ∈ evs, isWake e = false → ∃ fd, (s.watch fd).Allows (report e)) :
    Spec.Step s
      (.wait (.events ((evs.filter fun e => !isWake e).map report) (evs.any isWake)))
      { s with wake := s.wake && !evs.any isWake } := by
  refine .events _ _ ?_ ?_ ?_
  · obtain ⟨e, he⟩ := List.exists_mem_of_ne_nil evs hne
    cases hwoken : isWake e with
    | true => exact Or.inr (List.any_eq_true.mpr ⟨e, he, hwoken⟩)
    | false =>
      refine Or.inl (List.ne_nil_of_mem (List.mem_map_of_mem (List.mem_filter.mpr ⟨he, ?_⟩)))
      rw [hwoken]
      rfl
  · intro hany
    obtain ⟨e, he, hwoken⟩ := List.any_eq_true.mp hany
    exact hwake e he hwoken
  · intro r hr
    obtain ⟨e, he, rfl⟩ := List.mem_map.mp hr
    obtain ⟨hmem, hnot⟩ := List.mem_filter.mp he
    exact hallows e hmem (by simpa using hnot)

/-! ### What follows for the reports -/

/-- The ids of all descriptors satisfy `P`. -/
def Spec.Ids (P : ConnectionId → Prop) (s : Spec) : Prop := ∀ fd, ∀ id ∈ (s.watch fd).ids, P id

/-- The id in a call of `Add` or `Modify` satisfies `P`. -/
def Op.Uses (P : ConnectionId → Prop) : Op → Prop
  | .set _ id _ _ => P id
  | _ => True

/-- The ids in the reports of a call of `Wait` satisfy `P`. -/
def Op.Reports (P : ConnectionId → Prop) : Op → Prop
  | .wait result => ∀ r ∈ result.reports, P r.id
  | _ => True

section ids

variable {P : ConnectionId → Prop} {s s' : Spec} {o : Op}

lemma Spec.Ids.put (h : s.Ids P) {fd : Int} {w : Watch} (hw : ∀ id ∈ w.ids, P id) :
    (s.put fd w).Ids P := by
  intro fd' id hid
  by_cases hfd : fd' = fd
  · subst hfd
    rw [watch_put_self] at hid
    exact hw id hid
  · rw [watch_put_of_ne w hfd] at hid
    exact h fd' id hid

lemma Spec.ids_init (opened : Bool) : Spec.Ids P { opened := opened } := by
  intro fd id hid
  cases hid

/-- A step keeps the ids, and reports under no other. -/
lemma Spec.Step.ids (hstep : Spec.Step s o s') (h : s.Ids P) (ho : o.Uses P) :
    s'.Ids P ∧ o.Reports P := by
  cases hstep with
  | init => exact ⟨ids_init true, trivial⟩
  | shutdown => exact ⟨ids_init false, trivial⟩
  | set fd id interest =>
    refine ⟨h.put fun id' hid' => ?_, trivial⟩
    rw [List.mem_singleton.mp hid']
    exact ho
  | halfDone fd id interest =>
    refine ⟨h.put fun id' hid' => ?_, trivial⟩
    rcases List.mem_cons.mp hid' with rfl | hid'
    · exact ho
    · exact h fd id' hid'
  | remove fd => exact ⟨h.put (by simp [Watch.ids]), trivial⟩
  | close fd => exact ⟨h.put (by simp [Watch.ids]), trivial⟩
  | events reports woken _ _ hreports =>
    refine ⟨h, fun r hr => ?_⟩
    obtain ⟨fd, hid, -⟩ := hreports r hr
    exact h fd r.id hid
  | waitClosed => exact ⟨h, by simp [Op.Reports, WaitResult.reports]⟩
  | waitFailed => exact ⟨h, by simp [Op.Reports, WaitResult.reports]⟩
  | waitInterrupted => exact ⟨h, by simp [Op.Reports, WaitResult.reports]⟩
  | timeout => exact ⟨h, by simp [Op.Reports, WaitResult.reports]⟩
  | _ => exact ⟨h, trivial⟩

/-- Reports are made only under ids that were passed in. -/
theorem Spec.reports_of_follows {os : List Op} (h : Run.Follows Spec.Step s os s') (hs : s.Ids P)
    (hos : ∀ o ∈ os, o.Uses P) : ∀ o ∈ os, o.Reports P :=
  (h.invariant (fun _ _ _ hids ho hstep => hstep.ids hids ho) hs hos).2

end ids

/-! ### What follows for wake-ups -/

/-- The call ends what a wake-up asks for: it takes the wake-up, or there is another poller. -/
def Op.EndsWake : Op → Prop
  | .wait (.events _ true) => True
  | .shutdown => True
  | .init _ => True
  | _ => False

/-- Nothing else ends it. -/
lemma Spec.Step.keepsWake {s s' : Spec} {o : Op} (hstep : Spec.Step s o s') (ho : ¬ o.EndsWake)
    (h : s.opened = true → s.wake = true) : s'.opened = true → s'.wake = true := by
  cases hstep with
  | init => exact absurd trivial ho
  | shutdown => exact absurd trivial ho
  | wake => exact id
  | events reports woken =>
    cases woken with
    | true => exact absurd trivial ho
    | false => simpa using h
  | _ => exact h

end Connx.Poll
