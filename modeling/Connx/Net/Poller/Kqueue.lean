import Connx.Net.Poller.Basic

/-!
# `poller_kqueue.cc`

`Poller` over a kernel queue and a pipe. A descriptor has two filters, for reading and for writing;
both are added for every socket and one of them may be disabled. `kevent` applies a list of changes
one by one and stops at the first that fails, so that `Add` can fail between the two, and `Remove`
deletes nothing if there is no filter for reading.
-/

namespace Connx.Poll.Kqueue

inductive FilterKind where
  | read
  | write
  deriving DecidableEq, Repr

/-- A filter of the queue. -/
structure Filter where
  enabled : Bool
  udata : UInt64
  deriving DecidableEq, Repr

/-- `Poller`, with the filters of `poll_fd_` and the number of bytes in the pipe. -/
structure Poller where
  pollFd : Int := -1
  wakeReadFd : Int := -1
  wakeWriteFd : Int := -1
  filters : Int → FilterKind → Option Filter := fun _ _ => none
  pipe : Nat := 0

def eintr : Int := 4

/-- `kMaxEvents`. -/
def maxEvents : Nat := 256

/-! ### The kernel -/

/-- An element of a change list: `EV_ADD` with `EV_ENABLE` or `EV_DISABLE`, or `EV_DELETE`. -/
inductive Change where
  | add (ident : Int) (kind : FilterKind) (filter : Filter)
  | delete (ident : Int) (kind : FilterKind)
  deriving DecidableEq, Repr

section kernel

variable (p : Poller)

def setFilter (ident : Int) (kind : FilterKind) (f : Option Filter) : Poller :=
  { p with filters :=
      Function.update p.filters ident (Function.update (p.filters ident) kind f) }

/-- One change; only a filter that exists can be deleted. -/
def applyChange : Change → Option Poller
  | .add ident kind f => if 0 ≤ ident then some (setFilter p ident kind (some f)) else none
  | .delete ident kind =>
    if (p.filters ident kind).isSome then some (setFilter p ident kind none) else none

/-- The changes in their order up to the first that fails; the change number `fail` fails for
another reason. -/
def applyChanges (p : Poller) : List Change → Option Nat → Bool × Poller
  | [], _ => (true, p)
  | _ :: _, some 0 => (false, p)
  | c :: cs, fail =>
    match applyChange p c with
    | some p' => applyChanges p' cs (fail.map (· - 1))
    | none => (false, p)

/-- `kevent` with a change list. -/
def kevent (changes : List Change) (fail : Option Nat) : Bool × Poller :=
  if p.pollFd < 0 then (false, p) else applyChanges p changes fail

/-- `write` of one byte to the pipe; a full pipe takes nothing. -/
def writePipe (full : Bool) : Nat := if full && decide (0 < p.pipe) then p.pipe else p.pipe + 1

/-- The loop that reads the pipe, with a buffer of 64 bytes. -/
def drainPipe (n : Nat) : Nat := drain (fun n => min n 64) n n

/-- An event of the kernel, and the answer of `getsockopt(SO_ERROR)` if it is asked. -/
structure Ready where
  ident : Int
  kind : FilterKind
  evError : Bool := false
  evEof : Bool := false
  fflags : Int := 0
  data : Int := 0
  soError : Option Int := none
  deriving DecidableEq, Repr

/-- `kevent` with an event list. -/
inductive WaitAnswer where
  | failed (errno : Int)
  | ready (evs : List Ready)
  deriving DecidableEq, Repr

/-- Only enabled filters give events. -/
def reportable (ev : Ready) : Bool := (p.filters ev.ident ev.kind).any Filter.enabled

/-- The pipe is ready exactly when there is something in it; the call does not come back without an
event while a filter is ready. -/
def wakeFits (evs : List Ready) : Bool :=
  if p.pipe = 0 then evs.all fun ev => ev.ident != p.wakeReadFd else !evs.isEmpty

/-- The answers the kernel can give. -/
def WaitAnswer.fits : WaitAnswer → Bool
  | .failed _ => true
  | .ready evs => decide (evs.length ≤ maxEvents) && evs.all (reportable p) && wakeFits p evs

end kernel

/-! ### `Poller` -/

/-- The answers to one call of `Init`, in the order of the source. -/
structure Answers where
  kqueue : Option Nat := some 3
  setCloseOnExec : Bool := true
  pipe : Option (Nat × Nat) := some (4, 5)
  setNonBlockingRead : Bool := true
  setNonBlockingWrite : Bool := true
  setCloseOnExecRead : Bool := true
  setCloseOnExecWrite : Bool := true
  kevent : Bool := true
  /-- There is memory for the text of an error. -/
  message : Bool := true

section poller

variable (p : Poller)

/-- `CloseFd` of `poll_fd_`, with which the filters go. -/
def closePollFd : Poller := { p with pollFd := -1, filters := fun _ _ => none }

/-- `CloseFd` of both ends of the pipe. -/
def closePipe : Poller := { p with wakeReadFd := -1, wakeWriteFd := -1, pipe := 0 }

/-- `Init`: whether an error is returned, and the poller. -/
def init (a : Answers) : Bool × Poller :=
  if 0 ≤ p.pollFd then (false, p)
  else
    match a.kqueue with
    | none => (a.message, { p with pollFd := -1 })
    | some kq =>
      let p := { p with pollFd := kq, filters := fun _ _ => none }
      if ¬a.setCloseOnExec then (a.message, closePollFd p)
      else
        match a.pipe with
        | none => (a.message, closePollFd p)
        | some (r, w) =>
          let p := { p with wakeReadFd := r, wakeWriteFd := w, pipe := 0 }
          if ¬a.setNonBlockingRead ∨ ¬a.setNonBlockingWrite ∨ ¬a.setCloseOnExecRead ∨
              ¬a.setCloseOnExecWrite then
            (a.message, closePollFd (closePipe p))
          else
            match kevent p [.add p.wakeReadFd .read ⟨true, 0⟩]
              (if a.kevent then none else some 0) with
            | (true, p) => (false, p)
            | (false, p) => (a.message, closePollFd (closePipe p))

def shutdown : Poller := closePollFd (closePipe p)

def add (fd : Int) (id : ConnectionId) (interest : Interest) (fail : Option Nat) : Bool × Poller :=
  kevent p [.add fd .read ⟨interest.readable, id.toUint64⟩,
    .add fd .write ⟨interest.writable, id.toUint64⟩] fail

def modify (fd : Int) (id : ConnectionId) (interest : Interest) (fail : Option Nat) :
    Bool × Poller :=
  add p fd id interest fail

def remove (fd : Int) : Poller :=
  if fd < 0 ∨ p.pollFd < 0 then p else (kevent p [.delete fd .read, .delete fd .write] none).2

def wake (full : Bool) : Poller :=
  if p.wakeWriteFd < 0 then p else { p with pipe := writePipe p full }

def socketError (ev : Ready) : Int :=
  if ev.evError then ev.data
  else if ev.evEof ∧ ev.fflags ≠ 0 then ev.fflags
  else ev.soError.getD 0

/-- The report on an event of a filter with the given data. -/
def report (ev : Ready) (udata : UInt64) : Report :=
  let error := ev.evError ∨ (ev.evEof ∧ ev.kind = .write)
  { id := .fromUint64 udata
    readable := ev.kind = .read
    writable := ev.kind = .write
    error := error
    errorCode := if error then socketError ev else 0 }

/-- The data of the filter the event is for. -/
def udataOf (ev : Ready) : UInt64 := ((p.filters ev.ident ev.kind).map Filter.udata).getD 0

/-- The loop of `Wait`: the reports, what it leaves in the pipe, and whether it took a wake-up. -/
def waitLoop : List Ready → Nat → List Report × Nat × Bool
  | [], pipe => ([], pipe, false)
  | ev :: evs, pipe =>
    if ev.ident = p.wakeReadFd then
      let (reports, pipe, _) := waitLoop evs (drainPipe pipe)
      (reports, pipe, true)
    else
      let (reports, pipe, woken) := waitLoop evs pipe
      (report ev (udataOf p ev) :: reports, pipe, woken)

def wait (answer : WaitAnswer) : WaitResult × Poller :=
  if p.pollFd < 0 then (.closed, p)
  else
    match answer with
    | .failed errno => (if errno = eintr then .interrupted else .failed, p)
    | .ready evs =>
      let (reports, pipe, woken) := waitLoop p evs p.pipe
      (if evs.isEmpty then .timeout else .events reports woken, { p with pipe })

end poller

/-! ### Runs -/

inductive Label where
  | init (a : Answers)
  | shutdown
  | add (fd : Int) (id : ConnectionId) (interest : Interest) (fail : Option Nat)
  | modify (fd : Int) (id : ConnectionId) (interest : Interest) (fail : Option Nat)
  | remove (fd : Int)
  /-- A socket is closed; the kernel deletes its filters. -/
  | close (fd : Int)
  | wake (full : Bool)
  | wait (answer : WaitAnswer)

/-- Both filters of a descriptor are deleted. -/
def dropFilters (p : Poller) (fd : Int) : Poller :=
  { p with filters := Function.update p.filters fd fun _ => none }

def step (p : Poller) : Label → Option Poller
  | .init a => some (init p a).2
  | .shutdown => some (shutdown p)
  | .add fd id interest fail => some (add p fd id interest fail).2
  | .modify fd id interest fail => some (modify p fd id interest fail).2
  | .remove fd => some (remove p fd)
  | .close fd => some (dropFilters p fd)
  | .wake full => some (wake p full)
  | .wait answer => if answer.fits p then some (wait p answer).2 else none

/-- What the caller sees. -/
def observe (p : Poller) : Label → Op
  | .init a => .init (init p a).1
  | .shutdown => .shutdown
  | .add fd id interest fail => .set fd id interest (add p fd id interest fail).1
  | .modify fd id interest fail => .set fd id interest (modify p fd id interest fail).1
  | .remove fd => .remove fd
  | .close fd => .close fd
  | .wake _ => .wake
  | .wait answer => .wait (wait p answer).1

/-- The sockets of connections are not the wake descriptor, which is open as long as the poller
is. -/
def Ok (p : Poller) : Label → Prop
  | .add fd _ _ _ => fd ≠ p.wakeReadFd
  | .modify fd _ _ _ => fd ≠ p.wakeReadFd
  | .remove fd => 0 ≤ fd → fd ≠ p.wakeReadFd
  | .close fd => fd ≠ p.wakeReadFd
  | _ => True

instance (p : Poller) : (l : Label) → Decidable (Ok p l)
  | .init _ => isTrue trivial
  | .shutdown => isTrue trivial
  | .add fd _ _ _ => inferInstanceAs (Decidable (fd ≠ p.wakeReadFd))
  | .modify fd _ _ _ => inferInstanceAs (Decidable (fd ≠ p.wakeReadFd))
  | .remove fd => inferInstanceAs (Decidable (0 ≤ fd → fd ≠ p.wakeReadFd))
  | .close fd => inferInstanceAs (Decidable (fd ≠ p.wakeReadFd))
  | .wake _ => isTrue trivial
  | .wait _ => isTrue trivial

/-! ### Simulation -/

/-- The filters for what is known about a descriptor. There is never one for writing alone. -/
inductive Entries : Watch → Option Filter → Option Filter → Prop
  | absent : Entries .absent none none
  | watched (id : ConnectionId) (interest : Interest) :
      Entries (.watched id interest) (some ⟨interest.readable, id.toUint64⟩)
        (some ⟨interest.writable, id.toUint64⟩)
  | unsettled {ids : List ConnectionId} {read write : Option Filter}
      (hread : ∀ f ∈ read, ∃ id ∈ ids, f.udata = id.toUint64)
      (hwrite : ∀ f ∈ write, ∃ id ∈ ids, f.udata = id.toUint64)
      (hboth : write.isSome = true → read.isSome = true) : Entries (.unsettled ids) read write

namespace Entries

variable {w : Watch} {read write : Option Filter}

/-- The data of a filter is the id of a connection. -/
lemma udata (h : Entries w read write) {f : Filter} (hf : f ∈ read ∨ f ∈ write) :
    ∃ id ∈ w.ids, f.udata = id.toUint64 := by
  cases h with
  | absent => simp at hf
  | watched id interest =>
    refine ⟨id, List.mem_singleton_self id, ?_⟩
    rcases hf with hf | hf
    · rw [← Option.some.inj hf]
    · rw [← Option.some.inj hf]
  | unsettled hread hwrite => exact hf.elim (hread f) (hwrite f)

lemma both (h : Entries w read write) (hw : write.isSome = true) : read.isSome = true := by
  cases h with
  | absent => exact hw
  | watched => rfl
  | unsettled _ _ hboth => exact hboth hw

/-- The filter for reading was added anew, the one for writing was not. -/
lemma halfDone (h : Entries w read write) (id : ConnectionId) (enabled : Bool) :
    Entries (.unsettled (id :: w.ids)) (some ⟨enabled, id.toUint64⟩) write := by
  refine .unsettled ?_ ?_ fun _ => rfl
  · intro f hf
    obtain rfl : _ = f := Option.some.inj hf
    exact ⟨id, List.mem_cons_self, rfl⟩
  · intro f hf
    obtain ⟨id', hid', hudata⟩ := h.udata (Or.inr hf)
    exact ⟨id', List.mem_cons_of_mem _ hid', hudata⟩

end Entries

/-- The poller is in the state that the specification gives it. -/
structure Implements (p : Poller) (s : Spec) : Prop where
  opened : decide (0 ≤ p.pollFd) = s.opened
  wake : decide (0 < p.pipe) = s.wake
  wakeFds : s.opened = true → 0 ≤ p.wakeReadFd ∧ 0 ≤ p.wakeWriteFd
  entries : ∀ fd, (0 ≤ fd → fd ≠ p.wakeReadFd) →
    Entries (s.watch fd) (p.filters fd .read) (p.filters fd .write)
  negative : ∀ fd < 0, ∀ kind, p.filters fd kind = none
  closed : s.opened = false → p = {}

section simulation

variable {p p' : Poller} {s : Spec}

@[simp] lemma drainPipe_eq (n : Nat) : drainPipe n = 0 :=
  drain_eq_zero (fun _ h => lt_min h (by decide)) le_rfl

lemma writePipe_pos (p : Poller) (full : Bool) : 0 < writePipe p full := by
  unfold writePipe
  split_ifs with h
  · simp only [Bool.and_eq_true, decide_eq_true_eq] at h
    exact h.2
  · exact Nat.succ_pos _

/-- `EV_DELETE`, when nothing else fails. -/
lemma applyChanges_delete (p : Poller) (fd : Int) (kind : FilterKind) (cs : List Change) :
    applyChanges p (.delete fd kind :: cs) none =
      if (p.filters fd kind).isSome then applyChanges (setFilter p fd kind none) cs none
      else (false, p) := by
  simp only [applyChanges, applyChange, Option.map_none]
  split_ifs <;> rfl

lemma setFilter_self (p : Poller) (fd : Int) (kind : FilterKind) (f : Option Filter) :
    (setFilter p fd kind f).filters fd kind = f := by
  simp [setFilter]

lemma setFilter_of_kind_ne {kind kind' : FilterKind} (h : kind' ≠ kind) (p : Poller) (fd : Int)
    (f : Option Filter) : (setFilter p fd kind f).filters fd kind' = p.filters fd kind' := by
  simp [setFilter, h]

lemma setFilter_of_ne {fd fd' : Int} (h : fd' ≠ fd) (p : Poller) (kind : FilterKind)
    (f : Option Filter) : (setFilter p fd kind f).filters fd' = p.filters fd' := by
  simp [setFilter, h]

/-- Two pollers that differ in the filters of one descriptor. -/
structure SameBut (fd : Int) (p p' : Poller) : Prop where
  pollFd : p'.pollFd = p.pollFd
  wakeReadFd : p'.wakeReadFd = p.wakeReadFd
  wakeWriteFd : p'.wakeWriteFd = p.wakeWriteFd
  pipe : p'.pipe = p.pipe
  filters : ∀ fd' ≠ fd, p'.filters fd' = p.filters fd'

lemma SameBut.setFilter (p : Poller) (fd : Int) (kind : FilterKind) (f : Option Filter) :
    SameBut fd p (setFilter p fd kind f) :=
  ⟨rfl, rfl, rfl, rfl, fun _ h => setFilter_of_ne h p kind f⟩

lemma SameBut.trans {fd : Int} {p₁ p₂ p₃ : Poller} (h : SameBut fd p₁ p₂) (h' : SameBut fd p₂ p₃) :
    SameBut fd p₁ p₃ :=
  ⟨h'.pollFd.trans h.pollFd, h'.wakeReadFd.trans h.wakeReadFd, h'.wakeWriteFd.trans h.wakeWriteFd,
    h'.pipe.trans h.pipe, fun fd' hne => (h'.filters fd' hne).trans (h.filters fd' hne)⟩

/-- The loop of `Wait`, as a whole. -/
lemma waitLoop_eq (p : Poller) (evs : List Ready) (pipe : Nat) :
    waitLoop p evs pipe =
      ((evs.filter fun ev => !(ev.ident == p.wakeReadFd)).map fun ev => report ev (udataOf p ev),
        if evs.any fun ev => ev.ident == p.wakeReadFd then 0 else pipe,
        evs.any fun ev => ev.ident == p.wakeReadFd) := by
  induction evs generalizing pipe with
  | nil => rfl
  | cons ev evs ih =>
    by_cases hwake : ev.ident = p.wakeReadFd
    · simp [waitLoop, ih, hwake]
    · simp [waitLoop, ih, hwake]

lemma implements_init : Implements {} {} where
  opened := rfl
  wake := rfl
  wakeFds h := by cases h
  entries fd _ := .absent
  negative _ _ _ := rfl
  closed _ := rfl

/-- The poller that a successful `Init` leaves. -/
def opened (kq r w : Nat) : Poller :=
  setFilter { pollFd := kq, wakeReadFd := r, wakeWriteFd := w } r .read (some ⟨true, 0⟩)

lemma implements_opened (kq r w : Nat) : Implements (opened kq r w) { opened := true } where
  opened := by simp [opened, setFilter]
  wake := rfl
  wakeFds _ := by simp [opened, setFilter]
  entries fd hfd := by
    have hne : fd ≠ r := by
      rintro rfl
      exact hfd (Int.natCast_nonneg r) rfl
    rw [opened, setFilter_of_ne hne]
    exact .absent
  negative fd hfd kind := by
    rw [opened, setFilter_of_ne (by omega)]
  closed h := by cases h

/-- `Init` of a closed poller either closes again what it opened, or leaves all three descriptors
open. -/
lemma init_cases (a : Answers) :
    (init {} a).2 = {} ∨ (∃ kq r w, init {} a = (false, opened kq r w)) := by
  have hneg : ¬ (0 : Int) ≤ -1 := by decide
  simp only [init, hneg, if_false]
  cases a.kqueue with
  | none => exact Or.inl rfl
  | some kq =>
    cases a.setCloseOnExec with
    | false => exact Or.inl rfl
    | true =>
      rcases a.pipe with _ | ⟨r, w⟩
      · exact Or.inl rfl
      · simp only [not_true_eq_false, if_false]
        have hkq : ¬ (kq : Int) < 0 := by omega
        split_ifs with hflags hkevent
        · exact Or.inl rfl
        · refine Or.inr ⟨kq, r, w, ?_⟩
          simp [kevent, hkq, applyChanges, applyChange, opened]
        · refine Or.inl ?_
          simp [kevent, hkq, applyChanges, closePollFd, closePipe]

namespace Implements

lemma not_closed (h : Implements p s) (hopen : ¬ p.pollFd < 0) : s.opened = true := by
  rw [← h.opened]
  exact decide_eq_true (Int.not_lt.mp hopen)

/-- Other filters for one descriptor of an open poller. -/
lemma put (h : Implements p s) {fd : Int} {w : Watch} (hopen : s.opened = true)
    (hsame : SameBut fd p p') (hfd : 0 ≤ fd)
    (he : Entries w (p'.filters fd .read) (p'.filters fd .write)) :
    Implements p' (s.put fd w) where
  opened := by
    rw [hsame.pollFd]
    exact h.opened
  wake := by
    rw [hsame.pipe]
    exact h.wake
  wakeFds hopen := by
    rw [hsame.wakeReadFd, hsame.wakeWriteFd]
    exact h.wakeFds hopen
  entries fd' hfd' := by
    by_cases hne : fd' = fd
    · subst hne
      rwa [Spec.watch_put_self]
    · rw [Spec.watch_put_of_ne w hne, hsame.filters fd' hne]
      rw [hsame.wakeReadFd] at hfd'
      exact h.entries fd' hfd'
  negative fd' hfd' kind := by
    rw [hsame.filters fd' (by omega)]
    exact h.negative fd' hfd' kind
  closed hclosed := by
    rw [Spec.opened_put, hopen] at hclosed
    cases hclosed

/-- `Add`, which is also `Modify`. -/
lemma add (h : Implements p s) {fd : Int} (id : ConnectionId) (interest : Interest)
    (fail : Option Nat) (hfd : fd ≠ p.wakeReadFd) :
    ∃ s', Spec.Step s (.set fd id interest (Kqueue.add p fd id interest fail).1) s' ∧
      Implements (Kqueue.add p fd id interest fail).2 s' := by
  let p₁ := setFilter p fd .read (some ⟨interest.readable, id.toUint64⟩)
  let p₂ := setFilter p₁ fd .write (some ⟨interest.writable, id.toUint64⟩)
  have hsame₁ : SameBut fd p p₁ := .setFilter p fd _ _
  have hsame₂ : SameBut fd p p₂ := hsame₁.trans (.setFilter p₁ fd _ _)
  unfold Kqueue.add kevent
  split_ifs with hclosed
  · exact ⟨s, .refused fd id interest, h⟩
  have hopen := h.not_closed hclosed
  by_cases hneg : 0 ≤ fd
  · have hdone : ∃ s', Spec.Step s (.set fd id interest true) s' ∧ Implements p₂ s' := by
      refine ⟨_, .set fd id interest hopen, h.put hopen hsame₂ hneg ?_⟩
      rw [setFilter_self, setFilter_of_kind_ne (by simp), setFilter_self]
      exact .watched id interest
    have hhalf : ∃ s', Spec.Step s (.set fd id interest false) s' ∧ Implements p₁ s' := by
      refine ⟨_, .halfDone fd id interest, h.put hopen hsame₁ hneg ?_⟩
      rw [setFilter_self, setFilter_of_kind_ne (by simp)]
      exact (h.entries fd fun _ => hfd).halfDone id interest.readable
    rcases fail with _ | _ | _ | n
    · simpa [applyChanges, applyChange, hneg] using hdone
    · exact ⟨s, .refused fd id interest, h⟩
    · simpa [applyChanges, applyChange, hneg] using hhalf
    · simpa [applyChanges, applyChange, hneg] using hdone
  · have hrefused : applyChanges p [.add fd .read ⟨interest.readable, id.toUint64⟩,
        .add fd .write ⟨interest.writable, id.toUint64⟩] fail = (false, p) := by
      rcases fail with _ | _ | n <;> simp [applyChanges, applyChange, hneg]
    rw [hrefused]
    exact ⟨s, .refused fd id interest, h⟩

/-- There is nothing to remove. -/
lemma forget (h : Implements p s) {fd : Int} (hnone : ∀ kind, p.filters fd kind = none) :
    Implements p (s.put fd .absent) where
  opened := h.opened
  wake := h.wake
  wakeFds := h.wakeFds
  entries fd' hfd' := by
    by_cases hne : fd' = fd
    · subst hne
      rw [Spec.watch_put_self, hnone, hnone]
      exact .absent
    · rw [Spec.watch_put_of_ne _ hne]
      exact h.entries fd' hfd'
  negative := h.negative
  closed := h.closed

lemma remove (h : Implements p s) {fd : Int} (hfd : 0 ≤ fd → fd ≠ p.wakeReadFd) :
    Implements (Kqueue.remove p fd) (s.put fd .absent) := by
  unfold Kqueue.remove
  split_ifs with hinvalid
  · refine h.forget fun kind => ?_
    rcases hinvalid with hneg | hclosed
    · exact h.negative fd hneg kind
    · have hopen : s.opened = false := by
        rw [← h.opened]
        exact decide_eq_false (Int.not_le.mpr hclosed)
      rw [h.closed hopen]
  · obtain ⟨hneg, hclosed⟩ := not_or.mp hinvalid
    have hopen := h.not_closed hclosed
    have hentries := h.entries fd hfd
    let p₁ := setFilter p fd .read none
    have hsame : SameBut fd p p₁ := .setFilter p fd _ _
    have hwrite₁ : p₁.filters fd .write = p.filters fd .write :=
      setFilter_of_kind_ne (by simp) p fd none
    rw [kevent, if_neg hclosed, applyChanges_delete, applyChanges_delete, hwrite₁]
    cases hread : p.filters fd .read with
    | none =>
      -- the first deletion fails, and there is no other filter
      have hwrite : p.filters fd .write = none := by
        rw [← Option.not_isSome_iff_eq_none]
        intro hsome
        have hboth := hentries.both hsome
        rw [hread] at hboth
        cases hboth
      simp only [Option.isSome_none, Bool.false_eq_true, if_false]
      exact h.forget fun kind => by cases kind <;> assumption
    | some f =>
      simp only [Option.isSome_some, if_true]
      cases hwrite : p.filters fd .write with
      | none =>
        simp only [Option.isSome_none, Bool.false_eq_true, if_false]
        refine h.put hopen hsame (Int.not_lt.mp hneg) ?_
        rw [setFilter_self, hwrite₁, hwrite]
        exact .absent
      | some f' =>
        simp only [Option.isSome_some, if_true, applyChanges]
        refine h.put hopen (hsame.trans (.setFilter p₁ fd _ _)) (Int.not_lt.mp hneg) ?_
        rw [setFilter_self, setFilter_of_kind_ne (by simp), setFilter_self]
        exact .absent

/-- The filters of a closed socket are gone. -/
lemma close (h : Implements p s) (fd : Int) : Implements (dropFilters p fd) (s.put fd .absent) := by
  cases hopen : s.opened with
  | false =>
    obtain rfl := h.closed hopen
    have hdrop : dropFilters {} fd = {} := by simp [dropFilters]
    rw [hdrop]
    exact h.forget fun kind => rfl
  | true =>
    by_cases hfd : 0 ≤ fd
    · refine h.put hopen ⟨rfl, rfl, rfl, rfl, fun _ hne => Function.update_of_ne hne ..⟩ hfd ?_
      simp only [dropFilters, Function.update_self]
      exact .absent
    · have hdrop : dropFilters p fd = p := by
        have hnone : p.filters fd = fun _ => none :=
          funext fun kind => h.negative fd (Int.not_le.mp hfd) kind
        rw [dropFilters, ← hnone, Function.update_eq_self]
      rw [hdrop]
      exact h.forget (h.negative fd (Int.not_le.mp hfd))

lemma init (h : Implements p s) (a : Answers) :
    ∃ s', Spec.Step s (.init (Kqueue.init p a).1) s' ∧ Implements (Kqueue.init p a).2 s' := by
  cases hopen : s.opened with
  | true =>
    have hinit : Kqueue.init p a = (false, p) := by
      refine if_pos ?_
      rw [← decide_eq_true_eq (p := 0 ≤ p.pollFd), h.opened, hopen]
    rw [hinit]
    exact ⟨s, .initAgain hopen, h⟩
  | false =>
    obtain rfl := h.closed hopen
    rcases init_cases a with hinit | ⟨kq, r, w, hinit⟩
    · rw [hinit]
      exact ⟨s, .initFailed hopen _, h⟩
    · rw [hinit]
      exact ⟨_, .init hopen, implements_opened kq r w⟩

lemma wakeUp (h : Implements p s) (full : Bool) :
    Implements (Kqueue.wake p full) { s with wake := s.opened } := by
  unfold Kqueue.wake
  split_ifs with hinvalid
  · have hopen : s.opened = false := by
      by_contra hopen
      have hfds := h.wakeFds (Bool.eq_true_of_not_eq_false hopen)
      omega
    obtain rfl := h.closed hopen
    refine ⟨h.opened, ?_, h.wakeFds, h.entries, h.negative, h.closed⟩
    rw [hopen]
    rfl
  · have hopen : s.opened = true := by
      by_contra hopen
      obtain rfl := h.closed (Bool.eq_false_iff.mpr hopen)
      exact hinvalid (by decide)
    refine ⟨h.opened, ?_, h.wakeFds, h.entries, h.negative, fun hclosed => ?_⟩
    · rw [hopen]
      exact decide_eq_true (writePipe_pos p full)
    · rw [hopen] at hclosed
      cases hclosed

/-! ### Waiting -/

/-- An event of another descriptor than the wake descriptor. -/
lemma allows_report (h : Implements p s) {ev : Ready} (hev : reportable p ev = true)
    (hfd : ev.ident ≠ p.wakeReadFd) : (s.watch ev.ident).Allows (report ev (udataOf p ev)) := by
  have hentries := h.entries ev.ident fun _ => hfd
  cases hfilter : p.filters ev.ident ev.kind with
  | none => simp [reportable, hfilter] at hev
  | some f =>
    have henabled : f.enabled = true := by simpa [reportable, hfilter] using hev
    have hudata : udataOf p ev = f.udata := by simp [udataOf, hfilter]
    have hmem : f ∈ p.filters ev.ident .read ∨ f ∈ p.filters ev.ident .write := by
      cases hkind : ev.kind with
      | read => exact Or.inl (hkind ▸ hfilter)
      | write => exact Or.inr (hkind ▸ hfilter)
    refine ⟨?_, ?_, ?_⟩
    · obtain ⟨id, hid, hf⟩ := hentries.udata hmem
      simpa [report, hudata, hf] using hid
    · cases hkind : ev.kind with
      | read => simp [report, hkind]
      | write => simp [report, hkind]
    · intro id interest hwatch hwritable
      have hkind : ev.kind = .write := by simpa [report] using hwritable
      rw [hwatch] at hentries
      rw [hkind] at hfilter
      generalize p.filters ev.ident .read = read at hentries
      generalize p.filters ev.ident .write = write at hentries hfilter
      cases hentries with
      | watched =>
        obtain rfl : _ = f := Option.some.inj hfilter
        exact henabled

/-- What `Wait` leaves in the pipe. -/
lemma setPipe (h : Implements p s) (hopen : s.opened = true) (woken : Bool) :
    Implements { p with pipe := if woken then 0 else p.pipe }
      { s with wake := s.wake && !woken } where
  opened := h.opened
  wake := by
    cases woken with
    | true => simp
    | false => simpa using h.wake
  wakeFds := h.wakeFds
  entries := h.entries
  negative := h.negative
  closed hclosed := by
    rw [show s.opened = false from hclosed] at hopen
    cases hopen

lemma wait (h : Implements p s) {answer : WaitAnswer} (hfits : answer.fits p = true) :
    ∃ s', Spec.Step s (.wait (Kqueue.wait p answer).1) s' ∧
      Implements (Kqueue.wait p answer).2 s' := by
  unfold Kqueue.wait
  split_ifs with hclosed
  · refine ⟨s, .waitClosed ?_, h⟩
    rw [← h.opened]
    exact decide_eq_false (Int.not_le.mpr hclosed)
  have hopen := h.not_closed hclosed
  cases answer with
  | failed errno =>
    dsimp only
    split_ifs
    · exact ⟨s, .waitInterrupted, h⟩
    · exact ⟨s, .waitFailed, h⟩
  | ready evs =>
    simp only [WaitAnswer.fits, Bool.and_eq_true, List.all_eq_true] at hfits
    obtain ⟨⟨-, hevs⟩, hwake⟩ := hfits
    simp only [waitLoop_eq]
    cases evs with
    | nil =>
      refine ⟨s, .timeout hopen ?_, h⟩
      rw [← h.wake, decide_eq_false_iff_not, Nat.not_lt, Nat.le_zero]
      by_contra hne
      simp [wakeFits, hne] at hwake
    | cons ev evs =>
      refine ⟨_, .ready (fun e : Ready => e.ident == p.wakeReadFd) _ (List.cons_ne_nil ev evs) ?_
        ?_,
        h.setPipe hopen _⟩
      · intro e he hident
        rw [← h.wake, decide_eq_true_eq, Nat.pos_iff_ne_zero]
        intro hzero
        rw [wakeFits, if_pos hzero, List.all_eq_true] at hwake
        exact bne_iff_ne.mp (hwake e he) (beq_iff_eq.mp hident)
      · intro e he hident
        exact ⟨e.ident, h.allows_report (hevs e he) (beq_eq_false_iff_ne.mp hident)⟩

end Implements

/-- Every step of the poller is one that the specification allows. -/
theorem step_implements {l : Label} (h : Implements p s) (hok : Ok p l)
    (hstep : step p l = some p') :
    ∃ s', Spec.Step s (observe p l) s' ∧ Implements p' s' := by
  cases l with
  | init a =>
    obtain rfl := Option.some.inj hstep
    exact h.init a
  | shutdown =>
    obtain rfl := Option.some.inj hstep
    exact ⟨{}, .shutdown, implements_init⟩
  | add fd id interest fail =>
    obtain rfl := Option.some.inj hstep
    exact h.add id interest fail hok
  | modify fd id interest fail =>
    obtain rfl := Option.some.inj hstep
    exact h.add id interest fail hok
  | remove fd =>
    obtain rfl := Option.some.inj hstep
    exact ⟨_, .remove fd, h.remove hok⟩
  | close fd =>
    obtain rfl := Option.some.inj hstep
    exact ⟨_, .close fd, h.close fd⟩
  | wake full =>
    obtain rfl := Option.some.inj hstep
    exact ⟨_, .wake, h.wakeUp full⟩
  | wait answer =>
    obtain ⟨hfits, heq⟩ := Option.ite_none_right_eq_some.mp hstep
    obtain rfl := Option.some.inj heq
    exact h.wait hfits

/-- Every run is followed by the specification. -/
lemma follows_of_exec {ls : List Label} (hexec : Run.exec step {} ls = some p)
    (hok : Run.Meets step Ok {} ls) :
    ∃ s, Run.Follows Spec.Step {} (Run.observe step observe {} ls) s ∧ Implements p s :=
  Run.follows_of_exec Ok (fun _ _ _ _ h hok hstep => step_implements h hok hstep) hexec hok
    implements_init

end simulation

end Connx.Poll.Kqueue
