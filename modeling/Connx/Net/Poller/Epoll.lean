import Connx.Core.Library
import Connx.Lib.Mask
import Connx.Net.Poller.Basic

/-!
# `poller_linux.cc`

`Poller` over an epoll instance and an eventfd. The interest list of the instance and the counter of
the eventfd belong to the kernel; what it answers to a call is part of the label of a step, within
what the two allow. The wake descriptor is on the list with the data `0`.
-/

namespace Connx.Poll.Epoll

def epollIn : UInt32 := 0x001
def epollOut : UInt32 := 0x004
def epollErr : UInt32 := 0x008
def epollHup : UInt32 := 0x010
def epollRdhup : UInt32 := 0x2000

def eintr : Int := 4
def econnreset : Int := 104

/-- `kMaxEvents`. -/
def maxEvents : Nat := 256

/-- `struct epoll_event`. -/
structure EpollEvent where
  events : UInt32
  data : UInt64
  deriving DecidableEq, Repr

def toEpollEvents (interest : Interest) : UInt32 :=
  let events := epollRdhup
  let events := if interest.readable then events ||| epollIn else events
  if interest.writable then events ||| epollOut else events

/-- `Poller`, with the interest list of `poll_fd_` and the counter of `wake_fd_`. -/
structure Poller where
  fds : Library.Poller := {}
  list : Int → Option EpollEvent := fun _ => none
  counter : Nat := 0

/-- The entry of the wake descriptor. -/
def wakeEvent : EpollEvent := ⟨epollIn, 0⟩

/-! ### The kernel -/

section kernel

variable (p : Poller)

/-- The descriptors of an `epoll_ctl` are open. -/
def usable (fd : Int) : Bool := p.fds.pollFd.isSome && decide (0 ≤ fd)

def setEntry (fd : Int) (e : Option EpollEvent) : Poller :=
  { p with list := Function.update p.list fd e }

/-- `epoll_ctl(EPOLL_CTL_ADD)`, which fails for a descriptor that is on the list; `ok` says that
there is no other reason to fail. -/
def epollCtlAdd (fd : Int) (ev : EpollEvent) (ok : Bool) : Bool × Poller :=
  if usable p fd && (p.list fd).isNone && ok then (true, setEntry p fd (some ev)) else (false, p)

/-- `epoll_ctl(EPOLL_CTL_MOD)`, which fails for a descriptor that is not on the list. -/
def epollCtlMod (fd : Int) (ev : EpollEvent) (ok : Bool) : Bool × Poller :=
  if usable p fd && (p.list fd).isSome && ok then (true, setEntry p fd (some ev)) else (false, p)

/-- `epoll_ctl(EPOLL_CTL_DEL)`. -/
def epollCtlDel (fd : Int) : Poller := if usable p fd then setEntry p fd none else p

/-- The largest value of an eventfd; `write` fails rather than go beyond it. -/
def maxCounter : Nat := 2 ^ 64 - 2

/-- `write` of `1` to an eventfd. -/
def writeEventfd (counter : Nat) : Nat := if counter < maxCounter then counter + 1 else counter

/-- The loop that reads the eventfd; a `read` takes the whole counter. -/
def drainEventfd (counter : Nat) : Nat := drain (fun n => n) counter counter

/-- `epoll_wait`: an error, or the descriptors that are ready with their flags. -/
inductive WaitAnswer where
  | failed (errno : Int)
  | ready (evs : List (Int × UInt32))
  deriving DecidableEq, Repr

/-- A descriptor is reported only while it is on the list, with flags it is watched for or that are
always reported. -/
def reportable (ev : Int × UInt32) : Bool :=
  match p.list ev.1 with
  | some e => ev.2 != 0 && decide (Mask.Within ev.2 (e.events ||| (epollErr ||| epollHup)))
  | none => false

/-- The wake descriptor is ready exactly when its counter is not zero; `epoll_wait` does not come
back without an event while a descriptor is ready. -/
def wakeFits (evs : List (Int × UInt32)) : Bool :=
  p.fds.wakeFd.all fun w : Nat =>
    if p.counter = 0 then !(evs.map Prod.fst).contains (w : Int) else !evs.isEmpty

/-- The answers the kernel can give. -/
def WaitAnswer.fits : WaitAnswer → Bool
  | .failed _ => true
  | .ready evs => decide (evs.length ≤ maxEvents) && evs.all (reportable p) && wakeFits p evs

/-- The structure that `epoll_wait` fills in. -/
def filled (ev : Int × UInt32) : Option EpollEvent := (p.list ev.1).map fun e => ⟨ev.2, e.data⟩

end kernel

/-! ### `Poller` -/

section poller

variable (p : Poller)

/-- `Init`: whether it fails, with an error or an exception, and the poller. -/
def init (a : Library.Answers) : Bool × Poller :=
  let (error, fds) := p.fds.init a
  (error ≠ .returned none,
    if p.fds.pollFd.isSome then { p with fds }
    else
      match fds.wakeFd with
      | some w => { fds, list := Function.update (fun _ => none) (w : Int) (some wakeEvent) }
      | none => { fds })

def shutdown : Poller := { fds := p.fds.shutdown }

def add (fd : Int) (id : ConnectionId) (interest : Interest) (ok : Bool) : Bool × Poller :=
  epollCtlAdd p fd ⟨toEpollEvents interest, id.toUint64⟩ ok

def modify (fd : Int) (id : ConnectionId) (interest : Interest) (ok : Bool) : Bool × Poller :=
  epollCtlMod p fd ⟨toEpollEvents interest, id.toUint64⟩ ok

def remove (fd : Int) : Poller :=
  if fd < 0 ∨ p.fds.pollFd.isNone then p else epollCtlDel p fd

def wake : Poller :=
  if p.fds.wakeFd.isNone then p else { p with counter := writeEventfd p.counter }

/-- The report on an event. -/
def report (ev : EpollEvent) : Report :=
  let error := ev.events &&& epollErr ≠ 0 ∨
    (ev.events &&& epollHup ≠ 0 ∧ ev.events &&& (epollIn ||| epollOut) = 0)
  { id := .fromUint64 ev.data
    readable := ev.events &&& (epollIn ||| epollRdhup) ≠ 0
    writable := ev.events &&& epollOut ≠ 0
    error := error
    errorCode := if error then econnreset else 0 }

/-- The loop of `Wait`: the reports, the counter it leaves, and whether it took a wake-up. -/
def waitLoop : List EpollEvent → Nat → List Report × Nat × Bool
  | [], counter => ([], counter, false)
  | ev :: evs, counter =>
    if ev.data = 0 then
      let (reports, counter, _) := waitLoop evs (drainEventfd counter)
      (reports, counter, true)
    else
      let (reports, counter, woken) := waitLoop evs counter
      (report ev :: reports, counter, woken)

def wait (answer : WaitAnswer) : WaitResult × Poller :=
  if p.fds.pollFd.isNone then (.closed, p)
  else
    match answer with
    | .failed errno => (if errno = eintr then .interrupted else .failed, p)
    | .ready evs =>
      let (reports, counter, woken) := waitLoop (evs.filterMap (filled p)) p.counter
      (if evs.isEmpty then .timeout else .events reports woken, { p with counter })

end poller

/-! ### Runs -/

inductive Label where
  | init (a : Library.Answers)
  | shutdown
  | add (fd : Int) (id : ConnectionId) (interest : Interest) (ok : Bool)
  | modify (fd : Int) (id : ConnectionId) (interest : Interest) (ok : Bool)
  | remove (fd : Int)
  /-- A socket is closed; the kernel takes it off the list. -/
  | close (fd : Int)
  | wake
  | wait (answer : WaitAnswer)

def step (p : Poller) : Label → Option Poller
  | .init a => some (init p a).2
  | .shutdown => some (shutdown p)
  | .add fd id interest ok => some (add p fd id interest ok).2
  | .modify fd id interest ok => some (modify p fd id interest ok).2
  | .remove fd => some (remove p fd)
  | .close fd => some (setEntry p fd none)
  | .wake => some (wake p)
  | .wait answer => if answer.fits p then some (wait p answer).2 else none

/-- What the caller sees. -/
def observe (p : Poller) : Label → Op
  | .init a => .init (init p a).1
  | .shutdown => .shutdown
  | .add fd id interest ok => .set fd id interest (add p fd id interest ok).1
  | .modify fd id interest ok => .set fd id interest (modify p fd id interest ok).1
  | .remove fd => .remove fd
  | .close fd => .close fd
  | .wake => .wake
  | .wait answer => .wait (wait p answer).1

/-- What the callers see to: a connection is registered before it is added, and the sockets of
connections are not the wake descriptor, which is open as long as the poller is. -/
def Ok (p : Poller) : Label → Prop
  | .add fd id _ _ => id.valid = true ∧ p.fds.wakeFd.map Int.ofNat ≠ some fd
  | .modify fd id _ _ => id.valid = true ∧ p.fds.wakeFd.map Int.ofNat ≠ some fd
  | .remove fd => p.fds.wakeFd.map Int.ofNat ≠ some fd
  | .close fd => p.fds.wakeFd.map Int.ofNat ≠ some fd
  | _ => True

instance (p : Poller) : (l : Label) → Decidable (Ok p l)
  | .init _ => isTrue trivial
  | .shutdown => isTrue trivial
  | .add fd id _ _ =>
    inferInstanceAs (Decidable (id.valid = true ∧ p.fds.wakeFd.map Int.ofNat ≠ some fd))
  | .modify fd id _ _ =>
    inferInstanceAs (Decidable (id.valid = true ∧ p.fds.wakeFd.map Int.ofNat ≠ some fd))
  | .remove fd => inferInstanceAs (Decidable (p.fds.wakeFd.map Int.ofNat ≠ some fd))
  | .close fd => inferInstanceAs (Decidable (p.fds.wakeFd.map Int.ofNat ≠ some fd))
  | .wake => isTrue trivial
  | .wait _ => isTrue trivial

/-! ### Reports -/

section reports

variable {interest : Interest} {flags : UInt32} {data : UInt64}

/-- The flags that are reported for a descriptor that is watched for `interest`. -/
def watchedFlags (interest : Interest) : UInt32 :=
  toEpollEvents interest ||| (epollErr ||| epollHup)

/-- Writing is reported only where it is watched. -/
lemma report_writable (h : Mask.Within flags (watchedFlags interest))
    (hw : (report ⟨flags, data⟩).writable = true) : interest.writable = true := by
  by_contra hne
  have hmask : watchedFlags interest &&& epollOut = 0 := by
    obtain ⟨readable, writable⟩ := interest
    obtain rfl : writable = false := Bool.eq_false_iff.mpr hne
    cases readable <;> decide
  simp [report, h.and_eq_zero hmask] at hw

/-- Every flag that the kernel reports has a meaning for `Wait`. -/
lemma report_nonempty (h : Mask.Within flags (watchedFlags interest)) (hne : flags ≠ 0) :
    (report ⟨flags, data⟩).readable = true ∨ (report ⟨flags, data⟩).writable = true ∨
      (report ⟨flags, data⟩).error = true := by
  have hall : Mask.Within (watchedFlags interest)
      ((epollIn ||| epollRdhup) ||| (epollOut ||| (epollErr ||| epollHup))) := by
    obtain ⟨readable, writable⟩ := interest
    cases readable <;> cases writable <;> decide
  by_contra hnone
  simp only [report, decide_eq_true_eq, not_or, not_and, not_not] at hnone
  obtain ⟨hin, hout, herr, hhup⟩ := hnone
  refine hne ((h.trans hall).eq_zero ?_)
  have hread : flags &&& (epollIn ||| epollOut) = 0 :=
    Mask.and_or_eq_zero.mpr ⟨(Mask.and_or_eq_zero.mp hin).1, hout⟩
  have hhup' : flags &&& epollHup = 0 := by
    by_contra hne'
    exact hhup hne' hread
  exact Mask.and_or_eq_zero.mpr ⟨hin, Mask.and_or_eq_zero.mpr ⟨hout,
    Mask.and_or_eq_zero.mpr ⟨herr, hhup'⟩⟩⟩

end reports

/-! ### Simulation -/

/-- The entry on the list for what is known about a descriptor. -/
inductive Entry : Watch → Option EpollEvent → Prop
  | absent : Entry .absent none
  | watched (id : ConnectionId) (interest : Interest) (hid : id.valid = true) :
      Entry (.watched id interest) (some ⟨toEpollEvents interest, id.toUint64⟩)

/-- The poller is in the state that the specification gives it. -/
structure Implements (p : Poller) (s : Spec) : Prop where
  opened : p.fds.pollFd.isSome = s.opened
  both : p.fds.wakeFd.isSome = p.fds.pollFd.isSome
  wake : decide (0 < p.counter) = s.wake
  wakeEntry : ∀ w : Nat, p.fds.wakeFd = some w → p.list w = some wakeEvent
  entries : ∀ fd, p.fds.wakeFd.map Int.ofNat ≠ some fd → Entry (s.watch fd) (p.list fd)
  negative : ∀ fd < 0, p.list fd = none
  closed : s.opened = false → p.counter = 0 ∧ ∀ fd, p.list fd = none

section simulation

variable {p p' : Poller} {s : Spec}

@[simp] lemma drainEventfd_eq (n : Nat) : drainEventfd n = 0 :=
  drain_eq_zero (fun _ h => h) le_rfl

lemma writeEventfd_pos (n : Nat) : 0 < writeEventfd n := by
  unfold writeEventfd maxCounter
  split_ifs <;> omega

/-- A socket is not the wake descriptor. -/
lemma wake_ne {w : Nat} {fd : Int} (hw : p.fds.wakeFd = some w)
    (hfd : p.fds.wakeFd.map Int.ofNat ≠ some fd) : (w : Int) ≠ fd := by
  rintro rfl
  exact hfd (by rw [hw]; rfl)

/-- `Init` of a closed poller opens both descriptors or none. -/
lemma init_fds (a : Library.Answers) :
    (∃ pollFd wakeFd, Library.Poller.init {} a = (.returned none, ⟨some pollFd, some wakeFd⟩)) ∨
      (Library.Poller.init {} a).2 = {} := by
  have hwake : ∀ fd,
      (∃ wakeFd, Library.Poller.initWake a fd = (.returned none, ⟨some fd, some wakeFd⟩)) ∨
      (Library.Poller.initWake a fd).2 = {} := by
    intro fd
    unfold Library.Poller.initWake
    cases a.eventfd with
    | none => exact Or.inr rfl
    | some wakeFd =>
      cases a.epollCtl with
      | true => exact Or.inl ⟨wakeFd, rfl⟩
      | false => exact Or.inr rfl
  have hopen : ∀ fd, (∃ pollFd wakeFd, Library.Poller.initWake a fd =
      (.returned none, ⟨some pollFd, some wakeFd⟩)) ∨ (Library.Poller.initWake a fd).2 = {} :=
    fun fd => (hwake fd).imp_left fun ⟨wakeFd, h⟩ => ⟨fd, wakeFd, h⟩
  simp only [Library.Poller.init, Option.isSome_none, Bool.false_eq_true, if_false]
  cases a.epollCreate1 with
  | some fd => exact hopen fd
  | none =>
    cases a.epollCreate with
    | none => exact Or.inr rfl
    | some fd =>
      cases a.setCloseOnExec with
      | true => exact hopen fd
      | false => exact Or.inr rfl

/-- The loop of `Wait`, as a whole. -/
lemma waitLoop_eq (evs : List EpollEvent) (counter : Nat) :
    waitLoop evs counter = ((evs.filter fun ev => !(ev.data == 0)).map report,
      if evs.any fun ev => ev.data == 0 then 0 else counter, evs.any fun ev => ev.data == 0) := by
  induction evs generalizing counter with
  | nil => rfl
  | cons ev evs ih =>
    by_cases hdata : ev.data = 0
    · simp [waitLoop, ih, hdata]
    · simp [waitLoop, ih, hdata]

lemma implements_init : Implements {} {} where
  opened := rfl
  both := rfl
  wake := rfl
  wakeEntry w hw := by cases hw
  entries fd _ := .absent
  negative _ _ := rfl
  closed _ := ⟨rfl, fun _ => rfl⟩

namespace Implements

/-- The descriptors of a poller that is closed. -/
lemma fds_eq (h : Implements p s) (hopen : s.opened = false) : p.fds = {} := by
  have hpoll : p.fds.pollFd = none := by
    rw [← Option.not_isSome_iff_eq_none, h.opened, hopen]
    exact Bool.false_ne_true
  have hwake : p.fds.wakeFd = none := by
    rw [← Option.not_isSome_iff_eq_none, h.both, hpoll]
    exact Bool.false_ne_true
  rw [show p.fds = ⟨p.fds.pollFd, p.fds.wakeFd⟩ from rfl, hpoll, hwake]

/-- Another entry for a descriptor that is not the wake descriptor. -/
lemma setEntry (h : Implements p s) {fd : Int} {w : Watch} {e : Option EpollEvent}
    (hfd : p.fds.wakeFd.map Int.ofNat ≠ some fd) (he : Entry w e) (hneg : fd < 0 → e = none)
    (hclosed : s.opened = false → e = none) : Implements (setEntry p fd e) (s.put fd w) where
  opened := h.opened
  both := h.both
  wake := h.wake
  wakeEntry w' hw' := by
    have hne : (w' : Int) ≠ fd := wake_ne hw' hfd
    exact (Function.update_of_ne hne ..).trans (h.wakeEntry w' hw')
  entries fd' hfd' := by
    by_cases hne : fd' = fd
    · subst hne
      rw [Spec.watch_put_self]
      change Entry w (Function.update p.list fd' e fd')
      rwa [Function.update_self]
    · rw [Spec.watch_put_of_ne w hne]
      change Entry _ (Function.update p.list fd e fd')
      rw [Function.update_of_ne hne]
      exact h.entries fd' hfd'
  negative fd' hfd' := by
    change Function.update p.list fd e fd' = none
    by_cases hne : fd' = fd
    · subst hne
      rw [Function.update_self]
      exact hneg hfd'
    · rw [Function.update_of_ne hne]
      exact h.negative fd' hfd'
  closed hopen := by
    refine ⟨(h.closed hopen).1, fun fd' => ?_⟩
    change Function.update p.list fd e fd' = none
    by_cases hne : fd' = fd
    · subst hne
      rw [Function.update_self]
      exact hclosed hopen
    · rw [Function.update_of_ne hne]
      exact (h.closed hopen).2 fd'

/-- The end of `Add` and of `Modify`. -/
lemma ctl (h : Implements p s) {fd : Int} {id : ConnectionId} (interest : Interest) (ok : Bool)
    (hid : id.valid = true) (hfd : p.fds.wakeFd.map Int.ofNat ≠ some fd)
    (hok : ok = true → usable p fd = true) :
    ∃ s', Spec.Step s (.set fd id interest ok) s' ∧
      Implements (if ok then Epoll.setEntry p fd (some ⟨toEpollEvents interest, id.toUint64⟩)
        else p) s' := by
  cases ok with
  | false => exact ⟨s, .refused fd id interest, h⟩
  | true =>
    have husable := hok rfl
    simp only [usable, Bool.and_eq_true, decide_eq_true_eq] at husable
    have hopen : s.opened = true := h.opened.symm.trans husable.1
    refine ⟨_, .set fd id interest hopen, h.setEntry hfd (.watched id interest hid) ?_ ?_⟩
    · exact fun hneg => absurd husable.2 (not_le.mpr hneg)
    · rw [hopen]
      exact fun hfalse => Bool.noConfusion hfalse

lemma init (h : Implements p s) (a : Library.Answers) :
    ∃ s', Spec.Step s (.init (Epoll.init p a).1) s' ∧ Implements (Epoll.init p a).2 s' := by
  cases hopen : s.opened with
  | true =>
    have hpoll : p.fds.pollFd.isSome = true := h.opened.trans hopen
    have hinit : p.fds.init a = (.returned none, p.fds) := if_pos hpoll
    refine ⟨s, ?_, ?_⟩
    · simp only [Epoll.init, hinit, ne_eq, not_true, decide_false]
      exact .initAgain hopen
    · simpa only [Epoll.init, hinit, hpoll, if_true] using h
  | false =>
    obtain ⟨fds, list, counter⟩ := p
    obtain rfl : fds = {} := h.fds_eq hopen
    rcases init_fds a with ⟨pollFd, wakeFd, hinit⟩ | hinit
    · refine ⟨{ opened := true }, ?_, ?_⟩
      · simp only [Epoll.init, hinit, ne_eq, not_true, decide_false]
        exact .init hopen
      · simp only [Epoll.init, hinit, Option.isSome_none, Bool.false_eq_true, if_false]
        refine ⟨rfl, rfl, rfl, ?_, ?_, ?_, ?_⟩
        · intro w hw
          obtain rfl : wakeFd = w := Option.some.inj hw
          simp
        · intro fd hfd
          have hne : fd ≠ wakeFd := by
            rintro rfl
            exact hfd rfl
          simp only [Function.update_of_ne hne]
          exact .absent
        · intro fd hfd
          have hne : fd ≠ wakeFd := by omega
          simp only [Function.update_of_ne hne]
        · exact fun hfalse => Bool.noConfusion hfalse
    · obtain ⟨hcounter, hlist⟩ := h.closed hopen
      have hp : (Epoll.init ⟨{}, list, counter⟩ a).2 = ⟨{}, list, counter⟩ := by
        obtain rfl : counter = 0 := hcounter
        obtain rfl : list = fun _ => none := funext hlist
        simp [Epoll.init, hinit]
      refine ⟨s, .initFailed hopen _, ?_⟩
      rwa [hp]

lemma remove (h : Implements p s) {fd : Int} (hfd : p.fds.wakeFd.map Int.ofNat ≠ some fd) :
    Implements (Epoll.remove p fd) (s.put fd .absent) := by
  have hset : Implements (Epoll.setEntry p fd none) (s.put fd .absent) :=
    h.setEntry hfd .absent (fun _ => rfl) (fun _ => rfl)
  -- without a list, or for an invalid descriptor, there is nothing to remove
  have hsame : p.list fd = none → Epoll.setEntry p fd none = p := by
    intro hnone
    rw [Epoll.setEntry, ← hnone, Function.update_eq_self]
  unfold Epoll.remove epollCtlDel
  split_ifs with hinvalid husable
  · rwa [hsame] at hset
    rcases hinvalid with hneg | hclosed
    · exact h.negative fd hneg
    · refine (h.closed ?_).2 fd
      rw [← h.opened, Option.isSome_eq_false_iff]
      exact hclosed
  · exact hset
  · exact absurd husable (by simp_all [usable])

lemma wakeUp (h : Implements p s) : Implements (Epoll.wake p) { s with wake := s.opened } := by
  unfold Epoll.wake
  split_ifs with hclosed
  · have hopen : s.opened = false := by
      rw [← h.opened, ← h.both, Option.isSome_eq_false_iff]
      exact hclosed
    refine ⟨h.opened, h.both, ?_, h.wakeEntry, h.entries, h.negative, h.closed⟩
    rw [(h.closed hopen).1, hopen]
    rfl
  · have hopen : s.opened = true := by
      rw [← h.opened, ← h.both, Option.isSome_iff_ne_none]
      simpa using hclosed
    refine ⟨h.opened, h.both, ?_, h.wakeEntry, h.entries, h.negative, ?_⟩
    · rw [hopen]
      exact decide_eq_true (writeEventfd_pos p.counter)
    · intro hfalse
      rw [hopen] at hfalse
      cases hfalse

/-- An event the kernel gives: the wake descriptor with data `0`, or a watched descriptor. -/
lemma filled (h : Implements p s) {ev : Int × UInt32} (hev : reportable p ev = true) :
    ∃ e, Epoll.filled p ev = some e ∧
      ((e.data = 0 ∧ p.fds.wakeFd.map Int.ofNat = some ev.1) ∨
        (e.data ≠ 0 ∧ (s.watch ev.1).Allows (report e))) := by
  unfold reportable at hev
  cases hlist : p.list ev.1 with
  | none => simp [hlist] at hev
  | some e =>
    simp only [hlist, Bool.and_eq_true, bne_iff_ne, ne_eq, decide_eq_true_eq] at hev
    obtain ⟨hne, hwithin⟩ := hev
    refine ⟨⟨ev.2, e.data⟩, by simp [Epoll.filled, hlist], ?_⟩
    by_cases hwake : p.fds.wakeFd.map Int.ofNat = some ev.1
    · obtain ⟨w, hw, hfd⟩ := Option.map_eq_some_iff.mp hwake
      have he := h.wakeEntry w hw
      rw [show (w : Int) = ev.1 from hfd, hlist] at he
      obtain rfl : e = wakeEvent := Option.some.inj he
      exact Or.inl ⟨rfl, hwake⟩
    · have hentry := h.entries ev.1 hwake
      rw [hlist] at hentry
      generalize s.watch ev.1 = watch at hentry
      cases hentry with
      | watched id interest hid =>
        refine Or.inr ⟨ConnectionId.toUint64_ne_zero hid, ?_, report_nonempty hwithin hne, ?_⟩
        · simp [report, Watch.ids]
        · rintro _ _ ⟨⟩
          exact report_writable hwithin

section ready

variable {evs : List (Int × UInt32)}

/-- The kernel reports on the wake descriptor, if there is a wake-up, or on a watched one. -/
lemma mem_filled (h : Implements p s) (hevs : ∀ ev ∈ evs, reportable p ev = true)
    (hfits : wakeFits p evs = true) {e : EpollEvent} (he : e ∈ evs.filterMap (Epoll.filled p)) :
    (e.data = 0 ∧ s.wake = true) ∨ (e.data ≠ 0 ∧ ∃ fd, (s.watch fd).Allows (report e)) := by
  obtain ⟨ev, hev, hfilled⟩ := List.mem_filterMap.mp he
  obtain ⟨e', hfilled', hcase⟩ := h.filled (hevs ev hev)
  obtain rfl : e = e' := Option.some.inj (hfilled.symm.trans hfilled')
  rcases hcase with ⟨hzero, hwake⟩ | ⟨hne, hallows⟩
  · refine Or.inl ⟨hzero, ?_⟩
    obtain ⟨w, hw, hfd⟩ := Option.map_eq_some_iff.mp hwake
    have hmem : (w : Int) ∈ evs.map Prod.fst := by
      rw [show (w : Int) = ev.1 from hfd]
      exact List.mem_map_of_mem hev
    rw [← h.wake, decide_eq_true_eq, Nat.pos_iff_ne_zero]
    intro hcounter
    simp only [wakeFits, hw, Option.all_some, hcounter, if_true, Bool.not_eq_true',
      List.contains_eq_mem, decide_eq_false_iff_not] at hfits
    exact hfits hmem
  · exact Or.inr ⟨hne, ev.1, hallows⟩

lemma filled_ne_nil (h : Implements p s) {ev : Int × UInt32}
    (hevs : ∀ ev' ∈ ev :: evs, reportable p ev' = true) :
    (ev :: evs).filterMap (Epoll.filled p) ≠ [] := by
  obtain ⟨e, hfilled, -⟩ := h.filled (hevs ev List.mem_cons_self)
  exact List.ne_nil_of_mem (List.mem_filterMap.mpr ⟨ev, List.mem_cons_self, hfilled⟩)

/-- `epoll_wait` times out only without a wake-up. -/
lemma wake_of_timeout (h : Implements p s) (hopen : s.opened = true)
    (hfits : wakeFits p [] = true) : s.wake = false := by
  obtain ⟨w, hw⟩ : ∃ w, p.fds.wakeFd = some w := by
    rw [← Option.isSome_iff_exists, h.both, h.opened, hopen]
  rw [← h.wake, decide_eq_false_iff_not, Nat.not_lt, Nat.le_zero]
  by_contra hne
  simp [wakeFits, hw, hne] at hfits

/-- The counter that `Wait` leaves. -/
lemma setCounter (h : Implements p s) (woken : Bool) :
    Implements { p with counter := if woken then 0 else p.counter }
      { s with wake := s.wake && !woken } where
  opened := h.opened
  both := h.both
  wake := by
    cases woken with
    | true => simp
    | false => simpa using h.wake
  wakeEntry := h.wakeEntry
  entries := h.entries
  negative := h.negative
  closed hopen := by
    refine ⟨?_, (h.closed hopen).2⟩
    cases woken with
    | true => rfl
    | false => exact (h.closed hopen).1

end ready

lemma wait (h : Implements p s) {answer : WaitAnswer} (hfits : answer.fits p = true) :
    ∃ s', Spec.Step s (.wait (Epoll.wait p answer).1) s' ∧
      Implements (Epoll.wait p answer).2 s' := by
  unfold Epoll.wait
  split_ifs with hclosed
  · refine ⟨s, .waitClosed ?_, h⟩
    rw [← h.opened, Option.isSome_eq_false_iff]
    exact hclosed
  cases answer with
  | failed errno =>
    dsimp only
    split_ifs
    · exact ⟨s, .waitInterrupted, h⟩
    · exact ⟨s, .waitFailed, h⟩
  | ready evs =>
    simp only [WaitAnswer.fits, Bool.and_eq_true, List.all_eq_true] at hfits
    obtain ⟨⟨-, hevs⟩, hwake⟩ := hfits
    simp only [waitLoop_eq]
    cases evs with
    | nil =>
      have hopen : s.opened = true := by
        rw [← h.opened, Option.isSome_iff_ne_none]
        simpa using hclosed
      exact ⟨s, .timeout hopen (h.wake_of_timeout hopen hwake), h⟩
    | cons ev evs =>
      refine ⟨_, .ready (fun e : EpollEvent => e.data == 0) report (h.filled_ne_nil hevs) ?_ ?_,
        h.setCounter _⟩
      · intro e he hdata
        exact ((h.mem_filled hevs hwake he).resolve_right fun hne =>
          hne.1 (beq_iff_eq.mp hdata)).2
      · intro e he hdata
        exact ((h.mem_filled hevs hwake he).resolve_left fun hzero =>
          beq_eq_false_iff_ne.mp hdata hzero.1).2

end Implements

/-- Every step of the poller is one that the specification allows. -/
theorem step_implements {l : Label} (h : Implements p s) (hok : Ok p l)
    (hstep : step p l = some p') :
    ∃ s', Spec.Step s (observe p l) s' ∧ Implements p' s' := by
  cases l with
  | init a =>
    obtain rfl := Option.some.inj hstep
    exact h.init a
  | shutdown =>
    obtain rfl := Option.some.inj hstep
    exact ⟨{}, .shutdown, implements_init⟩
  | add fd id interest ok =>
    obtain rfl := Option.some.inj hstep
    obtain ⟨hid, hfd⟩ := hok
    have hctl := h.ctl interest (usable p fd && (p.list fd).isNone && ok) hid hfd fun hok => by
      simp only [Bool.and_eq_true] at hok
      exact hok.1.1
    simpa only [observe, add, epollCtlAdd, apply_ite Prod.fst, apply_ite Prod.snd,
      Bool.if_false_right, Bool.and_true, Bool.decide_eq_true] using hctl
  | modify fd id interest ok =>
    obtain rfl := Option.some.inj hstep
    obtain ⟨hid, hfd⟩ := hok
    have hctl := h.ctl interest (usable p fd && (p.list fd).isSome && ok) hid hfd fun hok => by
      simp only [Bool.and_eq_true] at hok
      exact hok.1.1
    simpa only [observe, modify, epollCtlMod, apply_ite Prod.fst, apply_ite Prod.snd,
      Bool.if_false_right, Bool.and_true, Bool.decide_eq_true] using hctl
  | remove fd =>
    obtain rfl := Option.some.inj hstep
    exact ⟨_, .remove fd, h.remove hok⟩
  | close fd =>
    obtain rfl := Option.some.inj hstep
    exact ⟨_, .close fd, h.setEntry hok .absent (fun _ => rfl) (fun _ => rfl)⟩
  | wake =>
    obtain rfl := Option.some.inj hstep
    exact ⟨_, .wake, h.wakeUp⟩
  | wait answer =>
    obtain ⟨hfits, heq⟩ := Option.ite_none_right_eq_some.mp hstep
    obtain rfl := Option.some.inj heq
    exact h.wait hfits

/-- Every run is followed by the specification. -/
lemma follows_of_exec {ls : List Label} (hexec : Run.exec step {} ls = some p)
    (hok : Run.Meets step Ok {} ls) :
    ∃ s, Run.Follows Spec.Step {} (Run.observe step observe {} ls) s ∧ Implements p s :=
  Run.follows_of_exec Ok (fun _ _ _ _ h hok hstep => step_implements h hok hstep) hexec hok
    implements_init

end simulation

end Connx.Poll.Epoll
