import Connx.Net.Lifecycle.Steps

/-!
# Runs that keep the order of waiting

A callback that waits for another worker, or that goes on calling after it has released its own
client, can close a cycle. `State.allows` excludes just these two; everything else may interleave.
-/

namespace Connx.Lifecycle

open Pool WaitGraph Run

variable {S S' : State} {t u : Thread} {b k w : Nat} {c : Call} {C : Client} {pc : CallPc}

/-! ### The condition -/

/-- The thread is in the idle wait of `CloseFromOwner`. -/
def State.awaitsIdle (S : State) (t : Thread) : Bool :=
  S.calls.any fun c => c.thread = t && match c.pc with | .idleWait _ => true | _ => false

/-- The callback, if it is one, has not released its own client. -/
def State.isFresh (S : State) (t : Thread) : Bool :=
  (S.draining t).all fun a => S.clients[a]?.all fun A => !A.selfClosed

/-- A callback releases its own client, or one on another worker that is not in an idle wait. -/
def State.mayAwait (S : State) (t : Thread) (b : Nat) : Bool :=
  match t with
  | .worker w => S.draining t = some b ||
      S.clients[b]?.all fun C => C.worker ≠ w && !S.awaitsIdle (.worker C.worker)
  | _ => true

def State.allows (S : State) : Label → Bool
  | .create t => S.isFresh t
  | .release t b => S.isFresh t && S.mayAwait t b
  | _ => true

/-! ### A call begins -/

lemma State.ne_poll_of_mayCall (h : S.mayCall t = true) : t ≠ .poll := by
  rintro rfl
  simp [State.mayCall] at h

lemma State.not_busy_of_mayCall (h : S.mayCall t = true) (hc : c ∈ S.calls) (ht : c.thread = t) :
    c.pc = .done := by
  have hbusy : S.isBusy t = false := by
    cases t <;> simp_all [State.mayCall]
  simpa [State.isBusy, ht] using (List.any_eq_false.mp hbusy) c hc

lemma total_modify {f : Client → Client} (hf : ∀ C, (f C).counted = C.counted)
    (clients : List Client) :
    total Client.weight (clients.modify b f) = total Client.weight clients := by
  cases hC : clients[b]? with
  | none => rw [List.modify_eq_self (by simpa using hC)]
  | some C =>
    have hset := total_set (f := Client.weight) (q := f C) hC
    rw [modify_eq_set hC]
    simp only [Client.weight, hf] at hset
    omega

namespace State.Counting

variable (hS : S.Counting) (hcount : S'.count = S.count) (hholder : S'.holder = S.holder)
  (hclients : total Client.weight S'.clients = total Client.weight S.clients)
include hS hcount hholder hclients

lemma of_eq (hcalls : S'.calls = S.calls) : S'.Counting where
  count := by rw [hcount, hclients, hcalls, hS.count]
  single := hcalls ▸ hS.single
  poll := hcalls ▸ hS.poll
  holds := by rw [hcalls, hholder]; exact hS.holds
  holder := by rw [hcalls, hholder]; exact hS.holder
  starts := by rw [hcalls, hcount]; exact hS.starts
  stops := by rw [hcalls, hcount]; exact hS.stops

lemma snoc (hmay : S.mayCall t = true) (hcalls : S'.calls = S.calls ++ [⟨t, pc⟩])
    (hholds : pc.holds = false) (hweight : pc.weight = 0) : S'.Counting := by
  have hnew {P : Prop} (h : pc.holds = true) : P := by simp [hholds] at h
  have hmem {d : Call} (hd : d ∈ S'.calls) : d ∈ S.calls ∨ d = ⟨t, pc⟩ := by
    simpa [hcalls] using hd
  refine ⟨?_, ?_, ?_, ?_, ?_, ?_, ?_⟩
  · rw [hcount, hclients, hcalls, total_snoc, Call.weight, hweight, Nat.add_zero, hS.count]
  · rw [hcalls]
    intro i j d e hi hj hthread hd he
    obtain hi | ⟨rfl, rfl⟩ := getElem?_snoc hi
    · obtain hj | ⟨-, rfl⟩ := getElem?_snoc hj
      · exact hS.single i j d e hi hj hthread hd he
      · exact absurd (State.not_busy_of_mayCall hmay (List.mem_of_getElem? hi) hthread) hd
    · obtain hj | ⟨rfl, -⟩ := getElem?_snoc hj
      · exact absurd (State.not_busy_of_mayCall hmay (List.mem_of_getElem? hj) hthread.symm) he
      · rfl
  · intro d hd
    obtain hd | rfl := hmem hd
    · exact hS.poll d hd
    · exact State.ne_poll_of_mayCall hmay
  · intro d hd hd'
    obtain hd | rfl := hmem hd
    · exact hholder.trans (hS.holds d hd hd')
    · exact hnew hd'
  · intro u hu
    obtain ⟨d, hd, hd'⟩ := hS.holder u (hholder.symm.trans hu)
    exact ⟨d, by simp [hcalls, hd], hd'⟩
  · intro d hd hd'
    obtain hd | rfl := hmem hd
    · exact hcount.trans (hS.starts d hd hd')
    · exact hnew (CallPc.holds_of_starts hd')
  · intro d hd hd'
    obtain hd | rfl := hmem hd
    · exact hcount.trans (hS.stops d hd hd')
    · exact hnew (CallPc.holds_of_stops hd')

end State.Counting

/-- A call begins that releases a client nobody else releases, or none. -/
lemma State.Clients.snoc (hS : S.Clients) (hcalls : S'.calls = S.calls ++ [⟨t, pc⟩])
    (hpins : S.Pins S') (hdraining : ∀ u, S'.draining u = S.draining u)
    (hback : ∀ (b : Nat) (C' : Client), S'.clients[b]? = some C' → ∃ C, S.clients[b]? = some C)
    (hkeeps : ∀ b, pc.releases ≠ some b → S.Keeps S' b)
    (hopen : ∀ (b : Nat) (C : Client), pc.releases = some b → S.clients[b]? = some C →
      C.closing = false)
    (hreleasing : S'.Releasing pc) (hinside : S'.Inside ⟨t, pc⟩)
    (hothers : ∀ c ∈ S.calls, c.pc ≠ .done → S.Inside c → S'.Inside c) : S'.Clients := by
  have hmem {d : Call} (hd : d ∈ S'.calls) : d ∈ S.calls ∨ d = ⟨t, pc⟩ := by
    simpa [hcalls] using hd
  have hnew {d : Call} {b : Nat} (hd : d ∈ S.calls) (hb : d.pc.releases = some b) :
      pc.releases ≠ some b := by
    intro hpc
    obtain ⟨C, hC, ⟨-, hclosing⟩, -⟩ := hS.releasing d hd b hb
    simp [hopen b C hpc hC] at hclosing
  refine ⟨?_, ?_, ?_, ?_, ?_⟩
  · intro d hd
    obtain hd | rfl := hmem hd
    · exact State.Keeps.releasing (fun b hb => hkeeps b (hnew hd hb)) (hS.releasing d hd)
    · exact hreleasing
  · rw [hcalls]
    intro i j d e b hi hj hd he
    obtain hi | ⟨rfl, rfl⟩ := getElem?_snoc hi
    · obtain hj | ⟨-, rfl⟩ := getElem?_snoc hj
      · exact hS.sole i j d e b hi hj hd he
      · exact absurd he (hnew (List.mem_of_getElem? hi) hd)
    · obtain hj | ⟨rfl, -⟩ := getElem?_snoc hj
      · exact absurd hd (hnew (List.mem_of_getElem? hj) he)
      · rfl
  · intro b C' hC' hcounted
    obtain ⟨C, hC⟩ := hback b C' hC'
    by_cases hpc : pc.releases = some b
    · obtain ⟨C'', hC'', ⟨hcounted', -⟩, -⟩ := hreleasing b hpc
      obtain rfl : C' = C'' := Option.some.inj (hC'.symm.trans hC'')
      simp [hcounted] at hcounted'
    · exact (hkeeps b hpc).gone hS hC hC' hcounted
  · intro w a ha
    exact hpins.drains hS ((hdraining _).symm.trans ha)
  · intro d hd hdone
    obtain hd | rfl := hmem hd
    · exact hothers d hd hdone (hS.inside d hd hdone)
    · exact hinside

lemma State.Keeps.refl (hclients : S'.clients = S.clients) (hworkers : S'.workers = S.workers)
    (b : Nat) : S.Keeps S' b :=
  .of_eq (by rw [hclients]) (by simp only [State.drained, hworkers])

lemma State.Inv.create (hS : S.Inv) (hmay : S.mayCall t = true) (hfresh : S.isFresh t = true) :
    State.Inv { S with calls := S.calls ++ [⟨t, .initLock⟩] } := by
  have hclients : State.Clients { S with calls := S.calls ++ [⟨t, .initLock⟩] } := by
    refine hS.toClients.snoc rfl (fun b C hC => ⟨C, hC, rfl⟩) (fun _ => rfl) (fun b C hC => ⟨C, hC⟩)
      (fun b _ => .refl rfl rfl b) nofun nofun ?_ fun c _ _ hc => hc
    rintro w rfl
    obtain ⟨a, ha⟩ := Option.isSome_iff_exists.mp (Bool.and_eq_true_iff.mp hmay).2
    obtain ⟨A, hA, -⟩ := hS.drains w a ha
    refine ⟨a, A, ha, hA, .inl ?_⟩
    simpa [State.isFresh, ha, hA] using hfresh
  refine ⟨hS.toCounting.snoc rfl rfl rfl hmay rfl rfl rfl, hclients, hS.acyclic.mono ?_⟩
  rintro u v ⟨c, hc, rfl, b, C, hpc, hC⟩
  obtain hc | rfl := List.mem_append.mp hc |>.imp_right List.mem_singleton.mp
  · exact ⟨c, hc, rfl, b, C, hpc, hC⟩
  · cases hpc

/-! ### Releasing -/

section client

variable {f : Client → Client}

lemma getElem?_modify_cases {clients : List Client} {a : Nat} {C' : Client}
    (hC' : (clients.modify b f)[a]? = some C') :
    ∃ C, clients[a]? = some C ∧ (a = b ∧ C' = f C ∨ a ≠ b ∧ C' = C) := by
  simp only [List.getElem?_modify, Option.map_eq_map, Option.map_eq_some_iff] at hC'
  obtain ⟨C, hC, rfl⟩ := hC'
  refine ⟨C, hC, ?_⟩
  split_ifs with hab
  · exact .inl ⟨hab.symm, rfl⟩
  · exact .inr ⟨fun heq => hab heq.symm, rfl⟩

lemma State.pins_modify (hclients : S'.clients = S.clients.modify b f)
    (hf : ∀ C, (f C).worker = C.worker) : S.Pins S' := by
  intro a C hC
  rw [hclients]
  by_cases hab : b = a
  · obtain rfl := hab
    exact ⟨f C, getElem?_modify_self hC, hf C⟩
  · exact ⟨C, (getElem?_modify_ne hab).trans hC, rfl⟩

lemma State.Keeps.modify_ne {a : Nat} (hclients : S'.clients = S.clients.modify b f)
    (hworkers : S'.workers = S.workers) (hne : b ≠ a) : S.Keeps S' a :=
  .of_eq (by rw [hclients, getElem?_modify_ne hne]) (by simp only [State.drained, hworkers])

lemma State.draining_of_eq (hworkers : S'.workers = S.workers) (t : Thread) :
    S'.draining t = S.draining t := by
  cases t <;> simp only [State.draining, hworkers]

/-- A client that is not closing is counted. -/
lemma State.Clients.counted (hS : S.Clients) (hC : S.clients[b]? = some C)
    (hopen : C.closing = false) : C.counted = true := by
  by_contra hcounted
  obtain ⟨hclosing, -⟩ := hS.gone b C hC (by simpa using hcounted)
  simp [hopen] at hclosing

/-- The release of a client that is not closing: only the client itself and the new call change. -/
lemma State.Clients.release (hS : S.Clients) (hC : S.clients[b]? = some C)
    (hopen : C.closing = false) (hclients : S'.clients = S.clients.modify b f)
    (hworkers : S'.workers = S.workers) (hcalls : S'.calls = S.calls ++ [⟨t, pc⟩])
    (hf : ∀ C, (f C).worker = C.worker) (hcounted : ∀ C, (f C).counted = C.counted)
    (hclosing : (f C).closing = true) (hpc : pc.releases = some b)
    (hwait : pc = .idleWait b ∨ S'.Quiet b (f C)) (hinside : S'.Inside ⟨t, pc⟩)
    (hothers : ∀ c ∈ S.calls, c.pc ≠ .done → S.Inside c → S'.Inside c) : S'.Clients := by
  refine hS.snoc hcalls (State.pins_modify hclients hf) (State.draining_of_eq hworkers) ?_ ?_ ?_ ?_
    hinside hothers
  · intro a C' hC'
    rw [hclients] at hC'
    obtain ⟨C₀, hC₀, -⟩ := getElem?_modify_cases hC'
    exact ⟨C₀, hC₀⟩
  · intro a ha
    refine .modify_ne hclients hworkers ?_
    rintro rfl
    exact ha hpc
  · intro a A ha hA
    obtain rfl := Option.some.inj (hpc.symm.trans ha)
    obtain rfl : A = C := Option.some.inj (hA.symm.trans hC)
    exact hopen
  · intro a ha
    obtain rfl := Option.some.inj (hpc.symm.trans ha)
    refine ⟨f C, by rw [hclients]; exact getElem?_modify_self hC, ⟨?_, hclosing⟩, hwait⟩
    exact (hcounted C).trans (hS.counted hC hopen)

end client

/-- The worker is told by the client it drains. -/
lemma State.Clients.draining_inj (hS : S.Clients) (ht : S.draining t = some b)
    (hu : S.draining u = some b) : t = u := by
  cases t with
  | app | poll => simp [State.draining] at ht
  | worker w =>
    cases u with
    | app | poll => simp [State.draining] at hu
    | worker w' =>
      obtain ⟨C, hC, rfl⟩ := hS.drains w b ht
      obtain ⟨C', hC', rfl⟩ := hS.drains w' b hu
      obtain rfl : C = C' := Option.some.inj (hC.symm.trans hC')
      rfl

section release

variable (hS : S.Inv) (hmay : S.mayCall t = true) (hC : S.clients[b]? = some C)
  (hopen : C.closing = false)
include hS hmay hC hopen

/-- A callback releases the client it runs in. -/
lemma State.Inv.releaseSelf (hself : S.draining t = some b) :
    State.Inv { S.setClient b ({ · with closing := true, work := false, selfClosed := true }) with
      calls := S.calls ++ [⟨t, .shutLock b⟩] } := by
  have hpins : S.Pins (S.setClient b
      ({ · with closing := true, work := false, selfClosed := true })) :=
    State.pins_modify rfl fun _ => rfl
  refine ⟨hS.toCounting.snoc rfl rfl (total_modify (by intro C; rfl) _) hmay rfl rfl rfl,
    hS.toClients.release hC hopen rfl rfl rfl (fun _ => rfl) (fun _ => rfl) rfl rfl
      (.inr ⟨rfl, .inl rfl⟩) ?_ ?_, hS.acyclic.mono ?_⟩
  · rintro w rfl
    exact ⟨b, _, hself, getElem?_modify_self hC, .inr (.inl rfl)⟩
  · intro c hc hdone hinside
    refine hinside.of_eq (State.draining_of_eq rfl _) fun a A ha hA => ?_
    -- no other call runs inside the drain of this client
    have hab : b ≠ a := by
      rintro rfl
      have hthread : c.thread = t := hS.toClients.draining_inj ha hself
      exact hdone (State.not_busy_of_mayCall hmay hc hthread)
    exact ⟨A, (getElem?_modify_ne hab).trans hA, rfl⟩
  · rintro u v ⟨c, hc, rfl, a, A, hpc, hA, rfl⟩
    obtain hc | rfl := List.mem_append.mp hc |>.imp_right List.mem_singleton.mp
    · exact hpins.awaits hS.toClients hc hpc hA
    · cases hpc

/-- Anybody else waits for the worker of the client. -/
lemma State.Inv.releaseOther (hfresh : S.isFresh t = true) (hawait : S.mayAwait t b = true)
    (hself : S.draining t ≠ some b) :
    State.Inv { S.setClient b ({ · with closing := true, work := true }) with
      calls := S.calls ++ [⟨t, .idleWait b⟩] } := by
  have hpins : S.Pins (S.setClient b ({ · with closing := true, work := true })) :=
    State.pins_modify rfl fun _ => rfl
  have hsame (a : Nat) (A : Client) (hA : S.clients[a]? = some A) :
      ∃ A', (S.clients.modify b ({ · with closing := true, work := true }))[a]? = some A' ∧
        A'.selfClosed = A.selfClosed := by
    by_cases hab : b = a
    · obtain rfl := hab
      exact ⟨_, getElem?_modify_self hA, rfl⟩
    · exact ⟨A, (getElem?_modify_ne hab).trans hA, rfl⟩
  refine ⟨hS.toCounting.snoc rfl rfl (total_modify (by intro C; rfl) _) hmay rfl rfl rfl,
    hS.toClients.release hC hopen rfl rfl rfl (fun _ => rfl) (fun _ => rfl) rfl rfl
      (.inl rfl) ?_ ?_, ?_⟩
  · rintro w rfl
    obtain ⟨a, ha⟩ := Option.isSome_iff_exists.mp (Bool.and_eq_true_iff.mp hmay).2
    obtain ⟨A, hA, -⟩ := hS.drains w a ha
    obtain ⟨A', hA', hself'⟩ := hsame a A hA
    refine ⟨a, A', ha, hA', .inl (hself'.trans ?_)⟩
    simpa [State.isFresh, ha, hA] using hfresh
  · intro c hc hdone hinside
    exact hinside.of_eq (State.draining_of_eq rfl _) fun a A _ hA => hsame a A hA
  · -- the only new edge leads to a worker from which no path leads back
    have hpath : ¬ Relation.ReflTransGen S.Awaits (.worker C.worker) t := by
      cases t with
      | poll => simp [State.mayCall] at hmay
      | app i =>
        refine not_path_of_not_awaited nofun ?_
        rintro u ⟨c, -, -, a, A, -, -, h⟩
        cases h
      | worker w =>
        simp only [State.mayAwait, hself, decide_false, Bool.false_or, hC, Option.all_some,
          Bool.and_eq_true, decide_eq_true_eq] at hawait
        refine not_path_of_not_waiting (fun h => hawait.1 (Thread.worker.inj h)) ?_
        rintro u ⟨c, hc, hthread, a, A, hpc, -⟩
        have hidle := hawait.2
        simp only [State.awaitsIdle, Bool.not_eq_true', List.any_eq_false] at hidle
        exact hidle c hc (by simp [hthread, hpc])
    refine (hS.acyclic.insert hpath).mono ?_
    rintro u v ⟨c, hc, rfl, a, A, hpc, hA, rfl⟩
    obtain hc | rfl := List.mem_append.mp hc |>.imp_right List.mem_singleton.mp
    · exact .inl (hpins.awaits hS.toClients hc hpc hA)
    · obtain rfl := CallPc.idleWait.inj hpc
      obtain ⟨A', hA', hworker⟩ := hpins b C hC
      obtain rfl : A = A' := Option.some.inj (hA.symm.trans hA')
      exact .inr ⟨rfl, by rw [hworker]⟩

end release

/-! ### Workers -/

/-- The calls stay where they are. -/
lemma State.Inv.frame (hS : S.Inv) (hcount : S'.count = S.count) (hholder : S'.holder = S.holder)
    (htotal : total Client.weight S'.clients = total Client.weight S.clients)
    (hcalls : S'.calls = S.calls) (hpins : S.Pins S')
    (hback : ∀ (b : Nat) (C' : Client), S'.clients[b]? = some C' → ∃ C, S.clients[b]? = some C)
    (hkeeps : ∀ b, S.Keeps S' b)
    (hdrains : ∀ (w a : Nat), S'.draining (.worker w) = some a →
      S.draining (.worker w) = some a ∨ ∃ C, S.clients[a]? = some C ∧ C.worker = w)
    (hcallers : ∀ c ∈ S.calls, c.pc ≠ .done → S'.draining c.thread = S.draining c.thread) :
    S'.Inv := by
  refine ⟨hS.toCounting.of_eq hcount hholder htotal hcalls, ⟨?_, ?_, ?_, ?_, ?_⟩,
    hS.acyclic.mono ?_⟩
  · rw [hcalls]
    exact fun c hc => State.Keeps.releasing (fun b _ => hkeeps b) (hS.releasing c hc)
  · rw [hcalls]
    exact hS.sole
  · intro b C' hC' hcounted
    obtain ⟨C, hC⟩ := hback b C' hC'
    exact (hkeeps b).gone hS.toClients hC hC' hcounted
  · intro w a ha
    obtain hold | ⟨C, hC, hworker⟩ := hdrains w a ha
    · exact hpins.drains hS.toClients hold
    · obtain ⟨C', hC', hworker'⟩ := hpins a C hC
      exact ⟨C', hC', hworker'.trans hworker⟩
  · rw [hcalls]
    intro c hc hdone
    refine (hS.inside c hc hdone).of_eq (hcallers c hc hdone) fun a A _ hA => ?_
    obtain ⟨A', hA', -, hself, -⟩ := hkeeps a A hA
    exact ⟨A', hA', hself⟩
  · rintro u v ⟨c, hc, rfl, b, C, hpc, hC, rfl⟩
    exact hpins.awaits hS.toClients (hcalls ▸ hc) hpc hC

lemma State.drained_iff : S.drained b = true ↔ ∃ w, S.draining (.worker w) = some b := by
  simp only [State.drained, List.any_eq_true, List.mem_iff_getElem?, decide_eq_true_eq,
    State.draining, Option.bind_eq_some_iff]
  constructor
  · rintro ⟨W, ⟨w, hW⟩, hb⟩
    exact ⟨w, W, hW, hb⟩
  · rintro ⟨w, W, hW, hb⟩
    exact ⟨W, ⟨w, hW⟩, hb⟩

lemma State.Quiet.of_drains {C' : Client} (h : S.Quiet b C)
    (hwork : C.work = false → C'.work = false)
    (hself : C'.selfClosed = C.selfClosed)
    (hdrains : ∀ w, S'.draining (.worker w) = some b → S.draining (.worker w) = some b) :
    S'.Quiet b C' := by
  refine ⟨hwork h.1, h.2.imp (fun hclosed => hself.trans hclosed) fun hdrained => ?_⟩
  by_contra hdrained'
  obtain ⟨w, hw⟩ := State.drained_iff.mp (by simpa using hdrained')
  exact State.not_drained (hdrains w hw) hdrained

section worker

variable {f : Worker → Worker} {W : Worker}

lemma State.draining_setWorker_self (hworkers : S'.workers = S.workers.modify w f)
    (hW : S.workers[w]? = some W) : S'.draining (.worker w) = (f W).drains := by
  simp [State.draining, hworkers, hW]

lemma State.draining_setWorker_ne (hworkers : S'.workers = S.workers.modify w f)
    (hne : t ≠ .worker w) : S'.draining t = S.draining t := by
  cases t with
  | app | poll => rfl
  | worker w' =>
    have hne' : w ≠ w' := fun heq => hne (by rw [heq])
    simp [State.draining, hworkers, hne']

end worker

section other

variable (hS : S.Inv)
include hS

lemma State.Inv.post (hopen : S.isOpen b = true) :
    (S.setClient b ({ · with work := true })).Inv := by
  refine hS.frame rfl rfl (total_modify (by intro C; rfl) _) rfl
    (State.pins_modify rfl fun _ => rfl) ?_ ?_ (fun w a ha => .inl ha) fun _ _ _ => rfl
  · intro a C' hC'
    obtain ⟨C, hC, -⟩ := getElem?_modify_cases hC'
    exact ⟨C, hC⟩
  · intro a
    by_cases hab : b = a
    · obtain rfl := hab
      intro C hC
      refine ⟨_, getElem?_modify_self hC, rfl, rfl, fun hclosing => ?_⟩
      simp [State.isOpen, hC, hclosing] at hopen
    · exact .modify_ne rfl rfl hab

lemma State.Inv.drain {W : Worker} (hW : S.workers[w]? = some W) (hidle : W.drains = none)
    (hC : S.clients[b]? = some C) (hworker : C.worker = w) (hwork : C.work = true) :
    (S.setWorker w ({ · with drains := some b })).Inv := by
  have hself : (S.setWorker w ({ · with drains := some b })).draining (.worker w) = some b := by
    rw [State.draining_setWorker_self (S := S) rfl hW]
  have hne {t : Thread} (ht : t ≠ .worker w) :
      (S.setWorker w ({ · with drains := some b })).draining t = S.draining t :=
    State.draining_setWorker_ne rfl ht
  refine hS.frame rfl rfl rfl rfl (fun a A hA => ⟨A, hA, rfl⟩) (fun a A hA => ⟨A, hA⟩) ?_ ?_ ?_
  · intro a A hA
    refine ⟨A, hA, rfl, rfl, fun hclosing => ⟨hclosing, fun hquiet => ?_⟩⟩
    have hab : b ≠ a := by
      rintro rfl
      obtain rfl : A = C := Option.some.inj (hA.symm.trans hC)
      exact absurd hquiet.1 (by simp [hwork])
    refine hquiet.of_drains id rfl fun w' hw' => ?_
    by_cases hww : w' = w
    · obtain rfl := hww
      exact absurd (Option.some.inj (hself.symm.trans hw')) hab
    · exact (hne fun h => hww (Thread.worker.inj h)).symm.trans hw'
  · intro w' a ha
    by_cases hww : w' = w
    · obtain rfl := hww
      obtain rfl := Option.some.inj (hself.symm.trans ha)
      exact .inr ⟨C, hC, hworker⟩
    · exact .inl ((hne fun h => hww (Thread.worker.inj h)).symm.trans ha)
  · intro c hc hdone
    refine hne fun hthread => ?_
    obtain ⟨a, A, ha, -⟩ := hS.inside c hc hdone w hthread
    simp [State.draining, hW, hidle] at ha

lemma State.Inv.finish {a : Nat} {f : Client → Client} (hdraining : S.draining (.worker w) = some a)
    (hbusy : S.isBusy (.worker w) = false) (hworker : ∀ C, (f C).worker = C.worker)
    (hcounted : ∀ C, (f C).counted = C.counted) (hclosing : ∀ C, (f C).closing = C.closing)
    (hself : ∀ C, (f C).selfClosed = C.selfClosed)
    (hwork : ∀ C, C.work = false → (f C).work = false) :
    ((S.setClient a f).setWorker w ({ · with drains := none })).Inv := by
  obtain ⟨W, hW, -⟩ := Option.bind_eq_some_iff.mp hdraining
  have hidle : ((S.setClient a f).setWorker w ({ · with drains := none })).draining (.worker w) =
      none := by
    rw [State.draining_setWorker_self (S := S) rfl hW]
  have hne {t : Thread} (ht : t ≠ .worker w) :
      ((S.setClient a f).setWorker w ({ · with drains := none })).draining t = S.draining t :=
    State.draining_setWorker_ne rfl ht
  have hdrains (w' b : Nat) (hb : ((S.setClient a f).setWorker w
      ({ · with drains := none })).draining (.worker w') = some b) :
      S.draining (.worker w') = some b := by
    by_cases hww : w' = w
    · obtain rfl := hww
      simp [hidle] at hb
    · exact (hne fun h => hww (Thread.worker.inj h)).symm.trans hb
  refine hS.frame rfl rfl (total_modify hcounted _) rfl (State.pins_modify rfl hworker) ?_ ?_
    (fun w' b hb => .inl (hdrains w' b hb)) ?_
  · intro b C' hC'
    obtain ⟨C, hC, -⟩ := getElem?_modify_cases hC'
    exact ⟨C, hC⟩
  · intro b C hC
    by_cases hab : a = b
    · obtain rfl := hab
      refine ⟨f C, getElem?_modify_self hC, hcounted C, hself C, fun h => ?_⟩
      exact ⟨(hclosing C).trans h, fun hquiet => hquiet.of_drains (hwork C) (hself C) (hdrains · _)⟩
    · refine ⟨C, (getElem?_modify_ne hab).trans hC, rfl, rfl, fun h => ?_⟩
      exact ⟨h, fun hquiet => hquiet.of_drains id rfl (hdrains · _)⟩
  · intro c hc hdone
    refine hne fun hthread => hdone ?_
    simpa [hthread] using (List.any_eq_false.mp hbusy) c hc

lemma State.Inv.quit : (S.setWorker w ({ · with ended := true })).Inv := by
  have hdraining (t : Thread) : (S.setWorker w ({ · with ended := true })).draining t =
      S.draining t := by
    by_cases ht : t = .worker w
    · obtain rfl := ht
      simp only [State.draining, State.setWorker, List.getElem?_modify, if_true]
      cases S.workers[w]? <;> rfl
    · exact State.draining_setWorker_ne rfl ht
  refine hS.frame rfl rfl rfl rfl (fun a A hA => ⟨A, hA, rfl⟩) (fun a A hA => ⟨A, hA⟩) ?_
    (fun w' a ha => .inl ((hdraining _).symm.trans ha)) fun c _ _ => hdraining _
  intro a A hA
  refine ⟨A, hA, rfl, rfl, fun hclosing => ⟨hclosing, fun hquiet => ?_⟩⟩
  exact hquiet.of_drains id rfl fun w' hw' => (hdraining _).symm.trans hw'

end other

/-! ### Runs -/

theorem State.Inv.step {l : Label} (hS : S.Inv) (hallows : S.allows l = true)
    (h : S.step l = some S') : S'.Inv := by
  cases l with
  | create t =>
    simp only [State.step, Option.ite_none_right_eq_some, Option.some.injEq] at h
    obtain ⟨hmay, rfl⟩ := h
    exact hS.create hmay hallows
  | release t b =>
    simp only [State.step, Option.ite_none_right_eq_some, Option.some.injEq, Bool.and_eq_true] at h
    obtain ⟨⟨hmay, hopen⟩, rfl⟩ := h
    obtain ⟨hfresh, hawait⟩ := Bool.and_eq_true_iff.mp hallows
    obtain ⟨C, hC, hclosing⟩ := (Option.any_eq_true _ _).mp hopen
    simp only [Bool.not_eq_true'] at hclosing
    by_cases hself : S.draining t = some b
    · rw [State.close, if_pos hself]
      exact hS.releaseSelf hmay hC hclosing hself
    · rw [State.close, if_neg hself]
      exact hS.releaseOther hmay hC hclosing hfresh hawait hself
  | step k x =>
    obtain ⟨c, hc, hact⟩ := Option.bind_eq_some_iff.mp h
    obtain ⟨⟨S₁, pc'⟩, hact', rfl⟩ := Option.map_eq_some_iff.mp hact
    have hstep := callAct_step hact'
    dsimp only
    rw [hstep.calls_eq]
    exact ⟨hS.toCounting.call hc hS.toClients hstep, hS.toClients.call hc hstep,
      hS.acyclic.mono fun u v => hS.toClients.awaits_call hstep⟩
  | post b =>
    simp only [State.step, Option.ite_none_right_eq_some, Option.some.injEq] at h
    obtain ⟨hopen, rfl⟩ := h
    exact hS.post hopen
  | drain w b =>
    simp only [State.step, Option.ite_none_right_eq_some, Option.some.injEq, Bool.and_eq_true] at h
    obtain ⟨⟨hW, hC⟩, rfl⟩ := h
    obtain ⟨W, hW, hidle⟩ := (Option.any_eq_true _ _).mp hW
    obtain ⟨C, hC, hwork⟩ := (Option.any_eq_true _ _).mp hC
    simp only [Bool.and_eq_true, decide_eq_true_eq] at hidle hwork
    exact hS.drain hW hidle.2 hC hwork.1 hwork.2
  | finish w more =>
    obtain ⟨a, ha, h⟩ := Option.bind_eq_some_iff.mp h
    simp only [Option.ite_none_left_eq_some, Option.some.injEq, Bool.not_eq_true] at h
    obtain ⟨hbusy, rfl⟩ := h
    refine hS.finish ha hbusy (fun _ => rfl) (fun _ => rfl) (fun _ => rfl) (fun _ => rfl) ?_
    intro C hwork
    simp [hwork]
  | quit w =>
    simp only [State.step, Option.ite_none_right_eq_some, Option.some.injEq] at h
    obtain ⟨-, rfl⟩ := h
    exact hS.quit
  | quitPoll =>
    simp only [State.step, Option.ite_none_right_eq_some, Option.some.injEq] at h
    obtain ⟨-, rfl⟩ := h
    exact hS.frame rfl rfl rfl rfl (fun a A hA => ⟨A, hA, rfl⟩) (fun a A hA => ⟨A, hA⟩)
      (.refl rfl rfl) (fun w a ha => .inl ha) fun _ _ _ => rfl

theorem inv_of_exec {ls : List Label} (h : exec State.step {} ls = some S)
    (hok : Meets State.step (fun S l => S.allows l = true) {} ls) : S.Inv :=
  exec_invariant _ (fun _ _ _ hS hallows hstep => hS.step hallows hstep) h hok inv_init

end Connx.Lifecycle
