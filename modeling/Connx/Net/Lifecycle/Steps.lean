import Connx.Net.Lifecycle.Invariant

/-!
# What a step of a call preserves
-/

namespace Connx.Lifecycle

open Pool WaitGraph

variable {S S' S₁ : State} {t u : Thread} {b k w : Nat} {c : Call} {C : Client} {x : Choice}
  {pc pc' : CallPc}

/-! ### Clients under a step -/

lemma getElem?_modify_self {f : Client → Client} {clients : List Client}
    (hC : clients[b]? = some C) : (clients.modify b f)[b]? = some (f C) := by
  simp [hC]

lemma modify_eq_set {f : Client → Client} {clients : List Client} (hC : clients[b]? = some C) :
    clients.modify b f = clients.set b (f C) := by
  simp [List.modify_eq_set_getElem?, hC]

lemma getElem?_modify_ne {f : Client → Client} {clients : List Client} {a : Nat} (hne : b ≠ a) :
    (clients.modify b f)[a]? = clients[a]? := by
  simp [hne]

/-- The client stays on its worker. -/
def State.Pins (S S' : State) : Prop :=
  ∀ (b : Nat) (C : Client), S.clients[b]? = some C →
    ∃ C', S'.clients[b]? = some C' ∧ C'.worker = C.worker

/-- What the others do to a client that is being released, or was. -/
def State.Keeps (S S' : State) (b : Nat) : Prop :=
  ∀ C, S.clients[b]? = some C → ∃ C', S'.clients[b]? = some C' ∧ C'.counted = C.counted ∧
    C'.selfClosed = C.selfClosed ∧
    (C.closing = true → C'.closing = true ∧ (S.Quiet b C → S'.Quiet b C'))

lemma State.Keeps.releasing (hkeeps : ∀ b, pc.releases = some b → S.Keeps S' b)
    (h : S.Releasing pc) : S'.Releasing pc := by
  intro b hb
  obtain ⟨C, hC, ⟨hcounted, hclosing⟩, hquiet⟩ := h b hb
  obtain ⟨C', hC', hcounted', -, hclosing'⟩ := hkeeps b hb C hC
  refine ⟨C', hC', ⟨hcounted'.trans hcounted, (hclosing' hclosing).1⟩, ?_⟩
  exact hquiet.imp_right (hclosing' hclosing).2

lemma State.Keeps.gone (hkeeps : S.Keeps S' b) (hS : S.Clients) (hC : S.clients[b]? = some C)
    {C' : Client} (hC' : S'.clients[b]? = some C') (hcounted : C'.counted = false) :
    C'.closing = true ∧ S'.Quiet b C' := by
  obtain ⟨C'', hC'', hcounted', -, hclosing⟩ := hkeeps C hC
  obtain rfl : C' = C'' := Option.some.inj (hC'.symm.trans hC'')
  obtain ⟨hclosed, hquiet⟩ := hS.gone b C hC (hcounted'.symm.trans hcounted)
  exact ⟨(hclosing hclosed).1, (hclosing hclosed).2 hquiet⟩

/-- What the others do to a callback that is inside a call. -/
lemma State.Inside.of_eq (h : S.Inside c)
    (hdraining : S'.draining c.thread = S.draining c.thread)
    (hself : ∀ (a : Nat) (C : Client), S.draining c.thread = some a → S.clients[a]? = some C →
      ∃ C', S'.clients[a]? = some C' ∧ C'.selfClosed = C.selfClosed) : S'.Inside c := by
  intro w hw
  rw [hw] at hdraining hself
  obtain ⟨a, C, ha, hC, hcases⟩ := h w hw
  obtain ⟨C', hC', hself'⟩ := hself a C ha hC
  exact ⟨a, C', hdraining.trans ha, hC', by rwa [hself']⟩

lemma State.Keeps.of_eq (hclients : S'.clients[b]? = S.clients[b]?)
    (hdrained : S'.drained b = S.drained b) : S.Keeps S' b := by
  intro C hC
  refine ⟨C, hclients.trans hC, rfl, rfl, fun hclosing => ⟨hclosing, ?_⟩⟩
  rintro ⟨hwork, h⟩
  exact ⟨hwork, by rwa [hdrained]⟩

/-- The idle waits that were there already. -/
lemma State.Pins.awaits (hpins : S.Pins S') (hS : S.Clients) (hc : c ∈ S.calls)
    (hpc : c.pc = .idleWait b) (hC : S'.clients[b]? = some C) :
    S.Awaits c.thread (.worker C.worker) := by
  obtain ⟨C₀, hC₀, -⟩ := hS.releasing c hc b (by rw [hpc]; rfl)
  obtain ⟨C', hC', hworker⟩ := hpins b C₀ hC₀
  obtain rfl : C = C' := Option.some.inj (hC.symm.trans hC')
  exact ⟨c, hc, rfl, b, C₀, hpc, hC₀, by rw [hworker]⟩

lemma State.Pins.drains (hpins : S.Pins S') (hS : S.Clients) {a : Nat}
    (h : S.draining (.worker w) = some a) : ∃ C, S'.clients[a]? = some C ∧ C.worker = w := by
  obtain ⟨C, hC, hw⟩ := hS.drains w a h
  obtain ⟨C', hC', hworker⟩ := hpins a C hC
  exact ⟨C', hC', hworker.trans hw⟩

/-! ### The operations of a call -/

/-- An operation inside the section that neither counts nor leaves. -/
structure Inner (pc pc' : CallPc) : Prop where
  holds : pc.holds = true
  holds' : pc'.holds = true
  weight : pc'.weight = pc.weight
  starts : pc'.starts = true → pc.starts = true
  stops : pc'.stops = true → pc.stops = true
  releases : pc'.releases = none
  shuts : pc'.shuts = pc.shuts

/-- What one operation of a call does. -/
inductive CallStep (S : State) (t : Thread) : CallPc → State → CallPc → Prop
  | initLock (hfree : S.holder = none) :
      CallStep S t .initLock { S with holder := some t } .initCount
  | initCount : CallStep S t .initCount { S with count := S.count + 1 }
      (if S.count + 1 = 1 then .startWorkers else .initUnlock true)
  | inner {pc pc' : CallPc} {S₁ : State} (hpc : Inner pc pc') (hcount : S₁.count = S.count)
      (hholder : S₁.holder = S.holder) (hclients : S₁.clients = S.clients)
      (hcalls : S₁.calls = S.calls) (n : Nat)
      (hworkers : S₁.workers = S.workers ++ List.replicate n ({} : Worker)) :
      CallStep S t pc S₁ pc'
  | failCount : CallStep S t .failCount { S with count := S.count - 1 } (.initUnlock false)
  | initUnlock (ok : Bool) : CallStep S t (.initUnlock ok) { S with holder := none }
      (if ok then .construct else .done)
  | construct (worker : Nat) : CallStep S t .construct
      { S with clients := S.clients ++ [{ worker := worker }] } .done
  | idleWait (b : Nat) (hidle : S.isIdle b = true) : CallStep S t (.idleWait b) S (.shutLock b)
  | shutLock (b : Nat) (hfree : S.holder = none) :
      CallStep S t (.shutLock b) { S with holder := some t } (.shutCount b)
  | shutCount (b : Nat) : CallStep S t (.shutCount b)
      { S.setClient b ({ · with counted := false }) with count := S.count - 1 }
      (if S.count = 1 then .stopRunning else .shutUnlock)
  | shutUnlock : CallStep S t .shutUnlock { S with holder := none } .done

lemma CallStep.inner_same (hpc : Inner pc pc') : CallStep S t pc S pc' :=
  .inner hpc rfl rfl rfl rfl 0 (by simp)

lemma callAct_step (h : callAct S t x pc = some (S₁, pc')) : CallStep S t pc S₁ pc' := by
  cases pc with
  | initLock =>
    simp only [callAct, Option.ite_none_right_eq_some, Option.some.injEq, Prod.mk.injEq] at h
    obtain ⟨hfree, rfl, rfl⟩ := h
    exact .initLock hfree
  | initCount =>
    cases h
    exact .initCount
  | startWorkers =>
    simp only [callAct] at h
    split_ifs at h <;> cases h
    · exact .inner_same ⟨rfl, rfl, rfl, fun _ => rfl, id, rfl, rfl⟩
    · exact .inner ⟨rfl, rfl, rfl, fun _ => rfl, id, rfl, rfl⟩ rfl rfl rfl rfl 1 rfl
    · exact .inner ⟨rfl, rfl, rfl, fun _ => rfl, id, rfl, rfl⟩ rfl rfl rfl rfl _ rfl
    · exact .inner_same ⟨rfl, rfl, rfl, fun _ => rfl, id, rfl, rfl⟩
  | startPoll =>
    simp only [callAct] at h
    split_ifs at h <;> cases h
    · exact .inner ⟨rfl, rfl, rfl, fun _ => rfl, id, rfl, rfl⟩ rfl rfl rfl rfl 0 (by simp)
    · exact .inner ⟨rfl, rfl, rfl, fun _ => rfl, id, rfl, rfl⟩ rfl rfl rfl rfl 0 (by simp)
  | failStop =>
    cases h
    exact .inner ⟨rfl, rfl, rfl, fun _ => rfl, id, rfl, rfl⟩ rfl rfl rfl rfl 0 (by simp)
  | failJoin rest =>
    cases rest with
    | nil =>
      cases h
      exact .inner_same ⟨rfl, rfl, rfl, fun _ => rfl, id, rfl, rfl⟩
    | cons w rest =>
      simp only [callAct] at h
      split_ifs at h
      cases h
      exact .inner_same ⟨rfl, rfl, rfl, fun _ => rfl, id, rfl, rfl⟩
  | failCount =>
    cases h
    exact .failCount
  | initUnlock ok =>
    cases h
    exact .initUnlock ok
  | construct =>
    cases h
    exact .construct _
  | idleWait b =>
    simp only [callAct, Option.ite_none_right_eq_some, Option.some.injEq, Prod.mk.injEq] at h
    obtain ⟨hidle, rfl, rfl⟩ := h
    exact .idleWait b hidle
  | shutLock b =>
    simp only [callAct, Option.ite_none_right_eq_some, Option.some.injEq, Prod.mk.injEq] at h
    obtain ⟨hfree, rfl, rfl⟩ := h
    exact .shutLock b hfree
  | shutCount b =>
    cases h
    exact .shutCount b
  | stopRunning =>
    simp only [callAct] at h
    split_ifs at h <;> cases h
    · exact .inner ⟨rfl, rfl, rfl, id, fun _ => rfl, rfl, rfl⟩ rfl rfl rfl rfl 0 (by simp)
    · exact .inner_same ⟨rfl, rfl, rfl, id, fun _ => rfl, rfl, rfl⟩
  | joinPoll =>
    simp only [callAct] at h
    split_ifs at h
    cases h
    exact .inner_same ⟨rfl, rfl, rfl, id, fun _ => rfl, rfl, rfl⟩
  | stopWorkers =>
    cases h
    exact .inner ⟨rfl, rfl, rfl, id, fun _ => rfl, rfl, rfl⟩ rfl rfl rfl rfl 0 (by simp)
  | joinWorkers rest =>
    cases rest with
    | nil =>
      cases h
      exact .inner_same ⟨rfl, rfl, rfl, id, fun _ => rfl, rfl, rfl⟩
    | cons w rest =>
      simp only [callAct] at h
      split_ifs at h
      cases h
      exact .inner_same ⟨rfl, rfl, rfl, id, fun _ => rfl, rfl, rfl⟩
  | shutUnlock =>
    cases h
    exact .shutUnlock
  | done => cases h

namespace CallStep

variable (h : CallStep S t pc S₁ pc')
include h

lemma ne_done : pc ≠ .done := by
  rintro rfl
  cases h with
  | inner hpc => exact absurd hpc.holds (by decide)

lemma ne_idleWait : pc' ≠ .idleWait b := by
  intro heq
  cases h with
  | inner hpc => exact absurd hpc.releases (by simp [heq, CallPc.releases])
  | initCount | shutCount => split_ifs at heq
  | initUnlock ok =>
    cases ok <;> simp at heq
  | _ => cases heq

lemma calls_eq : S₁.calls = S.calls := by
  cases h with
  | inner _ _ _ _ hcalls => exact hcalls
  | _ => rfl

lemma draining_eq (u : Thread) : S₁.draining u = S.draining u := by
  cases h with
  | inner _ _ _ _ _ n hworkers =>
    cases u with
    | app | poll => rfl
    | worker w =>
      simp only [State.draining, hworkers]
      by_cases hw : w < S.workers.length
      · rw [List.getElem?_append_left hw]
      · rw [List.getElem?_append_right (by omega), List.getElem?_replicate,
          List.getElem?_eq_none (by omega)]
        split <;> rfl
  | _ => rfl

lemma drained_eq (b : Nat) : S₁.drained b = S.drained b := by
  cases h with
  | inner _ _ _ _ _ n hworkers => simp [State.drained, hworkers]
  | _ => rfl

lemma client (hC : S.clients[b]? = some C) : S₁.clients[b]? = some C ∨
    pc = .shutCount b ∧ S₁.clients[b]? = some { C with counted := false } := by
  cases h with
  | inner _ _ _ hclients => exact .inl (hclients ▸ hC)
  | construct =>
    have hlt : b < S.clients.length := (List.getElem?_eq_some_iff.mp hC).1
    exact .inl ((List.getElem?_append_left hlt).trans hC)
  | shutCount a =>
    by_cases hab : a = b
    · obtain rfl := hab
      exact .inr ⟨rfl, getElem?_modify_self hC⟩
    · exact .inl ((getElem?_modify_ne hab).trans hC)
  | _ => exact .inl hC

/-- A client that was not there is counted. -/
lemma client_of (hC : S₁.clients[b]? = some C) (hcounted : C.counted = false) :
    ∃ C₀, S.clients[b]? = some C₀ := by
  cases h with
  | inner _ _ _ hclients => exact ⟨C, hclients ▸ hC⟩
  | construct =>
    by_cases hlt : b < S.clients.length
    · exact ⟨C, (List.getElem?_append_left hlt).symm.trans hC⟩
    · have hnew := (List.getElem?_append_right (by omega)).symm.trans hC
      obtain rfl := List.mem_singleton.mp (List.mem_of_getElem? hnew)
      cases hcounted
  | shutCount a =>
    simp only [State.setClient, List.getElem?_modify, Option.map_eq_map, Option.map_eq_some_iff]
      at hC
    obtain ⟨C₀, hC₀, -⟩ := hC
    exact ⟨C₀, hC₀⟩
  | _ => exact ⟨C, hC⟩

lemma releases_of (hb : pc'.releases = some b) : pc.releases = some b := by
  cases h with
  | inner hpc => simp [hpc.releases] at hb
  | initCount => split_ifs at hb <;> simp [CallPc.releases] at hb
  | initUnlock ok =>
    cases ok <;> simp [CallPc.releases] at hb
  | shutCount => split_ifs at hb <;> simp [CallPc.releases] at hb
  | idleWait | shutLock => exact hb
  | _ => simp [CallPc.releases] at hb

/-- A call leaves `LibraryShutdown` only at its end. -/
lemma shuts_of (hdone : pc' ≠ .done) (hpc : pc.shuts = true ∨ pc = .shutLock b) :
    pc'.shuts = true := by
  cases h with
  | inner hinner =>
    obtain hshuts | rfl := hpc
    · exact hinner.shuts.trans hshuts
    · exact absurd hinner.holds (by simp [CallPc.holds])
  | shutLock => rfl
  | shutCount => split_ifs <;> rfl
  | shutUnlock => exact absurd rfl hdone
  | _ => simp [CallPc.shuts] at hpc

lemma pins : S.Pins S₁ := by
  intro b C hC
  obtain hC' | ⟨-, hC'⟩ := h.client hC
  · exact ⟨C, hC', rfl⟩
  · exact ⟨_, hC', rfl⟩

lemma keeps (hpc : pc ≠ .shutCount b) : S.Keeps S₁ b := by
  intro C hC
  obtain hC' | ⟨hpc', -⟩ := h.client hC
  · refine ⟨C, hC', rfl, rfl, fun hclosing => ⟨hclosing, ?_⟩⟩
    rintro ⟨hwork, hdrained⟩
    exact ⟨hwork, by rwa [h.drained_eq]⟩
  · exact absurd hpc' hpc

/-- The idle wait ends when nobody will drain the client any more. -/
lemma releasing (hpc : S.Releasing pc) : S₁.Releasing pc' := by
  cases h with
  | idleWait b hidle =>
    rintro b ⟨rfl⟩
    obtain ⟨C, hC, hcounted, -⟩ := hpc b rfl
    simp only [State.isIdle, hC, Option.any_some, Bool.and_eq_true, Bool.not_eq_true'] at hidle
    exact ⟨C, hC, hcounted, .inr ⟨hidle.1, .inr hidle.2⟩⟩
  | shutLock b =>
    rintro b ⟨rfl⟩
    obtain ⟨C, hC, hcounted, hquiet⟩ := hpc b rfl
    exact ⟨C, hC, hcounted, .inr (hquiet.resolve_left nofun)⟩
  | inner hinner => exact fun b hb => absurd hb (by simp [hinner.releases])
  | initCount | shutCount =>
    intro b hb
    split_ifs at hb <;> simp [CallPc.releases] at hb
  | initUnlock ok =>
    cases ok <;> exact nofun
  | _ => exact nofun

end CallStep

section clients

variable (hS : S.Clients) (hc : S.calls[k]? = some c) (h : CallStep S c.thread c.pc S₁ pc')
include hS hc h

/-- The call that takes the step keeps what it knows of the client it runs in. -/
lemma State.Clients.inside_call (hdone : pc' ≠ .done) : S₁.Inside { c with pc := pc' } := by
  intro w hw
  obtain ⟨a, C, ha, hC, hcases⟩ := hS.inside c (List.mem_of_getElem? hc) h.ne_done w hw
  obtain ⟨C', hC', hself⟩ : ∃ C', S₁.clients[a]? = some C' ∧ C'.selfClosed = C.selfClosed := by
    obtain hC' | ⟨-, hC'⟩ := h.client hC
    · exact ⟨C, hC', rfl⟩
    · exact ⟨_, hC', rfl⟩
  refine ⟨a, C', (h.draining_eq _).trans ha, hC', ?_⟩
  obtain hopen | hlock | hshuts := hcases
  · exact .inl (hself.trans hopen)
  · exact .inr (.inr (h.shuts_of hdone (.inr hlock)))
  · exact .inr (.inr (h.shuts_of (b := a) hdone (.inl hshuts)))

/-- The client that a call has just given up. -/
lemma State.Clients.gone_call {C' : Client} (hC' : S₁.clients[b]? = some C')
    (hcounted : C'.counted = false) : C'.closing = true ∧ S₁.Quiet b C' := by
  obtain ⟨C, hC⟩ := h.client_of hC' hcounted
  by_cases hpc : c.pc = .shutCount b
  · obtain ⟨C₀, hC₀, ⟨-, hclosing⟩, hquiet⟩ :=
      hS.releasing c (List.mem_of_getElem? hc) b (by rw [hpc]; rfl)
    obtain rfl : C = C₀ := Option.some.inj (hC.symm.trans hC₀)
    obtain ⟨hwork, hdrained⟩ := hquiet.resolve_left (by rw [hpc]; nofun)
    rw [← h.drained_eq] at hdrained
    obtain hC'' | ⟨-, hC''⟩ := h.client hC
    all_goals
      obtain rfl := Option.some.inj (hC'.symm.trans hC'')
      exact ⟨hclosing, hwork, hdrained⟩
  · exact (h.keeps hpc).gone hS hC hC' hcounted

theorem State.Clients.call :
    State.Clients { S₁ with calls := S.calls.set k { c with pc := pc' } } := by
  have hmem := List.mem_of_getElem? hc
  refine ⟨?_, ?_, fun b C' hC' hcounted => hS.gone_call hc h hC' hcounted, ?_, ?_⟩
  · intro d hd
    obtain rfl | ⟨j, hne, hj⟩ := eq_or_getElem?_of_mem_set hd
    · exact h.releasing (hS.releasing c hmem)
    · refine State.Keeps.releasing (fun b hb => h.keeps fun hpc => hne ?_)
        (hS.releasing d (List.mem_of_getElem? hj))
      exact hS.sole j k d c b hj hc hb (by rw [hpc]; rfl)
  · intro i j d e b hi hj hd he
    have hold {i : Nat} {d : Call} (hi : (S.calls.set k { c with pc := pc' })[i]? = some d)
        (hd : d.pc.releases = some b) : ∃ d', S.calls[i]? = some d' ∧ d'.pc.releases = some b := by
      rw [List.getElem?_set] at hi
      split_ifs at hi with hik
      · obtain rfl := hik
        obtain rfl := Option.some.inj hi
        exact ⟨c, hc, h.releases_of hd⟩
      · exact ⟨d, hi, hd⟩
    obtain ⟨d', hd', hdb⟩ := hold hi hd
    obtain ⟨e', he', heb⟩ := hold hj he
    exact hS.sole i j d' e' b hd' he' hdb heb
  · intro w a ha
    exact h.pins.drains hS ((h.draining_eq _).symm.trans ha)
  · intro d hd hdone
    obtain rfl | ⟨j, hne, hj⟩ := eq_or_getElem?_of_mem_set hd
    · exact fun w hw => hS.inside_call hc h hdone w hw
    · refine (hS.inside d (List.mem_of_getElem? hj) hdone).of_eq (h.draining_eq _) ?_
      intro a C _ hC
      obtain hC' | ⟨-, hC'⟩ := h.client hC
      · exact ⟨C, hC', rfl⟩
      · exact ⟨_, hC', rfl⟩

omit hc in
/-- No operation begins an idle wait. -/
lemma State.Clients.awaits_call {u v : Thread}
    (hawaits : State.Awaits { S₁ with calls := S.calls.set k { c with pc := pc' } } u v) :
    S.Awaits u v := by
  obtain ⟨d, hd, rfl, b, C, hpc, hC, rfl⟩ := hawaits
  obtain rfl | ⟨j, hne, hj⟩ := eq_or_getElem?_of_mem_set hd
  · exact absurd hpc h.ne_idleWait
  · exact h.pins.awaits hS (List.mem_of_getElem? hj) hpc hC

end clients

/-! ### The mutex and the counter -/

section counting

variable (hS : S.Counting) (hc : S.calls[k]? = some c)
include hS hc

lemma State.Counting.holder_other {j : Nat} {d : Call} (hj : S.calls[j]? = some d) (hne : j ≠ k)
    (hholds : c.pc.holds = true) : d.pc.holds = false := by
  by_contra hd
  exact hne (hS.holder_unique hj hc (by simpa using hd) hholds)

variable (S' pc') in
/-- The mutex is taken, given back or left alone by the call that takes the step. -/
lemma State.Counting.set (hcalls : S'.calls = S.calls.set k { c with pc := pc' })
    (hdone : c.pc ≠ .done)
    (hsum : S'.count + (total Client.weight S.clients + c.pc.weight) =
      S.count + (total Client.weight S'.clients + pc'.weight))
    (hcount : S'.count = S.count ∨ c.pc.holds = true)
    (hholder : S'.holder = S.holder ∧ pc'.holds = c.pc.holds ∨
      S.holder = none ∧ S'.holder = some c.thread ∧ pc'.holds = true ∨
      c.pc.holds = true ∧ S'.holder = none ∧ pc'.holds = false)
    (hstarts : pc'.starts = true → S'.count = 1) (hstops : pc'.stops = true → S'.count = 0) :
    S'.Counting := by
  have hlt : k < S.calls.length := (List.getElem?_eq_some_iff.mp hc).1
  have hother {j : Nat} {d : Call} (hj : S.calls[j]? = some d) (hne : j ≠ k)
      (hd : d.pc.holds = true) : S'.count = S.count := by
    refine hcount.resolve_right fun hholds => ?_
    simp [hS.holder_other hc hj hne hholds] at hd
  refine ⟨?_, ?_, ?_, ?_, ?_, ?_, ?_⟩
  · have hset : total Call.weight (S.calls.set k { c with pc := pc' }) + c.pc.weight =
        total Call.weight S.calls + pc'.weight := total_set hc
    have hle : c.pc.weight ≤ total Call.weight S.calls := le_total (f := Call.weight) hc
    have hS := hS.count
    rw [hcalls]
    omega
  · intro i j d e hi hj hthread hd he
    -- the call that takes the step has kept its thread, and was not done before
    have hold {i : Nat} {d : Call} (hi : S'.calls[i]? = some d) (hd : d.pc ≠ .done) :
        ∃ d', S.calls[i]? = some d' ∧ d'.thread = d.thread ∧ d'.pc ≠ .done := by
      rw [hcalls, List.getElem?_set] at hi
      split_ifs at hi with hik
      · obtain rfl := hik
        obtain rfl := Option.some.inj hi
        exact ⟨c, hc, rfl, hdone⟩
      · exact ⟨d, hi, rfl, hd⟩
    obtain ⟨d', hd', hdt, hdd⟩ := hold hi hd
    obtain ⟨e', he', het, hed⟩ := hold hj he
    exact hS.single i j d' e' hd' he' (hdt.trans (hthread.trans het.symm)) hdd hed
  · rw [hcalls]
    intro d hd
    obtain rfl | ⟨j, -, hj⟩ := eq_or_getElem?_of_mem_set hd
    · exact hS.poll c (List.mem_of_getElem? hc)
    · exact hS.poll d (List.mem_of_getElem? hj)
  · rw [hcalls]
    intro d hd hholds
    obtain rfl | ⟨j, hne, hj⟩ := eq_or_getElem?_of_mem_set hd
    · obtain ⟨hsame, hpc⟩ | ⟨-, htaken, -⟩ | ⟨-, -, hpc⟩ := hholder
      · exact hsame.trans (hS.holds c (List.mem_of_getElem? hc) (hpc ▸ hholds))
      · exact htaken
      · simp [hpc] at hholds
    · have hd' := hS.holds d (List.mem_of_getElem? hj) hholds
      obtain ⟨hsame, -⟩ | ⟨hfree, -⟩ | ⟨hc', -⟩ := hholder
      · exact hsame.trans hd'
      · simp [hfree] at hd'
      · simp [hS.holder_other hc hj hne hc'] at hholds
  · rw [hcalls]
    intro t ht
    have hmem : { c with pc := pc' } ∈ S.calls.set k { c with pc := pc' } := List.mem_set hlt _
    obtain ⟨hsame, hpc⟩ | ⟨-, htaken, hpc⟩ | ⟨-, hnone, -⟩ := hholder
    · obtain ⟨d, hd, hthread, hholds⟩ := hS.holder t (hsame ▸ ht)
      obtain ⟨j, hj⟩ := List.mem_iff_getElem?.mp hd
      by_cases hjk : j = k
      · obtain rfl := hjk
        obtain rfl : c = d := Option.some.inj (hc.symm.trans hj)
        exact ⟨_, hmem, hthread, hpc.trans hholds⟩
      · refine ⟨d, ?_, hthread, hholds⟩
        exact List.mem_of_getElem? (i := j) (by rw [List.getElem?_set_ne (Ne.symm hjk)]; exact hj)
    · exact ⟨_, hmem, Option.some.inj (htaken.symm.trans ht), hpc⟩
    · simp [hnone] at ht
  · rw [hcalls]
    intro d hd hd'
    obtain rfl | ⟨j, hne, hj⟩ := eq_or_getElem?_of_mem_set hd
    · exact hstarts hd'
    · rw [hother hj hne (CallPc.holds_of_starts hd')]
      exact hS.starts d (List.mem_of_getElem? hj) hd'
  · rw [hcalls]
    intro d hd hd'
    obtain rfl | ⟨j, hne, hj⟩ := eq_or_getElem?_of_mem_set hd
    · exact hstops hd'
    · rw [hother hj hne (CallPc.holds_of_stops hd')]
      exact hS.stops d (List.mem_of_getElem? hj) hd'

/-- Every operation of a call keeps the account. -/
theorem State.Counting.call (hclients : S.Clients) (h : CallStep S c.thread c.pc S₁ pc') :
    State.Counting { S₁ with calls := S.calls.set k { c with pc := pc' } } := by
  have hmem := List.mem_of_getElem? hc
  have hno {P : Prop} : false = true → P := Bool.false_ne_true.elim
  have hset := hS.set { S₁ with calls := S.calls.set k { c with pc := pc' } } pc' hc rfl h.ne_done
  have hweight : c.pc.weight ≤ S.count := by
    rw [hS.count]
    exact Nat.le_add_left_of_le (le_total (f := Call.weight) hc)
  obtain ⟨t, pc⟩ := c
  dsimp only at hset h hweight ⊢
  cases h with
  | initLock hfree => exact hset rfl (.inl rfl) (.inr (.inl ⟨hfree, rfl, rfl⟩)) hno hno
  | initCount =>
    by_cases hzero : S.count + 1 = 1
    · rw [if_pos hzero] at hset ⊢
      exact hset (Nat.succ_add_eq_add_succ ..) (.inr rfl) (.inl ⟨rfl, rfl⟩) (fun _ => hzero) hno
    · rw [if_neg hzero] at hset ⊢
      exact hset (Nat.succ_add_eq_add_succ ..) (.inr rfl) (.inl ⟨rfl, rfl⟩) hno hno
  | inner hpc hcount hholder hclients' =>
    refine hset (by rw [hcount, hclients', hpc.weight]) (.inl hcount)
      (.inl ⟨hholder, hpc.holds'.trans hpc.holds.symm⟩) (fun hstarts => ?_) (fun hstops => ?_)
    · exact hcount.trans (hS.starts _ hmem (hpc.starts hstarts))
    · exact hcount.trans (hS.stops _ hmem (hpc.stops hstops))
  | failCount =>
    refine hset ?_ (.inr rfl) (.inl ⟨rfl, rfl⟩) hno hno
    change S.count - 1 + (total Client.weight S.clients + 1) =
      S.count + (total Client.weight S.clients + 0)
    change 1 ≤ S.count at hweight
    omega
  | initUnlock ok =>
    cases ok <;> exact hset rfl (.inl rfl) (.inr (.inr ⟨rfl, rfl, rfl⟩)) hno hno
  | construct worker =>
    refine hset ?_ (.inl rfl) (.inl ⟨rfl, rfl⟩) hno hno
    simp [CallPc.weight, Client.weight]
  | idleWait b => exact hset rfl (.inl rfl) (.inl ⟨rfl, rfl⟩) hno hno
  | shutLock b hfree => exact hset rfl (.inl rfl) (.inr (.inl ⟨hfree, rfl, rfl⟩)) hno hno
  | shutCount b =>
    obtain ⟨C, hC, ⟨hcounted, -⟩, -⟩ := hclients.releasing _ hmem b rfl
    have hclient : total Client.weight (S.clients.modify b ({ · with counted := false })) + 1 =
        total Client.weight S.clients + 0 := by
      have hset := total_set (f := Client.weight) (q := { C with counted := false }) hC
      rw [modify_eq_set hC]
      rwa [Client.weight, if_pos hcounted] at hset
    have hsum := hS.count
    by_cases hone : S.count = 1
    · rw [if_pos hone] at hset ⊢
      refine hset ?_ (.inr rfl) (.inl ⟨rfl, rfl⟩) hno fun _ => ?_
      · change S.count - 1 + (_ + 0) = S.count + (total Client.weight (S.clients.modify b _) + 0)
        omega
      · change S.count - 1 = 0
        omega
    · rw [if_neg hone] at hset ⊢
      refine hset ?_ (.inr rfl) (.inl ⟨rfl, rfl⟩) hno hno
      change S.count - 1 + (_ + 0) = S.count + (total Client.weight (S.clients.modify b _) + 0)
      omega
  | shutUnlock => exact hset rfl (.inl rfl) (.inr (.inr ⟨rfl, rfl, rfl⟩)) hno hno

end counting

end Connx.Lifecycle
