import Connx.Bridge.Ownership

/-!
# How long a connection lives

A connection object is there exactly as long as it is referenced, and when the last client has been
destroyed only workers that were not joined can still have references.
-/

namespace Connx.Bridge

open Pool

variable {S S' : State} {o w c k : Nat} {C : Client}

/-- The client is counted in `g_initializations`. -/
def Client.weight (C : Client) : Nat := if C.phase = .gone then 0 else 1

/-- `connection_` is reset by the destroy call; a connection has a codec, and `Start` has taken it
from the options of the `ClientImpl`. -/
structure Client.Ok (C : Client) : Prop where
  holds : C.holds = true ↔ C.phase = .alive
  codec : ∀ N, C.connection = some N → N.codec.isSome = true
  impl : C.codec = none

/-- Some worker refers to the connection. -/
def State.Held (S : State) (c : Nat) : Prop := ∃ w, (w, c) ∈ S.refs

structure State.Counted (S : State) : Prop where
  count : S.count = total Client.weight S.clients
  stopped : S.count = 0 → ∀ w c, (w, c) ∈ S.refs → w ∈ S.detached
  ok : ∀ C ∈ S.clients, C.Ok
  known : ∀ w c, (w, c) ∈ S.refs → c < S.clients.length

structure State.Lifetimes (S : State) : Prop extends S.Counted where
  connection : ∀ c C, S.clients[c]? = some C →
    (C.connection.isSome = true ↔ C.holds = true ∨ S.Held c)

lemma State.isReferenced_iff (hC : S.clients[c]? = some C) :
    S.isReferenced c = true ↔ C.holds = true ∨ S.Held c := by
  simp [State.isReferenced, hC, State.Held]

lemma mem_modify {f : Client → Client} (h : C ∈ S.clients.modify c f) :
    ∃ C₀ ∈ S.clients, C = C₀ ∨ C = f C₀ := by
  obtain ⟨j, hj⟩ := List.mem_iff_getElem?.mp h
  rw [List.getElem?_modify] at hj
  obtain ⟨C₀, hC₀, rfl⟩ := Option.map_eq_some_iff.mp hj
  refine ⟨C₀, List.mem_of_getElem? hC₀, ?_⟩
  split_ifs
  · exact .inr rfl
  · exact .inl rfl

lemma total_modify {f : Client → Client} (hf : ∀ C, (f C).weight = C.weight) :
    total Client.weight (S.clients.modify c f) = total Client.weight S.clients := by
  cases hC : S.clients[c]? with
  | none => rw [List.modify_eq_self (by simpa using hC)]
  | some C =>
    have hset := total_set (f := Client.weight) (q := f C) hC
    rw [List.modify_eq_set_getElem?, hC]
    simp only [hf] at hset
    simpa using hset

@[simp] lemma State.delete_count (k : Option Nat) : (S.delete k).count = S.count := by
  cases k <;> rfl

@[simp] lemma State.delete_refs (k : Option Nat) : (S.delete k).refs = S.refs := by
  cases k <;> rfl

@[simp] lemma State.delete_detached (k : Option Nat) : (S.delete k).detached = S.detached := by
  cases k <;> rfl

/-- After a reference to `c` was dropped. -/
lemma State.Counted.unref (hS : S.Counted)
    (hother : ∀ j C, j ≠ c → S.clients[j]? = some C →
      (C.connection.isSome = true ↔ C.holds = true ∨ S.Held j))
    (hself : ∀ C, S.clients[c]? = some C → C.holds = true ∨ S.Held c → C.connection.isSome = true) :
    (S.unref c).Lifetimes := by
  rw [State.unref]
  split_ifs with href
  · refine ⟨hS, fun j C hC => ?_⟩
    by_cases hj : j = c
    · obtain rfl := hj
      have hheld := (State.isReferenced_iff hC).mp href
      exact iff_of_true (hself C hC hheld) hheld
    · exact hother j C hj hC
  · refine ⟨⟨?_, ?_, ?_, ?_⟩, ?_⟩
    · exact (State.delete_count _).trans (hS.count.trans (total_modify (by intro C; rfl)).symm)
    · simp only [State.delete_count, State.delete_refs, State.delete_detached]
      exact hS.stopped
    · intro C hC
      obtain ⟨C₀, hC₀, rfl | rfl⟩ := mem_modify hC
      · exact hS.ok C hC₀
      · exact ⟨(hS.ok C₀ hC₀).holds, by simp, (hS.ok C₀ hC₀).impl⟩
    · simp only [State.delete_refs, List.length_modify]
      exact hS.known
    · intro j C hC
      simp only [List.getElem?_modify, Option.map_eq_map, Option.map_eq_some_iff] at hC
      obtain ⟨C₀, hC₀, rfl⟩ := hC
      by_cases hj : c = j
      · obtain rfl := hj
        rw [if_pos rfl]
        refine iff_of_false (by simp) ?_
        simp only [State.Held, State.delete_refs]
        rw [State.isReferenced_iff hC₀] at href
        exact href
      · rw [if_neg hj]
        simp only [State.Held, State.delete_refs]
        exact hother j C₀ (Ne.symm hj) hC₀

/-! ### Steps -/

lemma State.Lifetimes.of_eq (hS : S.Lifetimes) (hclients : S'.clients = S.clients)
    (hcount : S'.count = S.count) (hrefs : S'.refs = S.refs)
    (hdetached : S'.detached = S.detached) :
    S'.Lifetimes where
  count := by rw [hcount, hclients, hS.count]
  stopped := by rw [hcount, hrefs, hdetached]; exact hS.stopped
  ok := hclients ▸ hS.ok
  known := by rw [hrefs, hclients]; exact hS.known
  connection := by
    simp only [State.Held, hclients, hrefs]
    exact hS.connection

section steps

variable (hS : S.Lifetimes)
include hS

/-- Posted tasks do not matter. -/
lemma State.Lifetimes.modify {f : Client → Client}
    (hf : ∀ C, f C = { C with connects := (f C).connects })
    (hclients : S'.clients = S.clients.modify c f) (hcount : S'.count = S.count)
    (hrefs : S'.refs = S.refs) (hdetached : S'.detached = S.detached) : S'.Lifetimes := by
  refine ⟨⟨?_, ?_, ?_, ?_⟩, ?_⟩
  · rw [hcount, hclients, hS.count, total_modify]
    intro C
    rw [hf C]
    rfl
  · rw [hcount, hrefs, hdetached]
    exact hS.stopped
  · intro C' hC'
    rw [hclients] at hC'
    obtain ⟨C, hC, rfl | rfl⟩ := mem_modify hC'
    · exact hS.ok C' hC
    · rw [hf C]
      exact ⟨(hS.ok C hC).holds, (hS.ok C hC).codec, (hS.ok C hC).impl⟩
  · rw [hrefs, hclients, List.length_modify]
    exact hS.known
  · intro j C' hC'
    rw [hclients, List.getElem?_modify] at hC'
    obtain ⟨C, hC, rfl⟩ := Option.map_eq_some_iff.mp hC'
    have hconnection := hS.connection j C hC
    simp only [State.Held, hrefs]
    split_ifs
    · rw [hf C]
      exact hconnection
    · exact hconnection

lemma State.Lifetimes.clientNew {handler init : Bool} (h : S.clientNew handler o init = some S') :
    S'.Lifetimes := by
  obtain ⟨O, -, rfl⟩ := Option.map_eq_some_iff.mp h
  split_ifs with hfail
  · exact hS
  simp only [Bool.or_eq_true, Bool.not_eq_true', decide_eq_true_eq, not_or] at hfail
  refine ⟨⟨?_, nofun, ?_, ?_⟩, ?_⟩
  · show S.count + 1 = _
    rw [total_snoc, hS.count]
    rfl
  · intro C hC
    obtain hC | rfl := (List.mem_append.mp hC).imp_right List.mem_singleton.mp
    · exact hS.ok C hC
    · refine ⟨iff_of_true rfl rfl, ?_, rfl⟩
      rintro N ⟨rfl⟩
      exact Option.ne_none_iff_isSome.mp hfail.1.2
  · intro w c hr
    rw [List.length_append]
    exact Nat.lt_add_right 1 (hS.known w c hr)
  · intro c C hC
    obtain hC | ⟨-, rfl⟩ := getElem?_snoc hC
    · exact hS.connection c C hC
    · exact iff_of_true rfl (.inl rfl)

lemma State.Lifetimes.clientDestroy {caller : Option Nat} (h : S.clientDestroy caller c = some S') :
    S'.Lifetimes := by
  simp only [State.clientDestroy, Option.ite_none_right_eq_some, Option.some.injEq,
    Bool.and_eq_true] at h
  obtain ⟨⟨halive, -⟩, rfl⟩ := h
  obtain ⟨C, hC, hphase⟩ := (Option.any_eq_true _ _).mp halive
  have hphase : C.phase = .alive := by simpa using hphase
  have hset : S.clients.modify c ({ · with holds := false, phase := .closing caller }) =
      S.clients.set c { C with holds := false, phase := .closing caller } := by
    rw [List.modify_eq_set_getElem?, hC]
    rfl
  have hlt : c < S.clients.length := (List.getElem?_eq_some_iff.mp hC).1
  rw [hset]
  have hok := hS.ok C (List.mem_of_getElem? hC)
  refine State.Counted.unref ⟨?_, hS.stopped, ?_, ?_⟩ ?_ ?_
  · have htotal := total_set (f := Client.weight)
      (q := { C with holds := false, phase := .closing caller }) hC
    simp only [Client.weight, hphase] at htotal
    show S.count = _
    rw [hS.count]
    simpa using htotal.symm
  · intro C' hC'
    obtain hC' | rfl := List.mem_or_eq_of_mem_set hC'
    · exact hS.ok C' hC'
    · exact ⟨iff_of_false Bool.false_ne_true (by simp), hok.codec, hok.impl⟩
  · rw [List.length_set]
    exact hS.known
  · intro j C' hj hC'
    rw [List.getElem?_set_ne (Ne.symm hj)] at hC'
    exact hS.connection j C' hC'
  · intro C' hC' _
    rw [List.getElem?_set_self hlt] at hC'
    obtain rfl := Option.some.inj hC'
    exact (hS.connection c C hC).mpr (.inl (hok.holds.mpr hphase))

lemma State.Lifetimes.shutdown (h : S.shutdown c = some S') : S'.Lifetimes := by
  obtain ⟨C, hC, h⟩ := Option.bind_eq_some_iff.mp h
  cases hphase : C.phase with
  | alive | gone => simp [hphase] at h
  | closing caller =>
    have hok := hS.ok C (List.mem_of_getElem? hC)
    have htotal := total_set (f := Client.weight) (q := { C with phase := .gone }) hC
    simp only [Client.weight, hphase] at htotal
    have hcount := hS.count
    have hok' (C' : Client) (hC' : C' ∈ S.clients.set c { C with phase := .gone }) : C'.Ok := by
      obtain hC' | rfl := List.mem_or_eq_of_mem_set hC'
      · exact hS.ok C' hC'
      · exact ⟨iff_of_false (by simp [hok.holds, hphase]) nofun, hok.codec, hok.impl⟩
    have hconnection (j : Nat) (C' : Client)
        (hC' : (S.clients.set c { C with phase := .gone })[j]? = some C') :
        C'.connection.isSome = true ↔ C'.holds = true ∨ S.Held j := by
      rw [List.getElem?_set] at hC'
      split_ifs at hC' with hj
      · obtain rfl := hj
        obtain rfl := Option.some.inj hC'
        exact hS.connection c C hC
      · exact hS.connection j C' hC'
    have hknown :
        ∀ w j, (w, j) ∈ S.refs → j < (S.clients.set c { C with phase := .gone }).length := by
      rw [List.length_set]
      exact hS.known
    simp only [hphase] at h
    split_ifs at h with hone hjoined
    · obtain rfl := Option.some.inj h
      refine ⟨⟨?_, fun _ w c hr => ?_, hok', hknown⟩, hconnection⟩
      · show 0 = total Client.weight (S.clients.set c { C with phase := .gone })
        simp at htotal
        omega
      · have hw := List.all_eq_true.mp hjoined (w, c) hr
        simp only [Bool.or_eq_true, decide_eq_true_eq] at hw
        refine List.mem_append.mpr (hw.imp_left ?_)
        rintro rfl
        exact List.mem_singleton_self w
    · obtain rfl := Option.some.inj h
      refine ⟨⟨?_, fun hzero => ?_, hok', hknown⟩, hconnection⟩
      · show S.count - 1 = total Client.weight (S.clients.set c { C with phase := .gone })
        simp at htotal
        omega
      · have hzero : S.count - 1 = 0 := hzero
        simp at htotal
        omega

lemma State.Lifetimes.take (h : S.take w c = some S') : S'.Lifetimes := by
  simp only [State.take, Option.ite_none_right_eq_some, Option.some.injEq, Bool.and_eq_true] at h
  obtain ⟨⟨hconn, hrunning⟩, rfl⟩ := h
  obtain ⟨C, hC, hsome⟩ := (Option.any_eq_true _ _).mp hconn
  refine ⟨⟨hS.count, ?_, hS.ok, ?_⟩, ?_⟩
  · intro hzero w' c' hr
    obtain heq | hr := List.mem_cons.mp hr
    · obtain ⟨rfl, rfl⟩ := Prod.mk.inj heq
      -- without a runtime, the worker was running before
      simp only [show S.count = 0 from hzero, ne_eq, not_true, decide_false, Bool.false_or,
        List.any_eq_true, decide_eq_true_eq, Prod.exists] at hrunning
      obtain ⟨w₀, c₀, hr₀, rfl⟩ := hrunning
      exact hS.stopped hzero w₀ c₀ hr₀
    · exact hS.stopped hzero w' c' hr
  · intro w' c' hr
    obtain heq | hr := List.mem_cons.mp hr
    · obtain ⟨rfl, rfl⟩ := Prod.mk.inj heq
      exact (List.getElem?_eq_some_iff.mp hC).1
    · exact hS.known w' c' hr
  · intro j C' hC'
    rw [hS.connection j C' hC']
    by_cases hj : j = c
    · obtain rfl := hj
      obtain rfl : C' = C := Option.some.inj (hC'.symm.trans hC)
      exact iff_of_true ((hS.connection j C' hC').mp hsome) (.inr ⟨w, List.mem_cons_self⟩)
    · simp [State.Held, hj]

lemma State.Lifetimes.drop (h : S.drop w c = some S') : S'.Lifetimes := by
  simp only [State.drop, Option.ite_none_right_eq_some, Option.some.injEq] at h
  obtain ⟨hr, rfl⟩ := h
  refine State.Counted.unref ⟨hS.count, ?_, hS.ok, ?_⟩ ?_ ?_
  · intro hzero w' c' hr'
    exact hS.stopped hzero w' c' (List.mem_of_mem_erase hr')
  · intro w' c' hr'
    exact hS.known w' c' (List.mem_of_mem_erase hr')
  · intro j C hj hC
    rw [hS.connection j C hC]
    refine or_congr_right (exists_congr fun w' => ?_)
    exact (List.mem_erase_of_ne (by simp [hj])).symm
  · intro C hC hheld
    refine (hS.connection c C hC).mpr (hheld.imp_right ?_)
    rintro ⟨w', hw'⟩
    exact ⟨w', List.mem_of_mem_erase hw'⟩

end steps

theorem State.Lifetimes.step {l : Label} (hS : S.Lifetimes) (h : Step S l S') : S'.Lifetimes := by
  cases h with
  | null => exact hS
  | codecNew valid => cases valid <;> exact hS.of_eq rfl rfl rfl rfl
  | codecDestroy h =>
    obtain ⟨W, -, rfl⟩ := Option.map_eq_some_iff.mp h
    cases W.codec <;> exact hS.of_eq rfl rfl rfl rfl
  | optionsNew => exact hS.of_eq rfl rfl rfl rfl
  | optionsDestroy h =>
    obtain ⟨O, -, rfl⟩ := Option.map_eq_some_iff.mp h
    cases O.codec <;> cases O.localAddressCopy <;> exact hS.of_eq rfl rfl rfl rfl
  | setCodec h =>
    obtain ⟨O, -, h⟩ := Option.bind_eq_some_iff.mp h
    obtain ⟨W, -, rfl⟩ := Option.map_eq_some_iff.mp h
    cases O.codec <;> exact hS.of_eq rfl rfl rfl rfl
  | @setLocalAddress _ localAddress _ h =>
    obtain ⟨O, -, rfl⟩ := Option.map_eq_some_iff.mp h
    cases localAddress <;> cases O.localAddressCopy <;> exact hS.of_eq rfl rfl rfl rfl
  | clientNew h => exact hS.clientNew h
  | clientDestroy h => exact hS.clientDestroy h
  | shutdown h => exact hS.shutdown h
  | connect h =>
    obtain rfl := State.connect_eq_some h
    exact hS.modify (fun _ => rfl) rfl rfl rfl rfl
  | take h => exact hS.take h
  | drop h => exact hS.drop h
  | connectResolved h =>
    obtain ⟨C, N, -, -, rfl⟩ := State.connectResolved_eq_some h
    exact hS.modify (fun _ => rfl) rfl rfl rfl rfl

end Connx.Bridge
