import Connx.Bridge.Basic
import Connx.Lib.Ledger
import Connx.Lib.Pool

/-!
# Who owns a codec

The calls of the C API put codecs into slots, move them and free them: the ledger stays linear.
-/

namespace Connx.Bridge

open Ledger Function

variable {S S' : State} {o w c k : Nat}

/-- The objects that own codecs. -/
inductive Slot where
  | wrapper (w : Nat)
  | options (o : Nat)
  | client (c : Nat)
  deriving DecidableEq, Repr

/-- The codec pointer of an object that has not been deleted. -/
def State.content (S : State) : Slot → Option Nat
  | .wrapper w => (S.wrapper w).bind Wrapper.codec
  | .options o => (S.optionsAt o).bind Options.codec
  | .client c => S.clients[c]?.bind fun C => C.connection.bind Connection.codec

def State.deletes (S : State) (k : Nat) : Nat := S.codecs[k]?.getD 0

def State.Born (S : State) (k : Nat) : Prop := k < S.codecs.length

/-- Every codec is in one slot or has been deleted once. -/
def State.Owned (S : State) : Prop := Linear S.content S.deletes S.Born

/-! ### Slots under updates -/

section slots

variable {α : Type} {xs : List (Option α)} {x : Option α} {f : α → Option Nat}

lemma join_set (h : xs[w]?.join.isSome = true) (j : Nat) :
    (xs.set w x)[j]?.join = if j = w then x else xs[j]?.join := by
  have hlt : w < xs.length := by
    by_contra hge
    simp [List.getElem?_eq_none (Nat.le_of_not_lt hge)] at h
  rw [List.getElem?_set]
  by_cases hj : w = j
  · subst hj
    simp [hlt]
  · rw [if_neg hj, if_neg (Ne.symm hj)]

lemma join_snoc (j : Nat) : (xs ++ [x])[j]?.join = if j = xs.length then x else xs[j]?.join := by
  rw [List.getElem?_append]
  split_ifs with hlt hj hj
  · omega
  · rfl
  · simp [hj]
  · rw [List.getElem?_eq_none (by simp; omega), List.getElem?_eq_none (by omega)]

end slots

@[simp] lemma State.delete_wrappers (k : Option Nat) : (S.delete k).wrappers = S.wrappers := by
  cases k <;> rfl

@[simp] lemma State.delete_options (k : Option Nat) : (S.delete k).options = S.options := by
  cases k <;> rfl

@[simp] lemma State.delete_clients (k : Option Nat) : (S.delete k).clients = S.clients := by
  cases k <;> rfl

@[simp] lemma State.delete_strings (k : Option Nat) : (S.delete k).strings = S.strings := by
  cases k <;> rfl

@[simp] lemma State.free_codecs (p : Option Nat) : (S.free p).codecs = S.codecs := by
  cases p <;> rfl

/-- Deleting what a slot points to, and clearing the slot. -/
lemma State.Owned.delete (hS : S.Owned) {s : Slot}
    (hcodecs : S'.codecs = (S.delete (S.content s)).codecs)
    (hcontent : S'.content = update S.content s none) : S'.Owned := by
  cases hs : S.content s with
  | none =>
    rw [hs] at hcodecs
    rw [← hs, update_eq_self] at hcontent
    rw [State.Owned, hcontent]
    have hdeletes : S'.deletes = S.deletes := by
      funext k
      rw [State.deletes, hcodecs]
      rfl
    have hborn : S'.Born = S.Born := by
      funext k
      rw [State.Born, hcodecs]
      rfl
    rw [hdeletes, hborn]
    exact hS
  | some k =>
    rw [hs] at hcodecs
    have hlt : k < S.codecs.length := hS.known s k hs
    have hdeletes : S'.deletes = update S.deletes k (S.deletes k + 1) := by
      funext j
      rw [State.deletes, hcodecs]
      by_cases hj : j = k
      · obtain rfl := hj
        simp [State.delete, State.deletes, hlt]
      · simp [State.delete, State.deletes, Ne.symm hj, hj]
    have hborn : S'.Born = S.Born := by
      funext j
      rw [State.Born, hcodecs]
      simp [State.delete, State.Born]
    rw [State.Owned, hcontent, hdeletes, hborn]
    exact Linear.free hS hs

lemma State.Owned.of_eq (hS : S.Owned) (hcodecs : S'.codecs = S.codecs)
    (hcontent : S'.content = S.content) : S'.Owned := by
  have hdeletes : S'.deletes = S.deletes := by
    funext k
    rw [State.deletes, hcodecs]
    rfl
  have hborn : S'.Born = S.Born := by
    funext k
    rw [State.Born, hcodecs]
    rfl
  rw [State.Owned, hcontent, hdeletes, hborn]
  exact hS

/-- A pointer is copied to an empty slot and cleared where it was. -/
lemma State.Owned.move (hS : S.Owned) {s d : Slot} (hcodecs : S'.codecs = S.codecs)
    (hd : S.content d = none)
    (hcontent : S'.content = update (update S.content s none) d (S.content s)) : S'.Owned := by
  cases hs : S.content s with
  | none =>
    refine hS.of_eq hcodecs ?_
    rw [hcontent, hs, ← hs, update_eq_self, hs, ← hd, update_eq_self]
  | some k =>
    have hmoved : Linear S'.content S.deletes S.Born := by
      rw [hcontent, hs]
      exact Linear.move hS hs hd
    exact State.Owned.of_eq (S := { S' with codecs := S.codecs }) hmoved hcodecs rfl

section content

variable (hoptions : S'.options = S.options) (hclients : S'.clients = S.clients)
  (hwrappers : S'.wrappers = S.wrappers)

include hoptions hclients in
lemma State.content_set_wrapper {x : Option Wrapper} {v : Option Nat}
    (hw : (S.wrapper w).isSome = true) (hset : S'.wrappers = S.wrappers.set w x)
    (hv : x.bind Wrapper.codec = v) : S'.content = update S.content (.wrapper w) v := by
  subst hv
  funext s
  cases s with
  | wrapper j =>
    rw [State.content, State.wrapper, hset, join_set hw]
    by_cases hj : j = w
    · rw [if_pos hj, hj, update_self]
    · rw [if_neg hj, update_of_ne (by simpa using hj)]
      rfl
  | options j =>
    rw [update_of_ne (by simp)]
    simp only [State.content, State.optionsAt, hoptions]
  | client j =>
    rw [update_of_ne (by simp)]
    simp only [State.content, hclients]

include hwrappers hclients in
lemma State.content_set_options {x : Option Options} {v : Option Nat}
    (ho : (S.optionsAt o).isSome = true) (hset : S'.options = S.options.set o x)
    (hv : x.bind Options.codec = v) : S'.content = update S.content (.options o) v := by
  subst hv
  funext s
  cases s with
  | options j =>
    rw [State.content, State.optionsAt, hset, join_set ho]
    by_cases hj : j = o
    · rw [if_pos hj, hj, update_self]
    · rw [if_neg hj, update_of_ne (by simpa using hj)]
      rfl
  | wrapper j =>
    rw [update_of_ne (by simp)]
    simp only [State.content, State.wrapper, hwrappers]
  | client j =>
    rw [update_of_ne (by simp)]
    simp only [State.content, hclients]

include hwrappers hoptions in
lemma State.content_client (hne : ∀ j, j ≠ c → S'.clients[j]?.bind (fun C => C.connection) =
      S.clients[j]?.bind fun C => C.connection) :
    S'.content = update S.content (.client c)
      (S'.clients[c]?.bind fun C => C.connection.bind Connection.codec) := by
  have hbind (clients : List Client) (j : Nat) :
      (clients[j]?.bind fun C => C.connection.bind Connection.codec) =
        (clients[j]?.bind fun C => C.connection).bind Connection.codec := by
    cases clients[j]? <;> rfl
  funext s
  cases s with
  | client j =>
    by_cases hj : j = c
    · rw [hj, update_self]
      rfl
    · rw [update_of_ne (by simpa using hj), State.content, State.content, hbind, hbind, hne j hj]
  | wrapper j =>
    rw [update_of_ne (by simp)]
    simp only [State.content, State.wrapper, hwrappers]
  | options j =>
    rw [update_of_ne (by simp)]
    simp only [State.content, State.optionsAt, hoptions]

end content

/-! ### Calls -/

section calls

variable (hS : S.Owned)
include hS

lemma State.Owned.codecNew (valid : Bool) : (S.codecNew valid).Owned := by
  cases valid with
  | false => exact hS
  | true =>
    have hempty : S.content (.wrapper S.wrappers.length) = none := by
      simp [State.content, State.wrapper]
    have hcontent : (S.codecNew true).content =
        update S.content (.wrapper S.wrappers.length) (some S.codecs.length) := by
      funext s
      cases s with
      | wrapper j =>
        show ((S.wrappers ++ [some { codec := some S.codecs.length }])[j]?.join).bind _ = _
        rw [join_snoc]
        by_cases hj : j = S.wrappers.length
        · rw [if_pos hj, hj, update_self]
          rfl
        · rw [if_neg hj, update_of_ne (by simpa using hj)]
          rfl
      | options j | client j => rw [update_of_ne (by simp)]; rfl
    have hdeletes : (S.codecNew true).deletes = S.deletes := by
      funext k
      simp only [State.deletes, State.codecNew, if_true, List.getElem?_append]
      split_ifs with hlt
      · rfl
      · rw [List.getElem?_eq_none (Nat.le_of_not_lt hlt)]
        cases hk : k - S.codecs.length <;> simp
    have hborn : (S.codecNew true).Born = fun j => j = S.codecs.length ∨ S.Born j := by
      funext k
      simp only [State.Born, State.codecNew, if_true, List.length_append, List.length_singleton]
      exact propext ⟨fun h => by omega, fun h => by omega⟩
    rw [State.Owned, hcontent, hdeletes, hborn]
    exact Linear.put hS hempty (lt_irrefl _)

lemma State.Owned.codecDestroy (h : S.codecDestroy w = some S') : S'.Owned := by
  obtain ⟨W, hW, rfl⟩ := Option.map_eq_some_iff.mp h
  have hcontent : S.content (.wrapper w) = W.codec := by simp [State.content, hW]
  refine hS.delete (s := .wrapper w) (by rw [hcontent]) ?_
  refine State.content_set_wrapper (S := S) ?_ ?_ (by rw [hW]; rfl) rfl rfl
  · exact State.delete_options _
  · exact State.delete_clients _

lemma State.Owned.optionsNew : S.optionsNew.Owned := by
  refine hS.of_eq rfl ?_
  funext s
  cases s with
  | wrapper | client => rfl
  | options j =>
    show ((S.options ++ [some ({} : Options)])[j]?.join).bind _ = _
    rw [join_snoc]
    split_ifs with hj
    · simp [hj, State.content, State.optionsAt]
    · rfl

lemma State.Owned.optionsDestroy (h : S.optionsDestroy o = some S') : S'.Owned := by
  obtain ⟨O, hO, rfl⟩ := Option.map_eq_some_iff.mp h
  have hcontent : S.content (.options o) = O.codec := by simp [State.content, hO]
  refine hS.delete (s := .options o) ?_ ?_
  · rw [hcontent]
    cases O.codec <;> cases O.localAddressCopy <;> rfl
  · refine State.content_set_options (S := S) ?_ ?_ (by rw [hO]; rfl) rfl rfl
    all_goals cases O.codec <;> cases O.localAddressCopy <;> rfl

/-- The previous codec of the options is deleted, then that of the wrapper is moved. -/
lemma State.Owned.setCodec (h : S.setCodec o w = some S') : S'.Owned := by
  obtain ⟨O, hO, h⟩ := Option.bind_eq_some_iff.mp h
  obtain ⟨W, hW, rfl⟩ := Option.map_eq_some_iff.mp h
  have hcontent : S.content (.options o) = O.codec := by simp [State.content, hO]
  let S₁ : State :=
    { S.delete O.codec with options := S.options.set o (some { O with codec := none }) }
  have hcontent₁ : S₁.content = update S.content (.options o) none := by
    refine State.content_set_options (S := S) ?_ ?_ (by rw [hO]; rfl) rfl rfl
    · exact State.delete_clients _
    · exact State.delete_wrappers _
  have hS₁ : S₁.Owned := hS.delete (s := .options o) (by rw [hcontent]) hcontent₁
  have hwrapper : S₁.content (.wrapper w) = W.codec := by
    rw [hcontent₁, update_of_ne (by simp)]
    simp [State.content, hW]
  let S₂ : State := { S₁ with wrappers := S.wrappers.set w (some { W with codec := none }) }
  have hW₁ : S₁.wrapper w = some W := by
    rw [State.wrapper, show S₁.wrappers = S.wrappers from State.delete_wrappers _]
    exact hW
  have hcontent₂ : S₂.content = update S₁.content (.wrapper w) none := by
    refine State.content_set_wrapper (S := S₁) (x := some { W with codec := none }) ?_ ?_
      (by rw [hW₁]; rfl) ?_ rfl
    · rfl
    · rfl
    show S.wrappers.set w _ = (S.delete O.codec).wrappers.set w _
    rw [State.delete_wrappers]
  have hS₂ : (S₂.optionsAt o).isSome = true := by
    rw [State.optionsAt, join_set (by rw [← State.optionsAt, hO]; rfl), if_pos rfl]
    rfl
  refine hS₁.move (s := .wrapper w) (d := .options o) rfl (by rw [hcontent₁, update_self]) ?_
  rw [hwrapper, ← hcontent₂]
  refine State.content_set_options (S := S₂) (x := some { O with codec := W.codec })
    ?_ ?_ hS₂ ?_ rfl
  · rfl
  · rfl
  · exact (List.set_set ..).symm

lemma State.Owned.setLocalAddress {localAddress : Option Text}
    (h : S.setLocalAddress o localAddress = some S') : S'.Owned := by
  obtain ⟨O, hO, rfl⟩ := Option.map_eq_some_iff.mp h
  have hcontent : S.content (.options o) = O.codec := by simp [State.content, hO]
  have hsome : (S.optionsAt o).isSome = true := by rw [hO]; rfl
  refine hS.of_eq ?_ ?_
  · cases localAddress <;> exact State.free_codecs _
  · rw [← update_eq_self (.options o) S.content, hcontent]
    cases localAddress with
    | none =>
      refine State.content_set_options (S := S) ?_ ?_ hsome
        (x := some { O with localAddressCopy := none, localAddress := none }) rfl rfl
      all_goals cases O.localAddressCopy <;> rfl
    | some text =>
      refine State.content_set_options (S := S) ?_ ?_ hsome
        (x := some { O with
          localAddressCopy := some S.strings.length, localAddress := some S.strings.length })
        rfl rfl
      all_goals cases O.localAddressCopy <;> rfl

/-- The codec goes from the options to the connection of the new client. -/
lemma State.Owned.clientNew {handler init : Bool} (h : S.clientNew handler o init = some S') :
    S'.Owned := by
  obtain ⟨O, hO, rfl⟩ := Option.map_eq_some_iff.mp h
  split_ifs
  · exact hS
  · have hcontent : S.content (.options o) = O.codec := by simp [State.content, hO]
    refine hS.move (s := .options o) (d := .client S.clients.length) rfl
      (by simp [State.content]) ?_
    rw [hcontent]
    let S₁ : State := { S with options := S.options.set o (some { O with codec := none }) }
    have hcontent₁ : S₁.content = update S.content (.options o) none := by
      refine State.content_set_options (S := S) ?_ ?_ (by rw [hO]; rfl)
        (show S₁.options = _ from rfl) rfl
      · rfl
      · rfl
    rw [← hcontent₁]
    refine (State.content_client (S := S₁) (c := S.clients.length) ?_ ?_ ?_).trans ?_
    · rfl
    · rfl
    · intro j hj
      rw [List.getElem?_append]
      split_ifs with hlt
      · rfl
      · rw [List.getElem?_eq_none (by simp; omega), List.getElem?_eq_none (Nat.le_of_not_lt hlt)]
    · simp [State.start]

lemma State.Owned.of_connections (hcodecs : S'.codecs = S.codecs)
    (hwrappers : S'.wrappers = S.wrappers) (hoptions : S'.options = S.options)
    (hclients : S'.clients.map Client.connection = S.clients.map Client.connection) : S'.Owned := by
  refine hS.of_eq hcodecs ?_
  have hbind (clients : List Client) (j : Nat) :
      (clients[j]?.bind fun C => C.connection.bind Connection.codec) =
        ((clients.map Client.connection)[j]?.join).bind Connection.codec := by
    rw [List.getElem?_map]
    cases clients[j]? <;> rfl
  funext s
  cases s with
  | client j => rw [State.content, State.content, hbind, hbind, hclients]
  | wrapper | options => simp only [State.content, State.wrapper, State.optionsAt, *]

omit hS in
lemma map_connection_modify {f : Client → Client} (hf : ∀ C, (f C).connection = C.connection) :
    (S.clients.modify c f).map Client.connection = S.clients.map Client.connection := by
  refine List.ext_getElem? fun j => ?_
  rw [List.getElem?_map, List.getElem?_map, List.getElem?_modify]
  cases S.clients[j]? with
  | none => rfl
  | some C => by_cases hj : c = j <;> simp [hj, hf]

/-- The last reference is gone: the connection deletes its codec. -/
lemma State.Owned.unref (c : Nat) : (S.unref c).Owned := by
  rw [State.unref]
  split_ifs
  · exact hS
  · refine hS.delete (s := .client c) rfl ?_
    refine (State.content_client (S := S) (c := c) ?_ ?_ ?_).trans ?_
    · exact State.delete_options _
    · exact State.delete_wrappers _
    · intro j hj
      simp [Ne.symm hj]
    · congr 1
      simp only [List.getElem?_modify_eq]
      cases S.clients[c]? <;> rfl

end calls

theorem State.Owned.step {l : Label} (hS : S.Owned) (h : Step S l S') : S'.Owned := by
  cases h with
  | null => exact hS
  | codecNew valid => exact hS.codecNew valid
  | codecDestroy h => exact hS.codecDestroy h
  | optionsNew => exact hS.optionsNew
  | optionsDestroy h => exact hS.optionsDestroy h
  | setCodec h => exact hS.setCodec h
  | setLocalAddress h => exact hS.setLocalAddress h
  | clientNew h => exact hS.clientNew h
  | clientDestroy h =>
    simp only [State.clientDestroy, Option.ite_none_right_eq_some, Option.some.injEq] at h
    obtain ⟨-, rfl⟩ := h
    refine State.Owned.unref ?_ _
    exact hS.of_connections rfl rfl rfl (map_connection_modify fun _ => rfl)
  | connect h =>
    obtain rfl := State.connect_eq_some h
    exact hS.of_connections rfl rfl rfl (map_connection_modify fun _ => rfl)
  | connectResolved h =>
    obtain ⟨C, N, -, -, rfl⟩ := State.connectResolved_eq_some h
    exact hS.of_connections rfl rfl rfl (map_connection_modify fun _ => rfl)
  | shutdown h =>
    obtain ⟨C, hC, h⟩ := Option.bind_eq_some_iff.mp h
    split at h
    · split_ifs at h <;> obtain rfl := Option.some.inj h
      all_goals exact hS.of_connections rfl rfl rfl (Pool.map_set_of_eq hC rfl)
    · cases h
  | take h =>
    simp only [State.take, Option.ite_none_right_eq_some, Option.some.injEq] at h
    obtain ⟨-, rfl⟩ := h
    exact hS.of_connections rfl rfl rfl rfl
  | drop h =>
    simp only [State.drop, Option.ite_none_right_eq_some, Option.some.injEq] at h
    obtain ⟨-, rfl⟩ := h
    refine State.Owned.unref ?_ _
    exact hS.of_connections rfl rfl rfl rfl

end Connx.Bridge
