import Connx.Bridge.Lifetime

/-!
# The local address of a client

A client keeps the pointer to the address string of the options it was made with. The string belongs
to the options: it stays what it was as long as they are neither destroyed nor given another address
while the client is there.
-/

namespace Connx.Bridge

open Run

variable {S S' : State} {o p : Nat} {O : Options} {N : Connection}

/-- No connection points to the address string of the options. -/
def State.isUnused (S : State) (o : Nat) : Bool :=
  (S.optionsAt o).all fun O => O.localAddressCopy.all fun p =>
    S.clients.all fun C => C.connection.all fun N => N.localAddress ≠ some p

/-- Options are destroyed or given another address only when no client uses the present one. -/
def State.allows (S : State) : Label → Bool
  | .optionsDestroy (some o) => S.isUnused o
  | .setLocalAddress (some o) _ => S.isUnused o
  | _ => true

/-! ### The invariant -/

/-- The string has not been freed. -/
def State.Live (S : State) (p : Nat) : Prop := ∃ cell, S.strings[p]? = some cell ∧ cell.frees = 0

/-- Options own the string they point to, each its own; and clients find what they were given. -/
structure State.Addresses (S : State) : Prop where
  owned : ∀ o O, S.optionsAt o = some O → O.localAddress = O.localAddressCopy ∧
    ∀ p, O.localAddressCopy = some p → S.Live p
  apart : ∀ o o' O O' p, S.optionsAt o = some O → S.optionsAt o' = some O' →
    O.localAddressCopy = some p → O'.localAddressCopy = some p → o = o'
  connection : ∀ C ∈ S.clients, ∀ N, C.connection = some N → S.readLocalAddress N = some N.asked

lemma addresses_init : State.Addresses {} where
  owned o O h := by cases h
  apart o o' O O' p h := by cases h
  connection C h := by cases h

lemma State.Live.lt (h : S.Live p) : p < S.strings.length :=
  have ⟨_, hcell, _⟩ := h
  (List.getElem?_eq_some_iff.mp hcell).1

lemma State.Live.of_eq (h : S.Live p) (hp : S'.strings[p]? = S.strings[p]?) : S'.Live p := by
  rw [State.Live, hp]
  exact h

lemma State.read_of_eq (hp : ∀ p, N.localAddress = some p → S'.strings[p]? = S.strings[p]?) :
    S'.readLocalAddress N = S.readLocalAddress N := by
  unfold State.readLocalAddress
  split
  · rfl
  · next p hN => rw [hp p hN]

/-- A string that is read is there. -/
lemma State.lt_of_read {x : Option Text} (h : S.readLocalAddress N = some x)
    (hN : N.localAddress = some p) : p < S.strings.length := by
  simp only [State.readLocalAddress, hN, Option.bind_eq_some_iff] at h
  obtain ⟨cell, hcell, -⟩ := h
  exact (List.getElem?_eq_some_iff.mp hcell).1

/-- Everything else stays: strings that are pointed to, the addresses of the options that are left,
and the connections that are left. -/
lemma State.Addresses.frame (hS : S.Addresses)
    (hstrings : ∀ p, p < S.strings.length →
      (∃ o O, S'.optionsAt o = some O ∧ O.localAddressCopy = some p) ∨
        (∃ C ∈ S'.clients, ∃ N, C.connection = some N ∧ N.localAddress = some p) →
      S'.strings[p]? = S.strings[p]?)
    (hoptions : ∀ o O', S'.optionsAt o = some O' → O'.localAddressCopy ≠ none →
      ∃ O, S.optionsAt o = some O ∧ O'.localAddress = O.localAddress ∧
        O'.localAddressCopy = O.localAddressCopy)
    (hnone : ∀ o O', S'.optionsAt o = some O' → O'.localAddressCopy = none → O'.localAddress = none)
    (hclients : ∀ C' ∈ S'.clients, ∀ N, C'.connection = some N →
      ∃ C ∈ S.clients, C.connection = some N) : S'.Addresses := by
  refine ⟨?_, ?_, ?_⟩
  · intro o O' hO'
    by_cases hcopy : O'.localAddressCopy = none
    · refine ⟨(hnone o O' hO' hcopy).trans hcopy.symm, fun p hp => ?_⟩
      simp [hcopy] at hp
    · obtain ⟨O, hO, haddr, hcopy'⟩ := hoptions o O' hO' hcopy
      obtain ⟨heq, hlive⟩ := hS.owned o O hO
      refine ⟨haddr.trans (heq.trans hcopy'.symm), fun p hp => ?_⟩
      have hp' := hlive p (hcopy'.symm.trans hp)
      exact hp'.of_eq (hstrings p hp'.lt (.inl ⟨o, O', hO', hp⟩))
  · intro o₁ o₂ O₁ O₂ p h₁ h₂ hp₁ hp₂
    obtain ⟨Q₁, hQ₁, -, hcopy₁⟩ := hoptions o₁ O₁ h₁ (by simp [hp₁])
    obtain ⟨Q₂, hQ₂, -, hcopy₂⟩ := hoptions o₂ O₂ h₂ (by simp [hp₂])
    exact hS.apart o₁ o₂ Q₁ Q₂ p hQ₁ hQ₂ (hcopy₁.symm.trans hp₁) (hcopy₂.symm.trans hp₂)
  · intro C' hC' N hN
    obtain ⟨C, hC, hN'⟩ := hclients C' hC' N hN
    have hread := hS.connection C hC N hN'
    rw [State.read_of_eq fun p hp => ?_]
    · exact hread
    · exact hstrings p (State.lt_of_read hread hp) (.inr ⟨C', hC', N, hN, hp⟩)

/-! ### Steps -/

lemma State.free_strings_ne {q : Option Nat} (hne : q ≠ some p) :
    (S.free q).strings[p]? = S.strings[p]? := by
  cases q with
  | none => rfl
  | some q =>
    have hqp : q ≠ p := fun heq => hne (by rw [heq])
    simp [State.free, hqp]

lemma State.optionsAt_set {x : Option Options} (hO : S.optionsAt o = some O)
    (hoptions : S'.options = S.options.set o x) (j : Nat) :
    S'.optionsAt j = if j = o then x else S.optionsAt j := by
  rw [State.optionsAt, hoptions, join_set (by rw [← State.optionsAt, hO]; rfl)]
  rfl

section steps

variable (hS : S.Addresses)
include hS

/-- The address of the options is freed and they no longer have one. -/
lemma State.Addresses.clear {x : Option Options} (hO : S.optionsAt o = some O)
    (hunused : S.isUnused o = true) (hx : ∀ O', x = some O' → O'.localAddressCopy = none ∧
      O'.localAddress = none)
    (hstrings : S'.strings = (S.free O.localAddressCopy).strings)
    (hoptions : S'.options = S.options.set o x) (hclients : S'.clients = S.clients) :
    S'.Addresses := by
  have hat := State.optionsAt_set hO hoptions
  have hne {j : Nat} {O' : Options} (hO' : S'.optionsAt j = some O')
      (hcopy : O'.localAddressCopy ≠ none) : j ≠ o ∧ S.optionsAt j = some O' := by
    rw [hat] at hO'
    split_ifs at hO' with hj
    · exact absurd (hx O' hO').1 hcopy
    · exact ⟨hj, hO'⟩
  refine hS.frame ?_ ?_ ?_ (by rw [hclients]; exact fun C hC N hN => ⟨C, hC, hN⟩)
  · intro p _ hused
    rw [hstrings]
    refine State.free_strings_ne fun hcopy => ?_
    obtain ⟨j, O', hO', hp⟩ | ⟨C, hC, N, hN, hp⟩ := hused
    · obtain ⟨hj, hO'⟩ := hne hO' (by simp [hp])
      exact hj (hS.apart j o O' O p hO' hO hp hcopy)
    · rw [hclients] at hC
      simp only [State.isUnused, hO, hcopy, Option.all_some, List.all_eq_true] at hunused
      simpa [hN, hp] using hunused C hC
  · intro j O' hO' hcopy
    exact ⟨O', (hne hO' hcopy).2, rfl, rfl⟩
  · intro j O' hO' hcopy
    rw [hat] at hO'
    split_ifs at hO'
    · exact (hx O' hO').2
    · exact (hS.owned j O' hO').1.trans hcopy

/-- A new string for options without an address. -/
lemma State.Addresses.assign (text : Text) (O' : Options) (hO : S.optionsAt o = some O)
    (hstrings : S'.strings = S.strings ++ [{ text := text }])
    (hcopy : O'.localAddressCopy = some S.strings.length)
    (haddr : O'.localAddress = some S.strings.length)
    (hoptions : S'.options = S.options.set o (some O')) (hclients : S'.clients = S.clients) :
    S'.Addresses := by
  have hat := State.optionsAt_set hO hoptions
  have hold {p : Nat} (hp : p < S.strings.length) : S'.strings[p]? = S.strings[p]? := by
    rw [hstrings, List.getElem?_append_left hp]
  have hnew : S'.Live S.strings.length := ⟨{ text := text }, by simp [hstrings], rfl⟩
  refine ⟨?_, ?_, ?_⟩
  · intro j Q hQ
    rw [hat] at hQ
    split_ifs at hQ with hj
    · obtain rfl := Option.some.inj hQ
      refine ⟨haddr.trans hcopy.symm, fun p hp => ?_⟩
      obtain rfl := Option.some.inj (hcopy.symm.trans hp)
      exact hnew
    · obtain ⟨heq, hlive⟩ := hS.owned j Q hQ
      exact ⟨heq, fun p hp => (hlive p hp).of_eq (hold (hlive p hp).lt)⟩
  · -- nobody else has the new string
    have hfresh {j : Nat} {Q : Options} (hQ : S.optionsAt j = some Q) :
        Q.localAddressCopy ≠ some S.strings.length := by
      intro hp
      exact lt_irrefl _ ((hS.owned j Q hQ).2 _ hp).lt
    intro j₁ j₂ Q₁ Q₂ p h₁ h₂ hp₁ hp₂
    rw [hat] at h₁ h₂
    split_ifs at h₁ h₂ with hj₁ hj₂ hj₂
    · rw [hj₁, hj₂]
    · obtain rfl := Option.some.inj h₁
      obtain rfl := Option.some.inj (hcopy.symm.trans hp₁)
      exact absurd hp₂ (hfresh h₂)
    · obtain rfl := Option.some.inj h₂
      obtain rfl := Option.some.inj (hcopy.symm.trans hp₂)
      exact absurd hp₁ (hfresh h₁)
    · exact hS.apart j₁ j₂ Q₁ Q₂ p h₁ h₂ hp₁ hp₂
  · rw [hclients]
    intro C hC N hN
    have hread := hS.connection C hC N hN
    rwa [State.read_of_eq fun p hp => hold (State.lt_of_read hread hp)]

lemma State.Addresses.setLocalAddress {localAddress : Option Text}
    (h : S.setLocalAddress o localAddress = some S') (hunused : S.isUnused o = true) :
    S'.Addresses := by
  obtain ⟨O, hO, rfl⟩ := Option.map_eq_some_iff.mp h
  cases localAddress with
  | none =>
    refine hS.clear hO hunused (x := some { O with localAddressCopy := none, localAddress := none })
      ?_ rfl rfl ?_
    · rintro O' ⟨rfl⟩
      exact ⟨rfl, rfl⟩
    · cases O.localAddressCopy <;> rfl
  | some text =>
    let S₁ : State := { S.free O.localAddressCopy with
      options := S.options.set o (some { O with localAddressCopy := none, localAddress := none }) }
    have hS₁ : S₁.Addresses := by
      refine hS.clear hO hunused
        (x := some { O with localAddressCopy := none, localAddress := none }) ?_ rfl rfl ?_
      · rintro O' ⟨rfl⟩
        exact ⟨rfl, rfl⟩
      · show (S.free O.localAddressCopy).clients = _
        cases O.localAddressCopy <;> rfl
    have hO₁ : S₁.optionsAt o = some { O with localAddressCopy := none, localAddress := none } := by
      rw [State.optionsAt_set hO rfl, if_pos rfl]
    have hlength : S₁.strings.length = S.strings.length := by
      show (S.free O.localAddressCopy).strings.length = _
      cases O.localAddressCopy <;> simp [State.free]
    refine hS₁.assign text { O with
      localAddressCopy := some S.strings.length, localAddress := some S.strings.length }
      hO₁ rfl ?_ ?_ ?_ rfl
    · rw [hlength]
    · rw [hlength]
    · exact (List.set_set ..).symm

/-- Strings and addresses of options stay, and there are no new connections. -/
lemma State.Addresses.of_eq (hstrings : S'.strings = S.strings)
    (hoptions : ∀ o O', S'.optionsAt o = some O' → (∃ O, S.optionsAt o = some O ∧
      O'.localAddress = O.localAddress ∧ O'.localAddressCopy = O.localAddressCopy))
    (hclients : ∀ C' ∈ S'.clients, ∀ N, C'.connection = some N →
      ∃ C ∈ S.clients, C.connection = some N) : S'.Addresses := by
  refine hS.frame (fun p _ _ => by rw [hstrings]) (fun o O' hO' _ => hoptions o O' hO') ?_ hclients
  intro o O' hO' hcopy
  obtain ⟨O, hO, haddr, hcopy'⟩ := hoptions o O' hO'
  exact haddr.trans ((hS.owned o O hO).1.trans (hcopy'.symm.trans hcopy))

/-- What was set in the options is what a client made with them reads. -/
lemma State.Addresses.read_start (hO : S.optionsAt o = some O)
    (hN : (S.start O).connection = some N) :
    S.readLocalAddress N = some N.asked := by
  obtain rfl := Option.some.inj hN
  obtain ⟨heq, hlive⟩ := hS.owned o O hO
  cases haddr : O.localAddress with
  | none => simp [State.readLocalAddress, State.textAt]
  | some p =>
    obtain ⟨cell, hcell, hfrees⟩ := hlive p (heq.symm.trans haddr)
    simp [State.readLocalAddress, State.textAt, hcell, hfrees]

lemma State.Addresses.clientNew {handler init : Bool} (h : S.clientNew handler o init = some S') :
    S'.Addresses := by
  obtain ⟨O, hO, rfl⟩ := Option.map_eq_some_iff.mp h
  split_ifs
  · exact hS
  have hbase :
      State.Addresses { S with options := S.options.set o (some { O with codec := none }) } := by
    refine hS.of_eq rfl ?_ fun C hC N hN => ⟨C, hC, hN⟩
    intro j O' hO'
    rw [State.optionsAt_set hO rfl] at hO'
    split_ifs at hO' with hj
    · obtain rfl := Option.some.inj hO'
      exact ⟨O, hj ▸ hO, rfl, rfl⟩
    · exact ⟨O', hO', rfl, rfl⟩
  refine ⟨hbase.owned, hbase.apart, fun C hC N hN => ?_⟩
  obtain hC | rfl := (List.mem_append.mp hC).imp_right List.mem_singleton.mp
  · exact hS.connection C hC N hN
  · exact hS.read_start hO hN

/-- Connections only disappear. -/
lemma State.Addresses.of_clients (hstrings : S'.strings = S.strings)
    (hoptions : S'.options = S.options)
    (hclients : ∀ C' ∈ S'.clients, ∀ N, C'.connection = some N →
      ∃ C ∈ S.clients, C.connection = some N) : S'.Addresses := by
  refine hS.of_eq hstrings (fun j O' hO' => ⟨O', ?_, rfl, rfl⟩) hclients
  rwa [State.optionsAt, ← hoptions]

lemma State.Addresses.unref (c : Nat) : (S.unref c).Addresses := by
  rw [State.unref]
  split_ifs
  · exact hS
  · refine hS.of_clients (State.delete_strings _) (State.delete_options _) fun C' hC' N hN => ?_
    obtain ⟨j, hj⟩ := List.mem_iff_getElem?.mp hC'
    simp only [List.getElem?_modify, Option.map_eq_map, Option.map_eq_some_iff] at hj
    obtain ⟨C, hC, rfl⟩ := hj
    split_ifs at hN
    exact ⟨C, List.mem_of_getElem? hC, hN⟩

end steps

theorem State.Addresses.step {l : Label} (hS : S.Addresses) (hallows : S.allows l = true)
    (h : Step S l S') : S'.Addresses := by
  cases h with
  | null => exact hS
  | codecNew valid => cases valid <;> exact hS.of_clients rfl rfl fun C hC N hN => ⟨C, hC, hN⟩
  | codecDestroy h =>
    obtain ⟨W, -, rfl⟩ := Option.map_eq_some_iff.mp h
    cases W.codec <;> exact hS.of_clients rfl rfl fun C hC N hN => ⟨C, hC, hN⟩
  | optionsNew =>
    refine hS.frame (fun _ _ _ => rfl) ?_ ?_ fun C hC N hN => ⟨C, hC, hN⟩
    all_goals
      intro j O' hO' hcopy
      rw [State.optionsAt, State.optionsNew, join_snoc] at hO'
      split_ifs at hO' with hj
    · obtain rfl := Option.some.inj hO'
      exact absurd rfl hcopy
    · exact ⟨O', hO', rfl, rfl⟩
    · obtain rfl := Option.some.inj hO'
      rfl
    · exact (hS.owned j O' hO').1.trans hcopy
  | optionsDestroy h =>
    obtain ⟨O, hO, rfl⟩ := Option.map_eq_some_iff.mp h
    refine hS.clear hO hallows (x := none) (by simp) (State.delete_strings _) rfl ?_
    cases O.codec <;> cases O.localAddressCopy <;> rfl
  | setCodec h =>
    obtain ⟨O, hO, h⟩ := Option.bind_eq_some_iff.mp h
    obtain ⟨W, -, rfl⟩ := Option.map_eq_some_iff.mp h
    refine hS.of_eq (State.delete_strings _) ?_ ?_
    · intro j O' hO'
      rw [State.optionsAt_set hO rfl] at hO'
      split_ifs at hO' with hj
      · obtain rfl := Option.some.inj hO'
        exact ⟨O, hj ▸ hO, rfl, rfl⟩
      · exact ⟨O', hO', rfl, rfl⟩
    · simp only [State.delete_clients]
      exact fun C hC N hN => ⟨C, hC, hN⟩
  | setLocalAddress h => exact hS.setLocalAddress h hallows
  | clientNew h => exact hS.clientNew h
  | clientDestroy h =>
    simp only [State.clientDestroy, Option.ite_none_right_eq_some, Option.some.injEq] at h
    obtain ⟨-, rfl⟩ := h
    refine State.Addresses.unref ?_ _
    refine hS.of_clients rfl rfl fun C' hC' N hN => ?_
    obtain ⟨C, hC, rfl | rfl⟩ := mem_modify hC'
    · exact ⟨C', hC, hN⟩
    · exact ⟨C, hC, hN⟩
  | shutdown h =>
    obtain ⟨C, hC, h⟩ := Option.bind_eq_some_iff.mp h
    split at h
    · split_ifs at h <;> obtain rfl := Option.some.inj h
      all_goals
        refine hS.of_clients rfl rfl fun C' hC' N hN => ?_
        obtain hC' | rfl := List.mem_or_eq_of_mem_set hC'
        · exact ⟨C', hC', hN⟩
        · exact ⟨C, List.mem_of_getElem? hC, hN⟩
    · cases h
  | connect h =>
    obtain rfl := State.connect_eq_some h
    refine hS.of_clients rfl rfl fun C' hC' N hN => ?_
    obtain ⟨C, hC, rfl | rfl⟩ := mem_modify hC'
    · exact ⟨C', hC, hN⟩
    · exact ⟨C, hC, hN⟩
  | connectResolved h =>
    obtain ⟨-, -, -, -, rfl⟩ := State.connectResolved_eq_some h
    refine hS.of_clients rfl rfl fun C' hC' N hN => ?_
    obtain ⟨C, hC, rfl | rfl⟩ := mem_modify hC'
    · exact ⟨C', hC, hN⟩
    · exact ⟨C, hC, hN⟩
  | take h =>
    simp only [State.take, Option.ite_none_right_eq_some, Option.some.injEq] at h
    obtain ⟨-, rfl⟩ := h
    exact hS.of_clients rfl rfl fun C hC N hN => ⟨C, hC, hN⟩
  | drop h =>
    simp only [State.drop, Option.ite_none_right_eq_some, Option.some.injEq] at h
    obtain ⟨-, rfl⟩ := h
    refine State.Addresses.unref ?_ _
    exact hS.of_clients rfl rfl fun C hC N hN => ⟨C, hC, hN⟩

/-! ### The sockets that are opened -/

@[simp] lemma State.delete_opened (k : Option Nat) : (S.delete k).opened = S.opened := by
  cases k <;> rfl

@[simp] lemma State.free_opened (p : Option Nat) : (S.free p).opened = S.opened := by
  cases p <;> rfl

@[simp] lemma State.unref_opened (c : Nat) : (S.unref c).opened = S.opened := by
  rw [State.unref]
  split_ifs
  · rfl
  · exact State.delete_opened _

/-- Only `ConnectResolved` opens a socket, for a connection that is there. -/
lemma Step.opened {l : Label} (h : Step S l S') : S'.opened = S.opened ∨
    ∃ C ∈ S.clients, ∃ N, C.connection = some N ∧
      S'.opened = { asked := N.asked, read := S.readLocalAddress N } :: S.opened := by
  cases h with
  | null => exact .inl rfl
  | codecNew valid => cases valid <;> exact .inl rfl
  | codecDestroy h =>
    obtain ⟨W, -, rfl⟩ := Option.map_eq_some_iff.mp h
    exact .inl (State.delete_opened _)
  | optionsNew => exact .inl rfl
  | optionsDestroy h =>
    obtain ⟨O, -, rfl⟩ := Option.map_eq_some_iff.mp h
    exact .inl ((State.delete_opened _).trans (State.free_opened _))
  | setCodec h =>
    obtain ⟨O, -, h⟩ := Option.bind_eq_some_iff.mp h
    obtain ⟨W, -, rfl⟩ := Option.map_eq_some_iff.mp h
    exact .inl (State.delete_opened _)
  | @setLocalAddress _ localAddress _ h =>
    obtain ⟨O, -, rfl⟩ := Option.map_eq_some_iff.mp h
    cases localAddress <;> exact .inl (State.free_opened _)
  | clientNew h =>
    obtain ⟨O, -, rfl⟩ := Option.map_eq_some_iff.mp h
    split_ifs <;> exact .inl rfl
  | clientDestroy h =>
    obtain ⟨-, h⟩ := Option.ite_none_right_eq_some.mp h
    obtain rfl := Option.some.inj h
    exact .inl (State.unref_opened _)
  | shutdown h =>
    obtain ⟨C, -, h⟩ := Option.bind_eq_some_iff.mp h
    split at h
    · split_ifs at h <;> obtain rfl := Option.some.inj h <;> exact .inl rfl
    · cases h
  | connect h =>
    obtain rfl := State.connect_eq_some h
    exact .inl rfl
  | take h =>
    obtain ⟨-, h⟩ := Option.ite_none_right_eq_some.mp h
    obtain rfl := Option.some.inj h
    exact .inl rfl
  | drop h =>
    obtain ⟨-, h⟩ := Option.ite_none_right_eq_some.mp h
    obtain rfl := Option.some.inj h
    exact .inl (State.unref_opened _)
  | connectResolved h =>
    obtain ⟨C, N, hC, hN, rfl⟩ := State.connectResolved_eq_some h
    exact .inr ⟨C, List.mem_of_getElem? hC, N, hN, rfl⟩

/-- Every socket was opened with the address that was asked for. -/
def State.OpensAsked (S : State) : Prop := ∀ q ∈ S.opened, q.read = some q.asked

lemma State.OpensAsked.step {l : Label} (hopens : S.OpensAsked) (hS : S.Addresses)
    (h : Step S l S') : S'.OpensAsked := by
  intro q hq
  obtain heq | ⟨C, hC, N, hN, heq⟩ := h.opened
  · exact hopens q (heq ▸ hq)
  · rw [heq] at hq
    obtain rfl | hq := List.mem_cons.mp hq
    · exact hS.connection C hC N hN
    · exact hopens q hq

/-! ### Runs -/

/-- In every run that `allows`, every `PlatformOpenSocket` that took place read the address that was
set in the options when the client was made, and so would one that takes place now. -/
theorem readLocalAddress_of_exec {ls : List Label} (h : exec State.step {} ls = some S)
    (hok : Meets State.step (fun S l => S.allows l = true) {} ls) :
    (∀ C ∈ S.clients, ∀ N, C.connection = some N → S.readLocalAddress N = some N.asked) ∧
      ∀ q ∈ S.opened, q.read = some q.asked := by
  have hinv : S.Addresses ∧ S.OpensAsked :=
    exec_invariant (I := fun S => S.Addresses ∧ S.OpensAsked) _
      (fun _ _ _ hS hallows hstep =>
        ⟨hS.1.step hallows (step_of hstep), hS.2.step hS.1 (step_of hstep)⟩)
      h hok ⟨addresses_init, fun q hq => by cases hq⟩
  exact ⟨hinv.1.connection, hinv.2⟩

/-- The options get an address and a codec and a client is made with them. -/
def makeClient : List Label :=
  [.optionsNew, .setLocalAddress (some 0) (some [49, 48]), .codecNew true,
    .setCodec (some 0) (some 0), .clientNew true (some 0) true]

/-- The client connects, and a worker opens a socket for it. -/
def connects : List Label := [.connect (some 0) true, .take 0 0, .connectResolved 0 0]

/-- The address of other options is changed before the client connects. -/
def otherOptions : List Label :=
  makeClient ++ [.optionsNew, .setLocalAddress (some 1) (some [50]),
    .setLocalAddress (some 1) none] ++ connects

theorem readLocalAddress_otherOptions : ∃ S q, exec State.step {} otherOptions = some S ∧
    S.opened = [q] ∧ q.asked = some [49, 48] ∧ q.read = some q.asked := by
  have hok : Meets State.step (fun S l => S.allows l = true) {} otherOptions :=
    meets_of_check State.allows (by decide)
  have hfacts : (exec State.step {} otherOptions).map State.opened =
      some [⟨some [49, 48], some (some [49, 48])⟩] := by
    decide
  obtain ⟨S, hS, hopened⟩ := Option.map_eq_some_iff.mp hfacts
  refine ⟨S, _, hS, hopened, rfl, (readLocalAddress_of_exec hS hok).2 _ ?_⟩
  rw [hopened]
  exact List.mem_singleton_self _

/-- The options are destroyed when the client has been made, and then it connects. -/
theorem not_readLocalAddress_optionsDestroyed : ∃ S q,
    exec State.step {} (makeClient ++ [.optionsDestroy (some 0)] ++ connects) = some S ∧
      S.opened = [q] ∧ q.asked = some [49, 48] ∧ q.read = none := by
  have hfacts : (exec State.step {} (makeClient ++ [.optionsDestroy (some 0)] ++ connects)).map
      State.opened = some [⟨some [49, 48], none⟩] := by
    decide
  obtain ⟨S, hS, hopened⟩ := Option.map_eq_some_iff.mp hfacts
  exact ⟨S, _, hS, hopened, rfl, rfl⟩

end Connx.Bridge
