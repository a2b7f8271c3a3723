import Connx.Bridge.Lifetime

/-!
# Linear ownership of codecs

Whatever the order of the calls, a codec belongs to its wrapper, to one options object or to one
client, until it is deleted, once; and nothing is left when all handles have been destroyed and the
worker that destroyed the last one, if it was one, has ended its task.
-/

namespace Connx.Bridge

open Run Ledger

variable {S : State}

inductive Owner where
  | wrapper (w : Nat)
  | options (o : Nat)
  | client (c : Nat)
  | deleted
  deriving DecidableEq, Repr

def State.Owns (S : State) (k : Nat) : Owner → Prop
  | .wrapper w => ∃ W, S.wrapper w = some W ∧ W.codec = some k
  | .options o => ∃ O, S.optionsAt o = some O ∧ O.codec = some k
  | .client c => ∃ C N, S.clients[c]? = some C ∧ C.connection = some N ∧ N.codec = some k
  | .deleted => S.codecs[k]? = some 1

/-- Every handle has been destroyed. -/
structure State.HandlesDestroyed (S : State) : Prop where
  wrappers : ∀ w, S.wrapper w = none
  options : ∀ o, S.optionsAt o = none
  clients : ∀ C ∈ S.clients, C.phase = .gone

/-- Every handle has been destroyed, and no worker that was detached because a callback on it made
the last destroy call still refers to a connection. -/
structure State.AllDestroyed (S : State) : Prop extends S.HandlesDestroyed where
  callers : ∀ w ∈ S.detached, ∀ c, (w, c) ∉ S.refs

def Slot.owner : Slot → Owner
  | .wrapper w => .wrapper w
  | .options o => .options o
  | .client c => .client c

section owned

variable {k : Nat} (hS : S.Owned)
include hS

omit hS in
lemma State.codecs_eq_some {n : Nat} (hk : k < S.codecs.length) :
    S.codecs[k]? = some n ↔ S.deletes k = n := by
  simp [State.deletes, hk]

lemma State.Owned.live {s : Slot} (hs : S.content s = some k) : S.codecs[k]? = some 0 :=
  (State.codecs_eq_some (Linear.known hS s k hs)).mpr (Linear.live hS s k hs)

end owned

/-- A connection that is referenced is there, and has a codec. -/
lemma State.Lifetimes.owns {c : Nat} (hS : S.Lifetimes)
    (h : S.Held c ∨ ∃ C, S.clients[c]? = some C ∧ C.phase = .alive) :
    ∃ k, S.Owns k (.client c) := by
  have hsome : ∃ C, S.clients[c]? = some C ∧ C.connection.isSome = true := by
    obtain ⟨w, hw⟩ | ⟨C, hC, hphase⟩ := h
    · have hC := List.getElem?_eq_getElem (hS.known w c hw)
      exact ⟨_, hC, (hS.connection c _ hC).mpr (.inr ⟨w, hw⟩)⟩
    · have hholds := (hS.ok C (List.mem_of_getElem? hC)).holds.mpr hphase
      exact ⟨C, hC, (hS.connection c C hC).mpr (.inl hholds)⟩
  obtain ⟨C, hC, hconn⟩ := hsome
  obtain ⟨N, hN⟩ := Option.isSome_iff_exists.mp hconn
  obtain ⟨k, hk⟩ := Option.isSome_iff_exists.mp ((hS.ok C (List.mem_of_getElem? hC)).codec N hN)
  exact ⟨k, C, N, hC, hN, hk⟩

/-- When everything has been destroyed nobody points to a codec. -/
lemma State.AllDestroyed.content (h : S.AllDestroyed) (hS : S.Lifetimes) (s : Slot) :
    S.content s = none := by
  cases s with
  | wrapper w => simp [State.content, h.wrappers]
  | options o => simp [State.content, h.options]
  | client c =>
    have hcount : S.count = 0 := by
      rw [hS.count, Pool.total_eq_zero]
      intro C hC
      rw [Client.weight, if_pos (h.clients C hC)]
    cases hC : S.clients[c]? with
    | none => simp [State.content, hC]
    | some C =>
      have hconn : ¬ C.connection.isSome = true := by
        rw [hS.connection c C hC, (hS.ok C (List.mem_of_getElem? hC)).holds,
          h.clients C (List.mem_of_getElem? hC)]
        rintro (hphase | ⟨w, hw⟩)
        · cases hphase
        · exact h.callers w (hS.stopped hcount w c hw) c hw
      simp only [Bool.not_eq_true, Option.isSome_eq_false_iff, Option.isNone_iff_eq_none] at hconn
      simp [State.content, hC, hconn]

end Connx.Bridge
