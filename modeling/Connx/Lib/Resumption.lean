import Mathlib.Logic.Relation

/-!
# Resumptions: sequential code that is suspended in calls to its environment

A program over a state `σ` runs atomically up to its next call of the environment (a callback, a
request to another component). There it is suspended: the environment may change the state before
it lets the program go on with the state it then finds. `Resum` is the tree of what is left to
run, `Act` the monad of programs.

`Resum.Sat C G R Q` is a rely-guarantee judgement. Between two suspensions the program changes the
state only by `G`, and it makes each call `e` in a state satisfying `C e`; if during the call the
environment changes the state only by `R e`, the program ends with a result and a state satisfying
`Q`.
-/

/-- What is left of a program: its result, or a call of the environment and the rest. -/
inductive Resum (σ ε α : Type) where
  | ret (a : α) (s : σ)
  | call (e : ε) (s : σ) (k : σ → Resum σ ε α)

/-- Programs: from the state they find, what is left to run. -/
def Act (σ ε α : Type) : Type := σ → Resum σ ε α

namespace Resum

variable {σ ε α β : Type}

def bind : Resum σ ε α → (α → σ → Resum σ ε β) → Resum σ ε β
  | .ret a s, f => f a s
  | .call e s k, f => .call e s fun s' => (k s').bind f

@[simp] lemma ret_bind (a : α) (s : σ) (f : α → σ → Resum σ ε β) :
    (ret a s).bind f = f a s := rfl

@[simp] lemma call_bind (e : ε) (s : σ) (k : σ → Resum σ ε α) (f : α → σ → Resum σ ε β) :
    (call e s k).bind f = call e s fun s' => (k s').bind f := rfl

/-- The rely-guarantee judgement for a program started in the state given first. -/
def Sat (C : ε → σ → Prop) (G : σ → σ → Prop) (R : ε → σ → σ → Prop) (Q : α → σ → Prop) :
    σ → Resum σ ε α → Prop
  | s₀, .ret a s => G s₀ s ∧ Q a s
  | s₀, .call e s k => G s₀ s ∧ C e s ∧ ∀ s', R e s s' → Sat C G R Q s' (k s')

variable {C : ε → σ → Prop} {G : σ → σ → Prop} {R : ε → σ → σ → Prop} {Q Q' : α → σ → Prop}

lemma Sat.mono {s₀ : σ} {m : Resum σ ε α} (h : Sat C G R Q s₀ m)
    (hQ : ∀ a s, Q a s → Q' a s) : Sat C G R Q' s₀ m := by
  induction m generalizing s₀ with
  | ret a s => exact ⟨h.1, hQ a s h.2⟩
  | call e s k ih => exact ⟨h.1, h.2.1, fun s' hs' => ih s' (h.2.2 s' hs')⟩

/-- A program may be entered after changes that the guarantee allows. -/
lemma Sat.enter [IsTrans σ G] {s₀ s₁ : σ} (h₀ : G s₀ s₁)
    {m : Resum σ ε α} (h : Sat C G R Q s₁ m) : Sat C G R Q s₀ m := by
  cases m with
  | ret a s => exact ⟨IsTrans.trans _ _ _ h₀ h.1, h.2⟩
  | call e s k => exact ⟨IsTrans.trans _ _ _ h₀ h.1, h.2⟩

/-- Sequencing: the second program starts from what the first one leaves. -/
lemma Sat.bind [IsTrans σ G] {s₀ : σ} {m : Resum σ ε α}
    {f : α → σ → Resum σ ε β} {P : α → σ → Prop} {Q : β → σ → Prop} (h : Sat C G R P s₀ m)
    (hf : ∀ a s, P a s → Sat C G R Q s (f a s)) : Sat C G R Q s₀ (m.bind f) := by
  induction m generalizing s₀ with
  | ret a s => exact Sat.enter h.1 (hf a s h.2)
  | call e s k ih => exact ⟨h.1, h.2.1, fun s' hs' => ih s' (h.2.2 s' hs')⟩

/-- Whatever the environment does, the program makes at most `n` calls, and each satisfies `C`. -/
def Bounded (C : ε → Prop) : Nat → Resum σ ε α → Prop
  | _, .ret _ _ => True
  | 0, .call _ _ _ => False
  | n + 1, .call e _ k => C e ∧ ∀ s', Bounded C n (k s')

section bounded

variable {C : ε → Prop} {n n' : Nat}

@[simp] lemma bounded_ret (a : α) (s : σ) : Bounded C n (ret a s : Resum σ ε α) := by
  cases n <;> trivial

lemma Bounded.mono {m : Resum σ ε α} (h : Bounded C n m) (hn : n ≤ n') : Bounded C n' m := by
  induction m generalizing n n' with
  | ret a s => exact bounded_ret a s
  | call e s k ih =>
    obtain _ | n := n
    · exact h.elim
    obtain ⟨n', rfl⟩ : ∃ j, n' = j + 1 := ⟨n' - 1, by omega⟩
    exact ⟨h.1, fun s' => ih s' (h.2 s') (by omega)⟩

lemma Bounded.bind {m : Resum σ ε α} {f : α → σ → Resum σ ε β} (h : Bounded C n m)
    (hf : ∀ a s, Bounded C n' (f a s)) : Bounded C (n + n') (m.bind f) := by
  induction m generalizing n with
  | ret a s => exact (hf a s).mono (Nat.le_add_left _ _)
  | call e s k ih =>
    obtain _ | n := n
    · exact h.elim
    rw [Nat.succ_add]
    exact ⟨h.1, fun s' => ih s' (h.2 s')⟩

/-- The second program makes no calls. -/
lemma Bounded.bind_silent {m : Resum σ ε α} {f : α → σ → Resum σ ε β} (h : Bounded C n m)
    (hf : ∀ a s, Bounded C 0 (f a s)) : Bounded C n (m.bind f) :=
  h.bind hf

end bounded

end Resum

namespace Act

variable {σ ε α β : Type}

instance : Monad (Act σ ε) where
  pure a := fun s => .ret a s
  bind m f := fun s => (m s).bind f

/-- The current state. -/
def get : Act σ ε σ := fun s => .ret s s

/-- Change the state. -/
def modify (f : σ → σ) : Act σ ε Unit := fun s => .ret () (f s)

/-- Call the environment. -/
def call (e : ε) : Act σ ε Unit := fun s => .call e s fun s' => .ret () s'

@[simp] lemma pure_apply (a : α) (s : σ) : (pure a : Act σ ε α) s = .ret a s := rfl

@[simp] lemma bind_apply (m : Act σ ε α) (f : α → Act σ ε β) (s : σ) :
    (m >>= f) s = (m s).bind fun a s' => f a s' := rfl

@[simp] lemma get_apply (s : σ) : (get : Act σ ε σ) s = .ret s s := rfl

@[simp] lemma modify_apply (f : σ → σ) (s : σ) : (modify f : Act σ ε Unit) s = .ret () (f s) := rfl

@[simp] lemma call_apply (e : ε) (s : σ) :
    (call e : Act σ ε Unit) s = .call e s fun s' => .ret () s' := rfl

end Act
