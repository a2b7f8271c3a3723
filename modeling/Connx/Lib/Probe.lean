import Mathlib.Data.List.Basic
import Mathlib.Tactic

/-!
# Programs that read memory

A program that reads memory one cell at a time; which cell it reads next may depend on what it has
read. `reads` are the cells it visits in a given memory. Its result depends on these alone.
-/

inductive Probe (β : Type) (α : Type) where
  | pure (a : α)
  | read (i : Nat) (next : β → Probe β α)

namespace Probe

variable {β α γ : Type} {mem mem' : Nat → β}

def bind : Probe β α → (α → Probe β γ) → Probe β γ
  | .pure a, f => f a
  | .read i next, f => .read i fun b => (next b).bind f

instance : Monad (Probe β) where
  pure := .pure
  bind := bind

/-- The result in a given memory. -/
def run (mem : Nat → β) : Probe β α → α
  | .pure a => a
  | .read i next => (next (mem i)).run mem

/-- The cells visited in a given memory, in their order. -/
def reads (mem : Nat → β) : Probe β α → List Nat
  | .pure _ => []
  | .read i next => i :: (next (mem i)).reads mem

@[simp] lemma run_pure (a : α) : run mem (Pure.pure a : Probe β α) = a := rfl

@[simp] lemma reads_pure (a : α) : reads mem (Pure.pure a : Probe β α) = [] := rfl

@[simp] lemma run_bind (p : Probe β α) (f : α → Probe β γ) :
    run mem (p >>= f) = run mem (f (run mem p)) := by
  induction p with
  | pure a => rfl
  | read i next ih => exact ih (mem i)

@[simp] lemma reads_bind (p : Probe β α) (f : α → Probe β γ) :
    reads mem (p >>= f) = reads mem p ++ reads mem (f (run mem p)) := by
  induction p with
  | pure a => rfl
  | read i next ih => exact congrArg (i :: ·) (ih (mem i))

/-- The result is a function of the cells visited. -/
theorem run_congr (p : Probe β α) (h : ∀ i ∈ p.reads mem, mem' i = mem i) :
    p.run mem' = p.run mem := by
  induction p with
  | pure a => rfl
  | read i next ih =>
    have hi : mem' i = mem i := h i List.mem_cons_self
    show (next (mem' i)).run mem' = (next (mem i)).run mem
    rw [hi]
    exact ih (mem i) fun j hj => h j (List.mem_cons_of_mem _ hj)

/-- A loop over `n` consecutive cells, from the `i`-th after `base` on. -/
def loop (f : Nat → α → β → α) (base : Nat) : Nat → Nat → α → Probe β α
  | 0, _, a => .pure a
  | n + 1, i, a => .read (base + i) fun b => loop f base n (i + 1) (f i a b)

variable (f : Nat → α → β → α) (base : Nat)

@[simp] lemma reads_loop (n i : Nat) (a : α) :
    reads mem (loop f base n i a) = List.range' (base + i) n := by
  induction n generalizing i a with
  | zero => rfl
  | succ n ih =>
    show (base + i) :: reads mem (loop f base n (i + 1) _) = _
    rw [ih, List.range'_succ]
    rfl

/-- Invariant rule for a loop. -/
theorem run_loop (mem : Nat → β) (base : Nat) (f : Nat → α → β → α) (I : Nat → α → Prop)
    (hstep : ∀ i a, I i a → I (i + 1) (f i a (mem (base + i)))) {n i : Nat} {a : α} (ha : I i a) :
    I (i + n) (run mem (loop f base n i a)) := by
  induction n generalizing i a with
  | zero => exact ha
  | succ n ih =>
    have hnext := ih (hstep i a ha)
    rwa [Nat.add_right_comm, Nat.add_assoc] at hnext

end Probe
