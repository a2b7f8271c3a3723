import Mathlib.Data.Multiset.Filter
import Mathlib.Tactic

/-!
# Priority queues

A priority queue under a comparator, by its laws only: `top` is an element that the comparator puts
behind no other, and which one it is among equals is left open. `drain p` takes off the top as long
as it satisfies `p`; when `p` respects the order it takes out exactly the elements that satisfy it,
in order.
-/

/-- A container with `push`, `top` and `pop` whose `top` is greatest under `cmp`. -/
structure PriorityQueue (α : Type*) (cmp : α → α → Bool) where
  Carrier : Type*
  empty : Carrier
  push : Carrier → α → Carrier
  top : Carrier → Option α
  pop : Carrier → Carrier
  size : Carrier → Nat
  /-- What the queue holds. -/
  elems : Carrier → Multiset α
  size_eq : ∀ q, size q = (elems q).card
  elems_empty : elems empty = 0
  elems_push : ∀ q a, elems (push q a) = a ::ₘ elems q
  elems_eq_zero : ∀ q, top q = none → elems q = 0
  elems_pop : ∀ q a, top q = some a → elems q = a ::ₘ elems (pop q)
  top_greatest : ∀ q a, top q = some a → ∀ b ∈ elems q, cmp a b = false

namespace PriorityQueue

attribute [simp] elems_empty elems_push

variable {α : Type*} {cmp : α → α → Bool} (P : PriorityQueue α cmp) (p : α → Bool)

/-- The loop of `drain`, at most `n` times. -/
def drainFrom : Nat → P.Carrier → List α × P.Carrier
  | 0, q => ([], q)
  | n + 1, q =>
    match P.top q with
    | none => ([], q)
    | some a =>
      if p a then (a :: (drainFrom n (P.pop q)).1, (drainFrom n (P.pop q)).2) else ([], q)

/-- Take off the top while it satisfies `p`; what was taken out, and the queue that is left. -/
def drain (q : P.Carrier) : List α × P.Carrier := P.drainFrom p (P.size q) q

variable {P} {p} {q : P.Carrier} {a : α} {n : Nat}

lemma top_mem (h : P.top q = some a) : a ∈ P.elems q := by
  rw [P.elems_pop q a h]
  exact Multiset.mem_cons_self a _

/-- Nothing is lost or added. -/
lemma elems_drainFrom : ((P.drainFrom p n q).1 : Multiset α) + P.elems (P.drainFrom p n q).2 =
    P.elems q := by
  fun_induction drainFrom with
  | case1 q => simp
  | case2 n q htop => simp
  | case3 n q a htop hp ih =>
    rw [← Multiset.cons_coe, Multiset.cons_add, ih, P.elems_pop q a htop]
  | case4 n q a htop hp => simp

lemma forall_mem_drainFrom : ∀ b ∈ (P.drainFrom p n q).1, p b = true := by
  fun_induction drainFrom with
  | case1 q => simp
  | case2 n q htop => simp
  | case3 n q a htop hp ih => exact List.forall_mem_cons.mpr ⟨hp, ih⟩
  | case4 n q a htop hp => simp

/-- With one round for every element the loop stops at its own condition. -/
lemma not_top_drainFrom (hn : P.size q ≤ n) :
    ∀ b, P.top (P.drainFrom p n q).2 = some b → p b = false := by
  fun_induction drainFrom with
  | case1 q =>
    intro b hb
    have hzero : P.elems q = 0 := Multiset.card_eq_zero.mp (by rw [← P.size_eq]; omega)
    exact absurd (top_mem hb) (by simp [hzero])
  | case2 n q htop => simp [htop]
  | case3 n q a htop hp ih =>
    refine ih ?_
    rw [P.size_eq, P.elems_pop q a htop, Multiset.card_cons, ← P.size_eq] at hn
    omega
  | case4 n q a htop hp => simpa [htop] using hp

lemma pairwise_drainFrom : (P.drainFrom p n q).1.Pairwise fun a b => cmp a b = false := by
  fun_induction drainFrom with
  | case1 q => simp
  | case2 n q htop => simp
  | case3 n q a htop hp ih =>
    refine List.pairwise_cons.mpr ⟨fun b hb => P.top_greatest q a htop b ?_, ih⟩
    -- what comes out later was still in the queue
    rw [P.elems_pop q a htop, ← elems_drainFrom (p := p) (n := n)]
    exact Multiset.mem_cons_of_mem (Multiset.mem_add.mpr (Or.inl hb))
  | case4 n q a htop hp => simp

section Order

variable (hcmp : ∀ a b, cmp a b = false → p b = true → p a = true)
include hcmp

/-- An order-respecting condition holds nowhere in the queue that is left. -/
lemma forall_mem_drain_rest : ∀ b ∈ P.elems (P.drain p q).2, p b = false := by
  intro b hb
  cases htop : P.top (P.drain p q).2 with
  | none => simp [P.elems_eq_zero _ htop] at hb
  | some a =>
    have ha : p a = false := not_top_drainFrom le_rfl a htop
    by_contra hpb
    rw [Bool.not_eq_false] at hpb
    rw [hcmp a b (P.top_greatest _ a htop b hb) hpb] at ha
    cases ha

/-- `drain p` splits the elements by `p`. -/
theorem drain_eq_filter :
    ((P.drain p q).1 : Multiset α) = (P.elems q).filter (fun a => p a = true) ∧
    P.elems (P.drain p q).2 = (P.elems q).filter (fun a => p a = false) := by
  have hsum : ((P.drain p q).1 : Multiset α) + P.elems (P.drain p q).2 = P.elems q :=
    elems_drainFrom
  have hout : ∀ b ∈ ((P.drain p q).1 : Multiset α), p b = true := forall_mem_drainFrom
  have hrest := forall_mem_drain_rest (P := P) (q := q) hcmp
  rw [← hsum, Multiset.filter_add, Multiset.filter_add]
  constructor
  · rw [Multiset.filter_eq_self.mpr hout,
      Multiset.filter_eq_nil.mpr fun b hb => by simp [hrest b hb], add_zero]
  · rw [Multiset.filter_eq_nil.mpr fun b hb => by simp [hout b hb],
      Multiset.filter_eq_self.mpr hrest, zero_add]

end Order

section Sorted

variable {r : α → α → Prop} {l : List α}

lemma coe_eq_head_cons (h : l.head? = some a) : (l : Multiset α) = a ::ₘ (l.tail : Multiset α) := by
  obtain ⟨l', rfl⟩ := List.head?_eq_some_iff.mp h
  rfl

lemma head_of_pairwise [Std.Total r] (hl : l.Pairwise r) (h : l.head? = some a) :
    ∀ b ∈ (l : Multiset α), r a b := by
  obtain ⟨l', rfl⟩ := List.head?_eq_some_iff.mp h
  intro b hb
  rcases List.mem_cons.mp hb with rfl | hb
  · exact (Std.Total.total b b).elim id id
  · exact (List.pairwise_cons.mp hl).1 b hb

end Sorted

end PriorityQueue
