import Connx.Lib.Pool
import Connx.Lib.Signed

/-!
# Reference-counted cells

Cells with a 32-bit counter that wraps around, and the pointers to them. Holders are listed by the
cell they point to. `retain` and `release` are what a holder does when it starts or stops pointing
to a cell; the last release frees the cell. `Counted` says that the counters are right and that a
cell was freed once if nothing points to it and is otherwise alive; it is kept by every update in
which the pointers gained and lost are those retained and released, as long as the counters do not
wrap.
-/

namespace RefCount

/-- A cell with its counter; `frees` counts how often it was freed. -/
structure Cell (α : Type*) where
  refs : Int := 1
  frees : Nat := 0
  payload : α
  deriving DecidableEq

variable {α : Type*}

def Cell.addRef (c : Cell α) : Cell α := { c with refs := Signed.wrap 32 (c.refs + 1) }

/-- One reference less; the cell is freed if it was the last. -/
def Cell.decRef (c : Cell α) : Cell α :=
  { c with
    refs := Signed.wrap 32 (c.refs - 1)
    frees := if c.refs = 1 then c.frees + 1 else c.frees }

def retain (cells : List (Cell α)) : Option Nat → List (Cell α)
  | none => cells
  | some b => cells.modify b Cell.addRef

def release (cells : List (Cell α)) : Option Nat → List (Cell α)
  | none => cells
  | some b => cells.modify b Cell.decRef

/-- The counter of the cell is `n`, and it has been freed, once, if that is none. -/
structure Cell.Held (c : Cell α) (n : Nat) : Prop where
  refs : c.refs = n
  frees : c.frees = if n = 0 then 1 else 0

/-- The counters are right, and exactly the cells that nothing points to have been freed. -/
structure Counted (cells : List (Cell α)) (holders : List (Option Nat)) : Prop where
  held : ∀ (b : Nat) (c : Cell α), cells[b]? = some c → c.Held (holders.count (some b))
  inRange : ∀ b, some b ∈ holders → b < cells.length

variable {cells : List (Cell α)} {holders holders' : List (Option Nat)} {r v : Option Nat} {b : Nat}

@[simp] lemma length_retain : (retain cells r).length = cells.length := by
  cases r <;> simp [retain]

@[simp] lemma length_release : (release cells v).length = cells.length := by
  cases v <;> simp [release]

lemma getElem?_retain :
    (retain cells r)[b]? = cells[b]?.map fun c => if r = some b then c.addRef else c := by
  cases r with
  | none => simp [retain]
  | some b' =>
    rw [retain, List.getElem?_modify]
    by_cases hb : b' = b
    · simp [hb]
    · simp [hb]

lemma getElem?_release :
    (release cells v)[b]? = cells[b]?.map fun c => if v = some b then c.decRef else c := by
  cases v with
  | none => simp [release]
  | some b' =>
    rw [release, List.getElem?_modify]
    by_cases hb : b' = b
    · simp [hb]
    · simp [hb]

/-- Counting does not touch what the cells hold. -/
lemma payload_update (cells : List (Cell α)) (r v : Option Nat) (b : Nat) :
    (release (retain cells r) v)[b]?.map Cell.payload = cells[b]?.map Cell.payload := by
  rw [getElem?_release, getElem?_retain]
  cases cells[b]? with
  | none => rfl
  | some c => split_ifs <;> rfl

lemma Cell.Held.addRef {c : Cell α} {n : Nat} (h : c.Held n) (hpos : 0 < n) (hn : n + 1 < 2 ^ 31) :
    c.addRef.Held (n + 1) := by
  refine ⟨?_, ?_⟩
  · change Signed.wrap 32 (c.refs + 1) = _
    rw [h.refs, Signed.wrap_eq (by omega) (by omega)]
    rfl
  · change c.frees = _
    rw [h.frees, if_neg hpos.ne', if_neg (Nat.succ_ne_zero n)]

lemma Cell.Held.decRef {c : Cell α} {n : Nat} (h : c.Held (n + 1)) (hn : n + 1 < 2 ^ 31) :
    c.decRef.Held n := by
  refine ⟨?_, ?_⟩
  · change Signed.wrap 32 (c.refs - 1) = _
    rw [h.refs, Signed.wrap_eq (by omega) (by omega)]
    simp
  · change (if c.refs = 1 then c.frees + 1 else c.frees) = _
    rw [h.refs, h.frees, if_neg (Nat.succ_ne_zero n)]
    by_cases h0 : n = 0
    · simp [h0]
    · rw [if_neg (by omega), if_neg h0]

/-- The pointers gained and lost are those retained and released. -/
theorem Counted.update (h : Counted cells holders) (hr : ∀ b, r = some b → some b ∈ holders)
    (hcount : ∀ b, holders'.count (some b) + (if v = some b then 1 else 0) =
      holders.count (some b) + if r = some b then 1 else 0)
    (hbound : ∀ b, (holders.count (some b) + if r = some b then 1 else 0) < 2 ^ 31) :
    Counted (release (retain cells r) v) holders' := by
  refine ⟨fun b c' hc' => ?_, fun b hb => ?_⟩
  · rw [getElem?_release, getElem?_retain, Option.map_map] at hc'
    obtain ⟨c, hc, rfl⟩ := Option.map_eq_some_iff.mp hc'
    have hheld := h.held b c hc
    have hb := hcount b
    have hlt := hbound b
    have hretained : (if r = some b then c.addRef else c).Held
        (holders.count (some b) + if r = some b then 1 else 0) := by
      split_ifs with hrb
      · rw [if_pos hrb] at hlt
        exact hheld.addRef (List.count_pos_iff.mpr (hr b hrb)) hlt
      · exact hheld
    rw [← hb] at hretained
    simp only [Function.comp_apply]
    by_cases hvb : v = some b
    · rw [if_pos hvb] at hretained hb ⊢
      exact hretained.decRef (hb ▸ hlt)
    · rw [if_neg hvb] at hretained ⊢
      exact hretained
  · rw [length_release, length_retain]
    have hpos := List.count_pos_iff.mpr hb
    have hb' := hcount b
    by_cases hrb : r = some b
    · exact h.inRange b (hr b hrb)
    · rw [if_neg hrb] at hb'
      exact h.inRange b (List.count_pos_iff.mp (by omega))

/-- Only the number of pointers to each cell matters. -/
lemma Counted.congr (h : Counted cells holders)
    (hcount : ∀ b, holders'.count (some b) = holders.count (some b)) : Counted cells holders' where
  held b c hc := hcount b ▸ h.held b c hc
  inRange b hb := h.inRange b (List.count_pos_iff.mp (hcount b ▸ List.count_pos_iff.mpr hb))

/-- A new cell with its first holder. -/
theorem Counted.alloc (h : Counted cells holders) (payload : α)
    (hcount : ∀ b, holders'.count (some b) =
      holders.count (some b) + if b = cells.length then 1 else 0) :
    Counted (cells ++ [{ payload := payload }]) holders' := by
  have hnew : holders.count (some cells.length) = 0 :=
    List.count_eq_zero.mpr fun hmem => lt_irrefl _ (h.inRange _ hmem)
  refine ⟨fun b c hc => ?_, fun b hb => ?_⟩
  · rw [hcount b]
    by_cases hb : b = cells.length
    · subst hb
      obtain rfl : ({ payload := payload } : Cell α) = c := by simpa using hc
      rw [hnew, if_pos rfl]
      exact ⟨rfl, rfl⟩
    · rw [if_neg hb, add_zero]
      obtain ⟨hlt, -⟩ := List.getElem?_eq_some_iff.mp hc
      rw [List.length_append, List.length_singleton] at hlt
      rw [List.getElem?_append_left (by omega)] at hc
      exact h.held b c hc
  · rw [List.length_append, List.length_singleton]
    have hpos := List.count_pos_iff.mpr hb
    rw [hcount b] at hpos
    by_cases hb' : b = cells.length
    · omega
    · rw [if_neg hb', add_zero] at hpos
      exact (h.inRange b (List.count_pos_iff.mp hpos)).trans (Nat.lt_succ_self _)

end RefCount
