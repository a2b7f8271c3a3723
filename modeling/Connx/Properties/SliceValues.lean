import Connx.Lib.Run
import Connx.Utils.Slice

/-!
# Slices are values

A program with any number of slice variables behaves as one in which every variable holds a plain
list of bytes, whichever representation its slices have and whatever blocks they share; the counters
of the blocks are the numbers of variables that point to them, and a block is freed, once, when
nothing points to it any more. The counters have 32 bits, so this holds as long as no block has
`2 ^ 31` pointers to it.
-/

namespace Connx.Slice

/-! ### The plain model -/

/-- The variables of a program on plain lists of bytes. -/
abbrev Plain := List (Option (List Byte))

namespace Plain

def var (L : Plain) (i : Nat) : List Byte := (L[i]?.join).getD []

/-- What each operation does to the lists. -/
def apply (L : Plain) : Op → Plain
  | .construct i bytes => L.set i (some bytes)
  | .copyConstruct i j | .copyAssign i j => L.set i (some (L.var j))
  | .moveConstruct i j => (L.set i (some (L.var j))).set j (some [])
  | .moveAssign i j => if i = j then L else (L.set i (some (L.var j))).set j (some [])
  | .removeHead i n => L.set i (some ((L.var i).drop (min n (L.var i).length)))
  | .removeTail i n => L.set i (some ((L.var i).take ((L.var i).length - min n (L.var i).length)))
  | .plus z i j => L.set z (some (L.var i ++ L.var j))
  | .plusAssign i j => L.set i (some (L.var i ++ L.var j))
  | .clear i => L.set i (some [])
  | .destruct i => L.set i none

def step (L : Plain) (op : Op) : Option Plain := if enabled L op then some (L.apply op) else none

end Plain

/-- The lists that the variables stand for. -/
def State.values (S : State) : Plain := S.vars.map (Option.map (content S.blocks))

/-! ### Slices and blocks -/

/-- The block of every variable. -/
def pointers (vars : List (Option Slice)) : List (Option Nat) := vars.map fun v => v.bind target

/-- The bytes of the slice are there. -/
def Fits (blocks : List Block) : Slice → Prop
  | inlined length bytes => length ≤ bytes.length
  | refcounted refs length bytes =>
    ∃ block, blocks[refs]? = some block ∧ bytes + length ≤ block.payload.length

/-- The blocks hold what they held; there may be more of them. -/
def Extends (blocks blocks' : List Block) : Prop :=
  ∀ (b : Nat) (block : Block), blocks[b]? = some block →
    ∃ block', blocks'[b]? = some block' ∧ block'.payload = block.payload

section Memory

variable {blocks blocks' blocks'' : List Block} {s : Slice}

lemma Extends.refl (blocks : List Block) : Extends blocks blocks :=
  fun _ block h => ⟨block, h, rfl⟩

lemma Extends.trans (h : Extends blocks blocks') (h' : Extends blocks' blocks'') :
    Extends blocks blocks'' := fun b block hb =>
  let ⟨_, hc, hp⟩ := h b block hb
  let ⟨e, he, hp'⟩ := h' b _ hc
  ⟨e, he, hp'.trans hp⟩

lemma extends_append (blocks : List Block) (block : Block) : Extends blocks (blocks ++ [block]) :=
  fun b c hb => ⟨c, by rw [List.getElem?_append_left (List.getElem?_eq_some_iff.mp hb).1, hb], rfl⟩

lemma extends_update (blocks : List Block) (r v : Option Nat) :
    Extends blocks (RefCount.release (RefCount.retain blocks r) v) := fun b block hb => by
  have hpayload := RefCount.payload_update blocks r v b
  rw [hb, Option.map_some] at hpayload
  obtain ⟨block', hb', hp⟩ := Option.map_eq_some_iff.mp hpayload
  exact ⟨block', hb', hp⟩

lemma Fits.mono (h : Fits blocks s) (hext : Extends blocks blocks') : Fits blocks' s := by
  cases s with
  | inlined length bytes => exact h
  | refcounted refs length bytes =>
    obtain ⟨block, hb, hle⟩ := h
    obtain ⟨block', hb', hp⟩ := hext refs block hb
    exact ⟨block', hb', hp ▸ hle⟩

lemma Fits.content_eq (h : Fits blocks s) (hext : Extends blocks blocks') :
    s.content blocks' = s.content blocks := by
  cases s with
  | inlined length bytes => rfl
  | refcounted refs length bytes =>
    obtain ⟨block, hb, -⟩ := h
    obtain ⟨block', hb', hp⟩ := hext refs block hb
    simp [content, memory, hb, hb', hp]

lemma Fits.length_content (h : Fits blocks s) : (s.content blocks).length = s.size := by
  cases s with
  | inlined length bytes =>
    have hle : length ≤ bytes.length := h
    simp [content, memory, size, hle]
  | refcounted refs length bytes =>
    obtain ⟨block, hb, hle⟩ := h
    simp [content, memory, size, hb]
    omega

lemma fits_moved (blocks : List Block) : Fits blocks moved := Nat.le_refl 0

lemma content_moved (blocks : List Block) : moved.content blocks = [] := rfl

/-- `==` compares the bytes, whatever the representations. -/
lemma Fits.equals_iff {s' : Slice} (h : Fits blocks s) (h' : Fits blocks s') :
    s.equals blocks s' = true ↔ s.content blocks = s'.content blocks := by
  unfold equals
  by_cases hsize : s'.size = s.size
  · rw [if_neg (by simp [hsize])]
    by_cases h0 : s.size = 0
    · simp [hsize, h0, content]
    · simp [hsize, h0, content]
  · rw [if_pos hsize]
    constructor
    · intro hfalse
      cases hfalse
    · intro heq
      exact absurd (by rw [← h'.length_content, ← h.length_content, heq]) hsize

end Memory

section Trim

variable {blocks : List Block} {s : Slice} {n : Nat}

lemma target_removeTail : (s.removeTail n).target = s.target := by
  unfold removeTail
  split_ifs <;> cases s <;> rfl

lemma target_removeHead : (s.removeHead n).target = s.target := by
  unfold removeHead
  split_ifs <;> cases s <;> rfl

lemma ite_lt_eq_min (n m : Nat) : (if m < n then m else n) = min n m := by
  split_ifs <;> omega

lemma Fits.removeTail (h : Fits blocks s) (n : Nat) :
    Fits blocks (s.removeTail n) ∧ (s.removeTail n).content blocks =
      (s.content blocks).take ((s.content blocks).length - min n (s.content blocks).length) := by
  rw [h.length_content]
  unfold Slice.removeTail
  rw [ite_lt_eq_min]
  split_ifs with h0
  · refine ⟨h, ?_⟩
    rw [h0, Nat.zero_min, Nat.sub_zero, List.take_of_length_le h.length_content.le]
  · cases s with
    | inlined length bytes =>
      have hle : length ≤ bytes.length := h
      refine ⟨?_, ?_⟩
      · change length - _ ≤ bytes.length
        omega
      · simp only [content, memory, size, List.take_take]
        congr 1
        omega
    | refcounted refs length bytes =>
      obtain ⟨block, hb, hle⟩ := h
      refine ⟨⟨block, hb, by omega⟩, ?_⟩
      simp only [content, memory, size, List.take_take]
      congr 1
      omega

lemma Fits.removeHead (h : Fits blocks s) (n : Nat) :
    Fits blocks (s.removeHead n) ∧ (s.removeHead n).content blocks =
      (s.content blocks).drop (min n (s.content blocks).length) := by
  rw [h.length_content]
  unfold Slice.removeHead
  rw [ite_lt_eq_min]
  split_ifs with h0
  · refine ⟨h, ?_⟩
    rw [h0, Nat.zero_min, List.drop_zero]
  · cases s with
    | inlined length bytes =>
      have hle : length ≤ bytes.length := h
      have hlen : ((bytes.drop (min n length)).take (length - min n length)).length =
          length - min n length := by
        rw [List.length_take, List.length_drop]
        omega
      simp only [size]
      refine ⟨?_, ?_⟩
      · change length - min n length ≤ (SliceBuffer.blit _ _ _).length
        rw [SliceBuffer.length_blit (by omega)]
        omega
      · -- the bytes moved to the front are those behind the cut
        simp only [content, memory, size, SliceBuffer.blit_zero]
        rw [List.take_append_of_le_length hlen.ge, List.take_of_length_le hlen.le, List.drop_take]
    | refcounted refs length bytes =>
      obtain ⟨block, hb, hle⟩ := h
      have hmin : min n length ≤ length := Nat.min_le_right n length
      refine ⟨⟨block, hb, by simp only [size]; omega⟩, ?_⟩
      simp only [content, memory, size, List.drop_take, List.drop_drop]

/-- A new slice holds the bytes it was made of. -/
lemma fits_make (blocks : List Block) (bytes : List Byte) :
    Fits (make blocks bytes).2 (make blocks bytes).1 ∧
      (make blocks bytes).1.content (make blocks bytes).2 = bytes := by
  unfold make
  split_ifs with hlen
  · refine ⟨?_, ?_⟩
    · change bytes.length ≤ (bytes ++ _).length
      simp
    · simp [content, memory, size]
  · refine ⟨⟨{ payload := bytes }, by simp, by simp⟩, ?_⟩
    simp [content, memory, size]

lemma extends_make (blocks : List Block) (bytes : List Byte) :
    Extends blocks (make blocks bytes).2 := by
  unfold make
  split_ifs
  · exact Extends.refl blocks
  · exact extends_append blocks _

end Trim

/-! ### The invariant -/

/-- The counters of the blocks are right, and every variable has its bytes. -/
structure Inv (S : State) : Prop where
  counted : RefCount.Counted S.blocks (pointers S.vars)
  fits : ∀ s, some s ∈ S.vars → Fits S.blocks s

/-- Every block can take `k` more pointers. -/
def State.Roomy (k : Nat) (S : State) : Prop :=
  ∀ b, (pointers S.vars).count (some b) + k < 2 ^ 31

/-- `S'` has the variables `vars` and the contents of `S`. -/
structure Leads (S S' : State) (vars : List (Option Slice)) : Prop where
  inv : Inv S'
  ext : Extends S.blocks S'.blocks
  vars_eq : S'.vars = vars

section Primitives

variable {S : State} {i j k : Nat} {s d : Slice} {vars : List (Option Slice)}

lemma var_eq (hi : S.vars[i]? = some (some s)) : S.var i = some s := by
  simp [State.var, hi]

lemma State.Roomy.mono {k' : Nat} (h : S.Roomy k) (hle : k' ≤ k) : S.Roomy k' := fun b => by
  have := h b
  omega

lemma getElem?_pointers {v : Option Slice} (hi : vars[i]? = some v) :
    (pointers vars)[i]? = some (v.bind target) := by
  simp [pointers, hi]

lemma pointers_set (vars : List (Option Slice)) (i : Nat) (v : Option Slice) :
    pointers (vars.set i v) = (pointers vars).set i (v.bind target) := by
  simp [pointers, List.map_set]

/-- The pointers after a variable is set. -/
lemma count_pointers_set {v : Option Slice} (hi : vars[i]? = some v) (w : Option Slice) (b : Nat) :
    (pointers (vars.set i w)).count (some b) + (if v.bind target = some b then 1 else 0) =
      (pointers vars).count (some b) + if w.bind target = some b then 1 else 0 := by
  rw [pointers_set]
  have hcount := Pool.countP_set (· == some b) (getElem?_pointers hi) (w.bind target)
  simp only [beq_iff_eq] at hcount
  exact hcount

lemma mem_pointers (hs : some s ∈ vars) : s.target ∈ pointers vars :=
  List.mem_map.mpr ⟨some s, hs, rfl⟩

lemma count_pointers_move {v : Option Slice} (hij : i ≠ j) (hi : vars[i]? = some v)
    (hj : vars[j]? = some (some s)) (b : Nat) :
    (pointers ((vars.set i (some s)).set j (some moved))).count (some b) +
      (if v.bind target = some b then 1 else 0) = (pointers vars).count (some b) := by
  have hj' : (vars.set i (some s))[j]? = some (some s) := by rwa [List.getElem?_set_ne hij]
  have h1 := count_pointers_set hi (some s) b
  have h2 := count_pointers_set hj' (some moved) b
  simp only [Option.bind_some, reduceCtorEq, if_false, add_zero, target, moved] at h1 h2 ⊢
  omega

lemma fits_set {blocks : List Block} {w : Option Slice} (h : ∀ s, some s ∈ vars → Fits blocks s)
    (hw : ∀ s, w = some s → Fits blocks s) : ∀ s, some s ∈ vars.set i w → Fits blocks s :=
  fun s hs => (List.mem_or_eq_of_mem_set hs).elim (h s) fun heq => hw s heq.symm

lemma Inv.fits_set_some (h : Inv S) (hs : Fits S.blocks s) :
    ∀ s', some s' ∈ S.vars.set i (some s) → Fits S.blocks s' :=
  fits_set h.fits fun _ heq => Option.some.inj heq ▸ hs

lemma Inv.fits_move (h : Inv S) (hj : S.vars[j]? = some (some s)) :
    ∀ s', some s' ∈ (S.vars.set i (some s)).set j (some moved) → Fits S.blocks s' :=
  fits_set (h.fits_set_some (h.fits s (List.mem_of_getElem? hj)))
    fun _ heq => Option.some.inj heq ▸ fits_moved _

lemma Inv.update (h : Inv S) {r v : Option Nat} (hr : ∀ b, r = some b → some b ∈ pointers S.vars)
    (hcount : ∀ b, (pointers vars).count (some b) + (if v = some b then 1 else 0) =
      (pointers S.vars).count (some b) + if r = some b then 1 else 0)
    (hbound : ∀ b, ((pointers S.vars).count (some b) + if r = some b then 1 else 0) < 2 ^ 31)
    (hfits : ∀ s, some s ∈ vars → Fits S.blocks s) :
    Leads S ⟨RefCount.release (RefCount.retain S.blocks r) v, vars⟩ vars where
  inv := ⟨h.counted.update hr hcount hbound, fun s hs => (hfits s hs).mono (extends_update _ _ _)⟩
  ext := extends_update _ _ _
  vars_eq := rfl

/-- An update that retains nothing. -/
lemma Inv.update_release (h : Inv S) {v : Option Nat} (hroom : S.Roomy 0)
    (hcount : ∀ b, (pointers vars).count (some b) + (if v = some b then 1 else 0) =
      (pointers S.vars).count (some b)) (hfits : ∀ s, some s ∈ vars → Fits S.blocks s) :
    Leads S ⟨RefCount.release S.blocks v, vars⟩ vars :=
  h.update (r := none) (by simp) (by simpa using hcount) (fun b => by simpa using hroom b) hfits

lemma Inv.copyConstruct (h : Inv S) (hroom : S.Roomy 1) (hi : S.vars[i]? = some none)
    (hj : S.vars[j]? = some (some s)) :
    Leads S (S.copyConstruct i j) (S.vars.set i (some s)) := by
  have hmem : some s ∈ S.vars := List.mem_of_getElem? hj
  simp only [State.copyConstruct, var_eq hj]
  refine h.update (v := none) (fun b hb => hb ▸ mem_pointers hmem) (fun b => ?_) (fun b => ?_)
    (h.fits_set_some (h.fits s hmem))
  · simpa using count_pointers_set hi (some s) b
  · have := hroom b
    split_ifs <;> omega

lemma Inv.moveConstruct (h : Inv S) (hroom : S.Roomy 0) (hi : S.vars[i]? = some none)
    (hj : S.vars[j]? = some (some s)) :
    Leads S (S.moveConstruct i j) ((S.vars.set i (some s)).set j (some moved)) := by
  have hij : i ≠ j := by
    rintro rfl
    cases hi.symm.trans hj
  simp only [State.moveConstruct, var_eq hj]
  exact h.update_release (v := none) hroom (count_pointers_move hij hi hj) (h.fits_move hj)

lemma Inv.copyAssign (h : Inv S) (hroom : S.Roomy 1) (hi : S.vars[i]? = some (some d))
    (hj : S.vars[j]? = some (some s)) :
    Leads S (S.copyAssign i j) (S.vars.set i (some s)) := by
  have hmem : some s ∈ S.vars := List.mem_of_getElem? hj
  simp only [State.copyAssign, var_eq hi, var_eq hj]
  split_ifs with hij
  · subst hij
    cases hi.symm.trans hj
    obtain ⟨hlt, heq⟩ := List.getElem?_eq_some_iff.mp hi
    exact ⟨h, Extends.refl _, by rw [← heq, List.set_getElem_self]⟩
  · refine h.update (fun b hb => hb ▸ mem_pointers hmem) (fun b => ?_) (fun b => ?_)
      (h.fits_set_some (h.fits s hmem))
    · simpa using count_pointers_set hi (some s) b
    · have := hroom b
      split_ifs <;> omega

lemma Inv.moveAssign (h : Inv S) (hroom : S.Roomy 0) (hij : i ≠ j)
    (hi : S.vars[i]? = some (some d)) (hj : S.vars[j]? = some (some s)) :
    Leads S (S.moveAssign i j) ((S.vars.set i (some s)).set j (some moved)) := by
  simp only [State.moveAssign, var_eq hi, var_eq hj, if_neg hij]
  exact h.update_release hroom (count_pointers_move hij hi hj) (h.fits_move hj)

lemma Inv.destruct (h : Inv S) (hroom : S.Roomy 0) (hi : S.vars[i]? = some (some d)) :
    Leads S (S.destruct i) (S.vars.set i none) := by
  simp only [State.destruct, var_eq hi]
  refine h.update_release hroom (fun b => ?_) (fits_set h.fits (by simp))
  simpa using count_pointers_set hi none b

/-- A slice is trimmed in its place. -/
lemma Inv.modify (h : Inv S) (hroom : S.Roomy 0) (hi : S.vars[i]? = some (some s))
    {f : Slice → Slice} (hf : Fits S.blocks (f s)) (htarget : (f s).target = s.target) :
    Leads S (S.modify i f) (S.vars.set i (some (f s))) := by
  simp only [State.modify, var_eq hi]
  refine h.update_release (v := none) hroom (fun b => ?_) (h.fits_set_some hf)
  have h1 := count_pointers_set hi (some (f s)) b
  simp only [Option.bind_some, htarget, reduceCtorEq, if_false] at h1 ⊢
  omega

lemma Inv.construct (h : Inv S) (hi : S.vars[i]? = some none)
    (bytes : List Byte) :
    Leads S (S.construct i bytes) (S.vars.set i (some (make S.blocks bytes).1)) := by
  refine ⟨⟨?_, ?_⟩, extends_make _ _, rfl⟩
  · have hcount := count_pointers_set hi (some (make S.blocks bytes).1)
    simp only [State.construct]
    unfold make at hcount ⊢
    split_ifs at hcount ⊢
    · exact h.counted.congr fun b => by simpa [target] using hcount b
    · exact h.counted.alloc bytes fun b => by simpa [target, eq_comm] using hcount b
  · exact fits_set (fun s' hs' => (h.fits s' hs').mono (extends_make _ _))
      fun s' heq => Option.some.inj heq ▸ (fits_make _ _).1

end Primitives

/-! ### Temporary variables -/

section Temporaries

variable {S S' : State} {i j z k : Nat} {a c : Slice} {vars : List (Option Slice)}

lemma count_pointers_append (vars rest : List (Option Slice)) (b : Nat) :
    (pointers (vars ++ rest)).count (some b) =
      (pointers vars).count (some b) + (pointers rest).count (some b) := by
  simp [pointers, List.count_append]

lemma count_pointers_none (n : Nat) (b : Nat) :
    (pointers (List.replicate n none)).count (some b) = 0 := by
  simp [pointers, List.count_replicate]

/-- Storage for temporary variables, before they are constructed and after they are destroyed. -/
lemma inv_storage (n : Nat) :
    Inv { S with vars := vars ++ List.replicate n none } ↔ Inv { S with vars := vars } := by
  have hcount : ∀ b, (pointers (vars ++ List.replicate n none)).count (some b) =
      (pointers vars).count (some b) := fun b => by
    rw [count_pointers_append, count_pointers_none, add_zero]
  constructor
  · intro h
    exact ⟨h.counted.congr fun b => (hcount b).symm,
      fun s hs => h.fits s (List.mem_append_left _ hs)⟩
  · intro h
    refine ⟨h.counted.congr hcount, fun s hs => h.fits s ?_⟩
    obtain hs | hs := List.mem_append.mp hs
    · exact hs
    · cases List.eq_of_mem_replicate hs

lemma State.Roomy.storage (h : S.Roomy k) :
    State.Roomy k { S with vars := S.vars ++ [none] } := fun b => by
  have hcount := count_pointers_append S.vars (List.replicate 1 none) b
  rw [count_pointers_none, add_zero] at hcount
  exact hcount ▸ h b

/-- The temporaries hold a bounded number of the pointers. -/
lemma State.Roomy.temporaries (rest : List (Option Slice)) (h : S.Roomy (k + rest.length))
    (hvars : S'.vars = S.vars ++ rest) : S'.Roomy k := fun b => by
  have hle : (pointers rest).count (some b) ≤ rest.length := by
    simpa [pointers] using List.count_le_length (l := pointers rest) (a := some b)
  have := h b
  rw [hvars, count_pointers_append]
  omega

lemma State.Roomy.set (h : S.Roomy (k + 1)) (hz : S.vars[z]? = some none) (w : Option Slice) :
    State.Roomy k { S with vars := S.vars.set z w } := fun b => by
  have := h b
  have := count_pointers_set hz w b
  change (pointers (S.vars.set z w)).count (some b) + k < 2 ^ 31
  split_ifs at this <;> omega

lemma State.Roomy.destruct (h : S.Roomy k) (hi : S.vars[i]? = some (some a))
    (hvars : S'.vars = S.vars.set i none) : S'.Roomy k := fun b => by
  have hcount := count_pointers_set hi none b
  have := h b
  rw [hvars]
  simp only [Option.bind_none, reduceCtorEq, if_false] at hcount
  omega

/-- The storage of temporaries that are destroyed is given back. -/
lemma Leads.takeStorage {n : Nat} (h : Leads S S' (vars ++ List.replicate n none)) :
    Leads S { S' with vars := S'.vars.take vars.length } vars := by
  have htake : S'.vars.take vars.length = vars := by rw [h.vars_eq, List.take_left]
  refine ⟨?_, h.ext, htake⟩
  rw [htake]
  refine (inv_storage n).mp ?_
  rw [← h.vars_eq]
  exact h.inv

lemma Leads.trans {S'' : State} {vars' : List (Option Slice)} (h : Leads S S' vars)
    (h' : Leads S' S'' vars') : Leads S S'' vars' :=
  ⟨h'.inv, h.ext.trans h'.ext, h'.vars_eq⟩

/-- The end of a temporary variable. -/
lemma Inv.endTemporary (h : Inv S) (hroom : S.Roomy 0) (hvars : S.vars = vars ++ [some a]) :
    Leads S (S.endTemporary vars.length) vars := by
  have hd := h.destruct hroom (i := vars.length) (d := a) (by simp [hvars])
  refine Leads.takeStorage (n := 1) ⟨hd.inv, hd.ext, ?_⟩
  rw [hd.vars_eq, hvars]
  simp

/-- The end of the two parameters of `operator+`. -/
lemma Inv.endParameters (h : Inv S) (hroom : S.Roomy 0)
    (hvars : S.vars = vars ++ [some a, some c]) :
    Leads S (S.endParameters vars.length) vars := by
  have hsecond : S.vars[vars.length + 1]? = some (some c) := by simp [hvars]
  have hd := h.destruct hroom hsecond
  have hroom' := hroom.destruct hsecond hd.vars_eq
  have hset : S.vars.set (vars.length + 1) none = vars ++ [some a, none] := by
    rw [hvars, List.set_append_right _ _ (by omega)]
    simp
  rw [hset] at hd
  have hd' := hd.inv.destruct hroom' (i := vars.length) (d := a) (by simp [hd.vars_eq])
  refine Leads.takeStorage (n := 2) (hd.trans ⟨hd'.inv, hd'.ext, ?_⟩)
  rw [hd'.vars_eq, hd.vars_eq]
  simp

lemma Inv.parameters (h : Inv S) (hroom : S.Roomy 3) (hi : S.vars[i]? = some (some a))
    (hj : S.vars[j]? = some (some c)) :
    Leads S (S.parameters i j) (S.vars ++ [some a, some c]) := by
  have hilt := (List.getElem?_eq_some_iff.mp hi).1
  have hjlt := (List.getElem?_eq_some_iff.mp hj).1
  have h0 : Leads S { S with vars := S.vars ++ [none, none] } (S.vars ++ [none, none]) :=
    ⟨(inv_storage 2).mpr h, Extends.refl _, rfl⟩
  have h1 := h0.inv.copyConstruct (i := S.vars.length) (j := i) (s := a)
    (hroom.temporaries [none, none] rfl) (by simp)
    (by simp only [List.getElem?_append_left hilt, hi])
  have hvars : (S.vars ++ [none, none]).set S.vars.length (some a) = S.vars ++ [some a, none] := by
    simp
  rw [hvars] at h1
  have h2 := h1.inv.copyConstruct (i := S.vars.length + 1) (j := j) (s := c)
    (hroom.temporaries [some a, none] h1.vars_eq) (by simp [h1.vars_eq])
    (by simp only [h1.vars_eq, List.getElem?_append_left hjlt, hj])
  have hvars' : (S.vars ++ [some a, none]).set (S.vars.length + 1) (some c) =
      S.vars ++ [some a, some c] := by
    rw [List.set_append_right _ _ (by omega)]
    simp
  rw [h1.vars_eq, hvars'] at h2
  exact (h0.trans h1).trans h2

/-- The body of `operator+`: a parameter is moved if the other is empty. -/
lemma Inv.sumInto (h : Inv S) (hroom : S.Roomy 0) (hvars : S.vars = vars ++ [some a, some c])
    (hz : vars[z]? = some none) :
    ∃ r x y, Leads S (S.sumInto z vars.length) (vars.set z (some r) ++ [some x, some y]) ∧
      r.content (S.sumInto z vars.length).blocks = a.content S.blocks ++ c.content S.blocks := by
  have hzlt := (List.getElem?_eq_some_iff.mp hz).1
  have ha : S.vars[vars.length]? = some (some a) := by simp [hvars]
  have hc : S.vars[vars.length + 1]? = some (some c) := by simp [hvars]
  have hz' : S.vars[z]? = some none := by rw [hvars, List.getElem?_append_left hzlt, hz]
  have hfits : ∀ {s : Slice} {n}, S.vars[n]? = some (some s) → Fits S.blocks s :=
    fun hs => h.fits _ (List.mem_of_getElem? hs)
  have hempty : ∀ {s : Slice} {n}, S.vars[n]? = some (some s) → s.empty = true →
      s.content S.blocks = [] := fun {s n} hs hempty => by
    rw [← List.length_eq_zero_iff, (hfits hs).length_content]
    simpa [empty] using hempty
  simp only [State.sumInto, var_eq ha, var_eq hc]
  split_ifs with h1 h2
  · have hmove := h.moveConstruct hroom hz' hc
    refine ⟨c, a, moved, ⟨hmove.inv, hmove.ext, ?_⟩, ?_⟩
    · rw [hmove.vars_eq, hvars, List.set_append_left _ _ hzlt,
        List.set_append_right _ _ (by simp)]
      simp
    · rw [(hfits hc).content_eq hmove.ext, hempty ha h1, List.nil_append]
  · have hmove := h.moveConstruct hroom hz' ha
    refine ⟨a, moved, c, ⟨hmove.inv, hmove.ext, ?_⟩, ?_⟩
    · rw [hmove.vars_eq, hvars, List.set_append_left _ _ hzlt,
        List.set_append_right _ _ (by simp)]
      simp
    · rw [(hfits ha).content_eq hmove.ext, hempty hc h2, List.append_nil]
  · have hmake := h.construct hz' (a.content S.blocks ++ c.content S.blocks)
    refine ⟨_, a, c, ⟨hmake.inv, hmake.ext, ?_⟩, (fits_make _ _).2⟩
    rw [hmake.vars_eq, hvars, List.set_append_left _ _ hzlt]

/-- `operator+` puts the bytes of both operands into the result. -/
lemma Inv.plus (h : Inv S) (hroom : S.Roomy 3) (hz : S.vars[z]? = some none)
    (hi : S.vars[i]? = some (some a)) (hj : S.vars[j]? = some (some c)) :
    ∃ r, Leads S (S.plus z i j) (S.vars.set z (some r)) ∧
      r.content (S.plus z i j).blocks = a.content S.blocks ++ c.content S.blocks := by
  have hparams := h.parameters hroom hi hj
  have hroom1 : (S.parameters i j).Roomy 0 :=
    (hroom.temporaries [some a, some c] hparams.vars_eq).mono (Nat.zero_le 1)
  obtain ⟨r, x, y, hsum, hcontent⟩ := hparams.inv.sumInto hroom1 hparams.vars_eq hz
  have hroom2 : ((S.parameters i j).sumInto z S.vars.length).Roomy 0 :=
    State.Roomy.temporaries [some x, some y] (hroom.set hz (some r)) hsum.vars_eq
  have hend := hsum.inv.endParameters hroom2 hsum.vars_eq
  rw [List.length_set] at hend
  have hr := hsum.inv.fits r
    (by simp [hsum.vars_eq, List.mem_set, (List.getElem?_eq_some_iff.mp hz).1])
  refine ⟨r, (hparams.trans hsum).trans hend, ?_⟩
  rw [State.plus, hr.content_eq hend.ext, hcontent,
    (h.fits a (List.mem_of_getElem? hi)).content_eq hparams.ext,
    (h.fits c (List.mem_of_getElem? hj)).content_eq hparams.ext]

/-- A temporary is moved into a variable and destroyed. -/
lemma Inv.assignTemporary (h : Inv S) (hroom : S.Roomy 0) (hvars : S.vars = vars ++ [some a])
    (hi : vars[i]? = some (some c)) :
    Leads S ((S.moveAssign i vars.length).endTemporary vars.length) (vars.set i (some a)) := by
  have hilt := (List.getElem?_eq_some_iff.mp hi).1
  have hi' : S.vars[i]? = some (some c) := by rw [hvars, List.getElem?_append_left hilt, hi]
  have hlast : S.vars[vars.length]? = some (some a) := by simp [hvars]
  have hmove := h.moveAssign hroom hilt.ne hi' hlast
  have hroom' : (S.moveAssign i vars.length).Roomy 0 := fun b => by
    have := count_pointers_move hilt.ne hi' hlast b
    have := hroom b
    rw [hmove.vars_eq]
    omega
  have hset : (S.vars.set i (some a)).set vars.length (some moved) =
      vars.set i (some a) ++ [some moved] := by
    rw [hvars, List.set_append_left _ _ hilt, List.set_append_right _ _ (by simp)]
    simp
  have hend := hmove.inv.endTemporary hroom' (hmove.vars_eq.trans hset)
  rw [List.length_set] at hend
  exact hmove.trans hend

lemma Inv.plusAssign (h : Inv S) (hroom : S.Roomy 3) (hi : S.vars[i]? = some (some a))
    (hj : S.vars[j]? = some (some c)) :
    ∃ r, Leads S (S.plusAssign i j) (S.vars.set i (some r)) ∧
      r.content (S.plusAssign i j).blocks = a.content S.blocks ++ c.content S.blocks := by
  have hstorage : Inv { S with vars := S.vars ++ [none] } := (inv_storage 1).mpr h
  obtain ⟨r, hplus, hcontent⟩ := hstorage.plus (z := S.vars.length) hroom.storage (by simp)
    (by rw [List.getElem?_append_left (List.getElem?_eq_some_iff.mp hi).1, hi])
    (by rw [List.getElem?_append_left (List.getElem?_eq_some_iff.mp hj).1, hj])
  have hset : (S.vars ++ [none]).set S.vars.length (some r) = S.vars ++ [some r] := by simp
  have hroom' := (hroom.mono (by decide : 1 ≤ 3)).temporaries (k := 0) [some r]
    (hplus.vars_eq.trans hset)
  have hassign := hplus.inv.assignTemporary hroom' (hplus.vars_eq.trans hset) hi
  refine ⟨r, ⟨hassign.inv, hplus.ext.trans hassign.ext, hassign.vars_eq⟩, ?_⟩
  rw [State.plusAssign, (hplus.inv.fits r (by simp [hplus.vars_eq])).content_eq hassign.ext]
  exact hcontent

lemma Inv.clear (h : Inv S) (hroom : S.Roomy 3) (hi : S.vars[i]? = some (some a)) :
    ∃ r, Leads S (S.clear i) (S.vars.set i (some r)) ∧ r.content (S.clear i).blocks = [] := by
  have hstorage : Inv { S with vars := S.vars ++ [none] } := (inv_storage 1).mpr h
  have hmake := hstorage.construct (i := S.vars.length) (by simp) []
  have hset : (S.vars ++ [none]).set S.vars.length (some (make S.blocks []).1) =
    S.vars ++ [some (make S.blocks []).1] := by simp
  have hroom' := (hroom.mono (by decide : 1 ≤ 3)).temporaries (k := 0) [some (make S.blocks []).1]
    (hmake.vars_eq.trans hset)
  have hassign := hmake.inv.assignTemporary hroom' (hmake.vars_eq.trans hset) hi
  exact ⟨_, ⟨hassign.inv, hmake.ext.trans hassign.ext, hassign.vars_eq⟩, rfl⟩

end Temporaries

/-! ### Simulation -/

section Simulation

variable {S S' : State} {i j : Nat} {s : Slice} {op : Op}

lemma elim_isNone_iff {α : Type} {o : Option (Option α)} :
    o.elim false Option.isNone = true ↔ o = some none := by
  rcases o with _ | _ | s <;> simp

lemma elim_isSome_iff {α : Type} {o : Option (Option α)} :
    o.elim false Option.isSome = true ↔ ∃ s, o = some (some s) := by
  rcases o with _ | _ | s <;> simp

/-- Whether an operation is enabled does not depend on what the variables hold. -/
lemma enabled_map {α β : Type} (f : α → β) (vars : List (Option α)) (op : Op) :
    enabled (vars.map (Option.map f)) op = enabled vars op := by
  have hnone : ∀ i : Nat, ((vars.map (Option.map f))[i]?.elim false Option.isNone) =
      vars[i]?.elim false Option.isNone := fun i => by
    rcases h : vars[i]? with _ | _ | s <;> simp [h]
  have hsome : ∀ i : Nat, ((vars.map (Option.map f))[i]?.elim false Option.isSome) =
      vars[i]?.elim false Option.isSome := fun i => by
    rcases h : vars[i]? with _ | _ | s <;> simp [h]
  simp only [enabled, hnone, hsome]

lemma var_values (hi : S.vars[i]? = some (some s)) : S.values.var i = s.content S.blocks := by
  simp [State.values, Plain.var, hi]

/-- The variables stand for the same lists when the blocks extend the old ones. -/
lemma Inv.values_eq (h : Inv S) (hext : Extends S.blocks S'.blocks) :
    S.vars.map (Option.map (content S'.blocks)) = S.values := by
  refine List.map_congr_left fun v hv => ?_
  cases v with
  | none => rfl
  | some s => simp only [Option.map_some, (h.fits s hv).content_eq hext]

lemma Inv.values_set (h : Inv S) {v : Option Slice} (hl : Leads S S' (S.vars.set i v)) :
    S'.values = S.values.set i (v.map (content S'.blocks)) := by
  rw [State.values, hl.vars_eq, List.map_set, h.values_eq hl.ext]

/-- A variable is given a slice that holds the bytes. -/
lemma Inv.assigned (h : Inv S) {bytes : List Byte} (hl : Leads S S' (S.vars.set i (some s)))
    (hs : s.content S'.blocks = bytes) : Inv S' ∧ S'.values = S.values.set i (some bytes) :=
  ⟨hl.inv, by rw [h.values_set hl, Option.map_some, hs]⟩

/-- A variable is given a slice that was there. -/
lemma Inv.assignedOld (h : Inv S) (hl : Leads S S' (S.vars.set i (some s)))
    (hs : Fits S.blocks s) : Inv S' ∧ S'.values = S.values.set i (some (s.content S.blocks)) :=
  h.assigned hl (hs.content_eq hl.ext)

lemma Inv.moved (h : Inv S) (hj : S.vars[j]? = some (some s))
    (hl : Leads S S' ((S.vars.set i (some s)).set j (some moved))) :
    Inv S' ∧ S'.values = (S.values.set i (some (S.values.var j))).set j (some []) := by
  refine ⟨hl.inv, ?_⟩
  rw [State.values, hl.vars_eq, List.map_set, List.map_set, h.values_eq hl.ext, var_values hj,
    Option.map_some, Option.map_some, (h.fits s (List.mem_of_getElem? hj)).content_eq hl.ext,
    content_moved]

/-- Every operation does to the lists what the plain model says, and keeps the invariant. -/
theorem Inv.apply (h : Inv S) (hroom : S.Roomy 3) (henabled : enabled S.vars op = true) :
    Inv (S.apply op) ∧ (S.apply op).values = S.values.apply op := by
  have hroom0 : S.Roomy 0 := hroom.mono (Nat.zero_le 3)
  have hroom1 : S.Roomy 1 := hroom.mono (by omega)
  have hfits : ∀ {n : Nat} {s}, S.vars[n]? = some (some s) → Fits S.blocks s :=
    fun hs => h.fits _ (List.mem_of_getElem? hs)
  rw [enabled, Bool.and_eq_true, List.all_eq_true, List.all_eq_true] at henabled
  simp only [elim_isNone_iff, elim_isSome_iff] at henabled
  cases op with
  | construct i bytes =>
    have hi := henabled.1 i (List.mem_singleton_self i)
    exact h.assigned (h.construct hi bytes) (fits_make _ _).2
  | copyConstruct i j =>
    have hi := henabled.1 i (List.mem_singleton_self i)
    obtain ⟨s, hj⟩ := henabled.2 j (List.mem_singleton_self j)
    rw [Plain.apply, var_values hj]
    exact h.assignedOld (h.copyConstruct hroom1 hi hj) (hfits hj)
  | moveConstruct i j =>
    have hi := henabled.1 i (List.mem_singleton_self i)
    obtain ⟨s, hj⟩ := henabled.2 j (List.mem_singleton_self j)
    exact h.moved hj (h.moveConstruct hroom0 hi hj)
  | copyAssign i j =>
    obtain ⟨d, hi⟩ := henabled.2 i List.mem_cons_self
    obtain ⟨s, hj⟩ := henabled.2 j (List.mem_cons_of_mem i (List.mem_singleton_self j))
    rw [Plain.apply, var_values hj]
    exact h.assignedOld (h.copyAssign hroom1 hi hj) (hfits hj)
  | moveAssign i j =>
    obtain ⟨d, hi⟩ := henabled.2 i List.mem_cons_self
    obtain ⟨s, hj⟩ := henabled.2 j (List.mem_cons_of_mem i (List.mem_singleton_self j))
    by_cases hij : i = j
    · have hself : S.moveAssign i j = S := by
        simp only [State.moveAssign, var_eq hi, var_eq hj, if_pos hij]
      rw [State.apply, Plain.apply, hself, if_pos hij]
      exact ⟨h, rfl⟩
    · rw [Plain.apply, if_neg hij]
      exact h.moved hj (h.moveAssign hroom0 hij hi hj)
  | removeHead i n =>
    obtain ⟨s, hi⟩ := henabled.2 i (List.mem_singleton_self i)
    obtain ⟨hf, hcontent⟩ := (hfits hi).removeHead n
    rw [Plain.apply, var_values hi, ← hcontent]
    exact h.assignedOld (h.modify hroom0 hi (f := (·.removeHead n)) hf target_removeHead) hf
  | removeTail i n =>
    obtain ⟨s, hi⟩ := henabled.2 i (List.mem_singleton_self i)
    obtain ⟨hf, hcontent⟩ := (hfits hi).removeTail n
    rw [Plain.apply, var_values hi, ← hcontent]
    exact h.assignedOld (h.modify hroom0 hi (f := (·.removeTail n)) hf target_removeTail) hf
  | plus z i j =>
    have hz := henabled.1 z (List.mem_singleton_self z)
    obtain ⟨a, hi⟩ := henabled.2 i List.mem_cons_self
    obtain ⟨c, hj⟩ := henabled.2 j (List.mem_cons_of_mem i (List.mem_singleton_self j))
    obtain ⟨r, hl, hcontent⟩ := h.plus hroom hz hi hj
    rw [Plain.apply, var_values hi, var_values hj]
    exact h.assigned hl hcontent
  | plusAssign i j =>
    obtain ⟨a, hi⟩ := henabled.2 i List.mem_cons_self
    obtain ⟨c, hj⟩ := henabled.2 j (List.mem_cons_of_mem i (List.mem_singleton_self j))
    obtain ⟨r, hl, hcontent⟩ := h.plusAssign hroom hi hj
    rw [Plain.apply, var_values hi, var_values hj]
    exact h.assigned hl hcontent
  | clear i =>
    obtain ⟨a, hi⟩ := henabled.2 i (List.mem_singleton_self i)
    obtain ⟨r, hl, hcontent⟩ := h.clear hroom hi
    exact h.assigned hl hcontent
  | destruct i =>
    obtain ⟨a, hi⟩ := henabled.2 i (List.mem_singleton_self i)
    have hl := h.destruct hroom0 hi
    exact ⟨hl.inv, h.values_set hl⟩

end Simulation

/-! ### Runs -/

/-- The slices of `S` stand for the lists of `L`, and their blocks are counted and freed. -/
structure State.Represents (S : State) (L : Plain) : Prop where
  values : S.values = L
  enabled : ∀ op, (step S op).isSome = (L.step op).isSome
  equals : ∀ i j s s', S.vars[i]? = some (some s) → S.vars[j]? = some (some s') →
    (s.equals S.blocks s' = true ↔ L.var i = L.var j)
  refs : ∀ (b : Nat) block, S.blocks[b]? = some block →
    block.refs = (pointers S.vars).count (some b)
  frees : ∀ (b : Nat) block, S.blocks[b]? = some block →
    block.frees = if (pointers S.vars).count (some b) = 0 then 1 else 0
  alive : ∀ s b, some s ∈ S.vars → s.target = some b →
    ∃ block, S.blocks[b]? = some block ∧ block.frees = 0

lemma Inv.represents {S : State} (h : Inv S) : S.Represents S.values where
  values := rfl
  enabled op := by
    have henabled := enabled_map (content S.blocks) S.vars op
    simp only [step, Plain.step, State.values, henabled]
    split_ifs <;> rfl
  equals i j s s' hi hj := by
    rw [var_values hi, var_values hj]
    exact (h.fits s (List.mem_of_getElem? hi)).equals_iff (h.fits s' (List.mem_of_getElem? hj))
  refs b block hb := (h.counted.held b block hb).refs
  frees b block hb := (h.counted.held b block hb).frees
  alive s b hs hb := by
    have hmem : some b ∈ pointers S.vars := hb ▸ mem_pointers hs
    have hlt := h.counted.inRange b hmem
    have hblock : S.blocks[b]? = some S.blocks[b] := List.getElem?_eq_getElem hlt
    refine ⟨_, hblock, ?_⟩
    rw [(h.counted.held b _ hblock).frees, if_neg (List.count_pos_iff.mpr hmem).ne']

lemma inv_init (n : Nat) : Inv (State.init n) := by
  refine ⟨⟨by simp [State.init], fun b hb => ?_⟩, fun s hs => ?_⟩
  · simp [State.init, pointers] at hb
  · cases List.eq_of_mem_replicate hs

lemma values_init (n : Nat) : (State.init n).values = List.replicate n none := by
  simp [State.values, State.init]

/-- A run of the slices is one of the lists. -/
lemma Inv.exec {S S' : State} {ops : List Op} (h : Inv S)
    (hmeets : Run.Meets step (fun S _ => S.Roomy 3) S ops)
    (hexec : Run.exec step S ops = some S') :
    Inv S' ∧ Run.exec Plain.step S.values ops = some S'.values := by
  induction ops generalizing S with
  | nil =>
    obtain rfl : S = S' := by simpa using hexec
    exact ⟨h, rfl⟩
  | cons op ops ih =>
    obtain ⟨T, hstep, hrest⟩ := Run.exec_cons_iff.mp hexec
    obtain ⟨henabled, hT⟩ := Option.ite_none_right_eq_some.mp hstep
    obtain rfl := Option.some.inj hT
    obtain ⟨hinv, hvalues⟩ := h.apply hmeets.1 henabled
    obtain ⟨hinv', hplain⟩ := ih hinv (hmeets.2 _ hstep) hrest
    refine ⟨hinv', Run.exec_cons_iff.mpr ⟨_, ?_, hplain⟩⟩
    rw [Plain.step, State.values, enabled_map, if_pos henabled, hvalues]
    rfl

/-- Slices are values: whatever the program does with its `n` variables, they hold what the plain
lists hold, as long as no block gets `2 ^ 31` pointers to it. -/
theorem represents_of_exec {n : Nat} {ops : List Op} {S : State}
    (hmeets : Run.Meets step (fun S _ => S.Roomy 3) (State.init n) ops)
    (hexec : Run.exec step (State.init n) ops = some S) :
    ∃ L, Run.exec Plain.step (List.replicate n none) ops = some L ∧ S.Represents L := by
  obtain ⟨hinv, hplain⟩ := (inv_init n).exec hmeets hexec
  rw [values_init] at hplain
  exact ⟨S.values, hplain, hinv.represents⟩

/-- A program with few variables has room. -/
lemma State.roomy_of_length {S : State} {k : Nat} (h : S.vars.length + k < 2 ^ 31) : S.Roomy k :=
  fun b => by
    have hle : (pointers S.vars).count (some b) ≤ S.vars.length := by
      simpa [pointers] using List.count_le_length (l := pointers S.vars) (a := some b)
    omega

/-- A long slice, a view of its tail, and their sum; the view is moved back into the slice. -/
def sharedRun : List Op :=
  [.construct 0 (List.replicate 30 7), .copyConstruct 1 0, .removeHead 1 26, .plus 2 1 1,
    .copyAssign 0 0, .moveAssign 0 1, .plusAssign 1 2, .destruct 2]

theorem represents_sharedRun :
    ∃ S, Run.exec step (State.init 3) sharedRun = some S ∧
      (∃ L, Run.exec Plain.step (List.replicate 3 none) sharedRun = some L ∧ S.Represents L) ∧
      S.values = [some [7, 7, 7, 7], some (List.replicate 8 7), none] := by
  have hmeets : Run.Meets step (fun S _ => S.Roomy 3) (State.init 3) sharedRun :=
    (Run.meets_of_check (fun (S : State) _ => decide (S.vars.length + 3 < 2 ^ 31)) (by decide)).mono
      fun S _ h => State.roomy_of_length (of_decide_eq_true h)
  have hexec : (Run.exec step (State.init 3) sharedRun).map State.values =
    some [some [7, 7, 7, 7], some (List.replicate 8 7), none] := by decide
  obtain ⟨S, hS, hvalues⟩ := Option.map_eq_some_iff.mp hexec
  exact ⟨S, hS, represents_of_exec hmeets hS, hvalues⟩

/-! ### The counter wraps around -/

/-- A long slice in the first variable and `n` copies of it in the next ones. -/
def copies (n : Nat) : List Op :=
  .construct 0 (List.replicate 24 0) :: (List.range n).map fun k => .copyConstruct (k + 1) 0

def copied : Slice := refcounted 0 24 0

lemma step_copyConstruct {S : State} {s : Slice} {i j : Nat} (hi : S.vars[i]? = some none)
    (hj : S.vars[j]? = some (some s)) :
    step S (.copyConstruct i j) = some
      { blocks := RefCount.retain S.blocks s.target, vars := S.vars.set i (some s) } := by
  simp [step, enabled, Op.constructs, Op.uses, hi, hj, State.apply, State.copyConstruct, var_eq hj]

/-- With `m` copies the counter is `m + 1`, taken modulo `2 ^ 32`. -/
lemma exec_copies (m k : Nat) :
    Run.exec step (State.init (m + k + 1)) (copies m) = some
      { blocks := [{ refs := Signed.wrap 32 (m + 1), payload := List.replicate 24 0 }]
        vars := List.replicate (m + 1) (some copied) ++ List.replicate k none } := by
  induction m generalizing k with
  | zero =>
    rw [Nat.zero_add]
    rfl
  | succ m ih =>
    have hrun : copies (m + 1) = copies m ++ [Op.copyConstruct (m + 1) 0] := by
      simp [copies, List.range_succ]
    rw [hrun, Run.exec_snoc_iff, show m + 1 + k + 1 = m + (k + 1) + 1 by omega]
    refine ⟨_, ih (k + 1), ?_⟩
    have h0 : (List.replicate (m + 1) (some copied) ++ List.replicate (k + 1) none)[0]? =
      some (some copied) := rfl
    have hm : (List.replicate (m + 1) (some copied) ++ List.replicate (k + 1) none)[m + 1]? =
      some none := by simp
    have hset : (List.replicate (m + 1) (some copied) ++ List.replicate (k + 1) none).set (m + 1)
        (some copied) = List.replicate (m + 1 + 1) (some copied) ++ List.replicate k none := by
      rw [List.set_append_right _ _ (by simp), List.length_replicate, Nat.sub_self,
        List.replicate_succ (n := k), List.set_cons_zero, List.append_cons, ← List.replicate_succ']
    have hwrap : Signed.wrap 32 (Signed.wrap 32 (m + 1) + 1) =
        Signed.wrap 32 ((m + 1 : Nat) + 1) := by
      rw [Signed.wrap_add_wrap, Nat.cast_succ]
    rw [step_copyConstruct hm h0, hset, copied, target, RefCount.retain, List.modify_zero_cons,
      RefCount.Cell.addRef, hwrap]

/-- When the counter is back at 1, the end of one variable frees the block of the others. -/
lemma exec_copies_destruct (m : Nat) (hwrap : Signed.wrap 32 (m + 1) = 1) :
    Run.exec step (State.init (m + 1)) (copies m ++ [Op.destruct 0]) = some
      { blocks := [{ refs := 0, frees := 1, payload := List.replicate 24 0 }]
        vars := none :: List.replicate m (some copied) } := by
  have hcopies := exec_copies m 0
  rw [hwrap, List.replicate_zero, List.append_nil, List.replicate_succ] at hcopies
  exact Run.exec_snoc_iff.mpr ⟨_, hcopies, rfl⟩

/-- `2 ^ 32` copies of a long slice point to a block that is freed when the original ends. -/
theorem not_represents_copies :
    ∃ S, Run.exec step (State.init (2 ^ 32 + 1)) (copies (2 ^ 32) ++ [Op.destruct 0]) = some S ∧
      (∃ s block, some s ∈ S.vars ∧ s.target = some 0 ∧ S.blocks[0]? = some block ∧
        block.frees = 1) ∧
      ¬ ∃ L, Run.exec Plain.step (List.replicate (2 ^ 32 + 1) none)
        (copies (2 ^ 32) ++ [Op.destruct 0]) = some L ∧ S.Represents L := by
  generalize hm : 2 ^ 32 = m
  have hpos : 0 < m := by omega
  have hwrap : Signed.wrap 32 (m + 1) = 1 := by
    rw [← hm]
    decide
  have hmem : some copied ∈ none :: List.replicate m (some copied) :=
    List.mem_cons_of_mem _ (List.mem_replicate.mpr ⟨hpos.ne', rfl⟩)
  refine ⟨_, exec_copies_destruct m hwrap, ⟨copied, _, hmem, rfl, rfl, rfl⟩, ?_⟩
  rintro ⟨L, -, h⟩
  obtain ⟨block, hblock, hfrees⟩ := h.alive copied 0 hmem rfl
  cases hblock
  cases hfrees

end Connx.Slice
