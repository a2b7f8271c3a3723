import Connx.Lib.Simulation
import Connx.Utils.ByteBuffer

/-!
# `SliceBuffer` is a byte queue

Runs of the calls that change a buffer, with slices of any sizes and the popping calls made on
buffers that are not empty. In every state that is reached `length_` is the number of bytes, reduced
to a `size_t`. The buffer stands for the bytes of its content, and every function does to the
content what it does to the slices, as long as there are fewer than a `size_t` can count.
-/

namespace Connx

namespace SliceBuffer

variable {p : SizeT}

inductive Op where
  | addSlice (s : List Byte)
  | addSliceMove (s : List Byte)
  | moveHeader (len : Nat)
  | popFront
  | popBack
  | clearBuffer
  deriving DecidableEq

/-- One call; `none` for a popping call on an empty buffer, or if an empty deque is accessed. -/
def step (b : SliceBuffer p) : Op → Option (SliceBuffer p)
  | .addSlice s => some (b.addSlice s)
  | .addSliceMove s => some (b.addSliceMove s).1
  | .moveHeader len => (b.moveHeader len).map Prod.snd
  | .popFront => b.popFront
  | .popBack => b.popBack
  | .clearBuffer => some b.clearBuffer

/-- The buffer as a queue of bytes. -/
structure ByteQueue (b : SliceBuffer p) : Prop where
  length_eq : b.getBufferLength = (b.ds.map List.length).sum
  ne_nil : ∀ s ∈ b.ds, s ≠ []
  addSlice : ∀ s, (b.addSlice s).content = b.content ++ s
  addSliceMove : ∀ s, (b.addSliceMove s).1.content = b.content ++ s ∧ (b.addSliceMove s).2 = s
  /-- The recursion ends without an access to an empty deque, having removed `len` bytes. -/
  moveHeader_of_le : ∀ len, len ≤ b.getBufferLength →
    ∃ b', b.moveHeader len = some (true, b') ∧ b'.content = b.content.drop len
  moveHeader_of_lt : ∀ len, b.getBufferLength < len → b.moveHeader len = some (false, b)
  popFront : ∀ b', b.popFront = some b' → ∃ s ∈ b.front, b.content = s ++ b'.content
  popBack : ∀ b', b.popBack = some b' → ∃ s ∈ b.ds.getLast?, b.content = b'.content ++ s
  clearBuffer : b.clearBuffer.content = []
  merge : ∀ memory, b.merge memory = some b.content
  mergeFront : ∀ memory count,
    b.mergeFront memory count = some (b.ds.take (min count b.sliceCount)).flatten
  getHeader : ∀ memory len, b.getHeader memory len =
    some (if 0 < len ∧ len ≤ b.getBufferLength then b.content.take len else [])
  copyToBuffer : ∀ buffer len, len ≤ b.getBufferLength → len ≤ buffer.length →
    b.copyToBuffer buffer len = some (len, b.content.take len ++ buffer.drop len)

/-! ### Every state that is reached -/

/-- The count is that of the bytes, as far as a `size_t` goes, and no stored slice is empty. -/
structure Counted (b : SliceBuffer p) : Prop where
  length : b.length = BitVec.ofNat p.bits b.content.length
  ne_nil : ∀ s ∈ b.ds, s ≠ []

section counted

variable {b b' : SliceBuffer p}

lemma counted_empty : Counted ({} : SliceBuffer p) := ⟨rfl, by simp⟩

lemma Counted.length_le (h : b.Counted) : b.length.toNat ≤ b.ds.flatten.length := by
  rw [h.length, BitVec.toNat_ofNat]
  exact Nat.mod_le ..

lemma Counted.refines (h : b.Counted) (hfits : b.content.length < 2 ^ p.bits) :
    b.Refines ⟨b.ds, h.ne_nil⟩ := by
  refine ⟨rfl, ?_⟩
  rw [h.length, BitVec.toNat_ofNat, Nat.mod_eq_of_lt hfits]
  rfl

lemma content_addSlice (b : SliceBuffer p) (s : List Byte) :
    (b.addSlice s).content = b.content ++ s := by
  unfold addSlice content
  split_ifs with h
  · simp [List.isEmpty_iff.mp h]
  · simp

lemma addSliceMove_fst (b : SliceBuffer p) (s : List Byte) :
    (b.addSliceMove s).1 = b.addSlice s := by
  unfold addSliceMove SliceBuffer.addSlice
  split_ifs <;> rfl

lemma addSliceMove_snd (b : SliceBuffer p) (s : List Byte) : (b.addSliceMove s).2 = s := by
  unfold addSliceMove
  split_ifs <;> rfl

lemma popFront_eq_some (hb : b.popFront = some b') : ∃ s ds, b.ds = s :: ds ∧
    b' = ⟨b.length - BitVec.ofNat p.bits s.length, ds⟩ := by
  obtain ⟨length, _ | ⟨s, ds⟩⟩ := b
  · cases hb
  · exact ⟨s, ds, rfl, (Option.some.inj hb).symm⟩

lemma popBack_eq_some (hb : b.popBack = some b') : ∃ s ds, b.ds = ds ++ [s] ∧
    b' = ⟨b.length - BitVec.ofNat p.bits s.length, ds⟩ := by
  unfold popBack at hb
  split at hb
  · cases hb
  · next s hlast =>
    obtain ⟨ds, hds⟩ := List.getLast?_eq_some_iff.mp hlast
    refine ⟨s, ds, hds, (Option.some.inj hb).symm.trans ?_⟩
    rw [hds, List.dropLast_concat]

lemma Counted.addSlice (h : b.Counted) (s : List Byte) : (b.addSlice s).Counted := by
  by_cases hs : s = []
  · rw [SliceBuffer.addSlice, if_pos (by simp [hs])]
    exact h
  · refine ⟨?_, ?_⟩
    · rw [content_addSlice, List.length_append, BitVec.ofNat_add, ← h.length, SliceBuffer.addSlice,
        if_neg (by simpa using hs)]
    · rw [SliceBuffer.addSlice, if_neg (by simpa using hs)]
      exact List.forall_mem_append.mpr ⟨h.ne_nil, List.forall_mem_singleton.mpr hs⟩

/-- `length_` never says more than there is, so the deque is not empty where it is accessed. -/
lemma Counted.moveHeader_eq (h : b.Counted) (len : Nat) : b.moveHeader len =
    some (if b.getBufferLength < len then (false, b)
      else (true, ⟨b.length - BitVec.ofNat p.bits len, ByteBuffer.cut b.ds len⟩)) :=
  moveHeaderFrom_eq _ _ _ h.length_le h.ne_nil

lemma Counted.moveHeader (h : b.Counted) {len : Nat} {moved : Bool}
    (hb : b.moveHeader len = some (moved, b')) : b'.Counted := by
  rw [h.moveHeader_eq] at hb
  split_ifs at hb with hlt
  · obtain ⟨-, rfl⟩ := Prod.mk.inj (Option.some.inj hb)
    exact h
  · obtain ⟨-, rfl⟩ := Prod.mk.inj (Option.some.inj hb)
    have hle : len ≤ b.content.length := (Nat.le_of_not_lt hlt).trans h.length_le
    refine ⟨?_, ByteBuffer.cut_ne_nil h.ne_nil len⟩
    show b.length - _ = BitVec.ofNat p.bits (ByteBuffer.cut b.ds len).flatten.length
    rw [ByteBuffer.flatten_cut, List.length_drop, h.length, sub_eq_iff_eq_add, ← BitVec.ofNat_add]
    exact congrArg _ (Nat.sub_add_cancel hle).symm

lemma Counted.popFront (h : b.Counted) (hb : b.popFront = some b') : b'.Counted := by
  obtain ⟨s, ds, hds, rfl⟩ := popFront_eq_some hb
  refine ⟨?_, fun t ht => h.ne_nil t (hds ▸ List.mem_cons_of_mem s ht)⟩
  show b.length - _ = BitVec.ofNat p.bits ds.flatten.length
  rw [h.length, content, hds, List.flatten_cons, List.length_append, BitVec.ofNat_add,
    add_sub_cancel_left]

lemma Counted.popBack (h : b.Counted) (hb : b.popBack = some b') : b'.Counted := by
  obtain ⟨s, ds, hds, rfl⟩ := popBack_eq_some hb
  refine ⟨?_, fun t ht => h.ne_nil t (hds ▸ List.mem_append_left [s] ht)⟩
  show b.length - _ = BitVec.ofNat p.bits ds.flatten.length
  rw [h.length, content, hds, List.flatten_append, List.flatten_singleton, List.length_append,
    BitVec.ofNat_add, add_sub_cancel_right]

/-- Every call keeps the count and keeps the slices from being empty. -/
lemma Counted.step (h : b.Counted) {op : Op} (hstep : SliceBuffer.step b op = some b') :
    b'.Counted := by
  cases op with
  | addSlice s =>
    obtain rfl := Option.some.inj hstep
    exact h.addSlice s
  | addSliceMove s =>
    obtain rfl := Option.some.inj hstep
    rw [addSliceMove_fst]
    exact h.addSlice s
  | moveHeader len =>
    obtain ⟨⟨moved, b₁⟩, hmove, rfl⟩ := Option.map_eq_some_iff.mp hstep
    exact h.moveHeader hmove
  | popFront => exact h.popFront hstep
  | popBack => exact h.popBack hstep
  | clearBuffer =>
    obtain rfl := Option.some.inj hstep
    exact counted_empty

lemma counted_of_exec {ops : List Op} (hexec : Run.exec step {} ops = some b) : b.Counted :=
  Run.exec_invariant (fun _ _ => True) (fun _ _ _ h _ hstep => h.step hstep) hexec
    (Run.meets_of_forall (fun _ _ => trivial) _ _) counted_empty

/-- The popping calls apart, every call can be made. -/
lemma Counted.enabled (h : b.Counted) {op : Op}
    (hpop : op = .popFront ∨ op = .popBack → b.isEmpty = false) :
    ∃ b', SliceBuffer.step b op = some b' := by
  cases op with
  | addSlice s => exact ⟨_, rfl⟩
  | addSliceMove s => exact ⟨_, rfl⟩
  | moveHeader len =>
    rw [SliceBuffer.step, h.moveHeader_eq]
    exact ⟨_, rfl⟩
  | popFront =>
    obtain ⟨length, _ | ⟨s, ds⟩⟩ := b
    · cases hpop (Or.inl rfl)
    · exact ⟨_, rfl⟩
  | popBack =>
    have hne : b.ds ≠ [] := fun hnil => by simp [isEmpty, hnil] at hpop
    simp [SliceBuffer.step, SliceBuffer.popBack, List.getLast?_eq_some_getLast hne]
  | clearBuffer => exact ⟨_, rfl⟩

end counted

/-! ### With fewer bytes than a `size_t` can count -/

section queue

variable {b b' : SliceBuffer p} {a : ByteBuffer}

lemma sum_length_eq (b : SliceBuffer p) : (b.ds.map List.length).sum = b.content.length :=
  List.length_flatten.symm

/-- The sum that `MergeFront` makes. -/
lemma foldl_length (ds : List (List Byte)) (total : BitVec p.bits) :
    ds.foldl (fun total s => total + BitVec.ofNat p.bits s.length) total =
      total + BitVec.ofNat p.bits ds.flatten.length := by
  induction ds generalizing total with
  | nil => simp
  | cons s ds ih =>
    rw [List.foldl_cons, ih, List.flatten_cons, List.length_append, BitVec.ofNat_add, add_assoc]

lemma Refines.mergeFront (h : b.Refines a) (memory : Nat → Byte) (count : Nat) :
    b.mergeFront memory count = some (b.ds.take (min count b.sliceCount)).flatten := by
  unfold SliceBuffer.mergeFront sliceCount
  by_cases h0 : count = 0 ∨ b.ds.isEmpty = true
  · rw [if_pos h0]
    obtain rfl | hnil := h0
    · simp
    · simp [List.isEmpty_iff.mp hnil]
  rw [if_neg h0]
  push Not at h0
  obtain ⟨s, ds, hds⟩ := List.exists_cons_of_ne_nil (by simpa using h0.2)
  by_cases h1 : count = 1
  · simp [h1, hds]
  have hn : (if count < b.ds.length then count else b.ds.length) = min count b.ds.length := by
    split_ifs <;> omega
  rw [if_neg h1, hn]
  refine copyAll_makeSliceByLength ?_
  -- a part of the bytes can be counted when all of them can
  have hle : (b.ds.take (min count b.ds.length)).flatten.length ≤ b.ds.flatten.length :=
    ((List.take_sublist ..).flatten).length_le
  have hlength : b.length.toNat = b.ds.flatten.length := h.length.trans (by rw [h.ds]; rfl)
  have hlt := b.length.isLt
  rw [foldl_length, zero_add, BitVec.toNat_ofNat, Nat.mod_eq_of_lt (by omega)]

lemma Refines.copyToBuffer (h : b.Refines a) {buffer : List Byte} {len : Nat}
    (hlen : len ≤ b.getBufferLength) (hbuffer : len ≤ buffer.length) :
    b.copyToBuffer buffer len = some (len, b.content.take len ++ buffer.drop len) := by
  have hcontent : len ≤ b.ds.flatten.length := hlen.trans_eq (h.length.trans (by rw [h.ds]; rfl))
  rw [SliceBuffer.copyToBuffer, if_pos hlen, copyFrom_eq _ _ _ _ hcontent (by omega), blit_zero,
    List.length_take, Nat.min_eq_left hcontent, Nat.zero_add]
  rfl

lemma Refines.getHeader (h : b.Refines a) (memory : Nat → Byte) (len : Nat) :
    b.getHeader memory len =
      some (if 0 < len ∧ len ≤ b.getBufferLength then b.content.take len else []) := by
  unfold SliceBuffer.getHeader
  by_cases hlen : 0 < len ∧ len ≤ b.getBufferLength
  · rw [if_neg (by omega), if_pos hlen, h.copyToBuffer hlen.2 (by simp),
      List.drop_of_length_le (by simp), List.append_nil]
    rfl
  · rw [if_pos (by omega), if_neg hlen]

lemma Refines.byteQueue (h : b.Refines a) : ByteQueue b where
  length_eq := by rw [sum_length_eq, h.getBufferLength, h.content]; rfl
  ne_nil := h.ds ▸ a.ne_nil
  addSlice := content_addSlice b
  addSliceMove s := ⟨by rw [addSliceMove_fst, content_addSlice], addSliceMove_snd b s⟩
  moveHeader_of_le len hlen := by
    obtain ⟨b', hb', hrefines⟩ := h.moveHeader len
    obtain ⟨hmoved, hcontent⟩ := a.moveHeader_of_le (hlen.trans_eq h.length)
    exact ⟨b', hmoved ▸ hb', by rw [hrefines.content, hcontent, h.content]⟩
  moveHeader_of_lt len hlen := by
    have hle : b.length.toNat ≤ b.ds.flatten.length := (h.length.trans (by rw [h.ds]; rfl)).le
    rw [SliceBuffer.moveHeader, moveHeaderFrom_eq _ _ _ hle (h.ds ▸ a.ne_nil),
      if_pos (show b.length.toNat < len from hlen)]
  popFront b' hb' := by
    obtain ⟨s, ds, hds, rfl⟩ := popFront_eq_some hb'
    exact ⟨s, by simp [SliceBuffer.front, hds], by simp [SliceBuffer.content, hds]⟩
  popBack b' hb' := by
    obtain ⟨s, ds, hds, rfl⟩ := popBack_eq_some hb'
    exact ⟨s, by simp [hds], by simp [SliceBuffer.content, hds]⟩
  clearBuffer := rfl
  merge memory := by rw [h.merge, ByteBuffer.merge_eq_content, h.content]
  mergeFront := h.mergeFront
  getHeader := h.getHeader
  copyToBuffer _ _ hlen hbuffer := h.copyToBuffer hlen hbuffer

end queue

/-- In every state that calls lead to from an empty buffer, the buffer is a queue of bytes if and
only if the sizes of its slices add up to less than a `size_t` can count; and every call but a
popping one on an empty buffer can be made. -/
theorem byteQueue_iff_of_exec {b : SliceBuffer p} {ops : List Op}
    (hexec : Run.exec step {} ops = some b) :
    (ByteQueue b ↔ (b.ds.map List.length).sum < 2 ^ p.bits) ∧
      ∀ op, (op = .popFront ∨ op = .popBack → b.isEmpty = false) → ∃ b', step b op = some b' := by
  have hcounted := counted_of_exec hexec
  refine ⟨⟨fun hqueue => ?_, fun hfits => ?_⟩, fun op => hcounted.enabled⟩
  · rw [← hqueue.length_eq]
    exact b.length.isLt
  · exact (hcounted.refines (sum_length_eq b ▸ hfits)).byteQueue

/-- A header cut through three slices, with an empty slice between them. -/
def cutRun : List Op :=
  [.addSlice [1, 2], .addSliceMove [], .addSliceMove [3], .addSlice [4, 5, 6], .moveHeader 4,
    .moveHeader 9]

theorem byteQueue_cutRun : ∃ b : SliceBuffer .bits64, Run.exec step {} cutRun = some b ∧
    ByteQueue b ∧ b.content = [5, 6] ∧ b.length = 2 := by
  have hexec : Run.exec step {} cutRun = some (⟨2, [[5, 6]]⟩ : SliceBuffer .bits64) := by decide
  exact ⟨_, hexec, (byteQueue_iff_of_exec hexec).1.mpr (by decide), rfl, rfl⟩

/-! ### The abstract buffer -/

end SliceBuffer

/-- The same calls on a buffer without a bound, with their answers. -/
def ByteBuffer.call (a : ByteBuffer) : SliceBuffer.Op → Option (Bool × ByteBuffer)
  | .addSlice s | .addSliceMove s => some (true, a.addSlice s)
  | .moveHeader len => some (a.moveHeader len)
  | .popFront => a.popFront.map (true, ·)
  | .popBack => a.popBack.map (true, ·)
  | .clearBuffer => some (true, a.clearBuffer)

namespace SliceBuffer

/-- What a call answers, if it answers something. -/
def answer (b : SliceBuffer p) : Op → Bool
  | .moveHeader len => ((b.moveHeader len).map Prod.fst).getD false
  | _ => true

/-- The bytes can still be counted when the call has been made. -/
def Fits (b : SliceBuffer p) : Op → Prop
  | .addSlice s | .addSliceMove s => (b.content ++ s).length < 2 ^ p.bits
  | _ => True

section simulation

variable {b b' : SliceBuffer p} {a : ByteBuffer}

lemma Refines.counted (h : b.Refines a) : b.Counted := by
  refine ⟨BitVec.eq_of_toNat_eq ?_, h.ds ▸ a.ne_nil⟩
  rw [BitVec.toNat_ofNat, h.content, ← h.length, Nat.mod_eq_of_lt b.length.isLt]

/-- The same slices, few enough to be counted. -/
lemma Refines.of_counted {a' : ByteBuffer} (hds : b'.ds = a'.ds) (hcounted : b'.Counted)
    (hfits : a'.content.length < 2 ^ p.bits) : b'.Refines a' := by
  refine ⟨hds, ?_⟩
  have hcontent : b'.content = a'.content := congrArg List.flatten hds
  rw [hcounted.length, BitVec.toNat_ofNat, hcontent, Nat.mod_eq_of_lt hfits]

lemma Refines.step (h : b.Refines a) {op : Op} (hfits : b.Fits op)
    (hstep : SliceBuffer.step b op = some b') :
    ∃ a', a.call op = some (b.answer op, a') ∧ b'.Refines a' := by
  have hlt : a.content.length < 2 ^ p.bits := h.length ▸ b.length.isLt
  cases op with
  | addSlice s =>
    obtain rfl := Option.some.inj hstep
    exact ⟨_, rfl, h.addSlice (h.content ▸ hfits)⟩
  | addSliceMove s =>
    obtain rfl := Option.some.inj hstep
    rw [addSliceMove_fst]
    exact ⟨_, rfl, h.addSlice (h.content ▸ hfits)⟩
  | moveHeader len =>
    obtain ⟨b₁, hmove, hrefines⟩ := h.moveHeader len
    rw [SliceBuffer.step, hmove] at hstep
    obtain rfl := Option.some.inj hstep
    refine ⟨_, ?_, hrefines⟩
    rw [answer, hmove]
    rfl
  | popFront =>
    obtain ⟨s, ds, hds, hb'⟩ := popFront_eq_some hstep
    have hads : a.ds = s :: ds := h.ds ▸ hds
    refine ⟨⟨ds, fun t ht => a.ne_nil t (hads ▸ List.mem_cons_of_mem s ht)⟩, ?_, ?_⟩
    · simp [ByteBuffer.call, ByteBuffer.popFront, ByteBuffer.isEmpty, hads, answer]
    · refine .of_counted (by rw [hb']) (h.counted.popFront hstep) (lt_of_le_of_lt ?_ hlt)
      simp [ByteBuffer.content, hads]
  | popBack =>
    obtain ⟨s, ds, hds, hb'⟩ := popBack_eq_some hstep
    have hads : a.ds = ds ++ [s] := h.ds ▸ hds
    refine ⟨⟨ds, fun t ht => a.ne_nil t (hads ▸ List.mem_append_left [s] ht)⟩, ?_, ?_⟩
    · simp [ByteBuffer.call, ByteBuffer.popBack, ByteBuffer.isEmpty, hads, answer]
    · refine .of_counted (by rw [hb']) (h.counted.popBack hstep) (lt_of_le_of_lt ?_ hlt)
      simp [ByteBuffer.content, hads]
  | clearBuffer =>
    obtain rfl := Option.some.inj hstep
    exact ⟨_, rfl, refines_clearBuffer b a⟩

end simulation

/-- A run in which the bytes can be counted is a run of the abstract buffer, with the same answers,
and ends with the same slices. -/
theorem follows_of_exec {b : SliceBuffer p} {ops : List Op}
    (hexec : Run.exec step {} ops = some b)
    (hfits : Run.Meets step Fits ({} : SliceBuffer p) ops) :
    ∃ a, Run.Follows (fun a o a' => a.call o.1 = some (o.2, a')) ByteBuffer.empty
      (Run.observe step (fun b op => (op, answer b op)) ({} : SliceBuffer p) ops) a ∧
        b.Refines a :=
  Run.follows_of_exec Fits (fun _ _ _ _ hR hok hstep => hR.step hok hstep) hexec hfits
    ⟨rfl, BitVec.toNat_zero⟩

/-! ### With more -/

lemma exec_replicate_addSlice {s : List Byte} (hs : s ≠ []) (n : Nat) (b : SliceBuffer p) :
    Run.exec step b (List.replicate n (.addSlice s)) =
      some ⟨b.length + BitVec.ofNat p.bits (n * s.length), b.ds ++ List.replicate n s⟩ := by
  induction n generalizing b with
  | zero => simp
  | succ n ih =>
    rw [List.replicate_succ, Run.exec, step, Option.bind_some, ih, addSlice,
      if_neg (by simpa using hs), List.replicate_succ, Nat.succ_mul, Nat.add_comm (n * s.length),
      BitVec.ofNat_add]
    simp [add_assoc]

/-- A `length_` that is smaller than the first of several slices is no room for it. -/
lemma merge_eq_none {b : SliceBuffer p} {s t : List Byte} {ds : List (List Byte)}
    (hds : b.ds = s :: t :: ds) (hlt : b.getBufferLength < s.length) (memory : Nat → Byte) :
    b.merge memory = none := by
  rw [merge, hds]
  show copyAll (s :: t :: ds) 0 _ = none
  rw [copyAll, memcpy, if_neg (by simp; omega), Option.bind_none]

/-- A slice of 1 MiB. -/
def mebibyte : List Byte := List.replicate (2 ^ 20) 0

/-- Where a `size_t` has 32 bits, one slice of 1 MiB that is added 4096 times leaves `length_` at 0:
`MoveHeader` refuses to take a byte, and `Merge` copies the slices into a slice without bytes. -/
theorem not_byteQueue_wrapped : ∃ b : SliceBuffer .bits32,
    Run.exec step {} (List.replicate 4096 (.addSlice mebibyte)) = some b ∧
      b.content.length = 2 ^ 32 ∧ b.getBufferLength = 0 ∧ b.moveHeader 1 = some (false, b) ∧
      (∀ memory, b.merge memory = none) ∧ ¬ ByteQueue b := by
  have hsize : mebibyte.length = 2 ^ 20 := List.length_replicate
  have hne : mebibyte ≠ [] := List.ne_nil_of_length_pos (by rw [hsize]; norm_num)
  have hexec := exec_replicate_addSlice (p := .bits32) hne 4096 {}
  have hlength : ({} : SliceBuffer .bits32).length +
      BitVec.ofNat SizeT.bits32.bits (4096 * mebibyte.length) = 0 := by
    rw [hsize]
    rfl
  rw [hlength, List.nil_append] at hexec
  have hcontent : (List.replicate 4096 mebibyte).flatten.length = 2 ^ 32 := by
    rw [List.length_flatten, List.map_replicate, hsize, List.sum_replicate]
    rfl
  refine ⟨_, hexec, hcontent, rfl, ?_, ?_, fun hqueue => ?_⟩
  · rw [(counted_of_exec hexec).moveHeader_eq, if_pos (by exact Nat.one_pos)]
  · have hds : List.replicate 4096 mebibyte =
        mebibyte :: mebibyte :: List.replicate 4094 mebibyte := by
      rw [← List.replicate_succ, ← List.replicate_succ]
    refine merge_eq_none hds ?_
    rw [hsize]
    exact Nat.two_pow_pos 20
  · have heq := hqueue.length_eq
    rw [sum_length_eq] at heq
    exact absurd (heq.trans hcontent) (by decide)

end SliceBuffer

end Connx
