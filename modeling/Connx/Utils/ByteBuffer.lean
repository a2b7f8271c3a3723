import Connx.Utils.SliceBuffer

/-!
# A buffer of bytes

What a `SliceBuffer` is for: bytes in slices none of which is empty, with no count to keep and no
bound on it. A `SliceBuffer` whose bytes can be counted in a `size_t` does what this buffer does.
The buffers of a connection own the blocks of their slices, so their bytes can.
-/

namespace Connx

/-- Slices none of which is empty. -/
structure ByteBuffer where
  ds : List (List Byte)
  ne_nil : ∀ s ∈ ds, s ≠ []

namespace ByteBuffer

/-- The slices without their first `n` bytes. -/
def cut : List (List Byte) → Nat → List (List Byte)
  | [], _ => []
  | s :: ds, n => if n < s.length then s.drop n :: ds else cut ds (n - s.length)

lemma flatten_cut (ds : List (List Byte)) (n : Nat) : (cut ds n).flatten = ds.flatten.drop n := by
  induction ds generalizing n with
  | nil => simp [cut]
  | cons s ds ih =>
    rw [cut, List.flatten_cons, List.drop_append]
    split_ifs with hlt
    · rw [List.flatten_cons, Nat.sub_eq_zero_of_le hlt.le, List.drop_zero]
    · rw [ih, List.drop_of_length_le (Nat.le_of_not_lt hlt), List.nil_append]

lemma cut_ne_nil {ds : List (List Byte)} (hne : ∀ s ∈ ds, s ≠ []) (n : Nat) :
    ∀ s ∈ cut ds n, s ≠ [] := by
  induction ds generalizing n with
  | nil => exact fun s hs => by cases hs
  | cons s ds ih =>
    obtain ⟨hs, hds⟩ := List.forall_mem_cons.mp hne
    rw [cut]
    split_ifs with hlt
    · refine List.forall_mem_cons.mpr ⟨?_, hds⟩
      simpa using hlt
    · exact ih hds _

lemma cut_zero {ds : List (List Byte)} (hne : ∀ s ∈ ds, s ≠ []) : cut ds 0 = ds := by
  cases ds with
  | nil => rfl
  | cons s ds =>
    have hs : 0 < s.length := List.length_pos_of_ne_nil (hne s List.mem_cons_self)
    rw [cut, if_pos hs, List.drop_zero]

/-! ### Operations -/

def empty : ByteBuffer := ⟨[], by simp⟩

instance : Inhabited ByteBuffer := ⟨empty⟩

section operations

variable (b : ByteBuffer)

def content : List Byte := b.ds.flatten

def getBufferLength : Nat := b.content.length

def isEmpty : Bool := b.ds.isEmpty

def merge : List Byte := b.content

def front : List Byte := b.ds.headD []

def addSlice (s : List Byte) : ByteBuffer :=
  if h : s = [] then b
  else
    { ds := b.ds ++ [s]
      ne_nil := List.forall_mem_append.mpr ⟨b.ne_nil, List.forall_mem_singleton.mpr h⟩ }

def clearBuffer (_ : ByteBuffer) : ByteBuffer := empty

def moveHeader (len : Nat) : Bool × ByteBuffer :=
  if b.getBufferLength < len then (false, b)
  else (true, ⟨cut b.ds len, cut_ne_nil b.ne_nil len⟩)

/-- The buffer without its first slice. -/
def popFront : Option ByteBuffer :=
  if b.isEmpty then none else some ⟨b.ds.tail, fun s hs => b.ne_nil s (List.mem_of_mem_tail hs)⟩

/-- The buffer without its last slice. -/
def popBack : Option ByteBuffer :=
  if b.isEmpty then none
  else some ⟨b.ds.dropLast, fun s hs => b.ne_nil s (List.mem_of_mem_dropLast hs)⟩

@[simp] lemma content_empty : empty.content = [] := rfl

@[simp] lemma content_clearBuffer : b.clearBuffer.content = [] := rfl

@[simp] lemma content_addSlice (s : List Byte) : (b.addSlice s).content = b.content ++ s := by
  unfold addSlice content
  split_ifs with h
  · rw [h, List.append_nil]
  · simp

@[simp] lemma merge_eq_content : b.merge = b.content := rfl

lemma isEmpty_iff : b.isEmpty = true ↔ b.content = [] := by
  obtain ⟨_ | ⟨s, ds⟩, hne⟩ := b
  · simp [isEmpty, content]
  · have hs : s ≠ [] := hne s List.mem_cons_self
    simp [isEmpty, content, hs]

lemma front_prefix_content : b.front <+: b.content := by
  obtain ⟨_ | ⟨s, ds⟩, -⟩ := b
  · exact List.nil_prefix
  · exact ⟨ds.flatten, rfl⟩

lemma getBufferLength_eq : b.getBufferLength = b.content.length := rfl

/-- `MoveHeader` removes exactly the first `len` bytes when the buffer holds as many. -/
lemma moveHeader_of_le {len : Nat} (h : len ≤ b.content.length) :
    (b.moveHeader len).1 = true ∧ (b.moveHeader len).2.content = b.content.drop len := by
  rw [moveHeader, if_neg (Nat.not_lt.mpr (getBufferLength_eq b ▸ h))]
  exact ⟨rfl, flatten_cut b.ds len⟩

lemma moveHeader_of_lt {len : Nat} (h : b.content.length < len) :
    b.moveHeader len = (false, b) := if_pos h

end operations

end ByteBuffer

/-! ### Slice buffers -/

namespace SliceBuffer

variable {p : SizeT} {b b' : SliceBuffer p} {a : ByteBuffer}

/-- The slices are the same and the count is right. -/
structure Refines (b : SliceBuffer p) (a : ByteBuffer) : Prop where
  ds : b.ds = a.ds
  length : b.length.toNat = a.content.length

/-- As long as there are at least as many bytes as `length_` says, `MoveHeader` takes what it takes
from the front of a deque that is not empty. -/
lemma moveHeaderFrom_eq (ds : List (List Byte)) (length : BitVec p.bits) (len : Nat)
    (hle : length.toNat ≤ ds.flatten.length) (hne : ∀ s ∈ ds, s ≠ []) :
    moveHeaderFrom ds length len =
      some (if length.toNat < len then (false, ⟨length, ds⟩)
        else (true, ⟨length - BitVec.ofNat p.bits len, ByteBuffer.cut ds len⟩)) := by
  induction ds generalizing length len with
  | nil =>
    rw [moveHeaderFrom]
    by_cases hlt : length.toNat < len
    · rw [if_pos hlt, if_pos hlt]
    · obtain rfl : len = 0 := by simp at hle; omega
      simp [ByteBuffer.cut]
  | cons s ds ih =>
    have hds : ∀ t ∈ ds, t ≠ [] := fun t ht => hne t (List.mem_cons_of_mem s ht)
    rw [List.flatten_cons, List.length_append] at hle
    rw [moveHeaderFrom]
    by_cases hlt : length.toNat < len
    · rw [if_pos hlt, if_pos hlt]
    rw [if_neg hlt, if_neg hlt]
    by_cases h0 : len = 0
    · rw [if_pos h0, h0, ByteBuffer.cut_zero hne]
      simp
    rw [if_neg h0]
    rcases lt_trichotomy len s.length with hcut | heq | hgt
    · -- the cut is inside the first slice
      simp only [ByteBuffer.cut, if_pos hcut]
    · subst heq
      simp only [lt_irrefl, if_false, if_true, ByteBuffer.cut, Nat.sub_self,
        ByteBuffer.cut_zero hds]
    · -- the whole first slice goes, and the rest of the cut is made behind it
      have hbits : s.length < 2 ^ p.bits := by omega
      have hsize : (BitVec.ofNat p.bits s.length).toNat = s.length := by
        rw [BitVec.toNat_ofNat, Nat.mod_eq_of_lt hbits]
      have hsub : (length - BitVec.ofNat p.bits s.length).toNat = length.toNat - s.length := by
        rw [BitVec.toNat_sub_of_le (BitVec.le_def.mpr (by omega)), hsize]
      have hrest : length - BitVec.ofNat p.bits s.length - BitVec.ofNat p.bits (len - s.length) =
          length - BitVec.ofNat p.bits len := by
        rw [sub_sub, ← BitVec.ofNat_add, Nat.add_sub_cancel' hgt.le]
      rw [if_neg (by omega), if_neg (by omega), ih _ _ (by omega) hds, if_neg (by omega), hrest,
        ByteBuffer.cut, if_neg (by omega)]

lemma refines_clearBuffer (b : SliceBuffer p) (a : ByteBuffer) :
    b.clearBuffer.Refines a.clearBuffer := ⟨rfl, BitVec.toNat_zero⟩

section refines

variable (h : b.Refines a)
include h

lemma Refines.content : b.content = a.content := congrArg List.flatten h.ds

lemma Refines.getBufferLength : b.getBufferLength = a.getBufferLength := h.length

lemma Refines.isEmpty : b.isEmpty = a.isEmpty := congrArg List.isEmpty h.ds

lemma Refines.front (hne : a.isEmpty = false) : b.front = some a.front := by
  obtain ⟨_ | ⟨s, ds⟩, hds⟩ := a
  · cases hne
  · rw [SliceBuffer.front, h.ds]
    rfl

lemma Refines.merge (memory : Nat → Byte) : b.merge memory = some a.merge := by
  rw [ByteBuffer.merge_eq_content, ← h.content, SliceBuffer.merge, SliceBuffer.content]
  have hlength : b.getBufferLength = b.ds.flatten.length := h.length.trans (by rw [h.ds]; rfl)
  split
  · next hds => rw [hds]; rfl
  · next s hds => simp [hds]
  · exact copyAll_makeSliceByLength hlength

lemma Refines.addSlice {s : List Byte} (hfits : (a.content ++ s).length < 2 ^ p.bits) :
    (b.addSlice s).Refines (a.addSlice s) := by
  rw [List.length_append] at hfits
  by_cases hs : s = []
  · rw [SliceBuffer.addSlice, if_pos (by simp [hs]), ByteBuffer.addSlice, dif_pos hs]
    exact h
  · refine ⟨?_, ?_⟩
    · rw [SliceBuffer.addSlice, if_neg (by simpa using hs), ByteBuffer.addSlice, dif_neg hs, h.ds]
    · rw [ByteBuffer.content_addSlice, SliceBuffer.addSlice, if_neg (by simpa using hs),
        BitVec.toNat_add, BitVec.toNat_ofNat, h.length, List.length_append, Nat.add_mod_mod,
        Nat.mod_eq_of_lt hfits]

lemma Refines.moveHeader (len : Nat) : ∃ b', b.moveHeader len = some ((a.moveHeader len).1, b') ∧
    b'.Refines (a.moveHeader len).2 := by
  have hle : b.length.toNat ≤ b.ds.flatten.length := (h.length.trans (by rw [h.ds]; rfl)).le
  rw [SliceBuffer.moveHeader, moveHeaderFrom_eq _ _ _ hle (h.ds ▸ a.ne_nil)]
  by_cases hlt : a.content.length < len
  · rw [if_pos (h.length ▸ hlt), a.moveHeader_of_lt hlt]
    exact ⟨b, rfl, h⟩
  · rw [if_neg (h.length ▸ hlt), ByteBuffer.moveHeader,
      if_neg (a.getBufferLength_eq ▸ hlt)]
    refine ⟨_, rfl, congrArg (ByteBuffer.cut · len) h.ds, ?_⟩
    have hbits : len < 2 ^ p.bits := by
      have hlength := b.length.isLt
      have heq := h.length
      omega
    have hsize : (BitVec.ofNat p.bits len).toNat = len := by
      rw [BitVec.toNat_ofNat, Nat.mod_eq_of_lt hbits]
    rw [BitVec.toNat_sub_of_le (BitVec.le_def.mpr (by rw [hsize, h.length]; omega)), hsize,
      h.length]
    exact (List.length_drop ..).symm.trans (congrArg List.length (ByteBuffer.flatten_cut ..).symm)

end refines

end SliceBuffer

end Connx
