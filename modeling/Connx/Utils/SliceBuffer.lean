import Mathlib.Tactic
import Mathlib.Data.BitVec

/-!
# `SliceBuffer`

A deque of slices with a separately kept byte count, as in `slice_buffer.cc`. A slice is modelled by
its bytes. The count is a `size_t`: slices share their blocks, so the sizes of the stored ones may
add up to more than it can hold. Where an assertion fails, an empty deque is dereferenced or bytes
are copied behind the end of a buffer, the result is `none`.
-/

namespace Connx

abbrev Byte := UInt8

/-- The width of `size_t`. -/
inductive SizeT where
  | bits32
  | bits64
  deriving DecidableEq, Repr

def SizeT.bits : SizeT → Nat
  | .bits32 => 32
  | .bits64 => 64

/-- `SIZE_MAX`. -/
def SizeT.max (p : SizeT) : Nat := 2 ^ p.bits - 1

/-- `class SliceBuffer`: `length_` and `ds_`. -/
structure SliceBuffer (p : SizeT) where
  length : BitVec p.bits := 0
  ds : List (List Byte) := []
  deriving DecidableEq, Repr

namespace SliceBuffer

/-! ### Copying -/

/-- `buffer` with `bytes` written at `pos`. -/
def blit (buffer : List Byte) (pos : Nat) (bytes : List Byte) : List Byte :=
  buffer.take pos ++ bytes ++ buffer.drop (pos + bytes.length)

/-- `memcpy` of `bytes` to `pos` in `buffer`. -/
def memcpy (buffer : List Byte) (pos : Nat) (bytes : List Byte) : Option (List Byte) :=
  if pos + bytes.length ≤ buffer.length then some (blit buffer pos bytes) else none

/-- `MakeSliceByLength`; `memory` is what the new memory happens to hold. -/
def makeSliceByLength (memory : Nat → Byte) (length : Nat) : List Byte :=
  (List.range length).map memory

/-- The loop of `Merge` and `MergeFront`. -/
def copyAll : List (List Byte) → Nat → List Byte → Option (List Byte)
  | [], _, buf => some buf
  | s :: ds, pos, buf => (memcpy buf pos s).bind fun buf => copyAll ds (pos + s.length) buf

/-- The loop of `CopyToBuffer`: `pos` and the buffer at the end. -/
def copyFrom : List (List Byte) → Nat → Nat → List Byte → Option (Nat × List Byte)
  | [], _, pos, buffer => some (pos, buffer)
  | s :: ds, left, pos, buffer =>
    if left = 0 then some (pos, buffer)
    else
      let len := min left s.length
      (memcpy buffer pos (s.take len)).bind fun buffer =>
        copyFrom ds (left - len) (pos + len) buffer

/-! ### Calls -/

section calls

variable {p : SizeT} (b : SliceBuffer p)

/-- The bytes a buffer holds, front to back. -/
def content : List Byte := b.ds.flatten

def sliceCount : Nat := b.ds.length

def getBufferLength : Nat := b.length.toNat

def isEmpty : Bool := b.ds.isEmpty

def clearBuffer (_ : SliceBuffer p) : SliceBuffer p := {}

def front : Option (List Byte) := b.ds.head?

/-- `Merge`: one slice is returned as it is, several are copied into a new one. -/
def merge (memory : Nat → Byte) : Option (List Byte) :=
  match b.ds with
  | [] => some []
  | [s] => some s
  | ds => copyAll ds 0 (makeSliceByLength memory b.getBufferLength)

/-- `MergeFront`. -/
def mergeFront (memory : Nat → Byte) (count : Nat) : Option (List Byte) :=
  if count = 0 ∨ b.ds.isEmpty then some []
  else if count = 1 then b.ds.head?
  else
    let n := if count < b.ds.length then count else b.ds.length
    let total : BitVec p.bits :=
      (b.ds.take n).foldl (fun total s => total + BitVec.ofNat p.bits s.length) 0
    copyAll (b.ds.take n) 0 (makeSliceByLength memory total.toNat)

def addSlice (s : List Byte) : SliceBuffer p :=
  if s.isEmpty then b
  else { length := b.length + BitVec.ofNat p.bits s.length, ds := b.ds ++ [s] }

/-- `AddSlice(Slice&&)`: the buffer and what is left in `s`. `emplace_back(s)` copies, because `s`
is an lvalue there, so its size can still be read afterwards. -/
def addSliceMove (s : List Byte) : SliceBuffer p × List Byte :=
  if s.isEmpty then (b, s)
  else ({ length := b.length + BitVec.ofNat p.bits s.length, ds := b.ds ++ [s] }, s)

/-- `CopyToBuffer`: the number of bytes copied, and the buffer. -/
def copyToBuffer (buffer : List Byte) (length : Nat) : Option (Nat × List Byte) :=
  if length ≤ b.getBufferLength then copyFrom b.ds length 0 buffer else none

def getHeader (memory : Nat → Byte) (len : Nat) : Option (List Byte) :=
  if len = 0 ∨ b.getBufferLength < len then some []
  else (b.copyToBuffer (makeSliceByLength memory len) len).map Prod.snd

/-- The recursion of `MoveHeader`, on the deque; `length` is the current `length_`. -/
def moveHeaderFrom : List (List Byte) → BitVec p.bits → Nat → Option (Bool × SliceBuffer p)
  | ds, length, len =>
    if length.toNat < len then some (false, ⟨length, ds⟩)
    else if len = 0 then some (true, ⟨length, ds⟩)
    else
      match ds with
      | [] => none
      | s :: ds =>
        if len < s.length then
          some (true, ⟨length - BitVec.ofNat p.bits len, s.drop len :: ds⟩)
        else if s.length = len then some (true, ⟨length - BitVec.ofNat p.bits len, ds⟩)
        else moveHeaderFrom ds (length - BitVec.ofNat p.bits s.length) (len - s.length)

/-- `MoveHeader`: drop the first `len` bytes, or refuse when there are fewer. -/
def moveHeader (len : Nat) : Option (Bool × SliceBuffer p) := moveHeaderFrom b.ds b.length len

def popFront : Option (SliceBuffer p) :=
  match b.ds with
  | [] => none
  | s :: ds => some ⟨b.length - BitVec.ofNat p.bits s.length, ds⟩

def popBack : Option (SliceBuffer p) :=
  match b.ds.getLast? with
  | none => none
  | some s => some ⟨b.length - BitVec.ofNat p.bits s.length, b.ds.dropLast⟩

end calls

/-! ### What is copied -/

section copies

variable {buffer : List Byte} {pos : Nat}

@[simp] lemma length_makeSliceByLength (memory : Nat → Byte) (length : Nat) :
    (makeSliceByLength memory length).length = length := by
  simp [makeSliceByLength]

lemma length_blit {a : List Byte} (h : pos + a.length ≤ buffer.length) :
    (blit buffer pos a).length = buffer.length := by
  simp [blit]
  omega

/-- Two copies behind each other are one. -/
lemma blit_append {a : List Byte} (h : pos + a.length ≤ buffer.length) (c : List Byte) :
    blit (blit buffer pos a) (pos + a.length) c = blit buffer pos (a ++ c) := by
  have hlen : (buffer.take pos ++ a).length = pos + a.length := by
    simp
    omega
  have hrest : (buffer.take pos ++ a ++ buffer.drop (pos + a.length)).drop
      (pos + a.length + c.length) = buffer.drop (pos + (a ++ c).length) := by
    rw [List.drop_append, List.drop_of_length_le (by omega), hlen, Nat.add_sub_cancel_left,
      List.drop_drop, List.nil_append, List.length_append, ← Nat.add_assoc]
  unfold blit
  rw [hrest, List.take_append_of_le_length (by omega), List.take_of_length_le hlen.le]
  simp

lemma blit_zero {bytes : List Byte} : blit buffer 0 bytes = bytes ++ buffer.drop bytes.length := by
  simp [blit]

lemma copyAll_eq (ds : List (List Byte)) (pos : Nat) (buffer : List Byte)
    (hbuffer : pos + ds.flatten.length ≤ buffer.length) :
    copyAll ds pos buffer = some (blit buffer pos ds.flatten) := by
  induction ds generalizing pos buffer with
  | nil => simp [copyAll, blit]
  | cons s ds ih =>
    rw [List.flatten_cons, List.length_append] at hbuffer
    have hfits : pos + s.length ≤ buffer.length := by omega
    rw [copyAll, memcpy, if_pos hfits, Option.bind_some,
      ih _ _ (by rw [length_blit hfits]; omega), blit_append hfits, List.flatten_cons]

/-- Slices whose sizes add up to the length of the buffer fill it. -/
lemma copyAll_makeSliceByLength {ds : List (List Byte)} {memory : Nat → Byte} {length : Nat}
    (h : length = ds.flatten.length) :
    copyAll ds 0 (makeSliceByLength memory length) = some ds.flatten := by
  rw [copyAll_eq _ _ _ (by simp [h]), blit_zero, List.drop_of_length_le (by simp [h]),
    List.append_nil]

lemma copyFrom_eq (ds : List (List Byte)) (left pos : Nat) (buffer : List Byte)
    (hleft : left ≤ ds.flatten.length) (hbuffer : pos + left ≤ buffer.length) :
    copyFrom ds left pos buffer = some (pos + left, blit buffer pos (ds.flatten.take left)) := by
  induction ds generalizing left pos buffer with
  | nil =>
    obtain rfl : left = 0 := by simpa using hleft
    simp [copyFrom, blit]
  | cons s ds ih =>
    rw [copyFrom]
    by_cases h0 : left = 0
    · simp [h0, blit]
    · rw [if_neg h0]
      rw [List.flatten_cons, List.length_append] at hleft
      have hlen : (s.take (min left s.length)).length = min left s.length := by simp
      have hfits : pos + (s.take (min left s.length)).length ≤ buffer.length := by omega
      have htake : s.take (min left s.length) ++ ds.flatten.take (left - min left s.length) =
          (s :: ds).flatten.take left := by
        have hs : s.take (min left s.length) = s.take left :=
          List.take_eq_take_iff.mpr (by omega)
        rw [List.flatten_cons, List.take_append, hs]
        congr 2
        omega
      simp only
      rw [memcpy, if_pos hfits, Option.bind_some,
        ih _ _ _ (by omega) (by rw [length_blit hfits]; omega), ← htake, ← blit_append hfits, hlen]
      congr 2
      omega

end copies

end SliceBuffer

end Connx
