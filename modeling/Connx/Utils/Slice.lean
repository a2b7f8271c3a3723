import Connx.Lib.RefCount
import Connx.Utils.SliceBuffer

/-!
# `slice.cc`

`Slice` with both of its representations, the blocks the long ones share, and the variables of a
program that uses slices. A block is a cell with its counter; `free` is counted in the cell, and a
block is never used again under its number. Which member of the union `data_` is in use is decided
by `refs_`, so the two are one type here. Contents are not written through `buffer()`.
-/

namespace Connx

abbrev Block := RefCount.Cell (List Byte)

/-- `SLICE_INLINED_SIZE`. -/
def kSliceInlinedSize : Nat := 23

/-- `class Slice`. -/
inductive Slice where
  /-- `refs_` is null: `data_.inlined`. Only the first `length` bytes are read. -/
  | inlined (length : Nat) (bytes : List Byte)
  /-- `data_.refcounted`; `bytes` is the position in the block it points to. -/
  | refcounted (refs length bytes : Nat)
  deriving DecidableEq

namespace Slice

def size : Slice → Nat
  | inlined length _ => length
  | refcounted _ length _ => length

def empty (s : Slice) : Bool := s.size == 0

/-- The block that `refs_` points to. -/
def target : Slice → Option Nat
  | inlined _ _ => none
  | refcounted refs _ _ => some refs

/-- The memory from `begin()` on. -/
def memory (blocks : List Block) : Slice → List Byte
  | inlined _ bytes => bytes
  | refcounted refs _ bytes => ((blocks[refs]?.map RefCount.Cell.payload).getD []).drop bytes

/-- The bytes from `begin()` to `end()`. -/
def content (blocks : List Block) (s : Slice) : List Byte := (s.memory blocks).take s.size

/-- `compare` and with it `operator==`: `memcmp` only when the lengths are equal and not 0. -/
def equals (blocks : List Block) (s oth : Slice) : Bool :=
  if oth.size ≠ s.size then false
  else oth.size == 0 || (s.memory blocks).take oth.size == (oth.memory blocks).take oth.size

/-- What a move leaves behind: a null `refs_` and an inlined length of 0. -/
def moved : Slice := inlined 0 []

/-- `RemoveTail`. -/
def removeTail (s : Slice) (removeSize : Nat) : Slice :=
  if removeSize = 0 then s
  else
    let removeSize := if s.size < removeSize then s.size else removeSize
    match s with
    | inlined length bytes => inlined (length - removeSize) bytes
    | refcounted refs length bytes => refcounted refs (length - removeSize) bytes

/-- `RemoveHead`; the inlined bytes are moved to the front. -/
def removeHead (s : Slice) (removeSize : Nat) : Slice :=
  if removeSize = 0 then s
  else
    let removeSize := if s.size < removeSize then s.size else removeSize
    match s with
    | inlined length bytes =>
      inlined (length - removeSize)
        (SliceBuffer.blit bytes 0 ((bytes.drop removeSize).take (length - removeSize)))
    | refcounted refs length bytes => refcounted refs (length - removeSize) (bytes + removeSize)

/-- `Slice(ptr, len)`, and `MakeSliceByLength` with the bytes copied into it. -/
def make (blocks : List Block) (bytes : List Byte) : Slice × List Block :=
  if bytes.length ≤ kSliceInlinedSize then
    (inlined bytes.length (bytes ++ List.replicate (kSliceInlinedSize - bytes.length) 0), blocks)
  else (refcounted blocks.length bytes.length 0, blocks ++ [{ payload := bytes }])

/-! ### Variables -/

/-- The blocks and the variables; `none` is a variable that is not constructed, or no longer. -/
structure State where
  blocks : List Block := []
  vars : List (Option Slice) := []
  deriving DecidableEq

namespace State

/-- A program with `n` variables. -/
def init (n : Nat) : State := { vars := List.replicate n none }

def var (S : State) (i : Nat) : Option Slice := S.vars[i]?.join

/-- The constructors and the assignments, for a variable `i` and a source `j`. -/
def construct (S : State) (i : Nat) (bytes : List Byte) : State :=
  { blocks := (make S.blocks bytes).2, vars := S.vars.set i (some (make S.blocks bytes).1) }

def copyConstruct (S : State) (i j : Nat) : State :=
  match S.var j with
  | none => S
  | some s => { blocks := RefCount.retain S.blocks s.target, vars := S.vars.set i (some s) }

def moveConstruct (S : State) (i j : Nat) : State :=
  match S.var j with
  | none => S
  | some s => { S with vars := (S.vars.set i (some s)).set j (some moved) }

def copyAssign (S : State) (i j : Nat) : State :=
  match S.var i, S.var j with
  | some d, some s =>
    if i = j then S
    -- `AddRef` of the source before `DecRef` of the destination
    else
      { blocks := RefCount.release (RefCount.retain S.blocks s.target) d.target
        vars := S.vars.set i (some s) }
  | _, _ => S

def moveAssign (S : State) (i j : Nat) : State :=
  match S.var i, S.var j with
  | some d, some s =>
    if i = j then S
    else
      { blocks := RefCount.release S.blocks d.target
        vars := (S.vars.set i (some s)).set j (some moved) }
  | _, _ => S

def destruct (S : State) (i : Nat) : State :=
  match S.var i with
  | none => S
  | some d => { blocks := RefCount.release S.blocks d.target, vars := S.vars.set i none }

/-- The parameters of `operator+(Slice s1, Slice s2)`: copies of `i` and `j` in two temporary
variables. -/
def parameters (S : State) (i j : Nat) : State :=
  let p := S.vars.length
  ({ S with vars := S.vars ++ [none, none] }.copyConstruct p i).copyConstruct (p + 1) j

/-- The body of `operator+` for parameters in `p` and `p + 1`; one that is returned as it is, is
moved into the result. -/
def sumInto (S : State) (z p : Nat) : State :=
  match S.var p, S.var (p + 1) with
  | some s1, some s2 =>
    if s1.empty then S.moveConstruct z (p + 1)
    else if s2.empty then S.moveConstruct z p
    else S.construct z (s1.content S.blocks ++ s2.content S.blocks)
  | _, _ => S

def endParameters (S : State) (p : Nat) : State :=
  let S := (S.destruct (p + 1)).destruct p
  { S with vars := S.vars.take p }

/-- `operator+` of the variables `i` and `j` into `z`. -/
def plus (S : State) (z i j : Nat) : State :=
  ((S.parameters i j).sumInto z S.vars.length).endParameters S.vars.length

def endTemporary (S : State) (p : Nat) : State :=
  let S := S.destruct p
  { S with vars := S.vars.take p }

/-- `operator+=`: the sum is moved from a temporary variable. -/
def plusAssign (S : State) (i j : Nat) : State :=
  let p := S.vars.length
  (({ S with vars := S.vars ++ [none] }.plus p i j).moveAssign i p).endTemporary p

/-- `clear`: an empty temporary is moved into the variable. -/
def clear (S : State) (i : Nat) : State :=
  let p := S.vars.length
  (({ S with vars := S.vars ++ [none] }.construct p []).moveAssign i p).endTemporary p

def modify (S : State) (i : Nat) (f : Slice → Slice) : State :=
  match S.var i with
  | none => S
  | some s => { S with vars := S.vars.set i (some (f s)) }

end State

/-- The operations of a program on its variables. -/
inductive Op where
  | construct (i : Nat) (bytes : List Byte)
  | copyConstruct (i j : Nat)
  | moveConstruct (i j : Nat)
  | copyAssign (i j : Nat)
  | moveAssign (i j : Nat)
  | removeHead (i n : Nat)
  | removeTail (i n : Nat)
  | plus (z i j : Nat)
  | plusAssign (i j : Nat)
  | clear (i : Nat)
  | destruct (i : Nat)
  deriving DecidableEq

/-- The variables an operation constructs, and those it uses. -/
def Op.constructs : Op → List Nat
  | .construct i _ | .copyConstruct i _ | .moveConstruct i _ | .plus i _ _ => [i]
  | _ => []

def Op.uses : Op → List Nat
  | .construct _ _ => []
  | .copyConstruct _ j | .moveConstruct _ j => [j]
  | .copyAssign i j | .moveAssign i j | .plusAssign i j | .plus _ i j => [i, j]
  | .removeHead i _ | .removeTail i _ | .clear i | .destruct i => [i]

/-- An operation constructs variables that are not constructed, and uses ones that are. -/
def enabled {α : Type} (vars : List (Option α)) (op : Op) : Bool :=
  op.constructs.all (fun i => vars[i]?.elim false Option.isNone) &&
    op.uses.all (fun i => vars[i]?.elim false Option.isSome)

def State.apply (S : State) : Op → State
  | .construct i bytes => S.construct i bytes
  | .copyConstruct i j => S.copyConstruct i j
  | .moveConstruct i j => S.moveConstruct i j
  | .copyAssign i j => S.copyAssign i j
  | .moveAssign i j => S.moveAssign i j
  | .removeHead i n => S.modify i (·.removeHead n)
  | .removeTail i n => S.modify i (·.removeTail n)
  | .plus z i j => S.plus z i j
  | .plusAssign i j => S.plusAssign i j
  | .clear i => S.clear i
  | .destruct i => S.destruct i

def step (S : State) (op : Op) : Option State :=
  if enabled S.vars op then some (S.apply op) else none

end Slice

end Connx
