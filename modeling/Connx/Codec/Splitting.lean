import Connx.Net.Connection.Basic

/-!
# The delimiter and the fixed length codec

Both codecs have no state and look only at the bytes they are given.
-/

namespace Connx

/-- `memchr` over all of `data`. -/
def memchr (data : List Byte) (byte : Byte) : Option Nat := data.findIdx? (· == byte)

structure DelimiterCodec where
  delimiter : Byte
  deriving DecidableEq, Repr

/-- `Decode`: the result, and what it stores in `consumed_len`. -/
def DelimiterCodec.decode (c : DelimiterCodec) (data : List Byte) : DecodeResult × Nat :=
  match memchr data c.delimiter with
  | some pos => (.success, pos + 1)
  | none => (.needMoreData, 0)

/-- The codec as `ParseInput` calls it. -/
def DelimiterCodec.codec (c : DelimiterCodec) (_ : Nat) (data : List Byte) : DecodeResult × Nat :=
  c.decode data

/-- `FixedLengthCodec`; its constructor leaves no length of zero. -/
structure FixedLengthCodec where
  fixedLength : Nat
  pos : 0 < fixedLength
  deriving Repr

namespace FixedLengthCodec

/-- The constructor. -/
def new (fixedLength : Nat) : FixedLengthCodec :=
  if h : fixedLength = 0 then ⟨1, Nat.one_pos⟩ else ⟨fixedLength, Nat.pos_of_ne_zero h⟩

/-- `Decode`: the length is stored in `consumed_len` also when more data is needed. -/
def decode (c : FixedLengthCodec) (data : List Byte) : DecodeResult × Nat :=
  (if data.length < c.fixedLength then .needMoreData else .success, c.fixedLength)

/-- The codec as `ParseInput` calls it. -/
def codec (c : FixedLengthCodec) (_ : Nat) (data : List Byte) : DecodeResult × Nat := c.decode data

/-- Clients with this codec. -/
def clients (c : FixedLengthCodec) (i : Nat) : Config := { self := i, codec := c.codec }

end FixedLengthCodec

end Connx
