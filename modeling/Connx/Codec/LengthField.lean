import Connx.Lib.Probe
import Connx.Net.Connection.Basic

/-!
# The length field codec

`LengthFieldCodec` with the assertions of its constructor as fields. `Decode` reads the memory that
its argument points to; nothing but the code keeps it inside the `len` bytes it is given.
-/

namespace Connx

/-- `INT64_MAX`, as it is compared with a `uint64_t`. -/
def int64Max : UInt64 := 0x7fffffffffffffff

structure LengthFieldCodec where
  lengthFieldOffset : UInt32
  lengthFieldLength : UInt32
  headerLen : UInt32
  networkToHost : Bool
  offset_lt : lengthFieldOffset < headerLen
  length_mem : 1 ≤ lengthFieldLength ∧ lengthFieldLength ≤ 8
  length_le : lengthFieldLength ≤ headerLen

namespace LengthFieldCodec

/-- The constructor; an assertion that fails ends the program. -/
def new (lengthFieldOffset lengthFieldLength headerLen : UInt32) (networkToHost : Bool) :
    Option LengthFieldCodec :=
  if h : lengthFieldOffset < headerLen ∧ (1 ≤ lengthFieldLength ∧ lengthFieldLength ≤ 8) ∧
      lengthFieldLength ≤ headerLen then
    some ⟨lengthFieldOffset, lengthFieldLength, headerLen, networkToHost, h.1, h.2.1, h.2.2⟩
  else none

variable (c : LengthFieldCodec)

/-- `ReadLengthValue`, with the index of the first byte of the field. -/
def readLengthValue (data : Nat) : Probe Byte UInt64 :=
  if c.networkToHost then
    -- most significant byte first
    Probe.loop (fun _ value byte => (value <<< 8) ||| byte.toUInt64) data
      c.lengthFieldLength.toNat 0 0
  else
    Probe.loop (fun i value byte => value ||| (byte.toUInt64 <<< UInt64.ofNat (i * 8))) data
      c.lengthFieldLength.toNat 0 0

/-- `Decode` of `len` bytes: the result, and what it stores in `consumed_len`. -/
def decode (p : SizeT) (len : Nat) : Probe Byte (DecodeResult × Nat) :=
  if len < c.headerLen.toNat then pure (.needMoreData, 0)
  else do
    let bodyLength ← c.readLengthValue c.lengthFieldOffset.toNat
    if bodyLength ≥ int64Max ∨ bodyLength.toNat > p.max - c.headerLen.toNat then
      pure (.error, 0)
    else
      let consumedLen := (c.headerLen.toNat + bodyLength.toNat % 2 ^ p.bits) % 2 ^ p.bits
      pure (if len < consumedLen then .needMoreData else .success, consumedLen)

end LengthFieldCodec

end Connx
