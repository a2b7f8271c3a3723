import Connx.Codec.LengthField
import Connx.Lib.ByteOrder
import Connx.Properties.Framing

/-!
# The length field codec

A field that lies inside the header is read inside the header, and the frames are those of the
length-prefixed format. The assertions of the constructor do not make the field lie there.
-/

namespace Connx.LengthFieldCodec

open ByteOrder

variable {c : LengthFieldCodec} {p : SizeT} {mem : Nat → Byte} {len : Nat}

/-- The length field lies inside the header. -/
def Fits (c : LengthFieldCodec) : Prop :=
  c.lengthFieldOffset.toNat + c.lengthFieldLength.toNat ≤ c.headerLen.toNat

instance : Decidable c.Fits := inferInstanceAs (Decidable (_ ≤ _))

/-! ### What is read -/

@[simp] lemma reads_readLengthValue (data : Nat) :
    (c.readLengthValue data).reads mem = List.range' data c.lengthFieldLength.toNat := by
  unfold readLengthValue
  split_ifs <;> simp

lemma reads_decode (hlen : c.headerLen.toNat ≤ len) : (c.decode p len).reads mem =
    List.range' c.lengthFieldOffset.toNat c.lengthFieldLength.toNat := by
  rw [decode, if_neg (by omega), Probe.reads_bind, reads_readLengthValue]
  split_ifs <;> simp

/-- With less than a header there is nothing to read. -/
lemma reads_decode_of_lt (hlen : len < c.headerLen.toNat) : (c.decode p len).reads mem = [] := by
  rw [decode, if_pos hlen]
  rfl

lemma Fits.reads_lt (hfits : c.Fits) {i : Nat} (hi : i ∈ (c.decode p len).reads mem) :
    i < c.headerLen.toNat ∧ c.headerLen.toNat ≤ len := by
  by_cases hlen : c.headerLen.toNat ≤ len
  · rw [reads_decode hlen, List.mem_range'_1] at hi
    exact ⟨Nat.lt_of_lt_of_le hi.2 hfits, hlen⟩
  · rw [reads_decode_of_lt (by omega)] at hi
    cases hi

lemma eq_of_new {offset length headerLen : UInt32} {networkToHost : Bool}
    (hnew : new offset length headerLen networkToHost = some c) :
    c.lengthFieldOffset = offset ∧ c.lengthFieldLength = length ∧ c.headerLen = headerLen := by
  rw [new] at hnew
  split_ifs at hnew
  obtain rfl := Option.some.inj hnew
  exact ⟨rfl, rfl, rfl⟩

/-- What is read when all of the header is there includes the last byte of the field. -/
lemma last_mem_reads (hlen : c.headerLen.toNat ≤ len) :
    c.lengthFieldOffset.toNat + c.lengthFieldLength.toNat - 1 ∈ (c.decode p len).reads mem := by
  have hone : 1 ≤ c.lengthFieldLength.toNat := c.length_mem.1
  rw [reads_decode hlen, List.mem_range'_1]
  omega

/-- Nothing behind the header is read, in any memory, and nothing behind it decides the answer, if
and only if the field ends inside the header. -/
theorem reads_inside_iff {offset length headerLen : UInt32} {networkToHost : Bool}
    (hnew : new offset length headerLen networkToHost = some c) (p : SizeT) :
    (∀ (mem : Nat → Byte) (len : Nat),
      (∀ i ∈ (c.decode p len).reads mem, i < headerLen.toNat ∧ headerLen.toNat ≤ len) ∧
        ∀ mem', (∀ i < headerLen.toNat, mem' i = mem i) →
          (c.decode p len).run mem' = (c.decode p len).run mem) ↔
      offset.toNat + length.toNat ≤ headerLen.toNat := by
  obtain ⟨rfl, rfl, rfl⟩ := eq_of_new hnew
  constructor
  · intro hinside
    have hlast := (hinside (fun _ => 0) c.headerLen.toNat).1 _ (last_mem_reads le_rfl)
    omega
  · intro hfits mem len
    have hlt {i : Nat} (hi : i ∈ (c.decode p len).reads mem) := Fits.reads_lt hfits hi
    exact ⟨fun i hi => hlt hi, fun mem' hmem => Probe.run_congr _ fun i hi => hmem i (hlt hi).1⟩

theorem reads_inside_iff_sixByteHeader : ∃ c, new 2 2 6 true = some c ∧
    ∀ (mem : Nat → Byte) (len : Nat),
      (∀ i ∈ (c.decode .bits64 len).reads mem, i < 6 ∧ 6 ≤ len) ∧
        ∀ mem', (∀ i < 6, mem' i = mem i) →
          (c.decode .bits64 len).run mem' = (c.decode .bits64 len).run mem :=
  ⟨⟨2, 2, 6, true, by decide, by decide, by decide⟩, rfl,
    (reads_inside_iff (show new 2 2 6 true = some _ from rfl) .bits64).mpr (by decide)⟩

/-- A field of four bytes at offset two of a header of four is accepted, and its last two bytes are
read behind the header: two bytes that were not received decide the answer. -/
theorem not_reads_inside_overlong : ∃ c, new 2 4 4 true = some c ∧
    (c.decode .bits64 4).reads (fun _ => 0) = [2, 3, 4, 5] ∧
      (c.decode .bits64 4).run (fun _ => 0) = (.success, 4) ∧
      (c.decode .bits64 4).run (fun i => if i < 4 then 0 else 1) = (.needMoreData, 261) :=
  ⟨⟨2, 4, 4, true, by decide, by decide, by decide⟩, rfl, by decide, by decide, by decide⟩

/-! ### What is decoded -/

/-- The bytes of the field that holds `n`. -/
def fieldBytes (c : LengthFieldCodec) (n : Nat) : List Byte :=
  if c.networkToHost then big c.lengthFieldLength.toNat n else little c.lengthFieldLength.toNat n

@[simp] lemma length_fieldBytes (n : Nat) :
    (c.fieldBytes n).length = c.lengthFieldLength.toNat := by
  unfold fieldBytes
  split_ifs <;> simp

/-- A header whose field holds `n`, with the other bytes as they are. -/
def writeLength (c : LengthFieldCodec) (n : Nat) (header : List Byte) : List Byte :=
  header.take c.lengthFieldOffset.toNat ++ c.fieldBytes n ++
    header.drop (c.lengthFieldOffset.toNat + c.lengthFieldLength.toNat)

lemma length_le_eight (c : LengthFieldCodec) : c.lengthFieldLength.toNat ≤ 8 := c.length_mem.2

/-- The loop of the little-endian branch: the lower bytes of the number so far. -/
lemma run_little {data n : Nat} (hn : n < 256 ^ c.lengthFieldLength.toNat)
    (horder : c.networkToHost = false)
    (hmem : ∀ i < c.lengthFieldLength.toNat, mem (data + i) = byteAt n i) :
    ((c.readLengthValue data).run mem).toNat = n := by
  rw [readLengthValue, if_neg (by simp [horder])]
  have hloop := Probe.run_loop mem data
    (fun i value (byte : Byte) => value ||| (byte.toUInt64 <<< UInt64.ofNat (i * 8)))
    (fun i value => i ≤ c.lengthFieldLength.toNat → value.toNat = n % 256 ^ i)
    ?_ (n := c.lengthFieldLength.toNat) (i := 0) (a := 0) (by simp [Nat.mod_one])
  · simpa [Nat.mod_eq_of_lt hn] using hloop
  · intro i value hvalue hi
    have height := c.length_le_eight
    have hvalue := hvalue (by omega)
    have hlt : value.toNat < 256 ^ i := hvalue ▸ Nat.mod_lt _ (by positivity)
    rw [toNat_or_shiftLeft (by omega) hlt, hmem i (by omega), toNat_byteAt, hvalue,
      Nat.mod_pow_succ]

/-- The loop of the big-endian branch: the upper bytes of the number so far. -/
lemma run_big {data n : Nat} (hn : n < 256 ^ c.lengthFieldLength.toNat)
    (horder : c.networkToHost = true)
    (hmem : ∀ i < c.lengthFieldLength.toNat,
      mem (data + i) = byteAt n (c.lengthFieldLength.toNat - 1 - i)) :
    ((c.readLengthValue data).run mem).toNat = n := by
  rw [readLengthValue, if_pos horder]
  generalize hw : c.lengthFieldLength.toNat = w at *
  have hloop := Probe.run_loop mem data
    (fun _ (value : UInt64) (byte : Byte) => (value <<< 8) ||| byte.toUInt64)
    (fun i value => i ≤ w → value.toNat = n / 256 ^ (w - i))
    ?_ (n := w) (i := 0) (a := 0) (by simp [Nat.div_eq_of_lt hn])
  · simpa using hloop
  · intro i value hvalue hi
    have height : w ≤ 8 := hw ▸ c.length_le_eight
    have hvalue := hvalue (by omega)
    -- what is left below the byte that comes next
    obtain ⟨k, hk⟩ : ∃ k, w - i = k + 1 := ⟨w - i - 1, by omega⟩
    have hk' : w - (i + 1) = k := by omega
    have hk'' : w - 1 - i = k := by omega
    rw [hk, pow_succ, ← Nat.div_div_eq_div_mul] at hvalue
    have hlt : n / 256 ^ k < 256 ^ 8 :=
      (Nat.div_le_self ..).trans_lt (hn.trans_le (Nat.pow_le_pow_right (by norm_num) height))
    rw [toNat_shiftLeft_or (by omega), hmem i (by omega), toNat_byteAt, hk', hk'', hvalue]
    omega

lemma getElem?_writeLength {n i : Nat} {header rest : List Byte} (hfits : c.Fits)
    (hheader : header.length = c.headerLen.toNat) (hi : i < c.lengthFieldLength.toNat) :
    (c.writeLength n header ++ rest)[c.lengthFieldOffset.toNat + i]? = (c.fieldBytes n)[i]? := by
  have htake : (header.take c.lengthFieldOffset.toNat).length = c.lengthFieldOffset.toNat := by
    rw [List.length_take, hheader]
    exact Nat.min_eq_left (Nat.le_of_add_right_le hfits)
  rw [writeLength, List.append_assoc, List.append_assoc, List.getElem?_append_right (by omega),
    htake, Nat.add_sub_cancel_left, List.getElem?_append_left (by simpa using hi)]

/-- The number that was written is read back. -/
theorem run_readLengthValue {n : Nat} {header rest : List Byte} (hfits : c.Fits)
    (hn : n < 256 ^ c.lengthFieldLength.toNat) (hheader : header.length = c.headerLen.toNat)
    (hlen : c.headerLen.toNat ≤ len)
    (hmem : ∀ i < len, (c.writeLength n header ++ rest)[i]? = some (mem i)) :
    ((c.readLengthValue c.lengthFieldOffset.toNat).run mem).toNat = n := by
  have hfield {i : Nat} (hi : i < c.lengthFieldLength.toNat) :
      (c.fieldBytes n)[i]? = some (mem (c.lengthFieldOffset.toNat + i)) := by
    have hlt : c.lengthFieldOffset.toNat + i < len :=
      (Nat.add_lt_add_left hi _).trans_le (Nat.le_trans hfits hlen)
    rw [← hmem _ hlt, getElem?_writeLength hfits hheader hi]
  cases horder : c.networkToHost with
  | false =>
    refine run_little hn horder fun i hi => ?_
    have hbyte := hfield hi
    rw [fieldBytes, if_neg (by simp [horder]), getElem?_little hi] at hbyte
    exact (Option.some.inj hbyte).symm
  | true =>
    refine run_big hn horder fun i hi => ?_
    have hbyte := hfield hi
    rw [fieldBytes, if_pos horder, getElem?_big hi] at hbyte
    exact (Option.some.inj hbyte).symm

/-- The answer about `len` bytes of a stream that begins with a header of `headerLen` bytes that
announces a body of `n`. -/
structure Answers (p : SizeT) (headerLen n len : Nat) (answer : DecodeResult × Nat) : Prop where
  short : len < headerLen → answer.1 = .needMoreData
  error : headerLen ≤ len → (answer.1 = .error ↔ 2 ^ 63 - 1 ≤ n ∨ p.max - headerLen < n)
  fits : headerLen ≤ len → answer.1 ≠ .error → headerLen + n ≤ p.max
  success : headerLen ≤ len → answer.1 ≠ .error →
    (answer = (.success, headerLen + n) ↔ headerLen + n ≤ len)
  more : headerLen ≤ len → answer.1 ≠ .error → (answer.1 = .needMoreData ↔ len < headerLen + n)

lemma headerLen_le_max (c : LengthFieldCodec) (p : SizeT) : c.headerLen.toNat ≤ p.max := by
  have hlt : c.headerLen.toNat < 2 ^ 32 := c.headerLen.toNat_lt
  cases p <;> simp only [SizeT.max, SizeT.bits] <;> omega

/-- `Decode` by what it reads. -/
lemma run_decode {n : Nat} (hlen : c.headerLen.toNat ≤ len)
    (hn : ((c.readLengthValue c.lengthFieldOffset.toNat).run mem).toNat = n) :
    (c.decode p len).run mem =
      if 2 ^ 63 - 1 ≤ n ∨ p.max - c.headerLen.toNat < n then (.error, 0)
      else (if len < c.headerLen.toNat + n then .needMoreData else .success,
        c.headerLen.toNat + n) := by
  have hmax : int64Max.toNat = 2 ^ 63 - 1 := rfl
  have hle := c.headerLen_le_max p
  have hsize : p.max < 2 ^ p.bits := Nat.sub_lt (by positivity) one_pos
  rw [decode, if_neg (by omega), Probe.run_bind]
  simp only [ge_iff_le, UInt64.le_iff_toNat_le, hn, hmax, gt_iff_lt]
  by_cases herror : 2 ^ 63 - 1 ≤ n ∨ p.max - c.headerLen.toNat < n
  · rw [if_pos herror, if_pos herror]
    rfl
  · -- below the guard nothing wraps
    rw [if_neg herror, if_neg herror, Probe.run_pure, Nat.mod_eq_of_lt (by omega : n < 2 ^ p.bits),
      Nat.mod_eq_of_lt (by omega)]

lemma Fits.answers {n : Nat} {header rest : List Byte} (hfits : c.Fits)
    (hn : n < 256 ^ c.lengthFieldLength.toNat) (hheader : header.length = c.headerLen.toNat)
    (hmem : ∀ i < len, (c.writeLength n header ++ rest)[i]? = some (mem i)) :
    Answers p c.headerLen.toNat n len ((c.decode p len).run mem) := by
  have hmax := c.headerLen_le_max p
  by_cases hlen : c.headerLen.toNat ≤ len
  · rw [run_decode hlen (run_readLengthValue hfits hn hheader hlen hmem)]
    by_cases herror : 2 ^ 63 - 1 ≤ n ∨ p.max - c.headerLen.toNat < n
    · rw [if_pos herror]
      exact ⟨by omega, fun _ => iff_of_true rfl herror, by simp, by simp, by simp⟩
    · rw [if_neg herror]
      refine ⟨by omega, fun _ => iff_of_false ?_ herror, by omega, fun _ _ => ?_, fun _ _ => ?_⟩
      · split_ifs <;> simp
      · simp
      · simp
  · rw [decode, if_pos (by omega)]
    exact ⟨fun _ => rfl, by omega, by omega, by omega, by omega⟩

/-- Every configuration whose field lies inside the header decodes the length-prefixed format. -/
theorem decode_encoded {offset length headerLen : UInt32} (networkToHost : Bool)
    (hlength : 1 ≤ length ∧ length ≤ 8) (hfits : offset.toNat + length.toNat ≤ headerLen.toNat) :
    ∃ c, new offset length headerLen networkToHost = some c ∧
      ∀ (p : SizeT) (n : Nat) (header rest : List Byte) (mem : Nat → Byte) (len : Nat),
        n < 256 ^ length.toNat → header.length = headerLen.toNat →
        (∀ i < len, (c.writeLength n header ++ rest)[i]? = some (mem i)) →
          Answers p headerLen.toNat n len ((c.decode p len).run mem) := by
  have hone : 1 ≤ length.toNat := hlength.1
  have hoffset : offset < headerLen := UInt32.lt_iff_toNat_lt.mpr (by omega)
  have hle : length ≤ headerLen := UInt32.le_iff_toNat_le.mpr (by omega)
  refine ⟨⟨offset, length, headerLen, networkToHost, hoffset, hlength, hle⟩,
    dif_pos ⟨hoffset, hlength, hle⟩, ?_⟩
  intro p n header rest mem len hn hheader hmem
  exact Fits.answers (c := ⟨offset, length, headerLen, networkToHost, hoffset, hlength, hle⟩)
    hfits hn hheader hmem

/-- Six bytes of header with the length at offset two, four bytes of body, and all of them there. -/
theorem decode_encoded_sixByteHeader : ∃ c, new 2 2 6 true = some c ∧
    c.writeLength 4 [1, 2, 0, 0, 3, 4] ++ [100, 97, 116, 97] =
      [1, 2, 0, 4, 3, 4, 100, 97, 116, 97] ∧
    Answers .bits32 6 4 10
      ((c.decode .bits32 10).run fun i => [1, 2, 0, 4, 3, 4, 100, 97, 116, 97][i]?.getD 0) := by
  obtain ⟨c, hc, h⟩ := @decode_encoded 2 2 6 true (by decide) (by decide)
  obtain rfl := Option.some.inj hc
  refine ⟨_, rfl, by decide, ?_⟩
  exact h .bits32 4 [1, 2, 0, 0, 3, 4] [100, 97, 116, 97] _ 10 (by decide) rfl (by decide)

/-! ### In a connection -/

/-- The codec as `ParseInput` calls it, with the merged buffer. -/
def codec (c : LengthFieldCodec) (p : SizeT) (_ : Nat) (data : List Byte) : DecodeResult × Nat :=
  (c.decode p data.length).run fun i => data[i]?.getD 0

/-- Further bytes do not change the length that was announced. -/
lemma Fits.run_append (hfits : c.Fits) {x : List Byte} (hlen : c.headerLen.toNat ≤ x.length)
    (y : List Byte) :
    (c.readLengthValue c.lengthFieldOffset.toNat).run (fun i => (x ++ y)[i]?.getD 0) =
      (c.readLengthValue c.lengthFieldOffset.toNat).run fun i => x[i]?.getD 0 := by
  refine Probe.run_congr _ fun i hi => ?_
  rw [reads_readLengthValue, List.mem_range'_1] at hi
  rw [List.getElem?_append_left (hi.2.trans_le (Nat.le_trans hfits hlen))]

/-- A connection with this codec frames the stream of the peer. -/
theorem prefixStable_codec (hfits : c.Fits) {cfg : Config} (hcodec : cfg.codec = c.codec p) :
    cfg.PrefixStable where
  stateless m n x := by rw [hcodec]; rfl
  success x n h := by
    rw [hcodec] at h ⊢
    have hpos : 0 < c.headerLen.toNat := Nat.zero_lt_of_lt c.offset_lt
    by_cases hlen : c.headerLen.toNat ≤ x.length
    · rw [codec, run_decode hlen rfl] at h
      split_ifs at h with herror hmore <;> cases h
      refine ⟨by omega, by omega, fun y => ?_⟩
      have hle : x.length ≤ (x ++ y).length := by simp
      rw [codec, run_decode (hlen.trans hle) (congrArg _ (hfits.run_append hlen y)), if_neg herror,
        if_neg (by omega)]
    · rw [codec, decode, if_pos (by omega)] at h
      cases h
  error x h y := by
    rw [hcodec] at h ⊢
    by_cases hlen : c.headerLen.toNat ≤ x.length
    · rw [codec, run_decode hlen rfl] at h
      split_ifs at h with herror hmore
      have hle : x.length ≤ (x ++ y).length := by simp
      rw [codec, run_decode (hlen.trans hle) (congrArg _ (hfits.run_append hlen y)), if_pos herror]
    · rw [codec, decode, if_pos (by omega)] at h
      cases h

end Connx.LengthFieldCodec
