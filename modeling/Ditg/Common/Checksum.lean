import Ditg.Common.Packet
import Ditg.Library.Bytes
import Ditg.Library.Memory
import Ditg.Library.OnesComplement

/-!
# The checksum of an ICMP packet

The packets of an ICMP flow carry the Internet checksum, which the sender computes on a
little-endian host with 64-bit words: it adds the 16-bit words of the packet, and then what does
not fit into 16 bits, twice. An odd last byte is read through `UCHAR`, which is a signed `char`,
so that it is added with the sign of its highest bit.

* `checksumLoop_eq`: what is added, and the 256 that are missing with a negative last byte;
* `checksum_iff`: the checksum is right, and the packets with it verify, if and only if there is
  no such byte.
-/

namespace Ditg

open Bytes Memory OnesComplement

/-! ## The model -/

/-- The loop of `checksum`, and the odd byte behind it. -/
def checksumLoop (cksum : UInt64) : List UInt8 → UInt64
  | [] => cksum
  | [b] => cksum + UInt64.ofInt b.toInt8.toInt
  | lo :: hi :: buffer => checksumLoop (cksum + (load16 .little [lo, hi]).toUInt64) buffer

/-- `checksum`, of a buffer with `size` bytes. -/
def checksum (buffer : List UInt8) : UInt16 :=
  let cksum := checksumLoop 0 buffer
  let cksum := (cksum >>> 16) + (cksum &&& 0xffff)
  let cksum := cksum + (cksum >>> 16)
  (~~~cksum).toUInt16

/-- The header of a packet behind its checksum: the two fields of `struct icmp`, which are not set,
    or nothing (`struct icmpv6`). -/
inductive IcmpHeader
  | icmp (icmp_id_seq : CharArray 4)
  | icmpv6

/-- The bytes of the header behind the checksum. -/
def IcmpHeader.bytes : IcmpHeader → List UInt8
  | .icmp icmp_id_seq => icmp_id_seq.toList
  | .icmpv6 => []

/-- The first `size` bytes of the payload, behind a header. -/
def icmpPacket (icmp_type : UInt8) (icmp_cksum : UInt16) (header : IcmpHeader)
    (payload : CharArray maxPayloadSize) (size : ℕ) : List UInt8 :=
  let icmp_code := 0
  icmp_type :: icmp_code :: (store16 .little icmp_cksum ++ header.bytes ++ payload.toList.take size)

/-- The packet that `flowSender` sends. The type is cut to a byte. -/
def sentIcmpPacket (icmptype : ℤ) (header : IcmpHeader) (payload : CharArray maxPayloadSize)
    (size : ℕ) : List UInt8 :=
  let icmp_type := UInt8.ofInt icmptype
  icmpPacket icmp_type (checksum (icmpPacket icmp_type 0 header payload size)) header payload size

/-! ## The sum -/

/-- The words of a buffer, an odd last byte with a zero behind it. -/
def words : List UInt8 → List ℕ
  | [] => []
  | [b] => [load .little [b, 0]]
  | lo :: hi :: buffer => load .little [lo, hi] :: words buffer

/-- The Internet checksum of a buffer. -/
def internetChecksum (buffer : List UInt8) : ℕ := 65535 - sum 65535 (words buffer)

/-- A receiver accepts a packet whose words, with the checksum, add up to 65535. -/
def Verifies (packet : List UInt8) : Prop := sum 65535 (words packet) = 65535

/-- There is an odd last byte, and its highest bit is set. -/
def negativeTail : List UInt8 → Bool
  | [] => false
  | [b] => 128 ≤ b
  | _ :: _ :: buffer => negativeTail buffer

section Words

variable {header : List UInt8} (h : Even header.length) (buffer : List UInt8)

include h in
/-- A header of whole words is not seen from the end. -/
theorem negativeTail_append : negativeTail (header ++ buffer) = negativeTail buffer := by
  fun_induction negativeTail header with
  | case1 => rfl
  | case2 b => exact absurd h (by simp)
  | case3 lo hi header ih =>
    rw [List.cons_append, List.cons_append, negativeTail]
    exact ih (by simpa [Nat.even_add_one] using h)

include h in
/-- Nor does it change where the words are. -/
theorem words_append : words (header ++ buffer) = words header ++ words buffer := by
  fun_induction words header with
  | case1 => rfl
  | case2 b => exact absurd h (by simp)
  | case3 lo hi header ih =>
    rw [List.cons_append, List.cons_append, words, List.cons_append]
    rw [ih (by simpa [Nat.even_add_one] using h)]

theorem negativeTail_eq_false_iff :
    negativeTail buffer = false ↔ Even buffer.length ∨ ∀ b ∈ buffer.getLast?, b < 128 := by
  fun_induction negativeTail buffer with
  | case1 => simp
  | case2 b => simp [UInt8.not_le]
  | case3 lo hi buffer ih =>
    rw [ih, List.length_cons, List.length_cons, Nat.even_add_one, Nat.even_add_one, not_not]
    cases buffer with
    | nil => simp
    | cons b buffer => rfl

theorem load_word_lt (lo hi : UInt8) : load .little [lo, hi] < 65536 := by
  simpa using load_lt .little [lo, hi]

theorem words_le : ∀ w ∈ words buffer, w ≤ 65535 := by
  fun_induction words buffer with
  | case1 => exact List.forall_mem_nil _
  | case2 b =>
    rw [List.forall_mem_singleton]
    exact Nat.le_of_lt_succ (load_word_lt b 0)
  | case3 lo hi buffer ih =>
    exact List.forall_mem_cons.2 ⟨Nat.le_of_lt_succ (load_word_lt lo hi), ih⟩

theorem sum_words_le : (words buffer).sum ≤ 65535 * ((buffer.length + 1) / 2) := by
  fun_induction words buffer with
  | case1 => exact Nat.zero_le _
  | case2 b =>
    have hword := load_word_lt b 0
    rw [List.sum_singleton, List.length_singleton]
    omega
  | case3 lo hi buffer ih =>
    have hword := load_word_lt lo hi
    rw [List.sum_cons, List.length_cons, List.length_cons]
    omega

/-- The last byte is one of the words. -/
theorem le_sum_words {buffer : List UInt8} (h : negativeTail buffer = true) :
    128 ≤ (words buffer).sum := by
  fun_induction negativeTail buffer with
  | case1 => cases h
  | case2 b =>
    have hb : 128 ≤ b.toNat := by simpa [UInt8.le_iff_toNat_le] using h
    simpa [words, load, decodeLE] using hb
  | case3 lo hi buffer ih =>
    rw [words, List.sum_cons]
    exact (ih h).trans (Nat.le_add_left _ _)

end Words

/-- A `char` whose highest bit is set is less by 256. -/
theorem toInt_toInt8 (b : UInt8) :
    b.toInt8.toInt = if 128 ≤ b.toNat then (b.toNat : ℤ) - 256 else b.toNat := by
  have hbits : b.toInt8.toInt = if 2 * b.toNat < 2 ^ 8 then (b.toNat : ℤ) else b.toNat - 2 ^ 8 :=
    BitVec.toInt_eq_toNat_cond b.toBitVec
  rw [hbits]
  split_ifs <;> omega

/-- The sum of the words, with what a negative last byte takes away. -/
theorem checksumLoop_eq (cksum : UInt64) (buffer : List UInt8) :
    (checksumLoop cksum buffer).toNat =
      (cksum.toNat + (words buffer).sum + if negativeTail buffer then 2 ^ 64 - 256 else 0) %
        2 ^ 64 := by
  fun_induction checksumLoop cksum buffer with
  | case1 cksum =>
    have := cksum.toNat_lt
    simp only [words, negativeTail, List.sum_nil, Bool.false_eq_true, if_false]
    omega
  | case2 cksum b =>
    have hb := toInt_toInt8 b
    have hword : (words [b]).sum = b.toNat := by simp [words, load, decodeLE]
    have htail : negativeTail [b] = decide (128 ≤ b.toNat) := rfl
    have hofInt : (UInt64.ofInt b.toInt8.toInt).toNat = (b.toInt8.toInt % 2 ^ 64).toNat % 2 ^ 64 :=
      UInt64.toNat_ofNat'
    rw [UInt64.toNat_add, hofInt, hword, htail, hb]
    simp only [decide_eq_true_eq]
    split_ifs <;> omega
  | case3 cksum lo hi buffer ih =>
    have hword : (load16 .little [lo, hi]).toUInt64.toNat = load .little [lo, hi] :=
      UInt16.toNat_ofNat_of_lt' (load_word_lt lo hi)
    rw [ih, words, negativeTail, List.sum_cons, UInt64.toNat_add, hword]
    omega

/-! ## The checksum -/

/-- What the checksum is the complement of. -/
def folded (cksum : ℕ) : ℕ := (fold 65535 cksum + fold 65535 cksum / (65535 + 1)) % (65535 + 1)

theorem folded_le (cksum : ℕ) : folded cksum ≤ 65535 := Nat.le_of_lt_succ (Nat.mod_lt _ (by decide))

/-- The two additions do not overflow. -/
theorem toNat_checksum (buffer : List UInt8) :
    (checksum buffer).toNat = 65535 - folded (checksumLoop 0 buffer).toNat := by
  have hmask (c : UInt64) : (c &&& 0xffff).toNat = c.toNat % 65536 := by
    rw [UInt64.toNat_and]
    exact Nat.and_two_pow_sub_one_eq_mod c.toNat 16
  have hshift (c : UInt64) : (c >>> 16).toNat = c.toNat / 65536 := by
    rw [UInt64.toNat_shiftRight]
    exact Nat.shiftRight_eq_div_pow c.toNat 16
  have hsize : UInt64.size = 2 ^ 64 := rfl
  have hlt := (checksumLoop 0 buffer).toNat_lt
  simp only [checksum, UInt64.toNat_toUInt16, UInt64.toNat_not, UInt64.toNat_add, hmask, hshift,
    folded, fold, hsize]
  omega

/-- What a sum of the words is reduced to by the loop and the two additions, unless there is a
    negative last byte. -/
theorem folded_eq_reduce {buffer : List UInt8} (hlen : buffer.length ≤ maxPayloadSize + 8)
    (h : negativeTail buffer = false) :
    folded (checksumLoop 0 buffer).toNat = reduce 65535 (words buffer).sum := by
  have hle := sum_words_le buffer
  have hloop := checksumLoop_eq 0 buffer
  rw [maxPayloadSize] at hlen
  rw [h] at hloop
  have hsum : (checksumLoop 0 buffer).toNat = (words buffer).sum := by
    simp only [Bool.false_eq_true, if_false, UInt64.toNat_zero] at hloop
    omega
  rw [hsum, folded]
  exact fold_fold (by decide) (by omega)

/-- With one, it is not even the right remainder: the 256 that are missing are lost, or a borrow
    goes through the whole word. -/
theorem folded_not_modEq {buffer : List UInt8} (hlen : buffer.length ≤ maxPayloadSize + 8)
    (h : negativeTail buffer = true) :
    ¬folded (checksumLoop 0 buffer).toNat ≡ (words buffer).sum [MOD 65535] := by
  have hle := sum_words_le buffer
  have hge := le_sum_words h
  have hloop := checksumLoop_eq 0 buffer
  rw [maxPayloadSize] at hlen
  rw [h] at hloop
  simp only [if_true, UInt64.toNat_zero] at hloop
  by_cases h256 : 256 ≤ (words buffer).sum
  · have hsum : (checksumLoop 0 buffer).toNat = (words buffer).sum - 256 := by omega
    have hfold : folded (checksumLoop 0 buffer).toNat =
        reduce 65535 ((words buffer).sum - 256) := by
      rw [hsum, folded]
      exact fold_fold (by decide) (by omega)
    rw [hfold]
    intro hmod
    have hmod := (reduce_modEq _).symm.trans hmod
    have hdvd := (Nat.modEq_iff_dvd' (Nat.sub_le _ _)).1 hmod
    rw [Nat.sub_sub_self h256] at hdvd
    exact absurd hdvd (by decide)
  · have hfold : folded (checksumLoop 0 buffer).toNat = 65279 + (words buffer).sum := by
      simp only [folded, fold, hloop]
      omega
    rw [hfold]
    intro hmod
    have hdvd := (Nat.modEq_iff_dvd' (Nat.le_add_left _ _)).1 hmod.symm
    rw [Nat.add_sub_cancel] at hdvd
    exact absurd hdvd (by decide)

/-- There is no odd last byte whose highest bit is set. -/
def TailFits (buffer : List UInt8) : Prop :=
  Even buffer.length ∨ ∀ b ∈ buffer.getLast?, b < 128

instance (buffer : List UInt8) : Decidable (TailFits buffer) :=
  inferInstanceAs (Decidable (_ ∨ _))

theorem internetChecksum_eq (buffer : List UInt8) :
    internetChecksum buffer = 65535 - reduce 65535 (words buffer).sum := by
  rw [internetChecksum, sum_eq_reduce (by decide) (words_le buffer)]

theorem verifies_eq (packet : List UInt8) :
    Verifies packet ↔ reduce 65535 (words packet).sum = 65535 := by
  rw [Verifies, sum_eq_reduce (by decide) (words_le packet)]

theorem toNat_checksum_eq_iff {buffer : List UInt8} (hlen : buffer.length ≤ maxPayloadSize + 8) :
    (checksum buffer).toNat = internetChecksum buffer ↔ TailFits buffer := by
  have hle := folded_le (checksumLoop 0 buffer).toNat
  have hle' : reduce 65535 (words buffer).sum ≤ 65535 := reduce_le (by decide) _
  rw [TailFits, ← negativeTail_eq_false_iff, toNat_checksum, internetChecksum_eq]
  constructor
  · intro h
    by_contra htail
    refine folded_not_modEq hlen (Bool.not_eq_false _ ▸ htail) ?_
    have heq : folded (checksumLoop 0 buffer).toNat = reduce 65535 (words buffer).sum := by omega
    rw [heq]
    exact reduce_modEq _
  · intro h
    rw [folded_eq_reduce hlen h]

/-- The checksum completes the sum of the words, if it is right. -/
theorem completes_iff {buffer : List UInt8} (hlen : buffer.length ≤ maxPayloadSize + 8) :
    reduce 65535 ((words buffer).sum + (checksum buffer).toNat) = 65535 ↔ TailFits buffer := by
  have hle := folded_le (checksumLoop 0 buffer).toNat
  rw [TailFits, ← negativeTail_eq_false_iff, toNat_checksum]
  constructor
  · intro h
    by_contra htail
    have htail : negativeTail buffer = true := Bool.not_eq_false _ ▸ htail
    have hge := le_sum_words htail
    exact folded_not_modEq hlen htail ((verifies_iff (by decide) hle (by omega)).1 h)
  · intro h
    rw [folded_eq_reduce hlen h]
    exact verifies_reduce (by decide) _

/-! ## The packet -/

section Packet

variable (header : IcmpHeader) (payload : CharArray maxPayloadSize) {size : ℕ}

theorem even_length_bytes : Even header.bytes.length := by
  cases header with
  | icmp icmp_id_seq => exact icmp_id_seq.toList_length ▸ by decide
  | icmpv6 => exact ⟨0, rfl⟩

theorem length_icmpPacket_le (icmp_type : UInt8) (icmp_cksum : UInt16)
    (hsize : size ≤ maxPayloadSize) :
    (icmpPacket icmp_type icmp_cksum header payload size).length ≤ maxPayloadSize + 8 := by
  have hheader : header.bytes.length ≤ 4 := by
    cases header with
    | icmp icmp_id_seq => exact icmp_id_seq.toList_length.le
    | icmpv6 => exact Nat.zero_le 4
  simp only [icmpPacket, List.length_cons, List.length_append, length_store16, List.length_take,
    payload.toList_length]
  omega

/-- The header is of whole words, so that the last byte of the packet is that of its payload. -/
theorem negativeTail_icmpPacket (icmp_type : UInt8) (icmp_cksum : UInt16) :
    negativeTail (icmpPacket icmp_type icmp_cksum header payload size) =
      negativeTail (payload.toList.take size) := by
  have heven : Even (store16 .little icmp_cksum ++ header.bytes).length := by
    rw [List.length_append, length_store16]
    exact Even.add (by decide) (even_length_bytes header)
  rw [icmpPacket, negativeTail, negativeTail_append heven]

/-- The checksum is one of the words. -/
theorem sum_words_icmpPacket (icmp_type : UInt8) (icmp_cksum : UInt16) :
    (words (icmpPacket icmp_type icmp_cksum header payload size)).sum =
      (words (icmpPacket icmp_type 0 header payload size)).sum + icmp_cksum.toNat := by
  have hcksum (c : UInt16) : (words (store16 .little c)).sum = c.toNat := by
    have hload : (words (store16 .little c)).sum = load .little (store16 .little c) := rfl
    rw [hload, store16, load_store]
    exact Nat.mod_eq_of_lt c.toNat_lt
  have hwords (c : UInt16) : (words (icmpPacket icmp_type c header payload size)).sum =
      load .little [icmp_type, 0] +
        (c.toNat + (words (header.bytes ++ payload.toList.take size)).sum) := by
    rw [icmpPacket, words, List.sum_cons, List.append_assoc, words_append (by simp),
      List.sum_append, hcksum]
  rw [hwords, hwords]
  simp only [UInt16.toNat_zero]
  omega

theorem verifies_sentIcmpPacket_iff (icmptype : ℤ) (hsize : size ≤ maxPayloadSize) :
    Verifies (sentIcmpPacket icmptype header payload size) ↔
      TailFits (payload.toList.take size) := by
  have hlen := length_icmpPacket_le header payload (UInt8.ofInt icmptype) 0 hsize
  have htail : negativeTail (icmpPacket (UInt8.ofInt icmptype) 0 header payload size) = _ :=
    negativeTail_icmpPacket header payload (UInt8.ofInt icmptype) 0
  rw [verifies_eq, sentIcmpPacket, sum_words_icmpPacket, completes_iff hlen, TailFits, TailFits,
    ← negativeTail_eq_false_iff, ← negativeTail_eq_false_iff, htail]

end Packet

/-- The checksum of any buffer, and the packets that carry it. -/
theorem checksum_iff {buffer : List UInt8} (hlen : buffer.length ≤ maxPayloadSize + 8)
    (icmptype : ℤ) (header : IcmpHeader) (payload : CharArray maxPayloadSize) {size : ℕ}
    (hsize : size ≤ maxPayloadSize) :
    ((checksum buffer).toNat = internetChecksum buffer ↔ TailFits buffer) ∧
      (Verifies (sentIcmpPacket icmptype header payload size) ↔
        TailFits (payload.toList.take size)) :=
  ⟨toNat_checksum_eq_iff hlen, verifies_sentIcmpPacket_iff header payload icmptype hsize⟩

/-- A payload that begins with three bytes. -/
def oddPayload : CharArray maxPayloadSize :=
  ⟨[200, 255, 127] ++ List.replicate (maxPayloadSize - 3) 0, by
    rw [List.length_append, List.length_replicate]
    decide⟩

/-- Words whose sum is carried over, with an odd last byte, and a packet with an odd payload. -/
theorem checksum_odd :
    (checksum [255, 255, 3, 0, 127]).toNat = internetChecksum [255, 255, 3, 0, 127] ∧
      65535 < (words [255, 255, 3, 0, 127]).sum ∧
      Verifies (sentIcmpPacket 8 (.icmp ⟨[1, 2, 3, 4], rfl⟩) oddPayload 3) := by
  have hlen : ([255, 255, 3, 0, 127] : List UInt8).length ≤ maxPayloadSize + 8 := by decide
  have hsize : 3 ≤ maxPayloadSize := by decide
  obtain ⟨hbuffer, hpacket⟩ := checksum_iff hlen 8 (.icmp ⟨[1, 2, 3, 4], rfl⟩) oddPayload hsize
  have htake : oddPayload.toList.take 3 = [200, 255, 127] := rfl
  rw [htake] at hpacket
  refine ⟨hbuffer.2 (.inr fun b hb => ?_), by decide, hpacket.2 (.inr fun b hb => ?_)⟩
  · obtain rfl : 127 = b := Option.some.inj hb
    decide
  · obtain rfl : 127 = b := Option.some.inj hb
    decide

/-- A byte with its highest bit set. Its checksum is that of a word that is less by 256. -/
theorem not_checksum : ¬∀ buffer : List UInt8, buffer.length ≤ maxPayloadSize + 8 →
    (checksum buffer).toNat = internetChecksum buffer := by
  intro h
  exact absurd (h [0, 1, 128] (by decide)) (by decide)

end Ditg
