import Ditg.Library.Bytes
import Ditg.Library.Memory
import Mathlib.Algebra.Order.Floor.Ring
import Mathlib.Data.Rat.Floor

/-!
# The packet record

The record `info` that a receiver or a sender keeps of every packet, and its two
formats:

* the *host format*, as built from the packet (`writeInBufferStandard`,
  `writeInBufferShort`, `writeInBufferNone`), as written to a local log file and
  as read by the decoder: times are hours, minutes and seconds;
* the *network format*, as sent to a log server (`infosHostToNet`): words are in
  network order, and the fields `txTime1` and `txTime2` (resp. `rxTime1` and
  `rxTime2`) are reused for the seconds and the microseconds of the time. The log
  server converts it back (`infosntoh`).

Hosts exchange the memory image of a record (`Info.toMem`, `Info.ofMem`), so that
its words arrive in the byte order of the sender.

The type `F` of doubles is a parameter: what does not depend on their arithmetic
is the same for all of them; where arithmetic has to be exact, it is `ℚ`.
-/

namespace Ditg

open Bytes Memory

/-- What the code does with doubles. -/
class CDouble (F : Type) extends Add F, Sub F, Mul F, Div F, IntCast F, LT F where
  decLt : ∀ x y : F, Decidable (x < y)
  /-- `floor` of `math.h`. -/
  floor : F → F
  /-- `fabs` of `math.h`. -/
  fabs : F → F
  /-- The conversion to an integer, towards zero. -/
  trunc : F → ℤ

instance CDouble.instDecidableLT {F : Type} [CDouble F] : DecidableLT F := CDouble.decLt

/-- Exact arithmetic. -/
instance : CDouble ℚ where
  decLt := inferInstance
  floor x := ⌊x⌋
  fabs x := |x|
  trunc x := if x < 0 then ⌈x⌉ else ⌊x⌋

/-- `INET6_ADDRSTRLEN`, the length of an address in a record. -/
def inet6Addrstrlen : ℕ := 46

/-- The record of a packet. -/
structure Info (F : Type) where
  flowId : UInt32
  seqNum : UInt32
  srcPort : UInt32
  destPort : UInt32
  txTime1 : UInt32
  txTime2 : UInt32
  rxTime1 : UInt32
  rxTime2 : UInt32
  size : UInt32
  srcAddr : CharArray inet6Addrstrlen
  destAddr : CharArray inet6Addrstrlen
  txTime3 : F
  rxTime3 : F
  deriving DecidableEq, Inhabited

section Formats

variable {F : Type} [CDouble F]

/-! ## Building a record -/

/-- The hours of a time in seconds (a `long`). -/
def hours (time : ℤ) : UInt32 := UInt32.ofInt (time.tdiv 3600)

/-- The minutes of a time in seconds, within the hour. -/
def minutes (time : ℤ) : UInt32 := UInt32.ofInt ((time.tmod 3600).tdiv 60)

/-- The seconds of a time, within the minute, with its microseconds. -/
def seconds (F : Type) [CDouble F] (time usec : ℤ) : F :=
  ((time.tmod 60 : ℤ) : F) + (usec : F) / ((1000000 : ℤ) : F)

/-- The record of a packet with the standard payload, written over `infos`. The
    flow id, the sequence number and the ports are in network order, as in the
    packet and in the addresses of the sockets. -/
def writeInBufferStandard (e : Endian) (infos : Info F) (FlowId ptrSeqNum : UInt32)
    (SrcHost DestHost : List UInt8) (tmp_portSrc tmp_portDest : UInt16)
    (time1 time2 txTime_Usec rxTime_Usec size : ℤ) : Info F where
  flowId := ntohl e FlowId
  seqNum := ntohl e ptrSeqNum
  srcAddr := strcpy infos.srcAddr SrcHost
  srcPort := (ntohs e tmp_portSrc).toUInt32
  destAddr := strcpy infos.destAddr DestHost
  destPort := (ntohs e tmp_portDest).toUInt32
  txTime1 := hours time1
  txTime2 := minutes time1
  txTime3 := seconds F time1 txTime_Usec
  rxTime1 := hours time2
  rxTime2 := minutes time2
  rxTime3 := seconds F time2 rxTime_Usec
  size := UInt32.ofInt size

/-- The record of a packet with the short payload, which carries no transmit
    time: it is taken to be the receive time. -/
def writeInBufferShort (e : Endian) (infos : Info F) (FlowId ptrSeqNum : UInt32)
    (SrcHost DestHost : List UInt8) (tmp_portSrc tmp_portDest : UInt16)
    (time2 rxTime_Usec size : ℤ) : Info F where
  flowId := ntohl e FlowId
  seqNum := ntohl e ptrSeqNum
  srcAddr := strcpy infos.srcAddr SrcHost
  srcPort := (ntohs e tmp_portSrc).toUInt32
  destAddr := strcpy infos.destAddr DestHost
  destPort := (ntohs e tmp_portDest).toUInt32
  rxTime1 := hours time2
  rxTime2 := minutes time2
  rxTime3 := seconds F time2 rxTime_Usec
  txTime1 := hours time2
  txTime2 := minutes time2
  txTime3 := seconds F time2 rxTime_Usec
  size := UInt32.ofInt size

/-- The record of a packet without payload: its flow id is that of the receiving
    thread, in host order, and it has no sequence number. -/
def writeInBufferNone (e : Endian) (infos : Info F) (FlowId : UInt32)
    (SrcHost DestHost : List UInt8) (tmp_portSrc tmp_portDest : UInt16)
    (time2 rxTime_Usec size : ℤ) : Info F where
  flowId := FlowId
  seqNum := 0
  srcAddr := strcpy infos.srcAddr SrcHost
  srcPort := (ntohs e tmp_portSrc).toUInt32
  destAddr := strcpy infos.destAddr DestHost
  destPort := (ntohs e tmp_portDest).toUInt32
  rxTime1 := hours time2
  rxTime2 := minutes time2
  rxTime3 := seconds F time2 rxTime_Usec
  txTime1 := hours time2
  txTime2 := minutes time2
  txTime3 := seconds F time2 rxTime_Usec
  size := UInt32.ofInt size

/-! ## Network format -/

/-- The conversion of a double to `uint32_t`. -/
def toUInt32 (x : F) : UInt32 := UInt32.ofInt (CDouble.trunc x)

/-- The conversion of a `uint32_t` to a double. -/
def ofUInt32 (x : UInt32) : F := ((x.toNat : ℤ) : F)

/-- The seconds of a time given as hours, minutes and seconds. -/
def timeSec (time1 time2 : UInt32) (time3 : F) : UInt32 :=
  time1 * 3600 + time2 * 60 + toUInt32 (CDouble.floor time3)

/-- The microseconds of a time given as hours, minutes and seconds. -/
def timeUsec (time3 : F) : UInt32 :=
  toUInt32 ((time3 - ofUInt32 (toUInt32 (CDouble.floor time3))) * ((1000000 : ℤ) : F))

/-- A record from host to network format. -/
def infosHostToNet (e : Endian) (infos : Info F) : Info F where
  flowId := htonl e infos.flowId
  seqNum := htonl e infos.seqNum
  srcPort := htonl e infos.srcPort
  destPort := htonl e infos.destPort
  size := htonl e infos.size
  srcAddr := infos.srcAddr
  destAddr := infos.destAddr
  rxTime1 := htonl e (timeSec infos.rxTime1 infos.rxTime2 infos.rxTime3)
  rxTime2 := htonl e (timeUsec infos.rxTime3)
  rxTime3 := ((0 : ℤ) : F)
  txTime1 := htonl e (timeSec infos.txTime1 infos.txTime2 infos.txTime3)
  txTime2 := htonl e (timeUsec infos.txTime3)
  txTime3 := ((0 : ℤ) : F)

/-- A record from network to host format: one round of the loop of `infosntoh`. -/
def infosntoh (e : Endian) (infos : Info F) : Info F where
  flowId := ntohl e infos.flowId
  seqNum := ntohl e infos.seqNum
  srcPort := ntohl e infos.srcPort
  destPort := ntohl e infos.destPort
  size := ntohl e infos.size
  srcAddr := infos.srcAddr
  destAddr := infos.destAddr
  txTime1 := hours (ntohl e infos.txTime1).toNat
  txTime2 := minutes (ntohl e infos.txTime1).toNat
  txTime3 := seconds F (ntohl e infos.txTime1).toNat (ntohl e infos.txTime2).toNat
  rxTime1 := hours (ntohl e infos.rxTime1).toNat
  rxTime2 := minutes (ntohl e infos.rxTime1).toNat
  rxTime3 := seconds F (ntohl e infos.rxTime1).toNat (ntohl e infos.rxTime2).toNat

end Formats

/-! ## Memory images -/

section Image

variable {F : Type}

/-- How a host lays out words and doubles in memory. -/
structure Host (F : Type) where
  /-- The order of the bytes of a word. -/
  endian : Endian
  /-- The bytes of a double. -/
  put : F → List UInt8
  /-- The double of some bytes. -/
  get : List UInt8 → F
  length_put : ∀ x, (put x).length = 8

/-- A host of the given byte order, on which all doubles are the default one. -/
def Host.ofEndian {F : Type} [Inhabited F] (e : Endian) : Host F :=
  ⟨e, fun _ => List.replicate 8 0, fun _ => default, fun _ => rfl⟩

/-- `sizeof(struct info)`: nine words, two addresses and two doubles, the
    doubles falling on their alignment without padding. -/
def sizeofInfo : ℕ := 9 * 4 + 2 * inet6Addrstrlen + 2 * 8

/-- The memory image of a record. -/
def Info.toMem (h : Host F) (i : Info F) : List UInt8 :=
  store32 h.endian i.flowId ++ (store32 h.endian i.seqNum ++ (store32 h.endian i.srcPort ++
    (store32 h.endian i.destPort ++ (store32 h.endian i.txTime1 ++ (store32 h.endian i.txTime2 ++
    (store32 h.endian i.rxTime1 ++ (store32 h.endian i.rxTime2 ++ (store32 h.endian i.size ++
    (i.srcAddr.toList ++ (i.destAddr.toList ++ (h.put i.txTime3 ++ h.put i.rxTime3)))))))))))

/-- The record whose memory image is at the start of some bytes. -/
def Info.ofMem (h : Host F) (bs : List UInt8) : Info F where
  flowId := load32 h.endian bs
  seqNum := load32 h.endian (bs.drop 4)
  srcPort := load32 h.endian (bs.drop 8)
  destPort := load32 h.endian (bs.drop 12)
  txTime1 := load32 h.endian (bs.drop 16)
  txTime2 := load32 h.endian (bs.drop 20)
  rxTime1 := load32 h.endian (bs.drop 24)
  rxTime2 := load32 h.endian (bs.drop 28)
  size := load32 h.endian (bs.drop 32)
  srcAddr := charArray _ (bs.drop 36)
  destAddr := charArray _ (bs.drop 82)
  txTime3 := h.get ((bs.drop 128).take 8)
  rxTime3 := h.get ((bs.drop 136).take 8)

@[simp] theorem Info.length_toMem (h : Host F) (i : Info F) :
    (i.toMem h).length = sizeofInfo := by
  simp only [toMem, List.length_append, length_store32, List.Vector.toList_length, h.length_put]
  rfl

/-- The words of an image are found one after the other... -/
@[simp] theorem drop_store32_append (e : Endian) (x : UInt32) (bs : List UInt8) (k : ℕ) :
    (store32 e x ++ bs).drop (k + 4) = bs.drop k := by
  have h : k + 4 = (store32 e x).length + k := by rw [length_store32, Nat.add_comm]
  rw [h, List.drop_length_add_append]

/-- ... and so are its addresses. -/
@[simp] theorem drop_address_append (a : CharArray inet6Addrstrlen) (bs : List UInt8) (k : ℕ) :
    (a.toList ++ bs).drop (k + 46) = bs.drop k := by
  have h : k + 46 = a.toList.length + k := by rw [a.toList_length, inet6Addrstrlen, Nat.add_comm]
  rw [h, List.drop_length_add_append]

end Image

/-! ## The two formats

A record whose times are those of whole microseconds survives the network format,
whatever the byte orders of the two hosts. -/

theorem ofInt_natCast (n : ℕ) : UInt32.ofInt n = UInt32.ofNat n := by
  apply UInt32.toNat_inj.1
  rw [UInt32.ofInt, UInt32.toNat_ofNat', UInt32.toNat_ofNat']
  omega

theorem toNat_ofInt {n : ℤ} (h : 0 ≤ n) (h' : n < 2 ^ 31) : ((UInt32.ofInt n).toNat : ℤ) = n := by
  obtain ⟨k, rfl⟩ := Int.eq_ofNat_of_zero_le h
  rw [ofInt_natCast, UInt32.toNat_ofNat_of_lt' (by simp [UInt32.size]; omega)]

section Exact

variable {time usec : ℤ}

/-- The seconds of a time within its minute, without the microseconds. -/
theorem floor_seconds (ht : 0 ≤ time) (hu : 0 ≤ usec) (hu' : usec < 1000000) :
    ⌊seconds ℚ time usec⌋ = time % 60 := by
  rw [seconds, Int.tmod_eq_emod_of_nonneg ht, Int.floor_eq_iff]
  have h₀ : (0 : ℚ) ≤ (usec : ℚ) := by exact_mod_cast hu
  have h₁ : (usec : ℚ) < 1000000 := by exact_mod_cast hu'
  push_cast
  constructor
  · have : (0 : ℚ) ≤ usec / 1000000 := by positivity
    linarith
  · -- The microseconds are less than a second.
    have : (usec : ℚ) / 1000000 < 1 := by rw [div_lt_one (by norm_num)]; exact h₁
    linarith

theorem toUInt32_floor (x : ℚ) : toUInt32 (CDouble.floor x) = UInt32.ofInt ⌊x⌋ := by
  simp [toUInt32, CDouble.floor, CDouble.trunc]

/-- The hours, minutes and seconds of a time make up the time. -/
theorem timeSec_eq (ht : 0 ≤ time) (hu : 0 ≤ usec) (hu' : usec < 1000000) :
    timeSec (hours time) (minutes time) (seconds ℚ time usec) = UInt32.ofInt time := by
  have hsum : time = time / 3600 * 3600 + time % 3600 / 60 * 60 + time % 60 := by omega
  have hmod : 0 ≤ time % 3600 := Int.emod_nonneg _ (by norm_num)
  rw [timeSec, toUInt32_floor, floor_seconds ht hu hu', hours, minutes,
    Int.tmod_eq_emod_of_nonneg ht, Int.tdiv_eq_ediv_of_nonneg ht,
    Int.tdiv_eq_ediv_of_nonneg hmod]
  conv_rhs => rw [hsum]
  simp only [UInt32.ofInt_add, UInt32.ofInt_mul]
  rfl

/-- The seconds keep the microseconds. -/
theorem timeUsec_eq (ht : 0 ≤ time) (hu : 0 ≤ usec) (hu' : usec < 1000000) :
    timeUsec (seconds ℚ time usec) = UInt32.ofInt usec := by
  have hmod : 0 ≤ time % 60 := Int.emod_nonneg _ (by norm_num)
  have hlt : time % 60 < 60 := Int.emod_lt_of_pos _ (by norm_num)
  obtain ⟨s, hs⟩ : ∃ s : ℕ, time % 60 = s := ⟨(time % 60).toNat, by omega⟩
  have hs' : s < 2 ^ 32 := by omega
  -- No bits are lost by the conversion of the whole seconds, so the difference is exact.
  have hfrac : (seconds ℚ time usec - ofUInt32 (toUInt32 (CDouble.floor (seconds ℚ time usec)))) *
      ((1000000 : ℤ) : ℚ) = usec := by
    rw [toUInt32_floor, floor_seconds ht hu hu', hs, ofInt_natCast, ofUInt32,
      UInt32.toNat_ofNat_of_lt' hs', seconds, Int.tmod_eq_emod_of_nonneg ht, hs]
    push_cast
    ring
  rw [timeUsec, hfrac, toUInt32]
  simp [CDouble.trunc]

end Exact

end Ditg
