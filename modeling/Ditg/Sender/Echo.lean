import Ditg.Common.Info
import Ditg.Common.Packet
import Ditg.Library.Batch
import Ditg.Library.Transition
import Ditg.Sender.Pacing

/-!
# Round-trip times

A flow that measures round-trip times (`METER_RTTM`) gets its packets back from the
receiver, and logs them as they come: those that come during the wait after a packet, and
those that come when all packets have been sent, in the drain loop. Both read an echo into
the buffer of the next packet to send, and take the fields of the record from there. But
during a wait the transmit time has the microseconds of the packet sent last, and in the
drain loop the size of an echo on TCP is that of the last echo before.

* `receive_spec`: how an echo is received;
* `life_spec`: the packets that are sent, and what is read from their echoes;
* `recordsRight_iff`: when the records are those of the packets that come back.
-/

namespace Ditg

open Bytes Memory Socket Transition

/-! ## The model -/

/-- What `flowSender` knows of a flow with logging. -/
structure RttmFlow where
  endian : Endian
  id : UInt32
  l4Proto : UInt8
  minPayloadSize : ℕ
  logremoto : Bool
  logbuffer_size : ℕ
  HelpSrcAddress : List UInt8
  HelpDstAddress : List UInt8
  tmpPort_SrcPort : UInt16
  tmpPort_DstPort : UInt16

/-- An echo: when it is received, and its bytes. -/
structure Echo where
  RcvTime : Timeval
  bytes : List UInt8
  deriving DecidableEq

/-- A packet: its transmit time, its size, and the echoes that come during the wait
    after it. -/
structure RttmPacket where
  lastTime : Timeval
  size : ℤ
  echoes : List Echo

/-- The variables of `flowSender`, the packets that it has sent, and the records that it has
    built, each for an echo. -/
structure RttmSender (F : Type) where
  payload : List UInt8
  conn : Conn
  sent : List (List UInt8)
  seqNum : UInt32
  recvPkts : UInt32
  timeUsec : ℤ
  size_r : ℤ
  infos : BatchBuffer (Info F)
  built : List (Echo × Info F)

section Model

variable {F : Type} [CDouble F] [Inhabited F] (f : RttmFlow)

/-- A packet is about to be sent: the fields of the standard preamble are written to the
    payload, and the size on TCP. -/
def RttmSender.writePreamble (s : RttmSender F) (p : RttmPacket) : RttmSender F :=
  let store (off : ℕ) (x : UInt32) (payload : List UInt8) :=
    blit payload off (store32 f.endian (htonl f.endian x))
  let payload := store 4 s.seqNum s.payload
  let payload := store 8 (UInt32.ofInt (p.lastTime.tv_sec.tmod 86400)) payload
  let payload := store 12 (UInt32.ofInt p.lastTime.tv_usec) payload
  { s with
    timeUsec := p.lastTime.tv_usec
    payload :=
      if f.l4Proto = l4ProtoTCP then store 16 (UInt32.ofInt p.size) payload else payload }

/-- An echo is received into the payload: the result of the call. -/
def RttmSender.receive (s : RttmSender F) (a : Echo) : Option (ℤ × List UInt8 × Conn) :=
  if f.l4Proto = l4ProtoTCP then
    TCPrecvPacket f.endian s.payload s.conn f.minPayloadSize plStandard
  else
    let bytes := a.bytes.take maxPayloadSize
    some (bytes.length, blit s.payload 0 bytes, s.conn)

/-- A record as it is stored in the buffer. -/
def RttmFlow.stored (r : Info F) : Info F := if f.logremoto then infosHostToNet f.endian r else r

/-- The record of the echo in the payload, built over the next slot of the buffer, with a
    transmit time and a size, and logged. -/
def RttmSender.log (s : RttmSender F) (a : Echo) (txUsec size : ℤ) : RttmSender F :=
  let r := writeInBufferStandard f.endian (s.infos.slots.getD s.infos.count default)
    (load32 f.endian s.payload) (load32 f.endian (s.payload.drop 4)) f.HelpSrcAddress
    f.HelpDstAddress f.tmpPort_SrcPort f.tmpPort_DstPort
    (ntohl f.endian (load32 f.endian (s.payload.drop 8))).toNat (a.RcvTime.tv_sec.tmod 86400)
    txUsec a.RcvTime.tv_usec size
  { s with
    infos := s.infos.log f.logbuffer_size (f.stored r)
    built := s.built ++ [(a, r)] }

/-- An echo during a wait. -/
def RttmSender.waitEcho (s : RttmSender F) (a : Echo) : Option (RttmSender F) := do
  let (size_r, payload, conn) ← s.receive f a
  let s := { s with
    size_r := size_r, payload := payload, conn := conn, recvPkts := s.recvPkts + 1 }
  return if 0 < size_r then s.log f a s.timeUsec size_r else s

/-- A packet is sent: the first bytes of the payload, as many as its size. -/
def RttmSender.send (s : RttmSender F) (p : RttmPacket) : RttmSender F :=
  { s with sent := s.sent ++ [s.payload.take p.size.toNat] }

/-- A packet, with the wait after it. -/
def RttmSender.packet (s : RttmSender F) (p : RttmPacket) : Option (RttmSender F) := do
  let s ← p.echoes.foldlM (RttmSender.waitEcho f) ((s.writePreamble f p).send p)
  return { s with seqNum := s.seqNum + 1 }

/-- An echo in the drain loop, which goes on as long as there are echoes to come. On TCP
    the result of the call is not used. -/
def RttmSender.drainEcho (s : RttmSender F) (a : Echo) : Option (RttmSender F) := do
  if s.recvPkts < s.seqNum - 1 then
    let (result, payload, conn) ← s.receive f a
    let s := { s with
      size_r := if f.l4Proto = l4ProtoTCP then s.size_r else result
      payload := payload, conn := conn, recvPkts := s.recvPkts + 1 }
    let net_TimeUsec := (ntohl f.endian (load32 f.endian (payload.drop 12))).toBitVec.toInt
    return if 0 < s.size_r then s.log f a net_TimeUsec s.size_r else s
  else none

/-- The variables before the first packet: `payload` holds bytes of the flow or random
    ones, after the flow id. -/
def RttmSender.start (payload : List UInt8) (conn : Conn) (mem : List (Info F)) :
    RttmSender F where
  payload := blit payload 0 (store32 f.endian (htonl f.endian f.id))
  conn := conn
  sent := []
  seqNum := 1
  recvPkts := 0
  timeUsec := 0
  size_r := 0
  infos := .new mem
  built := []

/-- A flow that sends packets and then gets the echoes `drained` in the drain loop. There is
    no result if a call blocks or the drain loop ends before. -/
def RttmSender.life (s : RttmSender F) (packets : List RttmPacket) (drained : List Echo) :
    Option (RttmSender F) := do
  let s ← packets.foldlM (RttmSender.packet f) s
  drained.foldlM (RttmSender.drainEcho f) s

end Model

/-! ## Echoes -/

/-- A word of the preamble of an echo. -/
def Echo.word (a : Echo) (off : ℕ) : UInt32 := load32 .big (a.bytes.drop off)

/-- What comes back to a flow. -/
structure RttmFlow.IsEcho (f : RttmFlow) (a : Echo) : Prop where
  min_le : f.minPayloadSize ≤ a.bytes.length
  length_le : a.bytes.length ≤ maxPayloadSize
  flowId : a.word 0 = f.id
  size : f.l4Proto = l4ProtoTCP → (a.word 16).toNat = a.bytes.length
  usec : (a.word 12).toNat < 1000000

/-- The preamble of the packets of a flow is part of its minimal size. -/
def RttmFlow.HasPreamble (f : RttmFlow) : Prop :=
  preambleSize f.l4Proto plStandard ≤ f.minPayloadSize

/-- What the call that receives an echo returns: its size, but on TCP 0 if there is nothing
    behind the minimal size. -/
def RttmFlow.result (f : RttmFlow) (a : Echo) : ℤ :=
  if f.l4Proto = l4ProtoTCP ∧ a.bytes.length = f.minPayloadSize then 0 else a.bytes.length

/-- The record has what can be read from the echo, and its receive time. -/
structure Echo.IsRead (a : Echo) (r : Info ℚ) : Prop where
  flowId : r.flowId = a.word 0
  seqNum : r.seqNum = a.word 4
  txTime1 : r.txTime1 = hours (a.word 8).toNat
  txTime2 : r.txTime2 = minutes (a.word 8).toNat
  txTime3 : r.txTime3 = seconds ℚ (a.word 8).toNat (a.word 12).toNat
  rxTime1 : r.rxTime1 = hours (a.RcvTime.tv_sec.tmod 86400)
  rxTime2 : r.rxTime2 = minutes (a.RcvTime.tv_sec.tmod 86400)
  rxTime3 : r.rxTime3 = seconds ℚ (a.RcvTime.tv_sec.tmod 86400) a.RcvTime.tv_usec
  size : r.size = UInt32.ofInt a.bytes.length

section Receive

variable {f : RttmFlow} {a : Echo}

/-- The words of an echo that has been received. -/
theorem ntohl_of_take {payload : List UInt8} (hlen : 16 ≤ a.bytes.length)
    (h : payload.take 16 = a.bytes.take 16) {off : ℕ} (hoff : off + 4 ≤ 16) :
    ntohl f.endian (load32 f.endian (payload.drop off)) = a.word off := by
  rw [load32_drop_congr _ h hoff, ntohl_load32 _ (by rw [List.length_drop]; omega), Echo.word]

/-- A packet that ends with the part that is read first. -/
theorem recvPayload_of_eq (e : Endian) {payload : List UInt8} {c : Conn} {pkt : List UInt8}
    (hfield : (load32 .big (pkt.drop 16)).toNat = pkt.length) (hmax : pkt.length ≤ maxPayloadSize)
    (hlen : 20 ≤ pkt.length) (hpre : payload.take pkt.length = pkt.take pkt.length) :
    recvPayload e payload c pkt.length plStandard = some (0, payload, c) := by
  have hfirst : payload.take 20 = pkt.take 20 := by
    rw [← min_eq_left hlen, ← List.take_take, hpre, List.take_take]
  have hsize := size_of_preamble e hfirst hlen hfield hmax
  have hbody : recvBody e payload c pkt.length plStandard = some ((pkt.length : ℤ), 0, c) := by
    rw [recvBody, if_pos (by decide)]
    simp only [sizeOffset, if_true, Option.bind_eq_bind, Option.bind_some, hsize, gt_iff_lt,
      lt_irrefl, if_false]
    rfl
  simp [recvPayload, hbody]

/-- On TCP one call reads one echo from the stream. -/
theorem TCPrecvPacket_echo (hf : f.HasPreamble) (htcp : f.l4Proto = l4ProtoTCP)
    (ha : f.IsEcho a) {payload rest : List UInt8} {c : Conn}
    (hp : payload.length = maxPayloadSize) (hc : c.Holds (a.bytes ++ rest)) :
    ∃ payload' c', TCPrecvPacket f.endian payload c f.minPayloadSize plStandard =
        some (f.result a, payload', c') ∧ payload'.length = maxPayloadSize ∧
      payload'.take 16 = a.bytes.take 16 ∧ c'.Holds rest := by
  have h20 : 20 ≤ f.minPayloadSize := by
    have h := hf
    rw [RttmFlow.HasPreamble, htcp] at h
    exact h
  have hmin := ha.min_le
  have hmax := ha.length_le
  have hroom : f.minPayloadSize ≤ payload.length := by omega
  have hbs : f.minPayloadSize ≤ (a.bytes ++ rest).length := by
    rw [List.length_append]
    omega
  obtain ⟨c₁, hfirst, hc₁⟩ := recvFirst_of_holds (by omega) hroom hbs hc
  rw [List.take_append_of_le_length hmin] at hfirst
  rw [List.drop_append_of_le_length hmin] at hc₁
  have hpre := take_blit_zero payload (a.bytes.take f.minPayloadSize)
  rw [List.length_take_of_le hmin] at hpre
  have hlen : (blit payload 0 (a.bytes.take f.minPayloadSize)).length = maxPayloadSize := by
    rw [length_blit (by rw [List.length_take_of_le hmin]; omega), hp]
  have h16 : (blit payload 0 (a.bytes.take f.minPayloadSize)).take 16 = a.bytes.take 16 := by
    have hle : min 16 f.minPayloadSize = 16 := min_eq_left (by omega)
    rw [← hle, ← List.take_take, hpre, List.take_take]
  rcases hmin.eq_or_lt with heq | hlt
  · -- The first part is the whole packet.
    refine ⟨_, c₁, ?_, hlen, h16, ?_⟩
    · rw [heq] at hfirst hpre ⊢
      simp only [TCPrecvPacket, hfirst, Option.bind_eq_bind, Option.bind_some]
      rw [recvPayload_of_eq f.endian (ha.size htcp) hmax (by omega) hpre, RttmFlow.result,
        if_pos ⟨htcp, heq.symm⟩]
    · rwa [List.drop_of_length_le heq.ge, List.nil_append] at hc₁
  · -- The rest of the packet is read behind it.
    have hoff : sizeOffset plStandard = some 16 := rfl
    obtain ⟨c₂, hpay, hc₂⟩ := recvPayload_of_holds f.endian hoff (ha.size htcp) hmax (by omega)
      hlt hpre hc₁
    refine ⟨_, c₂, ?_, hlen, h16, hc₂⟩
    simp only [TCPrecvPacket, hfirst, Option.bind_eq_bind, Option.bind_some, hpay]
    rw [RttmFlow.result, if_neg fun h => hlt.ne' h.2]

end Receive

/-! ## A step -/

/-- All records have what can be read from their echoes. -/
def RttmSender.RecordsRead (s : RttmSender ℚ) : Prop := ∀ x ∈ s.built, x.1.IsRead x.2

/-- The payload has its size and starts with the flow id, and on TCP the connection holds the
    bytes `rest`. -/
structure RttmSender.Ready (f : RttmFlow) (s : RttmSender ℚ) (rest : List UInt8) : Prop where
  payload : s.payload.length = maxPayloadSize
  flowId : load32 .big s.payload = f.id
  size_le : s.size_r ≤ maxPayloadSize
  conn : f.l4Proto = l4ProtoTCP → s.conn.Holds rest

/-- What an echo leaves as it is. -/
structure RttmSender.SameSent (s s' : RttmSender ℚ) : Prop where
  sent : s'.sent = s.sent
  seqNum : s'.seqNum = s.seqNum
  timeUsec : s'.timeUsec = s.timeUsec

section Step

variable {f : RttmFlow} {s s' : RttmSender ℚ} {a : Echo} {rest : List UInt8}

theorem RttmFlow.IsEcho.preamble_le (ha : f.IsEcho a) (hf : f.HasPreamble) :
    16 ≤ a.bytes.length := by
  have hpre : 16 + _ ≤ f.minPayloadSize := hf
  exact (Nat.le_add_right 16 _).trans (hpre.trans ha.min_le)

/-- How an echo is received: its preamble is in the payload. -/
theorem receive_spec (hf : f.HasPreamble) (ha : f.IsEcho a) (hs : s.Ready f (a.bytes ++ rest)) :
    ∃ payload' c', s.receive f a = some (f.result a, payload', c') ∧
      payload'.length = maxPayloadSize ∧ payload'.take 16 = a.bytes.take 16 ∧
      (f.l4Proto = l4ProtoTCP → c'.Holds rest) := by
  rw [RttmSender.receive]
  split_ifs with htcp
  · obtain ⟨payload', c', hrecv, hlen, htake, hc⟩ :=
      TCPrecvPacket_echo hf htcp ha hs.payload (hs.conn htcp)
    exact ⟨payload', c', hrecv, hlen, htake, fun _ => hc⟩
  · have hmax := ha.length_le
    have hpre := ha.preamble_le hf
    have htake := take_blit_zero s.payload a.bytes
    refine ⟨blit s.payload 0 a.bytes, s.conn, ?_, ?_, ?_, fun h => absurd h htcp⟩
    · rw [List.take_of_length_le hmax, RttmFlow.result, if_neg fun h => htcp h.1]
    · rw [length_blit (by rw [hs.payload]; omega), hs.payload]
    · rw [← min_eq_left hpre, ← List.take_take, htake, min_eq_left hpre]

/-- An echo leaves the flow id in the payload. -/
theorem flowId_of_take (ha : f.IsEcho a) {payload : List UInt8}
    (h : payload.take 16 = a.bytes.take 16) : load32 .big payload = f.id := by
  rw [← ha.flowId, Echo.word, ← load32_drop_congr .big h (by decide : 0 + 4 ≤ 16), List.drop_zero]

/-- What is received is the size of the echo, if anything. -/
theorem result_eq_length (h : 0 < f.result a) : f.result a = a.bytes.length := by
  rw [RttmFlow.result] at h ⊢
  split_ifs at h ⊢
  · exact absurd h (lt_irrefl 0)
  · rfl

theorem result_le (ha : f.IsEcho a) : f.result a ≤ maxPayloadSize := by
  have hmax := ha.length_le
  rw [RttmFlow.result]
  split_ifs <;> omega

/-- A record that has what can be read from the echo has its transmit time and its size. -/
theorem recordsRead_log (hlen : 16 ≤ a.bytes.length)
    (htake : s.payload.take 16 = a.bytes.take 16) (txUsec size : ℤ) :
    (s.log f a txUsec size).RecordsRead ↔ s.RecordsRead ∧ txUsec = (a.word 12).toNat ∧
      UInt32.ofInt size = UInt32.ofInt a.bytes.length := by
  have h0 := ntohl_of_take (f := f) hlen htake (by decide : 0 + 4 ≤ 16)
  have h4 := ntohl_of_take (f := f) hlen htake (by decide : 4 + 4 ≤ 16)
  have h8 := ntohl_of_take (f := f) hlen htake (by decide : 8 + 4 ≤ 16)
  rw [List.drop_zero] at h0
  rw [RttmSender.RecordsRead, RttmSender.log]
  simp only [List.forall_mem_append, List.forall_mem_singleton, ← RttmSender.RecordsRead.eq_1]
  refine and_congr_right fun _ => ?_
  constructor
  · intro h
    have htime := h.txTime3
    have hsize := h.size
    simp only [writeInBufferStandard, seconds, h8] at htime hsize
    have husec := add_left_cancel htime
    rw [div_left_inj' (by norm_num), Int.cast_inj] at husec
    exact ⟨husec, hsize⟩
  · rintro ⟨rfl, hsize⟩
    exact ⟨h0, h4, by rw [← h8]; rfl, by rw [← h8]; rfl, by rw [← h8]; rfl, rfl, rfl, rfl, hsize⟩

/-- An echo during a wait is logged with the microseconds of the packet sent last. -/
theorem waitEcho_spec (hf : f.HasPreamble) (ha : f.IsEcho a) (hs : s.Ready f (a.bytes ++ rest))
    (h : s.waitEcho f a = some s') : s'.Ready f rest ∧ s.SameSent s' ∧
      s'.size_r = f.result a ∧ (s'.RecordsRead ↔ s.RecordsRead ∧
        (0 < f.result a → s.timeUsec = (a.word 12).toNat)) := by
  obtain ⟨payload, conn, hrecv, hlen, htake, hconn⟩ := receive_spec hf ha hs
  have hpre := ha.preamble_le hf
  have hid := flowId_of_take ha htake
  have hresult := result_le ha
  simp only [RttmSender.waitEcho, hrecv, Option.bind_eq_bind, Option.bind_some, Option.pure_def,
    Option.some.injEq] at h
  subst h
  by_cases hpos : 0 < f.result a
  · rw [if_pos hpos]
    refine ⟨⟨hlen, hid, hresult, hconn⟩, ⟨rfl, rfl, rfl⟩, rfl, ?_⟩
    rw [recordsRead_log hpre htake, result_eq_length hpos]
    refine and_congr_right fun _ => ⟨fun h _ => h.1, fun h => ⟨h ?_, rfl⟩⟩
    rw [← result_eq_length hpos]
    exact hpos
  · rw [if_neg hpos]
    refine ⟨⟨hlen, hid, hresult, hconn⟩, ⟨rfl, rfl, rfl⟩, rfl, ?_⟩
    exact (and_iff_left fun h => absurd h hpos).symm

/-- Sizes of packets are the same if their words are. -/
theorem ofInt_size_inj {n : ℤ} {m : ℕ} (hn : 0 ≤ n) (hn' : n ≤ maxPayloadSize)
    (hm : m ≤ maxPayloadSize) : UInt32.ofInt n = UInt32.ofInt m ↔ n = m := by
  rw [maxPayloadSize] at hn' hm
  refine ⟨fun h => ?_, fun h => by rw [h]⟩
  rw [← toNat_ofInt hn (by omega), h, toNat_ofInt (Int.natCast_nonneg m) (by omega)]

/-- An echo in the drain loop is logged on TCP with the size of the last one before. -/
theorem drainEcho_spec (hf : f.HasPreamble) (ha : f.IsEcho a) (hs : s.Ready f (a.bytes ++ rest))
    (h : s.drainEcho f a = some s') : s'.Ready f rest ∧ s.SameSent s' ∧
      (f.l4Proto = l4ProtoTCP → s'.size_r = s.size_r) ∧
      (s'.RecordsRead ↔ s.RecordsRead ∧
        (f.l4Proto = l4ProtoTCP → 0 < s.size_r → s.size_r = a.bytes.length)) := by
  obtain ⟨payload, conn, hrecv, hlen, htake, hconn⟩ := receive_spec hf ha hs
  have hpre := ha.preamble_le hf
  have hid := flowId_of_take ha htake
  have hmax := ha.length_le
  have husec : (ntohl f.endian (load32 f.endian (payload.drop 12))).toBitVec.toInt =
      (a.word 12).toNat := by
    have hlt := ha.usec
    rw [ntohl_of_take hpre htake (by decide : 12 + 4 ≤ 16),
      BitVec.toInt_eq_toNat_of_lt (by rw [UInt32.toNat_toBitVec]; omega), UInt32.toNat_toBitVec]
  simp only [RttmSender.drainEcho, hrecv, Option.bind_eq_bind, Option.bind_some, Option.pure_def,
    husec] at h
  split_ifs at h with hmore htcp hpos hpos
  · -- The result of the call is not used.
    cases h
    refine ⟨⟨hlen, hid, hs.size_le, hconn⟩, ⟨rfl, rfl, rfl⟩, fun _ => rfl, ?_⟩
    rw [recordsRead_log hpre htake, ofInt_size_inj hpos.le hs.size_le hmax]
    exact and_congr_right fun _ => ⟨fun h _ _ => h.2, fun h => ⟨rfl, h htcp hpos⟩⟩
  · cases h
    refine ⟨⟨hlen, hid, hs.size_le, hconn⟩, ⟨rfl, rfl, rfl⟩, fun _ => rfl, ?_⟩
    -- Nothing is logged.
    exact (and_iff_left fun _ h => absurd h hpos).symm
  · cases h
    refine ⟨⟨hlen, hid, result_le ha, hconn⟩, ⟨rfl, rfl, rfl⟩, fun h => absurd h htcp, ?_⟩
    rw [recordsRead_log hpre htake, result_eq_length hpos]
    -- On UDP the size is that of the echo.
    exact and_congr_right fun _ => ⟨fun _ h => absurd h htcp, fun _ => ⟨rfl, rfl⟩⟩
  · cases h
    -- On UDP something is always received.
    have hresult : f.result a = a.bytes.length := by
      rw [RttmFlow.result, if_neg fun h => htcp h.1]
    rw [hresult] at hpos
    omega

end Step

/-! ## Many echoes -/

/-- The bytes of echoes. -/
def echoBytes (echoes : List Echo) : List UInt8 := echoes.flatMap Echo.bytes

section Echoes

variable {f : RttmFlow} {echoes : List Echo} {s s' : RttmSender ℚ} {rest : List UInt8}

theorem RttmSender.SameSent.trans {s'' : RttmSender ℚ} (h : s.SameSent s') (h' : s'.SameSent s'') :
    s.SameSent s'' :=
  ⟨h'.sent.trans h.sent, h'.seqNum.trans h.seqNum, h'.timeUsec.trans h.timeUsec⟩

/-- The echoes during a wait. -/
theorem waitEchoes_spec (hf : f.HasPreamble) (hecho : ∀ a ∈ echoes, f.IsEcho a)
    (hs : s.Ready f (echoBytes echoes ++ rest))
    (h : echoes.foldlM (RttmSender.waitEcho f) s = some s') : s'.Ready f rest ∧ s.SameSent s' ∧
      s'.size_r = (echoes.getLast?.map f.result).getD s.size_r ∧
      (s'.RecordsRead ↔ s.RecordsRead ∧
        ∀ a ∈ echoes, 0 < f.result a → s.timeUsec = (a.word 12).toNat) := by
  induction echoes generalizing s with
  | nil =>
    cases h
    exact ⟨hs, ⟨rfl, rfl, rfl⟩, rfl, (and_iff_left fun a ha => absurd ha List.not_mem_nil).symm⟩
  | cons a echoes ih =>
    rw [List.foldlM_cons, Option.bind_eq_bind, Option.bind_eq_some_iff] at h
    obtain ⟨s₁, hstep, h⟩ := h
    rw [echoBytes, List.flatMap_cons, List.append_assoc] at hs
    obtain ⟨hs₁, hsame, hsize, hright⟩ :=
      waitEcho_spec hf (hecho a List.mem_cons_self) hs hstep
    obtain ⟨hs', hsame', hsize', hright'⟩ :=
      ih (fun b hb => hecho b (List.mem_cons_of_mem _ hb)) hs₁ h
    refine ⟨hs', hsame.trans hsame', ?_, ?_⟩
    · rw [hsize', hsize, List.getLast?_cons]
      rcases echoes.getLast? with _ | b <;> rfl
    · rw [hright', hright, hsame.timeUsec, and_assoc, List.forall_mem_cons]

/-- The echoes in the drain loop. -/
theorem drainEchoes_spec (hf : f.HasPreamble) (hecho : ∀ a ∈ echoes, f.IsEcho a)
    (hs : s.Ready f (echoBytes echoes ++ rest))
    (h : echoes.foldlM (RttmSender.drainEcho f) s = some s') : s.SameSent s' ∧
      (s'.RecordsRead ↔ s.RecordsRead ∧ ∀ a ∈ echoes, f.l4Proto = l4ProtoTCP → 0 < s.size_r →
        s.size_r = a.bytes.length) := by
  induction echoes generalizing s with
  | nil =>
    cases h
    exact ⟨⟨rfl, rfl, rfl⟩, (and_iff_left fun a ha => absurd ha List.not_mem_nil).symm⟩
  | cons a echoes ih =>
    rw [List.foldlM_cons, Option.bind_eq_bind, Option.bind_eq_some_iff] at h
    obtain ⟨s₁, hstep, h⟩ := h
    rw [echoBytes, List.flatMap_cons, List.append_assoc] at hs
    obtain ⟨hs₁, hsame, hsize, hright⟩ := drainEcho_spec hf (hecho a List.mem_cons_self) hs hstep
    obtain ⟨hsame', hright'⟩ := ih (fun b hb => hecho b (List.mem_cons_of_mem _ hb)) hs₁ h
    refine ⟨hsame.trans hsame', ?_⟩
    rw [hright', hright, and_assoc, List.forall_mem_cons]
    refine and_congr_right fun _ => and_congr_right fun _ => ?_
    refine forall₂_congr fun b _ => forall_congr' fun htcp => ?_
    rw [hsize htcp]

end Echoes

/-! ## Packets -/

/-- The packets of a flow: their size is within its bounds, and the time is one of the clock. -/
structure RttmFlow.Sends (f : RttmFlow) (p : RttmPacket) : Prop where
  min_le : f.minPayloadSize ≤ p.size
  size_le : p.size ≤ maxPayloadSize
  sec_nonneg : 0 ≤ p.lastTime.tv_sec
  usec_nonneg : 0 ≤ p.lastTime.tv_usec
  usec_lt : p.lastTime.tv_usec < 1000000

/-- The echo carries the packet `p`, sent as number `n`. -/
structure RttmFlow.Carries (f : RttmFlow) (a : Echo) (n : UInt32) (p : RttmPacket) : Prop where
  length : a.bytes.length = p.size
  flowId : a.word 0 = f.id
  seqNum : a.word 4 = n
  sec : a.word 8 = UInt32.ofInt (p.lastTime.tv_sec.tmod 86400)
  usec : a.word 12 = UInt32.ofInt p.lastTime.tv_usec
  size : f.l4Proto = l4ProtoTCP → a.word 16 = UInt32.ofInt p.size

/-- The record is that of the packet `p`, sent as number `n` and received at a time. -/
structure RttmFlow.IsRecord (f : RttmFlow) (n : UInt32) (p : RttmPacket) (RcvTime : Timeval)
    (r : Info ℚ) : Prop where
  flowId : r.flowId = f.id
  seqNum : r.seqNum = n
  txTime1 : r.txTime1 = hours (p.lastTime.tv_sec.tmod 86400)
  txTime2 : r.txTime2 = minutes (p.lastTime.tv_sec.tmod 86400)
  txTime3 : r.txTime3 = seconds ℚ (p.lastTime.tv_sec.tmod 86400) p.lastTime.tv_usec
  rxTime1 : r.rxTime1 = hours (RcvTime.tv_sec.tmod 86400)
  rxTime2 : r.rxTime2 = minutes (RcvTime.tv_sec.tmod 86400)
  rxTime3 : r.rxTime3 = seconds ℚ (RcvTime.tv_sec.tmod 86400) RcvTime.tv_usec
  size : r.size = UInt32.ofInt p.size

section Packet

variable {f : RttmFlow} {a : Echo} {n : UInt32} {p : RttmPacket}

/-- The transmit time of a packet, as its echo carries it. -/
theorem RttmFlow.Carries.toNat_usec (ha : f.Carries a n p) (hp : f.Sends p) :
    ((a.word 12).toNat : ℤ) = p.lastTime.tv_usec := by
  have hlt := hp.usec_lt
  rw [ha.usec, toNat_ofInt hp.usec_nonneg (by omega)]

theorem RttmFlow.Carries.toNat_sec (ha : f.Carries a n p) (hp : f.Sends p) :
    ((a.word 8).toNat : ℤ) = p.lastTime.tv_sec.tmod 86400 := by
  have hnonneg := Int.tmod_nonneg 86400 hp.sec_nonneg
  have hlt := Int.tmod_lt_of_pos p.lastTime.tv_sec (by decide : (0 : ℤ) < 86400)
  rw [ha.sec, toNat_ofInt hnonneg (by omega)]

/-- A packet of the flow can come back. -/
theorem RttmFlow.Carries.isEcho (ha : f.Carries a n p) (hp : f.Sends p) : f.IsEcho a where
  min_le := by
    have hmin := hp.min_le
    rw [← ha.length] at hmin
    exact_mod_cast hmin
  length_le := by
    have hmax := hp.size_le
    rw [← ha.length] at hmax
    exact_mod_cast hmax
  flowId := ha.flowId
  size htcp := by
    have hmax := hp.size_le
    rw [← ha.length, maxPayloadSize] at hmax
    have hword := toNat_ofInt (Int.natCast_nonneg a.bytes.length) (by omega)
    rw [ha.size htcp, ← ha.length]
    exact_mod_cast hword
  usec := by
    have hlt := hp.usec_lt
    rw [← ha.toNat_usec hp] at hlt
    exact_mod_cast hlt

/-- What can be read from an echo is the packet that it carries. -/
theorem isRead_iff (ha : f.Carries a n p) (hp : f.Sends p) {r : Info ℚ} :
    a.IsRead r ↔ f.IsRecord n p a.RcvTime r := by
  have hsec := ha.toNat_sec hp
  have husec := ha.toNat_usec hp
  constructor
  · rintro ⟨h0, h4, hh, hm, hs, hrh, hrm, hrs, hsize⟩
    rw [hsec] at hh hm hs
    rw [husec] at hs
    exact ⟨h0.trans ha.flowId, h4.trans ha.seqNum, hh, hm, hs, hrh, hrm, hrs,
      hsize.trans (congrArg _ ha.length)⟩
  · rintro ⟨h0, h4, hh, hm, hs, hrh, hrm, hrs, hsize⟩
    rw [← hsec] at hh hm hs
    rw [← husec] at hs
    exact ⟨h0.trans ha.flowId.symm, h4.trans ha.seqNum.symm, hh, hm, hs, hrh, hrm, hrs,
      hsize.trans (congrArg _ ha.length.symm)⟩

/-- The fields of the preamble after the flow id, as they are sent. -/
def RttmFlow.fields (f : RttmFlow) (n : UInt32) (p : RttmPacket) : List UInt8 :=
  store32 .big n ++ (store32 .big (UInt32.ofInt (p.lastTime.tv_sec.tmod 86400)) ++
    (store32 .big (UInt32.ofInt p.lastTime.tv_usec) ++
      if f.l4Proto = l4ProtoTCP then store32 .big (UInt32.ofInt p.size) else []))

/-- The preamble of a packet is the flow id and its fields. -/
theorem length_fields (f : RttmFlow) (n : UInt32) (p : RttmPacket) :
    4 + (f.fields n p).length = preambleSize f.l4Proto plStandard := by
  rw [RttmFlow.fields, preambleSize, if_pos rfl]
  by_cases htcp : f.l4Proto = l4ProtoTCP
  · have hsize : f.l4Proto = l4ProtoTCP ∧ plStandard ≠ plNone := ⟨htcp, by decide⟩
    simp [if_pos htcp, if_pos hsize]
  · simp [if_neg htcp, if_neg fun h : f.l4Proto = l4ProtoTCP ∧ _ => htcp h.1]

variable {s s' : RttmSender ℚ} {rest : List UInt8}

/-- The fields are written after the flow id. -/
theorem payload_writePreamble (hlen : 4 ≤ s.payload.length) :
    (s.writePreamble f p).payload = blit s.payload 4 (f.fields s.seqNum p) := by
  have h8 (x : UInt32) : 8 = 4 + (store32 .big x).length := by rw [length_store32]
  have h12 (x y : UInt32) : 12 = 4 + (store32 .big x ++ store32 .big y).length := by simp
  have h16 (x y z : UInt32) :
      16 = 4 + (store32 .big x ++ store32 .big y ++ store32 .big z).length := by simp
  rw [RttmSender.writePreamble, RttmFlow.fields]
  simp only [store32_htonl]
  rw [h8, blit_blit _ _ hlen, h12, blit_blit _ _ hlen, h16, blit_blit _ _ hlen]
  split_ifs <;> simp only [List.append_assoc, List.append_nil]

/-- The payload keeps its size and the flow id. -/
theorem RttmSender.Ready.writePreamble (hs : s.Ready f rest) :
    (s.writePreamble f p).Ready f rest where
  payload := by
    have hlen4 : 4 ≤ s.payload.length := by rw [hs.payload]; decide
    have hroom : 4 + (f.fields s.seqNum p).length ≤ s.payload.length := by
      rw [length_fields, hs.payload, preambleSize, if_pos rfl]
      split_ifs <;> decide
    rw [payload_writePreamble hlen4, length_blit hroom, hs.payload]
  flowId := by
    have hlen4 : 4 ≤ s.payload.length := by rw [hs.payload]; decide
    have htake : (s.payload.take 4).length = 4 := List.length_take_of_le hlen4
    rw [payload_writePreamble hlen4, blit, List.append_assoc, ← hs.flowId]
    exact load32_congr .big (by rw [List.take_append_of_le_length htake.ge, List.take_take]; rfl)
  size_le := hs.size_le
  conn := hs.conn

/-- The words of a packet that is sent. -/
theorem word_send (hf : f.HasPreamble) (hp : f.Sends p) (hs : s.Ready f rest) (t : Timeval)
    {off : ℕ} (hoff : off + 4 ≤ 4 + (f.fields s.seqNum p).length) :
    Echo.word ⟨t, (s.writePreamble f p).payload.take p.size.toNat⟩ off =
      load32 .big ((s.payload.take 4 ++ f.fields s.seqNum p).drop off) := by
  have hlen4 : 4 ≤ s.payload.length := by rw [hs.payload]; decide
  have hroom : 4 + (f.fields s.seqNum p).length ≤ p.size.toNat := by
    have hmin := hp.min_le
    have hpre := hf
    rw [RttmFlow.HasPreamble, ← length_fields f s.seqNum p] at hpre
    omega
  have hlen : (s.payload.take 4 ++ f.fields s.seqNum p).length ≤
      4 + (f.fields s.seqNum p).length := by
    rw [List.length_append, List.length_take_of_le hlen4]
  refine load32_drop_congr .big ?_ hoff
  rw [List.take_take, min_eq_left hroom, payload_writePreamble hlen4, take_blit hlen4,
    List.take_of_length_le hlen]

/-- A packet that is sent can be carried back. -/
theorem carries_send (hf : f.HasPreamble) (hp : f.Sends p) (hs : s.Ready f rest) (t : Timeval) :
    f.Carries ⟨t, (s.writePreamble f p).payload.take p.size.toNat⟩ s.seqNum p := by
  have hlen4 : 4 ≤ s.payload.length := by rw [hs.payload]; decide
  have htake : (s.payload.take 4).length = 4 := List.length_take_of_le hlen4
  have hfields := length_fields f s.seqNum p
  have hroom : 16 ≤ 4 + (f.fields s.seqNum p).length := by
    rw [hfields, preambleSize, if_pos rfl]
    omega
  have hdrop (k : ℕ) (bs : List UInt8) : (s.payload.take 4 ++ bs).drop (k + 4) = bs.drop k := by
    have h := @List.drop_length_add_append _ (s.payload.take 4) bs k
    rwa [htake, Nat.add_comm] at h
  refine ⟨?_, ?_, ?_, ?_, ?_, fun htcp => ?_⟩
  · have hlen := (hs.writePreamble (p := p)).payload
    have hmax := hp.size_le
    have hmin := hp.min_le
    rw [List.length_take_of_le (by omega)]
    omega
  · rw [word_send hf hp hs t (by omega), List.drop_zero, ← hs.flowId]
    exact load32_congr .big (by rw [List.take_append_of_le_length htake.ge, List.take_take]; rfl)
  · rw [word_send hf hp hs t (by omega), hdrop 0, List.drop_zero, RttmFlow.fields, load32_store32]
  · rw [word_send hf hp hs t (by omega), hdrop 4, RttmFlow.fields, drop_store32_append,
      List.drop_zero, load32_store32]
  · rw [word_send hf hp hs t (by omega), hdrop 8, RttmFlow.fields, drop_store32_append,
      drop_store32_append, List.drop_zero, load32_store32]
  · have hsize : (f.fields s.seqNum p).length = 16 := by simp [RttmFlow.fields, if_pos htcp]
    rw [word_send hf hp hs t (by omega), hdrop 12, RttmFlow.fields, drop_store32_append,
      drop_store32_append, drop_store32_append, List.drop_zero, if_pos htcp]
    exact (congrArg _ (List.append_nil _)).symm.trans (load32_store32 _ _ _)

end Packet

/-! ## A flow -/

/-- The packets that have been sent, which can be carried back. -/
structure RttmSender.HasSent (f : RttmFlow) (s : RttmSender ℚ) (packets : List RttmPacket) :
    Prop where
  seqNum : s.seqNum = UInt32.ofNat (packets.length + 1)
  length : s.sent.length = packets.length
  carries : ∀ k p bytes, packets[k]? = some p → s.sent[k]? = some bytes → ∀ t,
    f.Carries ⟨t, bytes⟩ (UInt32.ofNat (k + 1)) p

/-- The size of the last echo that has come during a wait, as the call returned it: 0 without
    one. -/
def RttmFlow.lastResult (f : RttmFlow) (packets : List RttmPacket) : ℤ :=
  ((packets.flatMap RttmPacket.echoes).getLast?.map f.result).getD 0

section Run

variable {f : RttmFlow} {s s' : RttmSender ℚ} {p : RttmPacket} {before packets : List RttmPacket}
  {rest : List UInt8}

/-- One more packet has been sent. -/
theorem RttmSender.HasSent.append (hs : s.HasSent f before) (hnum : s'.seqNum = s.seqNum + 1)
    {bytes : List UInt8} (hsent : s'.sent = s.sent ++ [bytes])
    (hp : ∀ t, f.Carries ⟨t, bytes⟩ s.seqNum p) : s'.HasSent f (before ++ [p]) where
  seqNum := by
    rw [hnum, hs.seqNum, List.length_append, List.length_singleton,
      UInt32.ofNat_add (before.length + 1) 1]
    rfl
  length := by rw [hsent, List.length_append, List.length_append, hs.length]; rfl
  carries k q bytes' hq hbytes := by
    rw [hsent] at hbytes
    -- A packet before, or the last one.
    rcases lt_or_ge k before.length with hlt | hge
    · rw [List.getElem?_append_left hlt] at hq
      rw [List.getElem?_append_left (hs.length ▸ hlt)] at hbytes
      exact hs.carries k q bytes' hq hbytes
    · rw [List.getElem?_append_right hge, List.getElem?_singleton] at hq
      rw [List.getElem?_append_right (hs.length ▸ hge), hs.length,
        List.getElem?_singleton] at hbytes
      split_ifs at hq with hk
      rw [if_pos hk] at hbytes
      cases hq
      cases hbytes
      have hlast : k = before.length := by omega
      rw [hlast, ← hs.seqNum]
      exact hp

/-- A packet, with the wait after it: the records of its echoes have its own microseconds. -/
theorem packet_spec (hf : f.HasPreamble) (hp : f.Sends p) (hecho : ∀ a ∈ p.echoes, f.IsEcho a)
    (hs : s.Ready f (echoBytes p.echoes ++ rest)) (hsent : s.HasSent f before)
    (h : s.packet f p = some s') : s'.Ready f rest ∧ s'.HasSent f (before ++ [p]) ∧
      s'.size_r = (p.echoes.getLast?.map f.result).getD s.size_r ∧
      (s'.RecordsRead ↔ s.RecordsRead ∧
        ∀ a ∈ p.echoes, 0 < f.result a → p.lastTime.tv_usec = (a.word 12).toNat) := by
  rw [RttmSender.packet, Option.bind_eq_bind, Option.bind_eq_some_iff] at h
  obtain ⟨s₁, hwait, h⟩ := h
  cases h
  obtain ⟨hpayload, hid, hle, hconn⟩ := hs.writePreamble (p := p)
  obtain ⟨hs₁, hsame, hsize, hread⟩ :=
    waitEchoes_spec (s := (s.writePreamble f p).send p) hf hecho ⟨hpayload, hid, hle, hconn⟩ hwait
  refine ⟨⟨hs₁.payload, hs₁.flowId, hs₁.size_le, hs₁.conn⟩, ?_, hsize, hread⟩
  exact hsent.append (congrArg (· + 1) hsame.seqNum) hsame.sent (carries_send hf hp hs)

/-- Many packets. -/
theorem packets_spec (hf : f.HasPreamble) (hp : ∀ p ∈ packets, f.Sends p)
    (hecho : ∀ p ∈ packets, ∀ a ∈ p.echoes, f.IsEcho a)
    (hs : s.Ready f (echoBytes (packets.flatMap RttmPacket.echoes) ++ rest))
    (hsent : s.HasSent f before) (h : packets.foldlM (RttmSender.packet f) s = some s') :
    s'.Ready f rest ∧ s'.HasSent f (before ++ packets) ∧
      s'.size_r = ((packets.flatMap RttmPacket.echoes).getLast?.map f.result).getD s.size_r ∧
      (s'.RecordsRead ↔ s.RecordsRead ∧ ∀ p ∈ packets, ∀ a ∈ p.echoes, 0 < f.result a →
        p.lastTime.tv_usec = (a.word 12).toNat) := by
  induction packets generalizing s before with
  | nil =>
    cases h
    refine ⟨hs, by rwa [List.append_nil], rfl, ?_⟩
    exact (and_iff_left fun p hp => absurd hp List.not_mem_nil).symm
  | cons p packets ih =>
    rw [List.foldlM_cons, Option.bind_eq_bind, Option.bind_eq_some_iff] at h
    obtain ⟨s₁, hstep, h⟩ := h
    rw [List.forall_mem_cons] at hp hecho
    rw [List.flatMap_cons, echoBytes, List.flatMap_append, List.append_assoc] at hs
    obtain ⟨hs₁, hsent₁, hsize₁, hread₁⟩ := packet_spec hf hp.1 hecho.1 hs hsent hstep
    obtain ⟨hs', hsent', hsize', hread'⟩ := ih hp.2 hecho.2 hs₁ hsent₁ h
    refine ⟨hs', ?_, ?_, ?_⟩
    · rwa [List.append_assoc] at hsent'
    · rw [hsize', hsize₁, List.flatMap_cons, List.getLast?_append]
      rcases (packets.flatMap RttmPacket.echoes).getLast? with _ | a <;> rfl
    · rw [hread', hread₁, and_assoc, List.forall_mem_cons]

/-- The variables before the first packet. -/
theorem ready_start {payload : List UInt8} (hlen : payload.length = maxPayloadSize) {conn : Conn}
    (hconn : f.l4Proto = l4ProtoTCP → conn.Holds rest) (mem : List (Info ℚ)) :
    (RttmSender.start f payload conn mem).Ready f rest where
  payload := by
    have hroom : 0 + (store32 f.endian (htonl f.endian f.id)).length ≤ payload.length := by
      rw [length_store32, hlen]
      decide
    rw [RttmSender.start, length_blit hroom, hlen]
  flowId := by
    rw [RttmSender.start, store32_htonl, blit, List.take_zero, List.nil_append, load32_store32]
  size_le := Int.natCast_nonneg _
  conn := hconn

/-- What is kept when a record is logged is kept by a flow. -/
theorem life_invariant {P : Echo → Prop} {I : BatchBuffer (Info ℚ) → List (Echo × Info ℚ) → Prop}
    (hlog : ∀ infos built a r, P a → I infos built →
      I (infos.log f.logbuffer_size (f.stored r)) (built ++ [(a, r)]))
    {drained : List Echo} (hpackets : ∀ p ∈ packets, ∀ a ∈ p.echoes, P a)
    (hdrained : ∀ a ∈ drained, P a) (hs : I s.infos s.built)
    (h : s.life f packets drained = some s') : I s'.infos s'.built := by
  have hwait (a : Echo) (ha : P a) (s s' : RttmSender ℚ) (hs : I s.infos s.built)
      (h : s.waitEcho f a = some s') : I s'.infos s'.built := by
    rw [RttmSender.waitEcho, Option.bind_eq_bind, Option.bind_eq_some_iff] at h
    obtain ⟨x, -, h⟩ := h
    cases h
    split_ifs
    · exact hlog _ _ a _ ha hs
    · exact hs
  have hpacket (p : RttmPacket) (hp : ∀ a ∈ p.echoes, P a) (s s' : RttmSender ℚ)
      (hs : I s.infos s.built) (h : s.packet f p = some s') : I s'.infos s'.built := by
    rw [RttmSender.packet, Option.bind_eq_bind, Option.bind_eq_some_iff] at h
    obtain ⟨s₁, hfold, h⟩ := h
    cases h
    exact foldlM_invariant (I := fun s => I s.infos s.built) (fun a ha => hwait a (hp a ha))
      (s := (s.writePreamble f p).send p) hs hfold
  have hdrain (a : Echo) (ha : P a) (s s' : RttmSender ℚ) (hs : I s.infos s.built)
      (h : s.drainEcho f a = some s') : I s'.infos s'.built := by
    rw [RttmSender.drainEcho] at h
    by_cases hmore : s.recvPkts < s.seqNum - 1
    · rw [if_pos hmore, Option.bind_eq_bind, Option.bind_eq_some_iff] at h
      obtain ⟨x, -, h⟩ := h
      cases h
      dsimp only
      -- Whatever the size is, the record is logged or there is none.
      split_ifs <;> first | exact hlog _ _ a _ ha hs | exact hs
    · rw [if_neg hmore] at h
      cases h
  rw [RttmSender.life, Option.bind_eq_bind, Option.bind_eq_some_iff] at h
  obtain ⟨s₁, hfold, h⟩ := h
  have hs₁ := foldlM_invariant (I := fun s => I s.infos s.built)
    (fun p hp => hpacket p (hpackets p hp)) hs hfold
  exact foldlM_invariant (I := fun s => I s.infos s.built)
    (fun a ha => hdrain a (hdrained a ha)) hs₁ h

end Run

/-! ## The records of a flow -/

/-- The echo is one of the packets of the flow. -/
def RttmFlow.Returns (f : RttmFlow) (packets : List RttmPacket) (a : Echo) : Prop :=
  ∃ k p, packets[k]? = some p ∧ f.Carries a (UInt32.ofNat (k + 1)) p

/-- All records are those of the packets that their echoes carry. -/
def RttmSender.RecordsRight (f : RttmFlow) (packets : List RttmPacket) (s : RttmSender ℚ) :
    Prop :=
  ∀ x ∈ s.built, ∀ k p, packets[k]? = some p → f.Carries x.1 (UInt32.ofNat (k + 1)) p →
    f.IsRecord (UInt32.ofNat (k + 1)) p x.1.RcvTime x.2

/-- A packet whose echo is logged during a wait has the microseconds of the packet sent last
    before. -/
def RttmFlow.SameUsec (f : RttmFlow) (packets : List RttmPacket) : Prop :=
  ∀ q ∈ packets, ∀ a ∈ q.echoes, 0 < f.result a → ∀ k p, packets[k]? = some p →
    f.Carries a (UInt32.ofNat (k + 1)) p → q.lastTime.tv_usec = p.lastTime.tv_usec

/-- On TCP an echo that is logged in the drain loop has the size of the last one that has come
    during a wait. -/
def RttmFlow.SameSize (f : RttmFlow) (packets : List RttmPacket) (drained : List Echo) : Prop :=
  f.l4Proto = l4ProtoTCP → ∀ a ∈ drained, 0 < f.lastResult packets →
    f.lastResult packets = a.bytes.length

section Records

variable {f : RttmFlow} {payload rest : List UInt8} {conn : Conn} {mem : List (Info ℚ)}
  {packets : List RttmPacket} {drained : List Echo} {s' : RttmSender ℚ}

/-- All packets have been sent, and can be carried back; and when the records have what can be
    read from their echoes. -/
theorem life_spec (hf : f.HasPreamble) (hpayload : payload.length = maxPayloadSize)
    (hsends : ∀ p ∈ packets, f.Sends p)
    (hwait : ∀ p ∈ packets, ∀ a ∈ p.echoes, f.IsEcho a) (hdrain : ∀ a ∈ drained, f.IsEcho a)
    (hconn : f.l4Proto = l4ProtoTCP →
      conn.Holds (echoBytes (packets.flatMap RttmPacket.echoes ++ drained) ++ rest))
    (h : (RttmSender.start f payload conn mem).life f packets drained = some s') :
    s'.HasSent f packets ∧ (s'.RecordsRead ↔
      (∀ q ∈ packets, ∀ a ∈ q.echoes, 0 < f.result a →
        q.lastTime.tv_usec = (a.word 12).toNat) ∧ f.SameSize packets drained) := by
  rw [RttmSender.life, Option.bind_eq_bind, Option.bind_eq_some_iff] at h
  obtain ⟨s₁, hfold, h⟩ := h
  rw [echoBytes, List.flatMap_append, List.append_assoc] at hconn
  have hsent : (RttmSender.start f payload conn mem).HasSent f [] :=
    ⟨rfl, rfl, fun k p bytes hp => absurd hp (by simp)⟩
  have hnone : (RttmSender.start f payload conn mem).RecordsRead :=
    fun x hx => absurd hx List.not_mem_nil
  obtain ⟨hs₁, hsent₁, hsize, hread⟩ :=
    packets_spec hf hsends hwait (ready_start hpayload hconn mem) hsent hfold
  -- The drain loop starts with the size of the last echo that came during a wait.
  obtain ⟨hsame, hread'⟩ := drainEchoes_spec hf hdrain hs₁ h
  rw [List.nil_append] at hsent₁
  change s₁.size_r = f.lastResult packets at hsize
  refine ⟨⟨hsame.seqNum.trans hsent₁.seqNum, ?_, ?_⟩, ?_⟩
  · rw [hsame.sent, hsent₁.length]
  · rw [hsame.sent]
    exact hsent₁.carries
  · rw [hread', hread, and_iff_right hnone, RttmFlow.SameSize, hsize]
    refine and_congr_right fun _ => ?_
    exact ⟨fun hs htcp a ha => hs a ha htcp, fun hs a ha htcp => hs htcp a ha⟩

/-- The records of echoes are those of the packets that they carry, if and only if those that
    come during a wait have the microseconds of the packet before it, and those in the drain
    loop on TCP the size of the last echo before. -/
theorem recordsRight_iff (hf : f.HasPreamble) (hpayload : payload.length = maxPayloadSize)
    (hsends : ∀ p ∈ packets, f.Sends p)
    (hwait : ∀ p ∈ packets, ∀ a ∈ p.echoes, f.Returns packets a)
    (hdrain : ∀ a ∈ drained, f.Returns packets a)
    (hconn : f.l4Proto = l4ProtoTCP →
      conn.Holds (echoBytes (packets.flatMap RttmPacket.echoes ++ drained) ++ rest))
    (h : (RttmSender.start f payload conn mem).life f packets drained = some s') :
    s'.RecordsRight f packets ↔ f.SameUsec packets ∧ f.SameSize packets drained := by
  have hecho {a : Echo} (ha : f.Returns packets a) : f.IsEcho a := by
    obtain ⟨k, p, hp, ha⟩ := ha
    exact ha.isEcho (hsends p (List.mem_of_getElem? hp))
  have hbuilt : ∀ x ∈ s'.built, f.Returns packets x.1 := by
    refine life_invariant (P := f.Returns packets)
      (I := fun _ built => ∀ x ∈ built, f.Returns packets x.1) ?_ hwait hdrain ?_ h
    · intro _ built a r ha hs
      rw [List.forall_mem_append, List.forall_mem_singleton]
      exact ⟨hs, ha⟩
    · exact fun x hx => absurd hx List.not_mem_nil
  -- What can be read from an echo is the packet that it carries.
  have hright : s'.RecordsRight f packets ↔ s'.RecordsRead := by
    constructor
    · intro hs x hx
      obtain ⟨k, p, hp, ha⟩ := hbuilt x hx
      exact (isRead_iff ha (hsends p (List.mem_of_getElem? hp))).2 (hs x hx k p hp ha)
    · intro hs x hx k p hp ha
      exact (isRead_iff ha (hsends p (List.mem_of_getElem? hp))).1 (hs x hx)
  -- The microseconds of that packet are in the echo.
  have husec : f.SameUsec packets ↔ ∀ q ∈ packets, ∀ a ∈ q.echoes, 0 < f.result a →
      q.lastTime.tv_usec = (a.word 12).toNat := by
    constructor
    · intro hs q hq a ha hpos
      obtain ⟨k, p, hp, hcarries⟩ := hwait q hq a ha
      rw [hs q hq a ha hpos k p hp hcarries,
        hcarries.toNat_usec (hsends p (List.mem_of_getElem? hp))]
    · intro hs q hq a ha hpos k p hp hcarries
      rw [hs q hq a ha hpos, hcarries.toNat_usec (hsends p (List.mem_of_getElem? hp))]
  obtain ⟨-, hread⟩ := life_spec hf hpayload hsends (fun p hp a ha => hecho (hwait p hp a ha))
    (fun a ha => hecho (hdrain a ha)) hconn h
  rw [hright, hread, husec]

end Records

/-- A flow on UDP, whose packets are no more than the preamble. -/
def udpFlow : RttmFlow where
  endian := .little
  id := 1
  l4Proto := l4ProtoUDP
  minPayloadSize := 16
  logremoto := false
  logbuffer_size := 2
  HelpSrcAddress := []
  HelpDstAddress := []
  tmpPort_SrcPort := 0
  tmpPort_DstPort := 0

/-- The variables of `udpFlow` before the first packet. -/
def udpStart : RttmSender ℚ :=
  RttmSender.start udpFlow (List.replicate maxPayloadSize 0) ⟨[], []⟩ [default, default]

/-- Two packets, four microseconds apart, with what comes during their waits. -/
def twoPackets (echoes echoes' : List Echo) : List RttmPacket :=
  [{ lastTime := ⟨10, 5⟩, size := 16, echoes := echoes },
    { lastTime := ⟨10, 9⟩, size := 16, echoes := echoes' }]

/-- The echo of the first packet. -/
def firstEcho : Echo where
  RcvTime := ⟨10, 900⟩
  bytes := [0, 0, 0, 1, 0, 0, 0, 1, 0, 0, 0, 10, 0, 0, 0, 5]

theorem sends_twoPackets (echoes echoes' : List Echo) :
    ∀ p ∈ twoPackets echoes echoes', udpFlow.Sends p := by
  simp only [twoPackets, List.forall_mem_cons]
  refine ⟨⟨?_, ?_, ?_, ?_, ?_⟩, ⟨?_, ?_, ?_, ?_, ?_⟩, ?_⟩ <;> simp [udpFlow, maxPayloadSize]

/-- The first packet comes back. -/
theorem carries_firstEcho (echoes : List Echo) :
    udpFlow.Carries firstEcho (UInt32.ofNat (0 + 1)) ⟨⟨10, 5⟩, 16, echoes⟩ where
  length := rfl
  flowId := by decide +kernel
  seqNum := by decide +kernel
  sec := (by decide +kernel : firstEcho.word 8 = UInt32.ofInt ((10 : ℤ).tmod 86400))
  usec := (by decide +kernel : firstEcho.word 12 = UInt32.ofInt 5)
  size h := absurd h (by decide)

theorem recordsRight_iff_inTime :
    ∃ s', udpStart.life udpFlow (twoPackets [firstEcho] []) [] = some s' ∧
      (s'.RecordsRight udpFlow (twoPackets [firstEcho] []) ↔
        udpFlow.SameUsec (twoPackets [firstEcho] []) ∧
          udpFlow.SameSize (twoPackets [firstEcho] []) []) := by
  obtain ⟨s', h⟩ := Option.isSome_iff_exists.1
    (by decide +kernel : (udpStart.life udpFlow (twoPackets [firstEcho] []) []).isSome)
  refine ⟨s', h, @recordsRight_iff _ _ [] _ _ _ _ _ le_rfl List.length_replicate
    (sends_twoPackets _ _) ?_ (fun a ha => absurd ha List.not_mem_nil)
    (fun h => absurd h (by decide)) h⟩
  intro p hp a ha
  have hfirst : a = firstEcho := by
    simp only [twoPackets, List.mem_cons, List.not_mem_nil, or_false] at hp
    rcases hp with rfl | rfl
    · exact List.mem_singleton.1 ha
    · exact absurd ha List.not_mem_nil
  rw [hfirst]
  exact ⟨0, _, rfl, carries_firstEcho _⟩

/-- The first packet comes back during the wait after the second one, and its record has the
    microseconds of that. -/
theorem lateEcho_wrong :
    ∃ s', udpStart.life udpFlow (twoPackets [] [firstEcho]) [] = some s' ∧
      udpFlow.Carries firstEcho 1 ⟨⟨10, 5⟩, 16, []⟩ ∧
      ¬ s'.RecordsRight udpFlow (twoPackets [] [firstEcho]) := by
  have hbuilt : (udpStart.life udpFlow (twoPackets [] [firstEcho]) []).map
      (fun s => s.built.map fun x => (x.1, x.2.txTime3)) =
        some [(firstEcho, 10000009 / 1000000)] := by decide +kernel
  obtain ⟨s', h, hbuilt⟩ := Option.map_eq_some_iff.1 hbuilt
  refine ⟨s', h, carries_firstEcho [], fun hright => ?_⟩
  obtain ⟨x, hx, heq⟩ := List.mem_map.1 (hbuilt ▸ List.mem_singleton_self _)
  obtain ⟨hfirst, htime⟩ := Prod.mk.inj heq
  have hrecord := hright x hx 0 _ rfl (hfirst ▸ carries_firstEcho [])
  have hwrong : (10000009 / 1000000 : ℚ) ≠ seconds ℚ ((10 : ℤ).tmod 86400) 5 := by decide +kernel
  exact hwrong (htime.symm.trans hrecord.txTime3)

end Ditg
