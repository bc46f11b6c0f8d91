import Ditg.Common.Info
import Ditg.Common.Packet

/-!
# Logging in a receiving thread

A receiving thread (`icmpSock`, `udpSock`, `tcpSock`) logs every packet: it builds the
record of the packet in the next slot of its buffer, and when the buffer is full it
writes it to a local file (`flushBuffer`) or sends it to a log server. Two variables of
the process say where records go, `logCheck` (local file) and `logRemote` (log server);
with `logRemote` on, the record is converted in place to network format.

The log blocks of the three functions are the same, but for the records of a TCP
thread that are not counted (`logPacket`). What the threads do to the outside is
kept in a journal (`Journal`): the slots stored to, the records built, and those
written or sent. A slot of a buffer (`Slot`) tells whether its record has been
converted since it was built.

* `logPacket_bounded`: a packet that does not fill the buffer, or finds its file open,
  leaves the count below the size of the buffer;
* `logPacket_asBuilt`: unless a record is counted with `logRemote` on, what a packet
  adds to the buffer or to the file is a record as built;
* `logPacket_appended`: nothing is written to a file without `logCheck`, or to one that
  is not open.
-/

namespace Ditg

open Bytes

/-- `L7_PROTO_TELNET`. -/
def l7ProtoTelnet : UInt8 := 1

/-- A log file of the process: the stream `out`, or the one of an entry of
    `memLogFile`. -/
inductive LogFile
  | out
  | mem (i : ℕ)
  deriving DecidableEq, Repr

/-- The life of a thread. -/
inductive ThreadPc
  /-- Its flow has been requested. -/
  | created
  /-- It has allocated its buffer and receives packets. -/
  | running
  /-- It has been terminated. -/
  | ended
  /-- It goes on after the end of its session, which has freed its buffer, and whose
      `paraThread`, with the counter, is gone. -/
  | orphan
  deriving DecidableEq, Repr

/-- A slot of a buffer: a record, and whether it has been converted to network format
    (`infosHostToNet`) since it was built. -/
structure Slot (F : Type) where
  record : Info F
  net : Bool

/-- A record as built, one of those in `built`. -/
def Slot.AsBuilt {F : Type} (built : List (Info F)) (x : Slot F) : Prop :=
  x.net = false ∧ x.record ∈ built

/-- What a receiving thread logs with, an entry of the `paraThread` of a session. -/
structure ParamThread (F : Type) where
  /-- The session that has started the thread. -/
  session : ℕ
  pc : ThreadPc
  l4Proto : UInt8
  l7Proto : UInt8
  payloadLogType : UInt8
  flowId : UInt32
  fileLog : LogFile
  /-- The next slot of the buffer. -/
  count : ℕ
  /-- The buffer. -/
  infos : List (Slot F)

/-- A packet, as the log block finds it: the words of the preamble, in network order,
    the addresses and ports of the sockets, the receive time and the size. -/
structure Packet where
  FlowId : UInt32
  SeqNum : UInt32
  TimeSec : UInt32
  TimeUsec : UInt32
  SrcHost : List UInt8
  DestHost : List UInt8
  portSrc : UInt16
  portDst : UInt16
  tv_sec : ℤ
  tv_usec : ℤ
  size : ℤ
  deriving Inhabited

/-- What threads have done to the outside, and how. -/
structure Journal (F : Type) where
  /-- The slots of buffers stored to. -/
  stored : List ℕ
  /-- The records built from packets (`writeInBufferStandard`, `Short`, `None`). -/
  built : List (Info F)
  /-- The records appended to local files (`flushBuffer`). -/
  appended : List (Slot F)
  /-- The records sent to log servers. -/
  sent : List (Slot F)

/-- Nothing done. -/
def Journal.empty {F : Type} : Journal F := ⟨[], [], [], []⟩

/-- First the one, then the other. -/
def Journal.append {F : Type} (j j' : Journal F) : Journal F :=
  ⟨j.stored ++ j'.stored, j.built ++ j'.built, j.appended ++ j'.appended, j.sent ++ j'.sent⟩

section Model

variable {F : Type} [CDouble F] [Inhabited F]

/-- A slot of a new buffer. -/
instance : Inhabited (Slot F) where
  default := ⟨default, false⟩

/-! ## The model -/

/-- The record of a packet of the given size, built over the next slot. -/
def ParamThread.writeInBuffer (e : Endian) (t : ParamThread F) (p : Packet) (size : ℤ) : Info F :=
  let infos := (t.infos.getD t.count default).record
  if t.payloadLogType = plStandard then
    writeInBufferStandard e infos p.FlowId p.SeqNum p.SrcHost p.DestHost p.portSrc p.portDst
      (ntohl e p.TimeSec).toBitVec.toInt (p.tv_sec.tmod 86400)
      (ntohl e p.TimeUsec).toBitVec.toInt p.tv_usec size
  else if t.payloadLogType = plShort then
    writeInBufferShort e infos p.FlowId p.SeqNum p.SrcHost p.DestHost p.portSrc p.portDst
      (p.tv_sec.tmod 86400) p.tv_usec size
  else
    writeInBufferNone e infos t.flowId p.SrcHost p.DestHost p.portSrc p.portDst
      (p.tv_sec.tmod 86400) p.tv_usec size

/-- The thread with a record in its next slot. A slot outside the buffer is not
    modelled: nothing is stored. -/
def ParamThread.store (t : ParamThread F) (x : Slot F) : ParamThread F :=
  { t with infos := t.infos.set t.count x }

/-- The records in the buffer. -/
def ParamThread.held (t : ParamThread F) : List (Slot F) := t.infos.take t.count

/-- Writing the buffer to the log file. The counter is only reset if the file is open. -/
def flushBuffer (is_open : Bool) (t : ParamThread F) : ParamThread F × Journal F :=
  if is_open then ({ t with count := 0 }, { Journal.empty with appended := t.held })
  else (t, .empty)

/-- The size of a packet that is logged: without the header for Telnet on TCP. -/
def ParamThread.logSize (t : ParamThread F) (p : Packet) : ℤ :=
  if t.l4Proto = l4ProtoTCP ∧ t.l7Proto = l7ProtoTelnet then p.size - 20 else p.size

/-- The packet is counted: on TCP, only if its size is not 0. -/
def ParamThread.counts (t : ParamThread F) (p : Packet) : Bool :=
  ¬(t.l4Proto = l4ProtoTCP ∧ t.logSize p = 0)

/-- The thread with the packet counted. -/
def ParamThread.advance (t : ParamThread F) (p : Packet) : ParamThread F :=
  if t.counts p then { t with count := t.count + 1 } else t

/-- The local block: the record of the packet goes to the next slot. -/
def logLocal (e : Endian) (logCheck : ℕ) (t : ParamThread F) (p : Packet) :
    ParamThread F × Journal F :=
  if logCheck ≠ 0 then
    let r := t.writeInBuffer e p (t.logSize p)
    (t.store ⟨r, false⟩, { Journal.empty with stored := [t.count], built := [r] })
  else (t, .empty)

/-- The remote block: so it does, and is converted to network format. -/
def logToServer (e : Endian) (logRemote : ℕ) (t : ParamThread F) (p : Packet) :
    ParamThread F × Journal F :=
  if logRemote ≠ 0 then
    let r := t.writeInBuffer e p (t.logSize p)
    (t.store ⟨infosHostToNet e r, true⟩, { Journal.empty with stored := [t.count], built := [r] })
  else (t, .empty)

/-- The buffer, if full, goes to the log file or to the log server. -/
def flushFull (logbuffer_size logCheck logRemote : ℕ) (is_open : Bool) (t : ParamThread F) :
    ParamThread F × Journal F :=
  if t.count = logbuffer_size then
    if logCheck ≠ 0 then flushBuffer is_open t
    else if logRemote ≠ 0 then ({ t with count := 0 }, { Journal.empty with sent := t.held })
    else (t, .empty)
  else (t, .empty)

/-- The log block for a packet, given whether the log file of the thread is open. -/
def logPacket (logbuffer_size : ℕ) (e : Endian) (logCheck logRemote : ℕ) (is_open : Bool)
    (t : ParamThread F) (p : Packet) : ParamThread F × Journal F :=
  if logCheck ≠ 0 ∨ logRemote ≠ 0 then
    -- With both variables on, the second block builds its record over that of the first.
    let l := logLocal e logCheck t p
    let r := logToServer e logRemote l.1 p
    let f := flushFull logbuffer_size logCheck logRemote is_open (r.1.advance p)
    (f.1, (l.2.append r.2).append f.2)
  else (t, .empty)

/-- The end of a flow: what is left in the buffer goes to the log file or to the log
    server. In the latter case the counter stays. -/
def flushLast (logCheck logRemote : ℕ) (is_open : Bool) (t : ParamThread F) :
    ParamThread F × Journal F :=
  if logCheck = 1 ∨ logCheck = 2 then flushBuffer is_open t
  else if logRemote = 1 ∨ logRemote = 2 then (t, { Journal.empty with sent := t.held })
  else (t, .empty)

/-! ## The counter -/

variable {e : Endian} {logbuffer_size logCheck logRemote : ℕ} {is_open : Bool}
  {t : ParamThread F} {p : Packet}

/-- The block of `logLocal` stores to the next slot, or does nothing. -/
theorem logLocal_spec (e : Endian) (logCheck : ℕ) (t : ParamThread F) (p : Packet) :
    (logLocal e logCheck t p).1.count = t.count ∧
      (logLocal e logCheck t p).1.counts p = t.counts p ∧
      (∀ i ∈ (logLocal e logCheck t p).2.stored, i = t.count) ∧
      (logLocal e logCheck t p).2.appended = [] := by
  rw [logLocal]
  split_ifs
  · exact ⟨rfl, rfl, fun i hi => List.mem_singleton.1 hi, rfl⟩
  · exact ⟨rfl, rfl, fun i hi => absurd hi List.not_mem_nil, rfl⟩

/-- So does that of `logToServer`. -/
theorem logToServer_spec (e : Endian) (logRemote : ℕ) (t : ParamThread F) (p : Packet) :
    (logToServer e logRemote t p).1.count = t.count ∧
      (logToServer e logRemote t p).1.counts p = t.counts p ∧
      (∀ i ∈ (logToServer e logRemote t p).2.stored, i = t.count) ∧
      (logToServer e logRemote t p).2.appended = [] := by
  rw [logToServer]
  split_ifs
  · exact ⟨rfl, rfl, fun i hi => List.mem_singleton.1 hi, rfl⟩
  · exact ⟨rfl, rfl, fun i hi => absurd hi List.not_mem_nil, rfl⟩

omit [CDouble F] [Inhabited F] in
/-- A buffer that is not full is left alone, and a full one is emptied, unless its file
    is not open. -/
theorem flushFull_spec (is_open : Bool) (hlog : logCheck ≠ 0 ∨ logRemote ≠ 0)
    (hopen : logCheck ≠ 0 → t.count = logbuffer_size → is_open = true) :
    (flushFull logbuffer_size logCheck logRemote is_open t).1.count =
        (if t.count = logbuffer_size then 0 else t.count) ∧
      (flushFull logbuffer_size logCheck logRemote is_open t).2.stored = [] := by
  rw [flushFull]
  split_ifs with hfull hlocal hremote
  · rw [flushBuffer, if_pos (hopen hlocal hfull)]
    exact ⟨rfl, rfl⟩
  · exact ⟨rfl, rfl⟩
  · exact absurd hlog (not_or.2 ⟨hlocal, hremote⟩)
  · exact ⟨rfl, rfl⟩

omit [CDouble F] [Inhabited F] in
theorem count_advance (t : ParamThread F) (p : Packet) :
    (t.advance p).count = if t.counts p then t.count + 1 else t.count := by
  rw [ParamThread.advance]
  split_ifs <;> rfl

/-- A packet is stored inside the buffer, and leaves the counter inside, if the log file
    is open when the packet fills the buffer. -/
theorem logPacket_bounded (ht : t.count < logbuffer_size)
    (hopen : logCheck ≠ 0 → t.counts p → t.count + 1 = logbuffer_size → is_open = true) :
    (logPacket logbuffer_size e logCheck logRemote is_open t p).1.count < logbuffer_size ∧
      ∀ i ∈ (logPacket logbuffer_size e logCheck logRemote is_open t p).2.stored,
        i < logbuffer_size := by
  by_cases hlog : logCheck ≠ 0 ∨ logRemote ≠ 0
  · rw [logPacket, if_pos hlog]
    obtain ⟨hc₁, hn₁, hs₁, -⟩ := logLocal_spec e logCheck t p
    obtain ⟨hc₂, hn₂, hs₂, -⟩ := logToServer_spec e logRemote (logLocal e logCheck t p).1 p
    have hcount := count_advance (logToServer e logRemote (logLocal e logCheck t p).1 p).1 p
    rw [hn₂, hn₁, hc₂, hc₁] at hcount
    obtain ⟨hc₃, hs₃⟩ := flushFull_spec is_open hlog fun hlocal hfull => by
      rw [hcount] at hfull
      split_ifs at hfull with hn
      · exact hopen hlocal hn hfull
      · omega
    refine ⟨?_, fun i hi => ?_⟩
    · simp only [hc₃, hcount]
      split_ifs <;> omega
    · simp only [Journal.append, hs₃, List.append_nil, List.mem_append] at hi
      rcases hi with hi | hi
      · rw [hs₁ i hi]
        exact ht
      · rw [hs₂ i hi, hc₁]
        exact ht
  · rw [logPacket, if_neg hlog]
    exact ⟨ht, fun i hi => absurd hi List.not_mem_nil⟩

omit [CDouble F] [Inhabited F] in
/-- The end of a flow does not raise the counter. -/
theorem flushLast_count (logCheck logRemote : ℕ) (is_open : Bool) (t : ParamThread F) :
    (flushLast logCheck logRemote is_open t).1.count ≤ t.count ∧
      (flushLast logCheck logRemote is_open t).2.stored = [] := by
  rw [flushLast, flushBuffer]
  split_ifs
  · exact ⟨Nat.zero_le _, rfl⟩
  · exact ⟨le_rfl, rfl⟩
  · exact ⟨le_rfl, rfl⟩
  · exact ⟨le_rfl, rfl⟩

/-! ## What is written -/

section Held

omit [CDouble F] [Inhabited F]

/-- Storing a record adds nothing else to those in the buffer, once it is counted. -/
theorem mem_held_store {x y : Slot F} (hx : x ∈ ((t.store y).advance p).held) :
    x ∈ t.held ∨ x = y := by
  rw [ParamThread.advance] at hx
  split_ifs at hx
  · obtain ⟨i, hi, rfl⟩ := List.mem_take_iff_getElem.1 hx
    simp only [ParamThread.store, List.length_set] at hi ⊢
    rw [List.getElem_set]
    -- The slot of the record, or one before it.
    split_ifs with hc
    · exact .inr rfl
    · exact .inl (List.mem_take_iff_getElem.2 ⟨i, by omega, rfl⟩)
  · rw [ParamThread.held, ParamThread.store, List.take_set_of_le le_rfl] at hx
    exact .inl hx

/-- A record that is not counted stays out of the buffer. -/
theorem held_store (t : ParamThread F) (x : Slot F) : (t.store x).held = t.held :=
  List.take_set_of_le le_rfl

/-- Emptying a buffer writes nothing else than what is in it. -/
theorem flushBuffer_mem (is_open : Bool) (t : ParamThread F) :
    (∀ x ∈ (flushBuffer is_open t).1.held, x ∈ t.held) ∧
      (∀ x ∈ (flushBuffer is_open t).2.appended, x ∈ t.held) ∧
      (flushBuffer is_open t).2.built = [] := by
  rw [flushBuffer]
  split_ifs
  · exact ⟨fun x hx => absurd hx (by simp [ParamThread.held]), fun x hx => hx, rfl⟩
  · exact ⟨fun x hx => hx, fun x hx => absurd hx List.not_mem_nil, rfl⟩

@[inherit_doc flushBuffer_mem]
theorem flushFull_mem (logbuffer_size logCheck logRemote : ℕ) (is_open : Bool)
    (t : ParamThread F) :
    (∀ x ∈ (flushFull logbuffer_size logCheck logRemote is_open t).1.held, x ∈ t.held) ∧
      (∀ x ∈ (flushFull logbuffer_size logCheck logRemote is_open t).2.appended, x ∈ t.held) ∧
      (flushFull logbuffer_size logCheck logRemote is_open t).2.built = [] := by
  have hid : (∀ x ∈ t.held, x ∈ t.held) ∧ (∀ x ∈ (Journal.empty : Journal F).appended, x ∈ t.held) ∧
      (Journal.empty : Journal F).built = [] :=
    ⟨fun x hx => hx, fun x hx => absurd hx List.not_mem_nil, rfl⟩
  rw [flushFull]
  split_ifs
  · exact flushBuffer_mem is_open t
  · exact ⟨fun x hx => absurd hx (by simp [ParamThread.held]),
      fun x hx => absurd hx List.not_mem_nil, rfl⟩
  · exact hid
  · exact hid

@[inherit_doc flushBuffer_mem]
theorem flushLast_mem (logCheck logRemote : ℕ) (is_open : Bool) (t : ParamThread F) :
    (∀ x ∈ (flushLast logCheck logRemote is_open t).1.held, x ∈ t.held) ∧
      (∀ x ∈ (flushLast logCheck logRemote is_open t).2.appended, x ∈ t.held) ∧
      (flushLast logCheck logRemote is_open t).2.built = [] := by
  rw [flushLast]
  split_ifs
  · exact flushBuffer_mem is_open t
  · exact ⟨fun x hx => hx, fun x hx => absurd hx List.not_mem_nil, rfl⟩
  · exact ⟨fun x hx => hx, fun x hx => absurd hx List.not_mem_nil, rfl⟩

end Held

/-- Neither block changes what is in the buffer, until the record is counted. -/
theorem held_blocks (e : Endian) (logCheck logRemote : ℕ) (t : ParamThread F) (p : Packet) :
    (logToServer e logRemote (logLocal e logCheck t p).1 p).1.held = t.held := by
  rw [logToServer, logLocal]
  split_ifs <;> simp only [held_store]

/-- Unless a record is counted with `logRemote` on, what is in the buffer after a packet,
    and what the packet makes be written, was in the buffer or is a record as built. -/
theorem logPacket_asBuilt (logbuffer_size : ℕ) (e : Endian) (logCheck : ℕ) (is_open : Bool)
    (h : logRemote ≠ 0 → t.counts p = false) {x : Slot F}
    (hx : x ∈ (logPacket logbuffer_size e logCheck logRemote is_open t p).1.held ∨
      x ∈ (logPacket logbuffer_size e logCheck logRemote is_open t p).2.appended) :
    x ∈ t.held ∨
      x.AsBuilt (logPacket logbuffer_size e logCheck logRemote is_open t p).2.built := by
  by_cases hlog : logCheck ≠ 0 ∨ logRemote ≠ 0
  · rw [logPacket, if_pos hlog] at hx ⊢
    obtain ⟨-, hn₁, -, happ₁⟩ := logLocal_spec e logCheck t p
    obtain ⟨-, hn₂, -, happ₂⟩ := logToServer_spec e logRemote (logLocal e logCheck t p).1 p
    obtain ⟨hheld, happ, -⟩ := flushFull_mem logbuffer_size logCheck logRemote is_open
      ((logToServer e logRemote (logLocal e logCheck t p).1 p).1.advance p)
    simp only [Journal.append, happ₁, happ₂, List.nil_append] at hx
    replace hx := hx.elim (hheld x) (happ x)
    by_cases hremote : logRemote = 0
    · -- The record of the local block is the one that is counted.
      have hlocal : logCheck ≠ 0 := hlog.resolve_right (not_not.2 hremote)
      simp only [logLocal, if_pos hlocal, logToServer, hremote, ne_eq, not_true_eq_false,
        if_false] at hx
      refine (mem_held_store hx).imp_right fun hx => ?_
      rw [hx, logLocal, if_pos hlocal]
      exact ⟨rfl, List.mem_append_left _ (List.mem_append_left _ (List.mem_singleton.2 rfl))⟩
    · -- The record is not counted, and stays out of the buffer.
      rw [ParamThread.advance, hn₂, hn₁, h hremote, if_neg Bool.false_ne_true, held_blocks] at hx
      exact .inl hx
  · rw [logPacket, if_neg hlog] at hx
    exact .inl (hx.resolve_right List.not_mem_nil)

/-- With `logCheck` off, or if the log file is not open, nothing is written to it. -/
theorem logPacket_appended (logbuffer_size : ℕ) (e : Endian) (logRemote : ℕ)
    (h : logCheck ≠ 0 → is_open = false) (t : ParamThread F) (p : Packet) :
    (logPacket logbuffer_size e logCheck logRemote is_open t p).2.appended = [] := by
  have hfull (t : ParamThread F) :
      (flushFull logbuffer_size logCheck logRemote is_open t).2.appended = [] := by
    rw [flushFull]
    split_ifs with hfull hlocal
    · rw [h hlocal]
      rfl
    · rfl
    · rfl
    · rfl
  rw [logPacket]
  split_ifs
  · simp only [Journal.append, hfull, (logLocal_spec e logCheck t p).2.2.2,
      (logToServer_spec e logRemote (logLocal e logCheck t p).1 p).2.2.2, List.append_nil]
  · rfl

omit [CDouble F] [Inhabited F] in
@[inherit_doc logPacket_appended]
theorem flushLast_appended (logRemote : ℕ) (h : logCheck ≠ 0 → is_open = false)
    (t : ParamThread F) : (flushLast logCheck logRemote is_open t).2.appended = [] := by
  rw [flushLast]
  split_ifs with hlocal
  · rw [h (by omega)]
    rfl
  · rfl
  · rfl

/-- A packet leaves the log file of the thread as it is. -/
theorem logPacket_fileLog (logbuffer_size : ℕ) (e : Endian) (logCheck logRemote : ℕ)
    (is_open : Bool) (t : ParamThread F) (p : Packet) :
    (logPacket logbuffer_size e logCheck logRemote is_open t p).1.fileLog = t.fileLog := by
  have hadvance (t : ParamThread F) : (t.advance p).fileLog = t.fileLog := by
    rw [ParamThread.advance]
    split_ifs <;> rfl
  have hfull (t : ParamThread F) :
      (flushFull logbuffer_size logCheck logRemote is_open t).1.fileLog = t.fileLog := by
    rw [flushFull, flushBuffer]
    split_ifs <;> rfl
  rw [logPacket]
  split_ifs
  · rw [hfull, hadvance, logToServer, logLocal]
    split_ifs <;> rfl
  · rfl

omit [CDouble F] [Inhabited F] in
@[inherit_doc logPacket_fileLog]
theorem flushLast_fileLog (logCheck logRemote : ℕ) (is_open : Bool) (t : ParamThread F) :
    (flushLast logCheck logRemote is_open t).1.fileLog = t.fileLog := by
  rw [flushLast, flushBuffer]
  split_ifs <;> rfl

end Model

end Ditg
