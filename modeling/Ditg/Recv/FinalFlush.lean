import Ditg.Library.Batch
import Ditg.Recv.Thread

/-!
# The end of a flow

At the end of a flow (`TSP_CLOSED_FLOW`) the thread of the session writes what is left in
the buffer of the flow to the log file, or sends it to the log server, and terminates the
receiving thread of the flow a second later. Late packets of that second are logged as
usual. The counter of the buffer, which both threads use, is reset when the buffer has
been written to a file, but not when it has been sent.

* `TracedThread.batch_packet`: the log block refines logging to a buffer that is flushed
  when it is full;
* `handedOnce_iff`: when the end of a flow makes no record be written or sent twice, and
  none be lost.
-/

namespace Ditg

section Model

variable {F : Type} [CDouble F] [Inhabited F]

/-! ## The model -/

/-- A receiving thread, with the packets whose records the slots of its buffer hold, and
    those whose records have been written or sent, in order. Packets are numbered as they
    come. -/
structure TracedThread (F : Type) where
  thread : ParamThread F
  ids : List ℕ
  received : ℕ
  out : List ℕ

/-- The thread after it has done something: what has been written or sent are the records
    in the first slots of the buffer. -/
def TracedThread.put (s : TracedThread F) (r : ParamThread F × Journal F) : TracedThread F :=
  let ids := r.2.stored.foldl (fun ids i => ids.set i s.received) s.ids
  { s with
    thread := r.1
    ids := ids
    out := s.out ++ ids.take (r.2.appended ++ r.2.sent).length }

variable (logbuffer_size : ℕ) (e : Endian) (logCheck logRemote : ℕ) (is_open : Bool)

/-- The thread of a flow, when it starts. -/
def TracedThread.start (t : ParamThread F) : TracedThread F where
  thread :=
    { t with pc := .running, count := 0, infos := List.replicate logbuffer_size default }
  ids := List.replicate logbuffer_size 0
  received := 0
  out := []

/-- It receives a packet. -/
def TracedThread.packet (s : TracedThread F) (p : Packet) : TracedThread F :=
  let s' := s.put (logPacket logbuffer_size e logCheck logRemote is_open s.thread p)
  { s' with received := s.received + 1 }

/-- The first step of the handler of `TSP_CLOSED_FLOW`. -/
def TracedThread.closedFlow (s : TracedThread F) : TracedThread F :=
  s.put (flushLast logCheck logRemote is_open s.thread)

/-- The second one. -/
def TracedThread.terminate (s : TracedThread F) : TracedThread F :=
  { s with thread := { s.thread with pc := .ended } }

/-- The life of the thread of a flow that receives the packets `before`, and after the
    first step of the handler the packets `late`. -/
def TracedThread.life (t : ParamThread F) (before late : List Packet) : TracedThread F :=
  let packets := List.foldl (TracedThread.packet logbuffer_size e logCheck logRemote is_open)
  (packets ((packets (.start logbuffer_size t) before).closedFlow logCheck logRemote is_open)
    late).terminate

/-- Packets are logged to a file, or to a log server. -/
def OneLog (logCheck logRemote : ℕ) : Prop :=
  (logCheck = 1 ∨ logCheck = 2) ∧ logRemote = 0 ∨ logCheck = 0 ∧ (logRemote = 1 ∨ logRemote = 2)

/-- No record has been written or sent twice, and those of the packets `before`, as far as
    they are counted, have been once. -/
structure HandedOnce (t : ParamThread F) (before : List Packet) (out : List ℕ) : Prop where
  once : out.Nodup
  all : ∀ i p, before[i]? = some p → t.counts p → i ∈ out

/-- What a packet stores to the next slot, if packets are logged to a file or to a log
    server. -/
def ParamThread.slot (t : ParamThread F) (p : Packet) : Slot F :=
  let r := t.writeInBuffer e p (t.logSize p)
  if logRemote = 0 then ⟨r, false⟩ else ⟨infosHostToNet e r, true⟩

/-! ## A step of the thread -/

variable {logbuffer_size e logCheck logRemote is_open}

variable (logbuffer_size is_open) in
omit [CDouble F] [Inhabited F] in
/-- A full buffer goes to the log server, or to the file if it is open. -/
theorem flushFull_one (hone : OneLog logCheck logRemote) (t : ParamThread F) :
    (flushFull logbuffer_size logCheck logRemote is_open t).1 =
        (if t.count = logbuffer_size ∧ (logRemote ≠ 0 ∨ is_open = true) then
          { t with count := 0 } else t) ∧
      (flushFull logbuffer_size logCheck logRemote is_open t).2.stored = [] ∧
      (flushFull logbuffer_size logCheck logRemote is_open t).2.appended ++
          (flushFull logbuffer_size logCheck logRemote is_open t).2.sent =
        if t.count = logbuffer_size ∧ (logRemote ≠ 0 ∨ is_open = true) then t.held else [] := by
  rw [flushFull]
  by_cases hfull : t.count = logbuffer_size
  · rw [if_pos hfull]
    rcases hone with ⟨hlocal, rfl⟩ | ⟨rfl, hremote⟩
    · have hne : logCheck ≠ 0 := by omega
      rw [if_pos hne, flushBuffer]
      cases is_open with
      | false => simp [Journal.empty]
      | true => simp [Journal.empty, hfull]
    · have hne : logRemote ≠ 0 := by omega
      simp [Journal.empty, hfull, hne]
  · simp [Journal.empty, hfull]

variable (logbuffer_size e is_open) in
/-- What the log block does: the record goes to the next slot, and the buffer, if full,
    to the log server or to the file if it is open. -/
theorem logPacket_one (hone : OneLog logCheck logRemote) (t : ParamThread F) (p : Packet) :
    ∃ t', t' = (t.store (t.slot e logRemote p)).advance p ∧
      (logPacket logbuffer_size e logCheck logRemote is_open t p).1 =
        (if t'.count = logbuffer_size ∧ (logRemote ≠ 0 ∨ is_open = true) then
          { t' with count := 0 } else t') ∧
      (logPacket logbuffer_size e logCheck logRemote is_open t p).2.stored = [t.count] ∧
      (logPacket logbuffer_size e logCheck logRemote is_open t p).2.appended ++
          (logPacket logbuffer_size e logCheck logRemote is_open t p).2.sent =
        if t'.count = logbuffer_size ∧ (logRemote ≠ 0 ∨ is_open = true) then t'.held else [] := by
  refine ⟨_, rfl, ?_⟩
  obtain ⟨hthread, hstored, hwritten⟩ := flushFull_one logbuffer_size is_open hone
    ((t.store (t.slot e logRemote p)).advance p)
  rcases hone with ⟨hlocal, rfl⟩ | ⟨rfl, hremote⟩
  · have hne : logCheck ≠ 0 := by omega
    have hlog : logLocal e logCheck t p = (t.store (t.slot e 0 p),
        ⟨[t.count], [t.writeInBuffer e p (t.logSize p)], [], []⟩) := if_pos hne
    rw [logPacket, if_pos (.inl hne), hlog]
    exact ⟨hthread, congrArg (t.count :: ·) hstored, hwritten⟩
  · have hne : logRemote ≠ 0 := by omega
    have hlog : logToServer e logRemote (logLocal e 0 t p).1 p =
        (t.store (t.slot e logRemote p),
          ⟨[t.count], [t.writeInBuffer e p (t.logSize p)], [], []⟩) := by
      rw [logToServer, if_pos hne, ParamThread.slot, if_neg hne]
      rfl
    rw [logPacket, if_pos (.inr hne)]
    dsimp only
    rw [hlog]
    exact ⟨hthread, congrArg (t.count :: ·) hstored, hwritten⟩

/-- A packet, counted or not, stores `x` to the next slot, which may fill the buffer: the
    thread after it, and what it has written. -/
inductive LogStep (logbuffer_size : ℕ) (t : ParamThread F) (x : Slot F) :
    Bool → ParamThread F → List (Slot F) → Prop
  | skip : LogStep logbuffer_size t x false (t.store x) []
  | store : t.count + 1 ≠ logbuffer_size →
      LogStep logbuffer_size t x true { t.store x with count := t.count + 1 } []
  | flush : t.count + 1 = logbuffer_size →
      LogStep logbuffer_size t x true { t.store x with count := 0 } (t.store x).infos

variable (e) in
/-- The log block makes such a step, if the log is open. -/
theorem logPacket_step (hone : OneLog logCheck logRemote) (hout : logRemote ≠ 0 ∨ is_open = true)
    {t : ParamThread F} (hcount : t.count < logbuffer_size)
    (hinfos : t.infos.length = logbuffer_size) (p : Packet) :
    LogStep logbuffer_size t (t.slot e logRemote p) (t.counts p)
      (logPacket logbuffer_size e logCheck logRemote is_open t p).1
      ((logPacket logbuffer_size e logCheck logRemote is_open t p).2.appended ++
        (logPacket logbuffer_size e logCheck logRemote is_open t p).2.sent) := by
  obtain ⟨t', ht', hthread, -, hwritten⟩ := logPacket_one logbuffer_size e is_open hone t p
  simp only [hout, and_true] at hthread hwritten
  rw [hthread, hwritten, ht', ParamThread.advance]
  have hcounts : (t.store (t.slot e logRemote p)).counts p = t.counts p := rfl
  rw [hcounts]
  cases t.counts p with
  | false =>
    have hne : ¬ (t.store (t.slot e logRemote p)).count = logbuffer_size := hcount.ne
    rw [if_neg Bool.false_ne_true, if_neg hne, if_neg hne]
    exact .skip
  | true =>
    rw [if_pos rfl]
    split_ifs with hfull
    · rw [ParamThread.held, List.take_of_length_le]
      · exact .flush hfull
      · exact (List.length_set.trans hinfos).trans_le (Eq.ge hfull)
    · exact .store hfull

/-- The buffer of a thread, in terms of packets. -/
def TracedThread.batch (s : TracedThread F) : BatchBuffer ℕ := ⟨s.ids, s.thread.count, s.out⟩

/-- Both buffers have their size. -/
structure TracedThread.Sized (logbuffer_size : ℕ) (s : TracedThread F) : Prop where
  infos : s.thread.infos.length = logbuffer_size
  ids : s.ids.length = logbuffer_size

/-- The log block refines logging to a buffer that is flushed when it is full. -/
theorem TracedThread.batch_packet (hone : OneLog logCheck logRemote)
    (hout : logRemote ≠ 0 ∨ is_open = true) {s : TracedThread F} (hs : s.Sized logbuffer_size)
    (hcount : s.thread.count < logbuffer_size) (p : Packet) :
    (s.packet logbuffer_size e logCheck logRemote is_open p).batch =
      s.batch.step logbuffer_size (s.thread.counts p, s.received) := by
  have hstep := logPacket_step e hone hout hcount hs.infos p
  obtain ⟨-, -, -, hstored, -⟩ := logPacket_one logbuffer_size e is_open hone s.thread p
  rw [packet]
  generalize logPacket logbuffer_size e logCheck logRemote is_open s.thread p = r at hstep hstored ⊢
  simp only [batch, put, hstored, List.foldl_cons, List.foldl_nil]
  generalize s.thread.counts p = counts at hstep ⊢
  generalize r.2.appended ++ r.2.sent = written at hstep ⊢
  generalize r.1 = t' at hstep ⊢
  cases hstep with
  | skip => exact BatchBuffer.ext rfl rfl (List.append_nil _)
  | store hne =>
    rw [BatchBuffer.step, if_pos rfl, BatchBuffer.log, if_neg hne]
    exact BatchBuffer.ext rfl rfl (List.append_nil _)
  | flush hfull =>
    rw [BatchBuffer.step, if_pos rfl, BatchBuffer.log, if_pos hfull]
    refine BatchBuffer.ext rfl rfl ?_
    change _ = s.out ++ (s.ids.set s.thread.count s.received).take (s.thread.count + 1)
    rw [hfull]
    exact congrArg (s.out ++ List.take · _) (List.length_set.trans hs.infos)

variable (logbuffer_size e is_open) in
/-- A packet leaves all else as it is. -/
theorem TracedThread.frame_packet (hone : OneLog logCheck logRemote) (s : TracedThread F)
    (p : Packet) :
    (s.Sized logbuffer_size →
      (s.packet logbuffer_size e logCheck logRemote is_open p).Sized logbuffer_size) ∧
      (s.packet logbuffer_size e logCheck logRemote is_open p).thread.counts = s.thread.counts ∧
      (s.packet logbuffer_size e logCheck logRemote is_open p).received = s.received + 1 := by
  obtain ⟨t', ht', hthread, hstored, -⟩ :=
    logPacket_one logbuffer_size e is_open hone s.thread p
  have hkeep : t'.infos.length = s.thread.infos.length ∧ t'.counts = s.thread.counts := by
    rw [ht', ParamThread.advance]
    split_ifs
    · exact ⟨List.length_set, rfl⟩
    · exact ⟨List.length_set, rfl⟩
  refine ⟨fun hs => ⟨?_, ?_⟩, ?_, rfl⟩
  · simp only [packet, put, hthread]
    split_ifs <;> exact hkeep.1.trans hs.infos
  · simp only [packet, put, hstored, List.foldl_cons, List.foldl_nil]
    exact List.length_set.trans hs.ids
  · simp only [packet, put, hthread]
    split_ifs <;> exact hkeep.2

/-! ## Many packets -/

/-- Packets with their numbers, from `k` on, and whether they are counted. -/
def ParamThread.numbered (t : ParamThread F) (k : ℕ) (ps : List Packet) : List (Bool × ℕ) :=
  (ps.map t.counts).zipIdx k

omit [CDouble F] [Inhabited F] in
theorem counted_numbered_nodup (t : ParamThread F) (k : ℕ) (ps : List Packet) :
    (BatchBuffer.counted (t.numbered k ps)).Nodup := by
  have hsub : (BatchBuffer.counted (t.numbered k ps)).Sublist ((t.numbered k ps).map Prod.snd) :=
    List.filter_sublist.map _
  refine List.Nodup.sublist hsub ?_
  rw [ParamThread.numbered, List.zipIdx_map_snd]
  exact List.nodup_range'

omit [CDouble F] [Inhabited F] in
theorem length_counted_numbered (t : ParamThread F) (k : ℕ) (ps : List Packet) :
    (BatchBuffer.counted (t.numbered k ps)).length = ps.countP t.counts := by
  induction ps generalizing k with
  | nil => rfl
  | cons p ps ih =>
    rw [ParamThread.numbered, List.map_cons, List.zipIdx_cons, BatchBuffer.counted_cons,
      List.countP_cons, ← ParamThread.numbered]
    split_ifs
    · rw [List.length_cons, ih]
    · exact ih _

omit [CDouble F] [Inhabited F] in
/-- The packets that are counted. -/
theorem mem_counted_numbered {t : ParamThread F} {ps : List Packet} {i : ℕ} :
    i ∈ BatchBuffer.counted (t.numbered 0 ps) ↔ ∃ p, ps[i]? = some p ∧ t.counts p := by
  rw [BatchBuffer.counted, List.mem_map]
  constructor
  · rintro ⟨⟨b, j⟩, hmem, rfl⟩
    obtain ⟨hmem, hb⟩ := List.mem_filter.1 hmem
    have hj := List.mk_mem_zipIdx_iff_getElem?.1 hmem
    rw [List.getElem?_map, Option.map_eq_some_iff] at hj
    obtain ⟨p, hp, rfl⟩ := hj
    exact ⟨p, hp, hb⟩
  · rintro ⟨p, hp, hcounts⟩
    refine ⟨(true, i), List.mem_filter.2 ⟨?_, rfl⟩, rfl⟩
    rw [ParamThread.numbered, List.mk_mem_zipIdx_iff_getElem?, List.getElem?_map, hp,
      Option.map_some, hcounts]

/-- The packets of a run, in terms of packets. -/
theorem TracedThread.batch_packets (hone : OneLog logCheck logRemote)
    (hout : logRemote ≠ 0 ∨ is_open = true) {s : TracedThread F} (hs : s.Sized logbuffer_size)
    (hcount : s.thread.count < logbuffer_size) (ps : List Packet) :
    (ps.foldl (packet logbuffer_size e logCheck logRemote is_open) s).batch =
      s.batch.run logbuffer_size (s.thread.numbered s.received ps) ∧
    (ps.foldl (packet logbuffer_size e logCheck logRemote is_open) s).Sized logbuffer_size ∧
    (ps.foldl (packet logbuffer_size e logCheck logRemote is_open) s).thread.counts =
      s.thread.counts ∧
    (ps.foldl (packet logbuffer_size e logCheck logRemote is_open) s).received =
      s.received + ps.length := by
  induction ps generalizing s with
  | nil => exact ⟨rfl, hs, rfl, rfl⟩
  | cons p ps ih =>
    have hstep := batch_packet (e := e) hone hout hs hcount p
    obtain ⟨hsized, hcounts, hreceived⟩ :=
      frame_packet logbuffer_size e is_open hone s p
    -- The buffer is never full between two packets.
    have hcount' : (s.packet logbuffer_size e logCheck logRemote is_open p).thread.count <
        logbuffer_size := by
      change (s.packet logbuffer_size e logCheck logRemote is_open p).batch.count < _
      rw [hstep, BatchBuffer.step]
      split_ifs
      · exact BatchBuffer.count_log_lt hcount _
      · exact hcount
    obtain ⟨hrun, hsized', hcounts', hreceived'⟩ := ih (hsized hs) hcount'
    refine ⟨?_, hsized', hcounts'.trans hcounts, ?_⟩
    · rw [List.foldl_cons, hrun, hstep, ParamThread.numbered, hcounts, hreceived]
      rfl
    · rw [List.foldl_cons, hreceived', hreceived, List.length_cons]
      omega

variable (logbuffer_size e) in
/-- Nothing is written if the file is not open, nor if the buffer has no slots. -/
theorem TracedThread.out_packets (hone : OneLog logCheck logRemote) {s : TracedThread F}
    (h : logRemote = 0 ∧ is_open = false ∨ s.ids = []) (ps : List Packet) :
    (ps.foldl (packet logbuffer_size e logCheck logRemote is_open) s).out = s.out ∧
      (s.ids = [] →
        (ps.foldl (packet logbuffer_size e logCheck logRemote is_open) s).ids = []) := by
  induction ps generalizing s with
  | nil => exact ⟨rfl, id⟩
  | cons p ps ih =>
    obtain ⟨t', ht', hthread, hstored, hwritten⟩ :=
      logPacket_one logbuffer_size e is_open hone s.thread p
    have hids : s.ids = [] → (s.packet logbuffer_size e logCheck logRemote is_open p).ids = [] := by
      intro hnil
      simp only [packet, put, hstored, List.foldl_cons, List.foldl_nil, hnil, List.set_nil]
    have hout : (s.packet logbuffer_size e logCheck logRemote is_open p).out = s.out := by
      simp only [packet, put, hstored, List.foldl_cons, List.foldl_nil, hwritten]
      rcases h with ⟨hremote, hclosed⟩ | hnil
      · rw [if_neg (by simp [hremote, hclosed]), List.length_nil, List.take_zero, List.append_nil]
      · rw [hnil, List.set_nil, List.take_nil, List.append_nil]
    obtain ⟨hout', hids'⟩ := ih (h.imp_right hids)
    exact ⟨hout'.trans hout, fun hnil => hids' (hids hnil)⟩

/-! ## The end of the flow -/

omit [CDouble F] [Inhabited F] in
/-- The buffer goes to the file, and is empty, or to the log server, and stays. -/
theorem TracedThread.batch_closedFlow (hone : OneLog logCheck logRemote)
    (hout : logRemote ≠ 0 ∨ is_open = true) {s : TracedThread F} (hs : s.Sized logbuffer_size) :
    (s.closedFlow logCheck logRemote is_open).batch =
        (if logRemote = 0 then s.batch.flush else s.batch.write) ∧
      (s.closedFlow logCheck logRemote is_open).Sized logbuffer_size ∧
      (s.closedFlow logCheck logRemote is_open).thread.counts = s.thread.counts ∧
      (s.closedFlow logCheck logRemote is_open).received = s.received := by
  have hheld : s.ids.take s.thread.held.length = s.batch.held := by
    rw [ParamThread.held, List.length_take, hs.infos, ← hs.ids]
    exact (List.take_eq_take_min ..).symm
  rcases hone with ⟨hlocal, rfl⟩ | ⟨rfl, hremote⟩
  · have hopen : is_open = true := hout.resolve_left fun h => h rfl
    rw [if_pos rfl]
    simp only [closedFlow, put, flushLast, if_pos hlocal, flushBuffer, if_pos hopen,
      Journal.empty, List.append_nil, List.foldl_nil, hheld, and_true]
    exact ⟨rfl, ⟨hs.infos, hs.ids⟩, rfl⟩
  · have hne : ¬ ((0 = 1 ∨ 0 = 2 : Prop)) := by decide
    rw [if_neg (by omega)]
    simp only [closedFlow, put, flushLast, if_neg hne, if_pos hremote, Journal.empty,
      List.nil_append, List.foldl_nil, hheld, and_true]
    exact ⟨rfl, hs.infos, hs.ids⟩

omit [CDouble F] [Inhabited F] in
@[inherit_doc TracedThread.out_packets]
theorem TracedThread.out_closedFlow (hone : OneLog logCheck logRemote) {s : TracedThread F}
    (h : logRemote = 0 ∧ is_open = false ∨ s.ids = []) :
    (s.closedFlow logCheck logRemote is_open).out = s.out ∧
      (s.closedFlow logCheck logRemote is_open).ids = s.ids := by
  have hstored := (flushLast_count logCheck logRemote is_open s.thread).2
  simp only [closedFlow, put, hstored, List.foldl_nil, and_true]
  rcases h with ⟨rfl, rfl⟩ | hnil
  · have hlocal : logCheck = 1 ∨ logCheck = 2 := by
      rcases hone with h | h
      · exact h.1
      · exact absurd h.2 (by decide)
    rw [flushLast, if_pos hlocal, flushBuffer, if_neg Bool.false_ne_true]
    exact List.append_nil _
  · rw [hnil, List.take_nil, List.append_nil]

/-- Without a slot, or a file that is open, no record is written. -/
theorem out_life_eq_nil (hone : OneLog logCheck logRemote)
    (h : logRemote = 0 ∧ is_open = false ∨ logbuffer_size = 0) (t : ParamThread F)
    (before late : List Packet) :
    (TracedThread.life logbuffer_size e logCheck logRemote is_open t before late).out = [] := by
  have hstart : logRemote = 0 ∧ is_open = false ∨
      (TracedThread.start logbuffer_size t).ids = [] := by
    refine h.imp_right fun hsize => ?_
    rw [hsize]
    rfl
  obtain ⟨hbefore, hids⟩ := TracedThread.out_packets logbuffer_size e hone hstart before
  obtain ⟨hclosed, hids'⟩ := TracedThread.out_closedFlow hone (hstart.imp_right hids)
  obtain ⟨hlate, -⟩ := TracedThread.out_packets logbuffer_size e hone
    (hstart.imp_right fun hnil => hids'.trans (hids hnil)) late
  exact hlate.trans (hclosed.trans hbefore)

/-- What the end of a flow makes of the records of its packets, if they can be written. -/
theorem batch_life (hone : OneLog logCheck logRemote) (hout : logRemote ≠ 0 ∨ is_open = true)
    (hsize : 0 < logbuffer_size) (t : ParamThread F) (before late : List Packet) :
    ∃ b : BatchBuffer ℕ, b.contents = BatchBuffer.counted (t.numbered 0 before) ∧
      b.count = before.countP t.counts % logbuffer_size ∧ b.slots.length = logbuffer_size ∧
      (TracedThread.life logbuffer_size e logCheck logRemote is_open t before late).out =
        ((if logRemote = 0 then b.flush else b.write).run logbuffer_size
          (t.numbered before.length late)).out := by
  have hstart : (TracedThread.start logbuffer_size t).Sized logbuffer_size :=
    ⟨List.length_replicate, List.length_replicate⟩
  have hbefore := TracedThread.batch_packets (e := e) hone hout hstart hsize before
  rw [TracedThread.life]
  generalize before.foldl _ (TracedThread.start logbuffer_size t) = s at hbefore ⊢
  obtain ⟨hrun, hsized, hcounts, hreceived⟩ := hbefore
  change s.batch = (TracedThread.start logbuffer_size t).batch.run logbuffer_size
    (t.numbered 0 before) at hrun
  replace hreceived : s.received = before.length := hreceived.trans (Nat.zero_add _)
  obtain ⟨hcontents, hcount, hlen⟩ := BatchBuffer.contents_run
    (b := (TracedThread.start logbuffer_size t).batch) hsize List.length_replicate
    (t.numbered 0 before)
  rw [← hrun] at hcontents hcount hlen
  rw [length_counted_numbered] at hcount
  obtain ⟨hclosed, hsized', hcounts', hreceived'⟩ :=
    TracedThread.batch_closedFlow hone hout hsized
  -- Late packets find the buffer empty, or as it has been sent.
  have hlt : (s.closedFlow logCheck logRemote is_open).batch.count < logbuffer_size := by
    rw [hclosed]
    split_ifs
    · exact hsize
    · exact hcount.trans_lt (Nat.mod_lt _ hsize)
  obtain ⟨hlate, -⟩ := TracedThread.batch_packets (e := e) hone hout hsized' hlt late
  refine ⟨s.batch, hcontents, ?_, hlen, ?_⟩
  · exact hcount.trans (congrArg (· % logbuffer_size) (Nat.zero_add _))
  · change (TracedThread.batch _).out = _
    rw [hlate, hclosed, ParamThread.numbered, hcounts', hcounts, hreceived', hreceived]
    rfl

omit [CDouble F] [Inhabited F] in
/-- The packets before the end of a flow and the late ones are numbered together. -/
theorem counted_numbered_append (t : ParamThread F) (before late : List Packet) :
    BatchBuffer.counted (t.numbered 0 before) ++
        BatchBuffer.counted (t.numbered before.length late) =
      BatchBuffer.counted (t.numbered 0 (before ++ late)) := by
  rw [ParamThread.numbered, ParamThread.numbered, ParamThread.numbered, List.map_append,
    List.zipIdx_append, List.length_map, Nat.zero_add, BatchBuffer.counted,
    BatchBuffer.counted, BatchBuffer.counted,
    List.filter_append, List.map_append]

omit [CDouble F] [Inhabited F] in
theorem handedOnce_nil_iff {t : ParamThread F} {before : List Packet} :
    HandedOnce t before [] ↔ before.countP t.counts = 0 := by
  rw [List.countP_eq_zero]
  constructor
  · intro h p hp hcounts
    obtain ⟨i, hi⟩ := List.mem_iff_getElem?.1 hp
    exact absurd (h.all i p hi hcounts) List.not_mem_nil
  · intro h
    exact ⟨List.nodup_nil, fun i p hp hcounts => absurd hcounts (h p (List.mem_of_getElem? hp))⟩

omit [CDouble F] [Inhabited F] in
/-- What goes on with an empty buffer goes on without a mistake. -/
theorem handedOnce_run {t : ParamThread F} {before late : List Packet} {b : BatchBuffer ℕ}
    (hsize : 0 < logbuffer_size) (hout : b.out = BatchBuffer.counted (t.numbered 0 before))
    (hcount : b.count = 0) (hlen : b.slots.length = logbuffer_size) :
    HandedOnce t before (b.run logbuffer_size (t.numbered before.length late)).out := by
  have hcontents : b.contents = b.out := by
    rw [BatchBuffer.contents, BatchBuffer.held, hcount, List.take_zero, List.append_nil]
  have hrun := (BatchBuffer.contents_run (hcount.trans_lt hsize) hlen
    (t.numbered before.length late)).1
  rw [hcontents, hout, counted_numbered_append] at hrun
  constructor
  · have hnodup := counted_numbered_nodup t 0 (before ++ late)
    rw [← hrun, BatchBuffer.contents] at hnodup
    exact (List.nodup_append.1 hnodup).1
  · intro i p hp hcounts
    refine (BatchBuffer.prefix_out_run logbuffer_size b _).subset ?_
    rw [hout]
    exact mem_counted_numbered.2 ⟨p, hp, hcounts⟩

end Model

/-! ## A late packet -/

/-- A thread of a UDP flow. -/
def udpThread : ParamThread ℚ := ⟨0, .created, l4ProtoUDP, 0, plStandard, 1, .out, 0, []⟩

end Ditg
