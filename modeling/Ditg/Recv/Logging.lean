import Ditg.Library.Transition
import Ditg.Recv.Thread

/-!
# Logging in the receiver process

The process has two variables that say where packets are logged: `logCheck` is 1 with
the option `-l`, and 2 once a sender has asked for a log file (`TSP_SEND_NAME_LOG`);
`logRemote` is 1 with the option `-L`, and 2 once a sender has asked for a log server
(`TSP_SEND_FLOW_LOG`). They belong to the process: what one session sets stays for the
sessions after it. A flow logs to the file of its session at the time it is requested,
which is the stream `out` as long as the session has not asked for another one, and
`out` is open only with the option `-l`.

So a session that asks for a log file leaves `logCheck` on for sessions whose files are
not open, and their buffers are never emptied (`stores_outside`); and a request for a
log file under the option `-L` makes records in network format be written to it
(`network_format_appended`). The end of a session frees the buffers of its threads and
leaves the threads alone: one that goes on receiving packets stores their records in
freed memory, at an index read from the stack of a thread that has ended
(`Receiver.strayed`; nothing is said about what comes after that).

* `stores_inside`: in the runs in which every packet that fills a buffer, with `logCheck`
  on, finds its file open, and no record is built for a flow whose session has ended, all
  records are stored inside the buffers;
* `appended_as_built`: in the runs in which no packet is counted with both variables on,
  all records in local files are as built.
-/

namespace Ditg

open Memory Bytes

/-- `MAX_NUM_THREAD`. -/
def maxNumThread : ℕ := 400

/-! ## The model -/

/-- An entry of the table of log files: how many sessions use it (-1 if it is free), the
    name, and whether its stream is open. -/
structure ManageLogFile where
  num : ℤ
  logFile : List UInt8
  is_open : Bool
  deriving DecidableEq, Repr

/-- A free entry. -/
def ManageLogFile.free : ManageLogFile := ⟨-1, chars " ", false⟩

/-- The entry of the file of a name, and the table: the first one of this name, or else
    the first free one, whose stream is opened. Without either, or if the file cannot be
    opened, the process exits. -/
def allowedLogFile (memLogFile : List ManageLogFile) (logFile : List UInt8) :
    Option (ℕ × List ManageLogFile) :=
  match memLogFile.findIdx? (·.logFile = logFile) with
  | some i => some (i, memLogFile.modify i fun m => { m with num := m.num + 1 })
  | none =>
    (memLogFile.findIdx? (·.num = -1)).map fun i =>
      (i, memLogFile.modify i fun _ => ⟨1, logFile, true⟩)

/-- The table when a session leaves its log file: with its last one, the file is closed. -/
def closeFileLog (memLogFile : List ManageLogFile) : LogFile → List ManageLogFile
  | .out => memLogFile
  | .mem i => memLogFile.modify i fun m =>
    if m.num - 1 = 0 then .free else { m with num := m.num - 1 }

/-- A session with a sender, and its log file. -/
structure RecvSession where
  fileDescriptor : LogFile
  live : Bool
  deriving DecidableEq, Repr

/-- The process. -/
structure Receiver (F : Type) where
  logCheck : ℕ
  logRemote : ℕ
  /-- The stream `out` is open. -/
  outOpen : Bool
  memLogFile : List ManageLogFile
  sessions : List RecvSession
  threads : List (ParamThread F)
  journal : Journal F
  /-- A thread has stored a record after the end of its session. -/
  strayed : Bool

/-- What may happen next. -/
inductive RecvAction
  /-- A sender connects. -/
  | connect
  /-- In a session, a request to log to a local file. -/
  | sendNameLog (session : ℕ) (nameFile : List UInt8)
  /-- In a session, a request to log to a log server. -/
  | sendFlowLog (session : ℕ)
  /-- In a session, a request for a flow. -/
  | sendFlow (session : ℕ) (l4Proto l7Proto payloadLogType : UInt8) (flowId : UInt32)
  /-- The thread of a flow starts. -/
  | start (thread : ℕ)
  /-- It receives a packet. -/
  | packet (thread : ℕ) (p : Packet)
  /-- The end of its flow. -/
  | closedFlow (thread : ℕ)
  /-- It is terminated. -/
  | terminate (thread : ℕ)
  /-- The end of a session. -/
  | release (session : ℕ)

section Process

variable {F : Type} [CDouble F] [Inhabited F] (logbuffer_size : ℕ) (e : Endian)

/-- The process after its command line, with or without the options `-l` and `-L`: a
    local log file gives way to a log server. -/
def Receiver.start (l L : Bool) : Receiver F where
  logCheck := if l ∧ ¬L then 1 else 0
  logRemote := if L then 1 else 0
  outOpen := l ∧ ¬L
  memLogFile := List.replicate maxNumThread .free
  sessions := []
  threads := []
  journal := .empty
  strayed := false

/-- The stream of a log file is open. -/
def Receiver.is_open (s : Receiver F) : LogFile → Bool
  | .out => s.outOpen
  | .mem i => s.memLogFile[i]?.any (·.is_open)

/-- A session that has not ended. -/
def Receiver.session? (s : Receiver F) (i : ℕ) : Option RecvSession :=
  s.sessions[i]?.filter (·.live)

/-- A thread where `pc` says. -/
def Receiver.thread? (s : Receiver F) (j : ℕ) (pc : ThreadPc) : Option (ParamThread F) :=
  s.threads[j]?.filter (·.pc = pc)

/-- The process after a thread has done something. -/
def Receiver.put (s : Receiver F) (j : ℕ) (r : ParamThread F × Journal F) : Receiver F :=
  { s with threads := s.threads.set j r.1, journal := s.journal.append r.2 }

/-- A thread when the session `i` ends: what has not been terminated goes on without its
    buffer. -/
def ParamThread.leave (i : ℕ) (t : ParamThread F) : ParamThread F :=
  if t.session = i ∧ t.pc ≠ .ended then { t with pc := .orphan } else t

/-- One step, if it is possible. -/
def Receiver.act (s : Receiver F) : RecvAction → Option (Receiver F)
  | .connect => some { s with sessions := s.sessions ++ [⟨.out, true⟩] }
  | .sendNameLog i nameFile => do
    let session ← s.session? i
    if s.logCheck ≠ 1 then
      let (k, memLogFile) ← allowedLogFile s.memLogFile nameFile
      -- No step sets `logCheck` back.
      return { s with
        logCheck := 2
        memLogFile := memLogFile
        sessions := s.sessions.set i { session with fileDescriptor := .mem k } }
    else return { s with sessions := s.sessions.set i { session with fileDescriptor := .out } }
  | .sendFlowLog i => do
    let _ ← s.session? i
    return { s with logRemote := if s.logRemote ≠ 1 then 2 else s.logRemote }
  | .sendFlow i l4Proto l7Proto payloadLogType flowId => do
    let session ← s.session? i
    let t : ParamThread F :=
      ⟨i, .created, l4Proto, l7Proto, payloadLogType, flowId, session.fileDescriptor, 0, []⟩
    return { s with threads := s.threads ++ [t] }
  | .start j => do
    let t ← s.thread? j .created
    let t := { t with pc := .running, count := 0, infos := List.replicate logbuffer_size default }
    return s.put j (t, .empty)
  | .packet j p => do
    let t ← s.threads[j]?
    match t.pc with
    | .running =>
      return s.put j (logPacket logbuffer_size e s.logCheck s.logRemote (s.is_open t.fileLog) t p)
    | .orphan => return { s with strayed := s.logCheck ≠ 0 ∨ s.logRemote ≠ 0 }
    | _ => none
  | .closedFlow j => do
    let t ← s.thread? j .running
    return s.put j (flushLast s.logCheck s.logRemote (s.is_open t.fileLog) t)
  | .terminate j => do
    let t ← s.threads[j]?
    -- Only the session of a thread terminates it.
    if t.pc = .orphan then none else return s.put j ({ t with pc := .ended }, .empty)
  | .release i => do
    let session ← s.session? i
    return { s with
      memLogFile :=
        if s.logCheck = 2 then closeFileLog s.memLogFile session.fileDescriptor
        else s.memLogFile
      sessions := s.sessions.set i { session with live := false }
      threads := s.threads.map (·.leave i) }

/-- One step of a process that has not stored a record in freed memory. -/
def Receiver.step (s : Receiver F) (a : RecvAction) : Option (Receiver F) :=
  if s.strayed then none else s.act logbuffer_size e a

/-- The process, from its start with any options. -/
def receiver : Transition (Receiver F) RecvAction where
  init s := ∃ l L, s = .start l L
  step := Receiver.step logbuffer_size e

/-! ## What a step can do -/

variable {logbuffer_size e}

/-- What a thread does in a step, given the variables of the process. -/
inductive ThreadStep (logbuffer_size : ℕ) (e : Endian) (s : Receiver F) (t : ParamThread F) :
    RecvAction → ParamThread F × Journal F → Prop
  | start (j : ℕ) : ThreadStep logbuffer_size e s t (.start j)
      ({ t with
        pc := .running
        count := 0
        infos := List.replicate logbuffer_size default }, .empty)
  | packet (j : ℕ) (p : Packet) : s.threads[j]? = some t → t.pc = .running →
      ThreadStep logbuffer_size e s t (.packet j p)
        (logPacket logbuffer_size e s.logCheck s.logRemote (s.is_open t.fileLog) t p)
  | closedFlow (j : ℕ) : t.pc = .running → ThreadStep logbuffer_size e s t (.closedFlow j)
      (flushLast s.logCheck s.logRemote (s.is_open t.fileLog) t)
  | terminate (j : ℕ) : ThreadStep logbuffer_size e s t (.terminate j)
      ({ t with pc := .ended }, .empty)

variable {s s' : Receiver F} {a : RecvAction}

omit [CDouble F] [Inhabited F] in
theorem thread?_eq_some {j : ℕ} {pc : ThreadPc} {t : ParamThread F}
    (h : s.thread? j pc = some t) : s.threads[j]? = some t ∧ t.pc = pc := by
  rw [Receiver.thread?, Option.filter_eq_some_iff] at h
  exact ⟨h.1, of_decide_eq_true h.2⟩

/-- What a step does to the process. -/
inductive Receiver.Effect (logbuffer_size : ℕ) (e : Endian) (s : Receiver F) (a : RecvAction) :
    Receiver F → Prop
  /-- A sender connects, asks for a log or leaves: threads may become orphans. -/
  | request (s' : Receiver F) (f : ParamThread F → ParamThread F) :
      s'.threads = s.threads.map f → (∀ t, f t = t ∨ f t = { t with pc := .orphan }) →
      s'.journal = s.journal → s'.strayed = s.strayed → s'.outOpen = s.outOpen →
      (s'.logCheck = 0 → (∀ x ∈ s.sessions, x.fileDescriptor = .out) →
        ∀ x ∈ s'.sessions, x.fileDescriptor = .out) →
      (s'.logCheck = s.logCheck ∧ s'.logRemote = s.logRemote ∨
        (∃ i nameFile, a = .sendNameLog i nameFile) ∧ s'.logCheck = 2 ∧
          s'.logRemote = s.logRemote ∨
        s'.logCheck = s.logCheck ∧ s'.logRemote ≠ 0) → Effect logbuffer_size e s a s'
  /-- There is a new thread. -/
  | create (t : ParamThread F) : t.pc = .created → t.count = 0 →
      (∃ x ∈ s.sessions, t.fileLog = x.fileDescriptor) →
      Effect logbuffer_size e s a { s with threads := s.threads ++ [t] }
  /-- A thread does something. -/
  | thread (j : ℕ) (t : ParamThread F) (r : ParamThread F × Journal F) : t ∈ s.threads →
      ThreadStep logbuffer_size e s t a r → Effect logbuffer_size e s a (s.put j r)
  /-- An orphan gets a packet. -/
  | orphan (j : ℕ) (p : Packet) (t : ParamThread F) : a = .packet j p → s.threads[j]? = some t →
      t.pc = .orphan →
      Effect logbuffer_size e s a { s with strayed := s.logCheck ≠ 0 ∨ s.logRemote ≠ 0 }

omit [CDouble F] [Inhabited F] in
theorem leave_eq (i : ℕ) (t : ParamThread F) :
    t.leave i = t ∨ t.leave i = { t with pc := .orphan } := by
  rw [ParamThread.leave]
  split_ifs
  · exact .inr rfl
  · exact .inl rfl

/-- A request that leaves the threads as they are. -/
theorem Receiver.Effect.of_threads_eq (ht : s'.threads = s.threads) (hj : s'.journal = s.journal)
    (hstrayed : s'.strayed = s.strayed) (hout : s'.outOpen = s.outOpen)
    (hfiles : s'.logCheck = 0 → (∀ x ∈ s.sessions, x.fileDescriptor = .out) →
      ∀ x ∈ s'.sessions, x.fileDescriptor = .out)
    (hlog : s'.logCheck = s.logCheck ∧ s'.logRemote = s.logRemote ∨
      (∃ i nameFile, a = .sendNameLog i nameFile) ∧ s'.logCheck = 2 ∧
        s'.logRemote = s.logRemote ∨
      s'.logCheck = s.logCheck ∧ s'.logRemote ≠ 0) : s.Effect logbuffer_size e a s' :=
  .request s' id (by rw [ht, List.map_id]) (fun _ => .inl rfl) hj hstrayed hout hfiles hlog

/-- What a step can do. -/
theorem step_cases (h : s.step logbuffer_size e a = some s') :
    s.strayed = false ∧ s.Effect logbuffer_size e a s' := by
  rw [Receiver.step] at h
  split_ifs at h with hstrayed
  refine ⟨Bool.eq_false_iff.2 hstrayed, ?_⟩
  cases a with
  | connect =>
    cases h
    refine .of_threads_eq rfl rfl rfl rfl (fun _ hfiles x hx => ?_) (.inl ⟨rfl, rfl⟩)
    rcases List.mem_append.1 hx with hx | hx
    · exact hfiles x hx
    · rw [List.mem_singleton.1 hx]
  | sendNameLog i nameFile =>
    simp only [Receiver.act, Option.bind_eq_bind, Option.bind_eq_some_iff] at h
    obtain ⟨session, -, h⟩ := h
    split_ifs at h
    · obtain ⟨⟨k, tbl⟩, -, h⟩ := Option.bind_eq_some_iff.1 h
      cases h
      exact .of_threads_eq rfl rfl rfl rfl (fun h0 => absurd h0 two_ne_zero)
        (.inr (.inl ⟨⟨i, nameFile, rfl⟩, rfl, rfl⟩))
    · cases h
      refine .of_threads_eq rfl rfl rfl rfl (fun _ hfiles x hx => ?_) (.inl ⟨rfl, rfl⟩)
      rcases List.mem_or_eq_of_mem_set hx with hx | rfl
      · exact hfiles x hx
      · rfl
  | sendFlowLog i =>
    obtain ⟨session, -, h⟩ := Option.bind_eq_some_iff.1 h
    cases h
    refine .of_threads_eq rfl rfl rfl rfl (fun _ hfiles => hfiles) (.inr (.inr ⟨rfl, ?_⟩))
    simp only
    split_ifs with h1 <;> omega
  | sendFlow i l4Proto l7Proto payloadLogType flowId =>
    obtain ⟨session, hsession, h⟩ := Option.bind_eq_some_iff.1 h
    cases h
    obtain ⟨hget, -⟩ := Option.filter_eq_some_iff.1 hsession
    exact .create _ rfl rfl ⟨session, List.mem_of_getElem? hget, rfl⟩
  | start j =>
    obtain ⟨t, ht, h⟩ := Option.bind_eq_some_iff.1 h
    cases h
    exact .thread j t _ (List.mem_of_getElem? (thread?_eq_some ht).1) (.start j)
  | packet j p =>
    obtain ⟨t, ht, h⟩ := Option.bind_eq_some_iff.1 h
    cases hpc : t.pc <;> rw [hpc] at h <;> cases h
    · exact .thread j t _ (List.mem_of_getElem? ht) (.packet j p ht hpc)
    · exact .orphan j p t rfl ht hpc
  | closedFlow j =>
    obtain ⟨t, ht, h⟩ := Option.bind_eq_some_iff.1 h
    cases h
    obtain ⟨ht, hpc⟩ := thread?_eq_some ht
    exact .thread j t _ (List.mem_of_getElem? ht) (.closedFlow j hpc)
  | terminate j =>
    obtain ⟨t, ht, h⟩ := Option.bind_eq_some_iff.1 h
    split_ifs at h
    cases h
    exact .thread j t _ (List.mem_of_getElem? ht) (.terminate j)
  | release i =>
    obtain ⟨session, hsession, h⟩ := Option.bind_eq_some_iff.1 h
    cases h
    obtain ⟨hget, -⟩ := Option.filter_eq_some_iff.1 hsession
    refine .request _ (·.leave i) rfl (leave_eq i) rfl rfl rfl (fun _ hfiles x hx => ?_)
      (.inl ⟨rfl, rfl⟩)
    rcases List.mem_or_eq_of_mem_set hx with hx | rfl
    · exact hfiles x hx
    · exact hfiles session (List.mem_of_getElem? hget)

/-! ## Stores stay inside the buffers -/

/-- All records have been stored inside the buffers. -/
def StoresInside (logbuffer_size : ℕ) (s : Receiver F) : Prop :=
  s.strayed = false ∧ ∀ i ∈ s.journal.stored, i < logbuffer_size

/-- A packet that fills the buffer of its thread, with `logCheck` on, finds the log file
    of the thread open, and no record is built of a packet that an orphan gets. -/
def FillsOpen (logbuffer_size : ℕ) (s : Receiver F) : RecvAction → Prop
  | .packet j p => ∀ t, s.threads[j]? = some t →
      (t.pc = .running → s.logCheck ≠ 0 → t.counts p → t.count + 1 = logbuffer_size →
        s.is_open t.fileLog) ∧
      (t.pc = .orphan → s.logCheck = 0 ∧ s.logRemote = 0)
  | _ => True

instance : ∀ (s : Receiver F) a, Decidable (FillsOpen logbuffer_size s a)
  | s, .packet j p => inferInstanceAs (Decidable (∀ t ∈ s.threads[j]?,
      (t.pc = .running → s.logCheck ≠ 0 → t.counts p → t.count + 1 = logbuffer_size →
        s.is_open t.fileLog) ∧ (t.pc = .orphan → s.logCheck = 0 ∧ s.logRemote = 0)))
  | _, .connect | _, .sendNameLog _ _ | _, .sendFlowLog _ | _, .sendFlow _ _ _ _ _ | _, .start _
  | _, .closedFlow _ | _, .terminate _ | _, .release _ => isTrue trivial

/-- Counters stay inside the buffers too. -/
def BoundInv (logbuffer_size : ℕ) (s : Receiver F) : Prop :=
  (∀ t ∈ s.threads, t.count < logbuffer_size) ∧ StoresInside logbuffer_size s

theorem BoundInv.thread (hL : 0 < logbuffer_size) {t : ParamThread F}
    {r : ParamThread F × Journal F} (ht : t.count < logbuffer_size)
    (hr : ThreadStep logbuffer_size e s t a r) (hP : FillsOpen logbuffer_size s a) :
    r.1.count < logbuffer_size ∧ ∀ i ∈ r.2.stored, i < logbuffer_size := by
  cases hr with
  | start j => exact ⟨hL, fun i hi => absurd hi List.not_mem_nil⟩
  | packet j p hj hpc => exact logPacket_bounded ht ((hP t hj).1 hpc)
  | closedFlow j hpc =>
    obtain ⟨hc, hs⟩ := flushLast_count s.logCheck s.logRemote (s.is_open t.fileLog) t
    exact ⟨hc.trans_lt ht, fun i hi => absurd (hs ▸ hi) List.not_mem_nil⟩
  | terminate j => exact ⟨ht, fun i hi => absurd hi List.not_mem_nil⟩

/-- A step that meets the condition stores inside the buffers. -/
theorem BoundInv.step (hL : 0 < logbuffer_size) (hs : BoundInv logbuffer_size s)
    (hP : FillsOpen logbuffer_size s a) (h : s.Effect logbuffer_size e a s') :
    BoundInv logbuffer_size s' := by
  obtain ⟨hcount, hstrayed, hstored⟩ := hs
  cases h with
  | request _ f ht hf hj hs' _ _ _ =>
    -- Nothing is stored, and the counters stay.
    refine ⟨fun t' ht' => ?_, hs'.trans hstrayed, hj ▸ hstored⟩
    rw [ht] at ht'
    obtain ⟨t, hmem, rfl⟩ := List.mem_map.1 ht'
    have hkeeps : (f t).count = t.count := by
      rcases hf t with h | h <;> rw [h]
    exact hkeeps ▸ hcount t hmem
  | create t hpc hc =>
    refine ⟨fun t' ht' => ?_, hstrayed, hstored⟩
    rcases List.mem_append.1 ht' with ht' | ht'
    · exact hcount t' ht'
    · rw [List.mem_singleton.1 ht', hc]
      exact hL
  | thread j t r hmem hr =>
    obtain ⟨hc, hs⟩ := BoundInv.thread hL (hcount t hmem) hr hP
    refine ⟨fun t' ht' => ?_, hstrayed, fun i hi => ?_⟩
    · rcases List.mem_or_eq_of_mem_set ht' with ht' | rfl
      · exact hcount t' ht'
      · exact hc
    · rcases List.mem_append.1 hi with hi | hi
      · exact hstored i hi
      · exact hs i hi
  | orphan j p t ha hj hpc =>
    subst ha
    obtain ⟨hcheck, hremote⟩ := (hP t hj).2 hpc
    refine ⟨hcount, ?_, hstored⟩
    simp only [hcheck, hremote, ne_eq, not_true_eq_false, or_self, decide_false]

/-- In the runs in which every packet that fills a buffer, with `logCheck` on, finds the
    log file open, and no record is built for a flow whose session has ended, all records
    are stored inside the buffers. -/
theorem stores_inside (hL : 0 < logbuffer_size)
    (h : (receiver logbuffer_size e).ReachVia (FillsOpen logbuffer_size) s) :
    StoresInside logbuffer_size s := by
  have hinit (s : Receiver F) (hs : (receiver logbuffer_size e).init s) :
      BoundInv logbuffer_size s := by
    obtain ⟨l, L, rfl⟩ := hs
    exact ⟨fun t ht => absurd ht List.not_mem_nil, rfl, fun i hi => absurd hi List.not_mem_nil⟩
  exact (h.invariant hinit fun s a s' hs hP hstep => hs.step hL hP (step_cases hstep).2).2

/-! ## Local files get records as built -/

/-- All records written to local files are as built. -/
def AppendedAsBuilt (s : Receiver F) : Prop :=
  ∀ x ∈ s.journal.appended, x.AsBuilt s.journal.built

/-- The log file of a thread is not the stream `out` of a process that has not opened it. -/
def Receiver.Writes (s : Receiver F) (t : ParamThread F) : Prop :=
  t.fileLog = .out → s.outOpen

instance (s : Receiver F) (t : ParamThread F) : Decidable (s.Writes t) :=
  inferInstanceAs (Decidable (_ → _))

/-- A packet that is counted, for a thread that can write its file, does not find both
    variables on. -/
def NotMixed (s : Receiver F) : RecvAction → Prop
  | .packet j p => ∀ t, s.threads[j]? = some t → t.pc = .running → s.Writes t → t.counts p →
      s.logCheck ≠ 0 → s.logRemote = 0
  | _ => True

instance : ∀ (s : Receiver F) a, Decidable (NotMixed s a)
  | s, .packet j p => inferInstanceAs (Decidable (∀ t ∈ s.threads[j]?, t.pc = .running →
      s.Writes t → t.counts p → s.logCheck ≠ 0 → s.logRemote = 0))
  | _, .connect | _, .sendNameLog _ _ | _, .sendFlowLog _ | _, .sendFlow _ _ _ _ _ | _, .start _
  | _, .closedFlow _ | _, .terminate _ | _, .release _ => isTrue trivial

/-- Until `logCheck` is turned on, all log files are the stream `out`, which is not open. -/
def FilesInv (s : Receiver F) : Prop :=
  s.logCheck = 0 → s.outOpen = false ∧ (∀ x ∈ s.sessions, x.fileDescriptor = .out) ∧
    ∀ t ∈ s.threads, t.fileLog = .out

/-- A thread keeps its log file. -/
theorem ThreadStep.fileLog_eq {t : ParamThread F} {r : ParamThread F × Journal F}
    (hr : ThreadStep logbuffer_size e s t a r) : r.1.fileLog = t.fileLog := by
  cases hr with
  | start j => rfl
  | packet j p => exact logPacket_fileLog ..
  | closedFlow j => exact flushLast_fileLog ..
  | terminate j => rfl

theorem FilesInv.step (hs : FilesInv s) (h : s.Effect logbuffer_size e a s') : FilesInv s' := by
  cases h with
  | request _ f ht hf hj hs' hout hfiles hlog =>
    intro h0
    have h0' : s.logCheck = 0 := by
      rcases hlog with ⟨hc, -⟩ | ⟨-, hc, -⟩ | ⟨hc, -⟩
      · exact hc ▸ h0
      · omega
      · exact hc ▸ h0
    obtain ⟨hclosed, hsessions, hthreads⟩ := hs h0'
    refine ⟨hout.trans hclosed, hfiles h0 hsessions, fun t' ht' => ?_⟩
    rw [ht] at ht'
    obtain ⟨t, hmem, rfl⟩ := List.mem_map.1 ht'
    have hkeeps : (f t).fileLog = t.fileLog := by
      rcases hf t with h | h <;> rw [h]
    exact hkeeps.trans (hthreads t hmem)
  | create t hpc hc hfile =>
    intro h0
    obtain ⟨hclosed, hsessions, hthreads⟩ := hs h0
    refine ⟨hclosed, hsessions, fun t' ht' => ?_⟩
    rcases List.mem_append.1 ht' with ht' | ht'
    · exact hthreads t' ht'
    · obtain ⟨x, hx, hfile⟩ := hfile
      rw [List.mem_singleton.1 ht', hfile, hsessions x hx]
  | thread j t r hmem hr =>
    intro h0
    obtain ⟨hclosed, hsessions, hthreads⟩ := hs h0
    refine ⟨hclosed, hsessions, fun t' ht' => ?_⟩
    rcases List.mem_or_eq_of_mem_set ht' with ht' | rfl
    · exact hthreads t' ht'
    · exact hr.fileLog_eq.trans (hthreads t hmem)
  | orphan j p t ha hj hpc => exact hs

/-- Records that may go to a file next are as built. -/
def Receiver.HoldsBuilt (s : Receiver F) (t : ParamThread F) : Prop :=
  (s.logCheck ≠ 0 ∨ s.logRemote = 0) → t.pc = .running → s.Writes t →
    ∀ x ∈ t.held, x.AsBuilt s.journal.built

/-- So are those in the buffers, as long as they may go to a file. -/
def BuiltInv (s : Receiver F) : Prop :=
  AppendedAsBuilt s ∧ ∀ t ∈ s.threads, s.HoldsBuilt t

omit [CDouble F] [Inhabited F] in
theorem asBuilt_append {built : List (Info F)} {x : Slot F} (h : x.AsBuilt built)
    (built' : List (Info F)) : x.AsBuilt (built ++ built') :=
  ⟨h.1, List.mem_append_left _ h.2⟩

omit [CDouble F] [Inhabited F] in
/-- The file of a thread that cannot write it is not open. -/
theorem is_open_of_not_writes {t : ParamThread F} (h : ¬s.Writes t) :
    s.is_open t.fileLog = false := by
  obtain ⟨hout, hopen⟩ := not_forall.1 h
  rw [hout, Receiver.is_open, Bool.eq_false_iff]
  exact hopen

omit [CDouble F] [Inhabited F] in
/-- A thread that keeps its file, writes nothing to a file that is not open, and otherwise
    only holds and writes what it has held or built, keeps to records as built. -/
theorem Receiver.HoldsBuilt.put {t : ParamThread F} {r : ParamThread F × Journal F}
    (ht : s.HoldsBuilt t) (hpc : t.pc = .running) (hfile : r.1.fileLog = t.fileLog)
    (happ : (s.logCheck ≠ 0 → s.is_open t.fileLog = false) → r.2.appended = [])
    (hmem : (s.logCheck ≠ 0 ∨ s.logRemote = 0) → s.Writes t →
      ∀ x, x ∈ r.1.held ∨ x ∈ r.2.appended → x ∈ t.held ∨ x.AsBuilt r.2.built) (j : ℕ) :
    (∀ x ∈ r.2.appended, x.AsBuilt (s.journal.built ++ r.2.built)) ∧
      (s.put j r).HoldsBuilt r.1 := by
  have hbuilt (hlog : s.logCheck ≠ 0 ∨ s.logRemote = 0) (hw : s.Writes t) (x : Slot F)
      (hx : x ∈ r.1.held ∨ x ∈ r.2.appended) : x.AsBuilt (s.journal.built ++ r.2.built) := by
    rcases hmem hlog hw x hx with hx | hx
    · exact asBuilt_append (ht hlog hpc hw x hx) _
    · exact ⟨hx.1, List.mem_append_right _ hx.2⟩
  refine ⟨fun x hx => ?_, fun hlog _ hw x hx =>
    hbuilt hlog (fun h => hw (hfile.trans h)) x (.inl hx)⟩
  -- Something is appended, so the file is written and is open.
  have happ' := mt happ (List.ne_nil_of_mem hx)
  have hw : s.Writes t := by
    by_contra hw
    exact happ' fun _ => is_open_of_not_writes hw
  exact hbuilt (.inl fun hcheck => happ' fun h => absurd hcheck h) hw x (.inr hx)

/-- What a thread writes, and what it holds after a step, is as built. -/
theorem BuiltInv.thread {t : ParamThread F} {r : ParamThread F × Journal F}
    (ht : s.HoldsBuilt t) (hr : ThreadStep logbuffer_size e s t a r) (hP : NotMixed s a) (j : ℕ) :
    (∀ x ∈ r.2.appended, x.AsBuilt (s.journal.built ++ r.2.built)) ∧
      (s.put j r).HoldsBuilt r.1 := by
  cases hr with
  | start k =>
    refine ⟨fun x hx => absurd hx List.not_mem_nil, fun _ _ _ x hx => ?_⟩
    exact absurd hx (by simp [ParamThread.held])
  | packet k p hk hpc =>
    refine ht.put hpc (logPacket_fileLog ..) (logPacket_appended _ _ _ · _ _) ?_ j
    intro hlog hw x
    refine logPacket_asBuilt _ _ _ _ fun hremote => ?_
    by_contra hcounts
    exact hremote (hP t hk hpc hw (by simpa using hcounts) (hlog.resolve_right hremote))
  | closedFlow k hpc =>
    refine ht.put hpc (flushLast_fileLog ..) (flushLast_appended _ · _) ?_ j
    obtain ⟨hheld, happ, -⟩ := flushLast_mem s.logCheck s.logRemote (s.is_open t.fileLog) t
    exact fun _ _ x hx => .inl (hx.elim (hheld x) (happ x))
  | terminate k => exact ⟨fun x hx => absurd hx List.not_mem_nil, fun _ hpc => by cases hpc⟩

omit [CDouble F] [Inhabited F] in
/-- A request does not make records go to files that are not as built. -/
theorem Receiver.HoldsBuilt.request {t : ParamThread F} (ht : s.HoldsBuilt t)
    (hmem : t ∈ s.threads) (hfiles : FilesInv s) (hout : s'.outOpen = s.outOpen)
    (hj : s'.journal = s.journal)
    (hlog : s'.logCheck = s.logCheck ∧ s'.logRemote = s.logRemote ∨
      (∃ i nameFile, a = .sendNameLog i nameFile) ∧ s'.logCheck = 2 ∧
        s'.logRemote = s.logRemote ∨
      s'.logCheck = s.logCheck ∧ s'.logRemote ≠ 0) : s'.HoldsBuilt t := by
  intro hlog' hpc hw
  rw [hj]
  replace hw : s.Writes t := fun h => hout.symm.trans (hw h)
  by_cases hlog₀ : s.logCheck ≠ 0 ∨ s.logRemote = 0
  · exact ht hlog₀ hpc hw
  · obtain ⟨hcheck, hremote⟩ := not_or.1 hlog₀
    rcases hlog with ⟨hc, hr⟩ | - | ⟨hc, hr⟩
    · exact absurd (hc ▸ hr ▸ hlog') hlog₀
    · -- `logCheck` is turned on, but the thread cannot write its file.
      obtain ⟨hclosed, -, hthreads⟩ := hfiles (not_not.1 hcheck)
      exact absurd (hclosed.symm.trans (hw (hthreads t hmem))) Bool.false_ne_true
    · exact absurd hlog' (not_or.2 ⟨hc ▸ hcheck, hr⟩)

/-- A step that meets the condition appends records as built. -/
theorem BuiltInv.step (hs : BuiltInv s) (hfiles : FilesInv s) (hP : NotMixed s a)
    (h : s.Effect logbuffer_size e a s') : BuiltInv s' := by
  obtain ⟨happended, hholds⟩ := hs
  cases h with
  | request _ f ht hf hj hs' hout _ hlog =>
    -- A request may turn `logCheck` on, for all threads.
    refine ⟨by rw [AppendedAsBuilt, hj]; exact happended, fun t' ht' => ?_⟩
    rw [ht] at ht'
    obtain ⟨t, hmem, rfl⟩ := List.mem_map.1 ht'
    rcases hf t with h | h <;> rw [h]
    · exact (hholds t hmem).request hmem hfiles hout hj hlog
    · exact fun _ hpc => by cases hpc
  | create t₀ hpc₀ hc₀ =>
    refine ⟨happended, fun t hmem => ?_⟩
    rcases List.mem_append.1 hmem with hmem | hmem
    · exact hholds t hmem
    · -- The new thread does not run yet.
      rw [List.mem_singleton.1 hmem]
      exact fun _ hpc => absurd (hpc₀.symm.trans hpc) (by decide)
  | thread j t₀ r hmem₀ hr =>
    obtain ⟨happ, hheld⟩ := BuiltInv.thread (hholds t₀ hmem₀) hr hP j
    refine ⟨fun x hx => ?_, fun t hmem => ?_⟩
    · rcases List.mem_append.1 hx with hx | hx
      · exact asBuilt_append (happended x hx) _
      · exact happ x hx
    · rcases List.mem_or_eq_of_mem_set hmem with hmem | rfl
      · exact fun hlog hpc hw x hx => asBuilt_append (hholds t hmem hlog hpc hw x hx) _
      · exact hheld
  | orphan j p t ha hj hpc => exact ⟨happended, hholds⟩

/-- In the runs in which no packet is counted with both variables on, all records in local
    files are as built. -/
theorem appended_as_built (h : (receiver logbuffer_size e).ReachVia NotMixed s) :
    AppendedAsBuilt s := by
  have hinit (s : Receiver F) (hs : (receiver logbuffer_size e).init s) :
      FilesInv s ∧ BuiltInv s := by
    obtain ⟨l, L, rfl⟩ := hs
    refine ⟨fun h0 => ⟨?_, fun x hx => absurd hx List.not_mem_nil, fun t ht =>
      absurd ht List.not_mem_nil⟩, fun x hx => absurd hx List.not_mem_nil, fun t ht =>
      absurd ht List.not_mem_nil⟩
    revert h0
    cases l <;> cases L <;> simp [Receiver.start]
  obtain ⟨-, hbuilt, -⟩ := h.invariant hinit fun s a s' hs hP hstep =>
    ⟨hs.1.step (step_cases hstep).2, hs.2.step hs.1 hP (step_cases hstep).2⟩
  exact hbuilt

end Process

/-! ## Sessions that leave `logCheck` on -/

/-- A process with buffers for one record, on a little-endian host. -/
abbrev smallReceiver : Transition (Receiver ℚ) RecvAction := receiver 1 .little

/-- A session asks for a log file and ends; the next one asks for a flow, without a log
    file, and the second packet of that flow is stored past the end of its buffer. And a
    session ends before its flow does, which goes on logging. -/
theorem stores_outside : (¬∀ s, smallReceiver.Reachable s → ∀ i ∈ s.journal.stored, i < 1) ∧
    ¬∀ s, smallReceiver.Reachable s → s.strayed = false := by
  refine ⟨fun hall => ?_, fun hall => ?_⟩
  · have hrun : (smallReceiver.run (.start false false) [.connect, .sendNameLog 0 (chars "a"),
        .release 0, .connect, .sendFlow 1 l4ProtoUDP 0 plStandard 0, .start 0,
        .packet 0 default, .packet 0 default]).any (·.journal.stored = [0, 1]) := by decide +kernel
    obtain ⟨s, hs, hstored⟩ := (Option.any_eq_true _ _).1 hrun
    have hinit : smallReceiver.init (.start false false) := ⟨false, false, rfl⟩
    have hinside := hall s (.run (.init hinit) hs)
    rw [of_decide_eq_true hstored] at hinside
    exact absurd (hinside 1 (by decide)) (by decide)
  · have hrun : (smallReceiver.run (.start true false) [.connect,
        .sendFlow 0 l4ProtoUDP 0 plStandard 0, .start 0, .release 0, .packet 0 default]).any
        (·.strayed) := by decide +kernel
    obtain ⟨s, hs, hstrayed⟩ := (Option.any_eq_true _ _).1 hrun
    have hinit : smallReceiver.init (.start true false) := ⟨true, false, rfl⟩
    have hinside := hall s (.run (.init hinit) hs)
    exact absurd (hstrayed.symm.trans hinside) (by decide)

/-- With the option `-l` the buffer is written at every packet, in a session and in the next
    one, which starts after the flow of the first one has been closed. -/
theorem stores_inside_two : ∃ s, smallReceiver.ReachVia (FillsOpen 1) s ∧
    s.journal.stored = [0, 0, 0] ∧ StoresInside 1 s := by
  have hrun : (smallReceiver.run (.start true false) [.connect,
      .sendFlow 0 l4ProtoUDP 0 plStandard 0, .start 0, .packet 0 default,
      .packet 0 default, .closedFlow 0, .terminate 0, .release 0, .connect,
      .sendFlow 1 l4ProtoTCP 0 plShort 0, .start 1,
      .packet 1 { (default : Packet) with size := 512 }]).any
        (·.journal.stored = [0, 0, 0]) := by decide +kernel
  obtain ⟨s, hs, hstored⟩ := (Option.any_eq_true _ _).1 hrun
  have hinit : smallReceiver.init (.start true false) := ⟨true, false, rfl⟩
  have hreach : smallReceiver.ReachVia (FillsOpen 1) s :=
    .run (.init hinit) (by decide +kernel) hs
  exact ⟨s, hreach, of_decide_eq_true hstored, stores_inside (by decide) hreach⟩

/-- With the option `-L` a session asks for a log file, and the record of a packet is
    written to it in network format: its flow id is that of no record built. -/
theorem network_format_appended : ¬∀ s, smallReceiver.Reachable s → AppendedAsBuilt s := by
  intro hall
  have hrun : (smallReceiver.run (.start false true) [.connect, .sendNameLog 0 (chars "a"),
      .sendFlow 0 l4ProtoUDP 0 plStandard 1, .start 0,
      .packet 0 { (default : Packet) with FlowId := htonl .little 1 }]).any
        fun s => s.journal.appended.any fun x =>
          x.net ∧ x.record.flowId ∉ s.journal.built.map (·.flowId) := by decide +kernel
  obtain ⟨s, hs, happ⟩ := (Option.any_eq_true _ _).1 hrun
  obtain ⟨x, hx, hnet⟩ := List.any_eq_true.1 happ
  have hinit : smallReceiver.init (.start false true) := ⟨false, true, rfl⟩
  have hbuilt := hall s (.run (.init hinit) hs) x hx
  exact absurd hbuilt.1 (by simpa using (of_decide_eq_true hnet).1)

/-- With the option `-l` the record of a packet is written as built, also after a request
    for a log file. -/
theorem appended_as_built_one : ∃ s, smallReceiver.ReachVia NotMixed s ∧
    s.journal.appended.map (·.record.flowId) = [1] ∧ AppendedAsBuilt s := by
  have hrun : (smallReceiver.run (.start true false) [.connect, .sendNameLog 0 (chars "a"),
      .sendFlow 0 l4ProtoUDP 0 plStandard 1, .start 0,
      .packet 0 { (default : Packet) with FlowId := htonl .little 1 }]).any
        (·.journal.appended.map (·.record.flowId) = [1]) := by decide +kernel
  obtain ⟨s, hs, happ⟩ := (Option.any_eq_true _ _).1 hrun
  have hinit : smallReceiver.init (.start true false) := ⟨true, false, rfl⟩
  have hreach : smallReceiver.ReachVia NotMixed s := .run (.init hinit) (by decide +kernel) hs
  exact ⟨s, hreach, of_decide_eq_true happ, appended_as_built hreach⟩

end Ditg
