import Ditg.Common.Packet
import Ditg.Log.LogFiles
import Ditg.Signaling.Message

/-!
# The sessions of the log server

The log server has a thread for every connection (`channelManager`). The thread asks for the
request of its client (`recvInfo`), gets the stream of the file that the client has named, logs
what comes on a data connection of its own until the client stops, and gives the stream back.
All threads receive their requests into one variable (`signalingLog`), from which they read the
protocol and copy the name afterwards; and they exit before they close the connection.

* `logSessions`: the threads, what they share, and the sockets of the process;
* `sessions_of_reach`: whatever the order of their steps, the sessions use the table of the log
  files as it is meant to be used (`logFiles`), the table has room for all of them, and of all
  their sockets only those of the data connections are ever closed;
* `own_request_of_alone`: sessions log as their own clients have asked them to, if requests
  arrive whole, and none while a session is about to read the one before; otherwise a
  session may do what another client has asked for.
-/

namespace Ditg

open Bytes Memory RefCount

/-! ## The model -/

/-- The size of `struct signaling`. -/
def sizeofSignaling : ℕ := 4 + dimLogFile

/-- The protocol of a request. -/
def signalingProtocol (signal : List UInt8) : UInt8 := signal.headD 0

/-- The name of a request, as `strcpy` copies it, if it ends before the request does. -/
def signalingLogFile (signal : List UInt8) : Option (List UInt8) :=
  if 0 ∈ signal.drop 4 then some (cstr (signal.drop 4)) else none

/-- Where the thread of a session is. -/
inductive ChannelPc
  /-- About to send `LOG_CONNECT`, and then to receive the request. -/
  | sendto
  | recv
  /-- About to read the protocol of `signalingLog`, and then to copy the name. -/
  | protocol
  | logFile
  /-- About to call `allowedLogFile`. -/
  | allow
  /-- About to create the data channel, and on TCP to accept the connection of the client. -/
  | channel
  | accept
  /-- In the loop that receives packets. -/
  | logPacket
  /-- About to call `closeFileLog`. -/
  | close
  | exited
  deriving DecidableEq, Repr

/-- A session, and for the record the request that its client has sent. -/
structure LogSession where
  pc : ChannelPc
  request : List UInt8
  protocol : UInt8
  logFile : List UInt8
  /-- The entry whose stream it has been given. -/
  fileLog : ℕ
  deriving DecidableEq, Repr

/-- The sockets of the server: the one it listens on, and those of its sessions. -/
inductive LogSocket
  | signalSocket
  | newSockSignal (i : ℕ)
  | logSock (i : ℕ)
  | newSockLog (i : ℕ)
  deriving DecidableEq, Repr

/-- The server: the request received last, the log files, the sessions by the entries of `para`,
    and the sockets that are open. -/
structure LogSessions where
  signalingLog : List UInt8
  files : LogFiles
  sessions : List LogSession
  sockets : List LogSocket
  deriving DecidableEq, Repr

/-- A step of the server: it accepts a connection, a session receives a request (or the part of
    it that has arrived), or it takes the next step. -/
inductive LogSessionAction
  | accept
  | recv (i : ℕ) (signal : List UInt8)
  | go (i : ℕ)
  deriving DecidableEq, Repr

/-- A session whose thread has been created. -/
def LogSession.start : LogSession := ⟨.sendto, [], 0, chars "/tmp/ITGLog.log", 0⟩

namespace LogSessions

variable (s : LogSessions) (i : ℕ)

/-- A session has changed. -/
def put (x : LogSession) : LogSessions := { s with sessions := s.sessions.set i x }

/-- `recv` in `recvInfo`, of what has arrived. -/
def recvInfo (x : LogSession) (signal : List UInt8) : Option LogSessions :=
  if x.pc = .recv ∧ signal.length ≤ sizeofSignaling then
    some
      { s.put i { x with pc := .protocol, request := signal } with
        signalingLog := blit s.signalingLog 0 signal }
  else none

/-- The next step of a thread. A call with the mutex locked is one step. -/
def go (x : LogSession) : Option LogSessions :=
  match x.pc with
  | .sendto => some (s.put i { x with pc := .recv })
  | .recv => none
  | .protocol =>
    some (s.put i { x with pc := .logFile, protocol := signalingProtocol s.signalingLog })
  | .logFile =>
    (signalingLogFile s.signalingLog).map fun logFile =>
      s.put i { x with pc := .allow, logFile := logFile }
  | .allow =>
    (s.files.allowedLogFile x.logFile).map fun files =>
      { s.put i { x with pc := .channel, fileLog := (files.users.map (·.slot)).headD 0 } with
        files := files }
  | .channel =>
    some
      { s.put i { x with pc := if x.protocol = l4ProtoTCP then .accept else .logPacket } with
        sockets := .logSock i :: s.sockets }
  | .accept =>
    some
      { s.put i { x with pc := .logPacket } with
        sockets := .newSockLog i :: s.sockets }
  | .logPacket =>
    let sockets := s.sockets.erase (.logSock i)
    some
      { s.put i { x with pc := .close } with
        sockets := if x.protocol = l4ProtoTCP then sockets.erase (.newSockLog i) else sockets }
  | .close =>
    -- The thread exits before it closes the socket of its connection.
    (itgLogCloseFileLog s.files.memLogFile x.fileLog).map fun memLogFile =>
      { s.put i { x with pc := .exited } with
        files :=
          { s.files with
            memLogFile := memLogFile
            users := s.files.users.erase ⟨x.logFile, x.fileLog⟩ } }
  | .exited => none

/-- A step of the server. It has entries of `para` for `MAX_NUM_THREAD` connections, and does
    not use one again; nothing is known about what it does with more of them. -/
def step : LogSessionAction → Option LogSessions
  | .accept =>
    if s.sessions.length < maxNumThread then
      some
        { s with
          sessions := s.sessions ++ [.start]
          sockets := .newSockSignal s.sessions.length :: s.sockets }
    else none
  | .recv i signal => s.sessions[i]?.bind fun x => s.recvInfo i x signal
  | .go i => s.sessions[i]?.bind fun x => s.go i x

end LogSessions

/-- The server, when it has started to listen. -/
def LogSessions.init : LogSessions where
  signalingLog := List.replicate sizeofSignaling 0
  files := ⟨List.replicate maxNumThread .free, [], []⟩
  sessions := []
  sockets := [.signalSocket]

/-- The log server. -/
def logSessions : Transition LogSessions LogSessionAction where
  init s := s = .init
  step := LogSessions.step

/-- A session has a stream. -/
def ChannelPc.hasStream : ChannelPc → Bool
  | .channel | .accept | .logPacket | .close => true
  | .sendto | .recv | .protocol | .logFile | .allow | .exited => false

/-- The user of a log file that a session is. -/
def LogSession.user? (x : LogSession) : Option LogUser :=
  if x.pc.hasStream then some ⟨x.logFile, x.fileLog⟩ else none

/-- No session asks for a file whose name is a blank. -/
def NotBlank (s : LogSessions) : LogSessionAction → Prop
  | .accept | .recv _ _ => True
  | .go i => ∀ x ∈ s.sessions[i]?, x.pc = .allow → x.logFile ≠ chars " "

/-- A session has created its data channel, and on TCP accepted the connection of the client. -/
def LogSession.listens (x : LogSession) : Prop := x.pc = .accept ∨ x.pc = .logPacket
@[inherit_doc LogSession.listens] def LogSession.connected (x : LogSession) : Prop :=
  x.pc = .logPacket ∧ x.protocol = l4ProtoTCP

instance (s : LogSessions) : DecidablePred (NotBlank s)
  | .accept | .recv _ _ => isTrue trivial
  | .go i => inferInstanceAs (Decidable (∀ x ∈ s.sessions[i]?, _ → _))

/-- The sockets that are open: those of the connections stay open for ever. -/
def LogSessions.Opened (s : LogSessions) : LogSocket → Prop
  | .signalSocket => True
  | .newSockSignal i => i < s.sessions.length
  | .logSock i => ∃ x ∈ s.sessions[i]?, x.listens
  | .newSockLog i => ∃ x ∈ s.sessions[i]?, x.connected

variable {s s' : LogSessions} {i : ℕ} {x : LogSession} {a : LogSessionAction}

/-! ## Log files -/

/-- What a step is. -/
theorem LogSessions.step_cases (h : s.step a = some s') :
    a = .accept ∧ s.sessions.length < maxNumThread ∧
        s' = { s with
          sessions := s.sessions ++ [.start]
          sockets := .newSockSignal s.sessions.length :: s.sockets } ∨
      (∃ i signal x, a = .recv i signal ∧ s.sessions[i]? = some x ∧ x.pc = .recv ∧
        signal.length ≤ sizeofSignaling ∧
        s' = { s.put i { x with pc := .protocol, request := signal } with
          signalingLog := blit s.signalingLog 0 signal }) ∨
      ∃ i x, a = .go i ∧ s.sessions[i]? = some x ∧ s.go i x = some s' := by
  cases a with
  | accept =>
    rw [step] at h
    split_ifs at h with hlt
    exact .inl ⟨rfl, hlt, (Option.some.inj h).symm⟩
  | recv i signal =>
    obtain ⟨x, hx, h⟩ := Option.bind_eq_some_iff.1 h
    rw [recvInfo] at h
    split_ifs at h with hpc
    exact .inr (.inl ⟨i, signal, x, rfl, hx, hpc.1, hpc.2, (Option.some.inj h).symm⟩)
  | go i =>
    obtain ⟨x, hx, h⟩ := Option.bind_eq_some_iff.1 h
    exact .inr (.inr ⟨i, x, rfl, hx, h⟩)

/-- The sessions with a stream are the users of the log files, which have been called for as
    they should be. -/
structure LogSessions.FilesInv (s : LogSessions) : Prop where
  reach : (logFiles .itgLog).ReachVia LogFiles.Called s.files
  held : Held LogSession.user? s.sessions s.files.users
  length_le : s.sessions.length ≤ maxNumThread

/-- A session that asks for a file finds room in the table. -/
theorem LogSessions.FilesInv.called_allow (h : s.FilesInv) (hx : s.sessions[i]? = some x)
    (hpc : x.pc = .allow) (hblank : x.logFile ≠ chars " ") :
    s.files.Called (.allowedLogFile x.logFile) := by
  have huser : x.user? = none := by rw [LogSession.user?, hpc]; rfl
  have hlt := h.held.length_lt hx huser
  refine ⟨hblank, ((Finset.card_insert_le _ _).trans (Nat.succ_le_of_lt ?_)).trans h.length_le⟩
  refine lt_of_le_of_lt (List.toFinset_card_le _) ?_
  rwa [List.length_map]

theorem LogSession.user?_close (hpc : x.pc = .close) : x.user? = some ⟨x.logFile, x.fileLog⟩ := by
  rw [LogSession.user?, hpc]
  rfl

theorem LogSessions.FilesInv.called_close (h : s.FilesInv) (hx : s.sessions[i]? = some x)
    (hpc : x.pc = .close) : s.files.Called (.closeFileLog ⟨x.logFile, x.fileLog⟩) :=
  h.held.mem hx (x.user?_close hpc)

/-- A session changes, but not as a user of the log files. -/
theorem LogSessions.FilesInv.put (h : s.FilesInv) (hx : s.sessions[i]? = some x)
    {x' : LogSession} (heq : x'.user? = x.user?) (signalingLog : List UInt8)
    (sockets : List LogSocket) :
    ({ s.put i x' with
      signalingLog := signalingLog, sockets := sockets } : LogSessions).FilesInv where
  reach := h.reach
  held := h.held.set hx heq
  length_le := (List.length_set ..).trans_le h.length_le

/-- What `allowedLogFile` gives is the stream of a user. -/
theorem LogFiles.users_allowedLogFile {files files' : LogFiles} {logFile : List UInt8}
    (h : files.allowedLogFile logFile = some files') :
    files'.users = ⟨logFile, (files'.users.map (·.slot)).headD 0⟩ :: files.users := by
  rw [LogFiles.allowedLogFile] at h
  split at h
  · cases h
    rfl
  · obtain ⟨k, -, rfl⟩ := Option.map_eq_some_iff.1 h
    rfl

theorem LogSessions.FilesInv.go (h : s.FilesInv) (hx : s.sessions[i]? = some x)
    (hP : NotBlank s (.go i)) (hstep : s.go i x = some s') : s'.FilesInv := by
  have hframe {x' : LogSession} (heq : x'.user? = x.user?) := h.put hx heq
  cases hpc : x.pc with
  | recv => simp [LogSessions.go, hpc] at hstep
  | exited => simp [LogSessions.go, hpc] at hstep
  | allow =>
    simp only [LogSessions.go, hpc] at hstep
    obtain ⟨files, hfiles, rfl⟩ := Option.map_eq_some_iff.1 hstep
    have husers := LogFiles.users_allowedLogFile hfiles
    refine ⟨h.reach.step (h.called_allow hx hpc (hP x hx hpc)) hfiles, ?_,
      (List.length_set ..).trans_le h.length_le⟩
    rw [husers]
    refine h.held.acquire hx (by rw [LogSession.user?, hpc]; rfl) rfl
  | close =>
    simp only [LogSessions.go, hpc] at hstep
    obtain ⟨memLogFile, hclose, rfl⟩ := Option.map_eq_some_iff.1 hstep
    have hcall : (logFiles .itgLog).step s.files (.closeFileLog ⟨x.logFile, x.fileLog⟩) =
        some { s.files with
          memLogFile := memLogFile
          users := s.files.users.erase ⟨x.logFile, x.fileLog⟩ } :=
      congrArg (Option.map _) hclose
    exact ⟨h.reach.step (h.called_close hx hpc) hcall,
      h.held.release hx (x.user?_close hpc) rfl, (List.length_set ..).trans_le h.length_le⟩
  | logFile =>
    simp only [LogSessions.go, hpc] at hstep
    obtain ⟨logFile, -, rfl⟩ := Option.map_eq_some_iff.1 hstep
    exact hframe (by simp [LogSession.user?, hpc, ChannelPc.hasStream]) _ _
  | sendto =>
    simp only [LogSessions.go, hpc, Option.some.injEq] at hstep
    subst hstep
    exact hframe (by simp [LogSession.user?, hpc, ChannelPc.hasStream]) _ _
  | protocol =>
    simp only [LogSessions.go, hpc, Option.some.injEq] at hstep
    subst hstep
    exact hframe (by simp [LogSession.user?, hpc, ChannelPc.hasStream]) _ _
  | channel =>
    simp only [LogSessions.go, hpc, Option.some.injEq] at hstep
    subst hstep
    refine hframe ?_ _ _
    by_cases htcp : x.protocol = l4ProtoTCP <;>
      simp [LogSession.user?, hpc, ChannelPc.hasStream, htcp]
  | accept =>
    simp only [LogSessions.go, hpc, Option.some.injEq] at hstep
    subst hstep
    exact hframe (by simp [LogSession.user?, hpc, ChannelPc.hasStream]) _ _
  | logPacket =>
    simp only [LogSessions.go, hpc, Option.some.injEq] at hstep
    subst hstep
    exact hframe (by simp [LogSession.user?, hpc, ChannelPc.hasStream]) _ _

theorem LogSessions.FilesInv.of_reach (h : logSessions.ReachVia NotBlank s) : s.FilesInv := by
  refine h.invariant (fun s hs => ?_) fun s a s' hs hP hstep => ?_
  · obtain rfl : s = _ := hs
    exact ⟨.init rfl, .rfl, Nat.zero_le _⟩
  · rcases LogSessions.step_cases hstep with ⟨-, hlt, rfl⟩ |
      ⟨i, signal, x, -, hx, hpc, -, rfl⟩ | ⟨i, x, rfl, hx, hgo⟩
    · exact ⟨hs.reach, hs.held.concat rfl, List.length_append.trans_le hlt⟩
    · exact hs.put hx (by simp [LogSession.user?, hpc, ChannelPc.hasStream]) _ _
    · exact hs.go hx hP hgo

/-! ## Sockets -/

/-- The sockets of connections stay open, those of data connections are open while packets are
    logged, and none is open twice. -/
structure LogSessions.SocketsInv (s : LogSessions) : Prop where
  nodup : s.sockets.Nodup
  mem_iff : ∀ y, y ∈ s.sockets ↔ s.Opened y
  tcp_of_accept : ∀ x ∈ s.sessions, x.pc = .accept → x.protocol = l4ProtoTCP

/-- The sockets of the data connections of a session. -/
def LogSocket.isData (i : ℕ) (y : LogSocket) : Prop := y = .logSock i ∨ y = .newSockLog i

/-- What is open when a session has changed. -/
theorem LogSessions.opened_put (hx : s.sessions[i]? = some x) (x' : LogSession) :
    ((s.put i x').Opened (.logSock i) ↔ x'.listens) ∧
    ((s.put i x').Opened (.newSockLog i) ↔ x'.connected) ∧
    ∀ y, ¬y.isData i → ((s.put i x').Opened y ↔ s.Opened y) := by
  have hlt := (List.getElem?_eq_some_iff.1 hx).1
  have hself : (s.sessions.set i x')[i]? = some x' := List.getElem?_set_self hlt
  refine ⟨by simp [Opened, put, hself], by simp [Opened, put, hself], fun y hy => ?_⟩
  cases y with
  | signalSocket => rfl
  | newSockSignal j => exact iff_of_eq (congrArg (j < ·) (List.length_set ..))
  | logSock j =>
    have hne : i ≠ j := fun heq => hy (.inl (heq ▸ rfl))
    simp only [Opened, put, List.getElem?_set_ne hne]
  | newSockLog j =>
    have hne : i ≠ j := fun heq => hy (.inr (heq ▸ rfl))
    simp only [Opened, put, List.getElem?_set_ne hne]

theorem LogSessions.SocketsInv.put (h : s.SocketsInv) (hx : s.sessions[i]? = some x)
    {x' : LogSession} {sockets : List LogSocket} (hnodup : sockets.Nodup)
    (hlog : .logSock i ∈ sockets ↔ x'.listens) (hdata : .newSockLog i ∈ sockets ↔ x'.connected)
    (hmem : ∀ y, ¬y.isData i → (y ∈ sockets ↔ y ∈ s.sockets))
    (hpc : x'.pc = .accept → x'.protocol = l4ProtoTCP) (signalingLog : List UInt8)
    (files : LogFiles) :
    ({ s.put i x' with
      signalingLog := signalingLog
      files := files
      sockets := sockets } : LogSessions).SocketsInv := by
  obtain ⟨hlog', hdata', hother⟩ := s.opened_put hx x'
  refine ⟨hnodup, fun y => ?_, fun y hy hacc => ?_⟩
  · change y ∈ sockets ↔ (s.put i x').Opened y
    by_cases hy : y.isData i
    · rcases hy with rfl | rfl
      · rw [hlog, hlog']
      · rw [hdata, hdata']
    · rw [hmem y hy, h.mem_iff, hother y hy]
  · rcases List.mem_or_eq_of_mem_set hy with hy | rfl
    · exact h.tcp_of_accept y hy hacc
    · exact hpc hacc

/-- A session changes, and no socket is opened or closed. -/
theorem LogSessions.SocketsInv.frame (h : s.SocketsInv) (hx : s.sessions[i]? = some x)
    {x' : LogSession} (hlog : x'.listens ↔ x.listens) (hdata : x'.connected ↔ x.connected)
    (hpc : x'.pc ≠ .accept) (signalingLog : List UInt8) (files : LogFiles) :
    ({ s.put i x' with
      signalingLog := signalingLog, files := files } : LogSessions).SocketsInv := by
  refine h.put hx h.nodup ?_ ?_ (fun y _ => .rfl) (fun hacc => absurd hacc hpc) _ _
  · simp [h.mem_iff, Opened, hx, hlog]
  · simp [h.mem_iff, Opened, hx, hdata]

theorem LogSessions.SocketsInv.go (h : s.SocketsInv) (hx : s.sessions[i]? = some x)
    (hstep : s.go i x = some s') : s'.SocketsInv := by
  have hlog : .logSock i ∈ s.sockets ↔ x.listens := by simp [h.mem_iff, Opened, hx]
  have hdata : .newSockLog i ∈ s.sockets ↔ x.connected := by simp [h.mem_iff, Opened, hx]
  cases hpc : x.pc with
  | recv => simp [LogSessions.go, hpc] at hstep
  | exited => simp [LogSessions.go, hpc] at hstep
  | sendto =>
    simp only [LogSessions.go, hpc, Option.some.injEq] at hstep
    subst hstep
    refine h.frame hx ?_ ?_ ?_ _ _ <;> simp [LogSession.listens, LogSession.connected, hpc]
  | protocol =>
    simp only [LogSessions.go, hpc, Option.some.injEq] at hstep
    subst hstep
    refine h.frame hx ?_ ?_ ?_ _ _ <;> simp [LogSession.listens, LogSession.connected, hpc]
  | logFile =>
    simp only [LogSessions.go, hpc] at hstep
    obtain ⟨logFile, -, rfl⟩ := Option.map_eq_some_iff.1 hstep
    refine h.frame hx ?_ ?_ ?_ _ _ <;> simp [LogSession.listens, LogSession.connected, hpc]
  | allow =>
    simp only [LogSessions.go, hpc] at hstep
    obtain ⟨files, -, rfl⟩ := Option.map_eq_some_iff.1 hstep
    refine h.frame hx ?_ ?_ ?_ _ _ <;> simp [LogSession.listens, LogSession.connected, hpc]
  | close =>
    simp only [LogSessions.go, hpc] at hstep
    obtain ⟨memLogFile, -, rfl⟩ := Option.map_eq_some_iff.1 hstep
    refine h.frame hx ?_ ?_ ?_ _ _ <;> simp [LogSession.listens, LogSession.connected, hpc]
  | channel =>
    simp only [LogSessions.go, hpc, Option.some.injEq] at hstep
    subst hstep
    have hnew : .logSock i ∉ s.sockets := by simp [hlog, LogSession.listens, hpc]
    refine h.put hx (List.nodup_cons.2 ⟨hnew, h.nodup⟩) ?_ ?_ (fun y hy => ?_) ?_ _ _
    · by_cases htcp : x.protocol = l4ProtoTCP <;> simp [LogSession.listens, htcp]
    · by_cases htcp : x.protocol = l4ProtoTCP <;> simp [hdata, LogSession.connected, htcp, hpc]
    · have hne : y ≠ .logSock i := fun heq => hy (.inl heq)
      simp [hne]
    · by_cases htcp : x.protocol = l4ProtoTCP <;> simp [htcp]
  | accept =>
    simp only [LogSessions.go, hpc, Option.some.injEq] at hstep
    subst hstep
    have hnew : .newSockLog i ∉ s.sockets := by simp [hdata, LogSession.connected, hpc]
    have htcp := h.tcp_of_accept x (List.mem_of_getElem? hx) hpc
    refine h.put hx (List.nodup_cons.2 ⟨hnew, h.nodup⟩) ?_ ?_ (fun y hy => ?_) ?_ _ _
    · simp [hlog, LogSession.listens, hpc]
    · simp [LogSession.connected, htcp]
    · have hne : y ≠ .newSockLog i := fun heq => hy (.inr heq)
      simp [hne]
    · simp
  | logPacket =>
    simp only [LogSessions.go, hpc, Option.some.injEq] at hstep
    subst hstep
    have herase := h.nodup.erase (.logSock i)
    refine h.put hx ?_ ?_ ?_ (fun y hy => ?_) ?_ _ _
    · split_ifs
      · exact herase.erase _
      · exact herase
    · split_ifs <;> simp [herase.mem_erase_iff, h.nodup.mem_erase_iff, LogSession.listens]
    · split_ifs with htcp <;> simp [herase.mem_erase_iff, h.nodup.mem_erase_iff, hdata,
        LogSession.connected, hpc, htcp]
    · have hne : y ≠ .logSock i := fun heq => hy (.inl heq)
      have hne' : y ≠ .newSockLog i := fun heq => hy (.inr heq)
      split_ifs <;> simp [herase.mem_erase_iff, h.nodup.mem_erase_iff, hne, hne']
    · simp

/-- A session more has the socket of its connection. -/
theorem LogSessions.opened_concat (s : LogSessions) (sockets : List LogSocket) (y : LogSocket) :
    ({ s with sessions := s.sessions ++ [.start], sockets := sockets } : LogSessions).Opened y ↔
      y = .newSockSignal s.sessions.length ∨ s.Opened y := by
  have hget (P : LogSession → Prop) (hP : ¬P .start) (j : ℕ) :
      (∃ x ∈ (s.sessions ++ [.start])[j]?, P x) ↔ ∃ x ∈ s.sessions[j]?, P x := by
    rcases Nat.lt_trichotomy j s.sessions.length with hj | rfl | hj
    · rw [List.getElem?_append_left hj]
    · simp [hP]
    · have hle : (s.sessions ++ [LogSession.start]).length ≤ j := List.length_append.trans_le hj
      rw [List.getElem?_eq_none hle, List.getElem?_eq_none hj.le]
  cases y with
  | signalSocket => simp [Opened]
  | newSockSignal j =>
    simp only [Opened, List.length_append, List.length_singleton, LogSocket.newSockSignal.injEq]
    omega
  | logSock j => simpa [Opened] using hget _ (by simp [LogSession.listens, LogSession.start]) j
  | newSockLog j => simpa [Opened] using hget _ (by simp [LogSession.connected, LogSession.start]) j

theorem LogSessions.SocketsInv.of_reach (h : logSessions.Reachable s) : s.SocketsInv := by
  refine h.invariant (fun s hs => ?_) fun s a s' hs _ hstep => ?_
  · obtain rfl : s = _ := hs
    refine ⟨List.nodup_singleton _, fun y => ?_, fun x hx => absurd hx List.not_mem_nil⟩
    cases y <;> simp [Opened, init]
  · rcases LogSessions.step_cases hstep with ⟨-, hlt, rfl⟩ |
      ⟨i, signal, x, -, hx, hpc, -, rfl⟩ | ⟨i, x, rfl, hx, hgo⟩
    · have hnew : .newSockSignal s.sessions.length ∉ s.sockets := by simp [hs.mem_iff, Opened]
      refine ⟨List.nodup_cons.2 ⟨hnew, hs.nodup⟩, fun y => ?_, fun x hx hacc => ?_⟩
      · rw [List.mem_cons, hs.mem_iff, s.opened_concat]
      · rcases List.mem_append.1 hx with hx | hx
        · exact hs.tcp_of_accept x hx hacc
        · obtain rfl := List.mem_singleton.1 hx
          exact absurd hacc (by decide)
    · refine hs.frame hx ?_ ?_ ?_ _ _ <;> simp [LogSession.listens, LogSession.connected, hpc]
    · exact hs.go hx hgo

/-- There is a socket for every connection there has been. -/
theorem LogSessions.SocketsInv.length_lt (h : s.SocketsInv) :
    s.sessions.length < s.sockets.length := by
  have hnodup : (LogSocket.signalSocket ::
      (List.range s.sessions.length).map LogSocket.newSockSignal).Nodup := by
    refine List.nodup_cons.2 ⟨by simp, List.nodup_range.map fun i j hij => ?_⟩
    exact LogSocket.newSockSignal.inj hij
  have hsub : LogSocket.signalSocket ::
      (List.range s.sessions.length).map LogSocket.newSockSignal ⊆ s.sockets := by
    refine List.cons_subset.2 ⟨(h.mem_iff _).2 trivial, fun y hy => ?_⟩
    obtain ⟨i, hi, rfl⟩ := List.mem_map.1 hy
    exact (h.mem_iff _).2 (List.mem_range.1 hi)
  have hle := (hnodup.subperm hsub).length_le
  rw [List.length_cons, List.length_map, List.length_range] at hle
  exact hle

/-! ## Runs -/

theorem LogSession.user?_eq (hx : x.pc.hasStream) : x.user? = some ⟨x.logFile, x.fileLog⟩ :=
  if_pos hx

/-- The users of an entry are the sessions that have its stream. -/
theorem LogSessions.FilesInv.countP_eq (h : s.FilesInv) (k : ℕ) :
    s.files.users.countP (·.slot = k) =
      s.sessions.countP fun y => y.pc.hasStream && decide (y.fileLog = k) := by
  rw [h.held.countP_eq, List.countP_filterMap]
  congr 1
  funext y
  cases hy : y.pc.hasStream <;> simp [LogSession.user?, hy]

/-- The sessions use the log files as they should, and the server keeps its connections. -/
structure LogSessions.Sound (s : LogSessions) : Prop where
  /-- The table of the log files is only used as it is meant to be. -/
  refines : (logFiles .itgLog).ReachVia LogFiles.Called s.files
  /-- A session has the stream of its file, which is open, and whose entry counts its sessions. -/
  stream : ∀ x ∈ s.sessions, x.pc.hasStream → ∃ m, s.files.memLogFile[x.fileLog]? = some m ∧
    m.logFile = x.logFile ∧ m.is_open ∧
    m.num = s.sessions.countP fun y => y.pc.hasStream && decide (y.fileLog = x.fileLog)
  /-- Sessions have the same stream if and only if they have asked for the same file. -/
  fileLog_eq_iff : ∀ x ∈ s.sessions, ∀ y ∈ s.sessions, x.pc.hasStream → y.pc.hasStream →
    (x.fileLog = y.fileLog ↔ x.logFile = y.logFile)
  /-- A call for a log file returns, and truncates no file of which a session has the stream. -/
  exists_call : ∀ (i : ℕ) x, s.sessions[i]? = some x →
    x.pc = .allow ∧ x.logFile ≠ chars " " ∨ x.pc = .close →
    ∃ s', logSessions.step s (.go i) = some s' ∧
      ∀ f, s'.files.truncated.count f ≠ s.files.truncated.count f →
        ∀ y ∈ s.sessions, y.pc.hasStream → y.logFile ≠ f
  /-- The open sockets, which are more than the connections there have been. -/
  mem_sockets : ∀ y, y ∈ s.sockets ↔ s.Opened y
  nodup_sockets : s.sockets.Nodup
  length_lt : s.sessions.length < s.sockets.length

/-- In all runs in which no session asks for a file whose name is a blank, and whatever the
    order of their steps, the sessions share the log files as they should; and for every
    connection that the server has ever accepted, it has a socket open. -/
theorem sessions_of_reach (h : logSessions.ReachVia NotBlank s) : s.Sound := by
  have hfiles := LogSessions.FilesInv.of_reach h
  have hsockets := LogSessions.SocketsInv.of_reach h.reachable
  have ⟨slots, hslots, _, hcounts⟩ := LogFiles.Inv.of_reach hfiles.reach
  have hmem {x : LogSession} (hx : x ∈ s.sessions) (hstream : x.pc.hasStream) :
      (⟨x.logFile, x.fileLog⟩ : LogUser) ∈ s.files.users :=
    hfiles.held.mem_iff.2 (List.mem_filterMap.2 ⟨x, hx, x.user?_eq hstream⟩)
  refine ⟨hfiles.reach, fun x hx hstream => ?_, fun x hx y hy hxs hys => ?_,
    fun i x hx hcall => ?_, hsockets.mem_iff, hsockets.nodup, hsockets.length_lt⟩
  · have hslot := hcounts.slot_eq _ (hmem hx hstream)
    refine ⟨_, by rw [hslots, List.getElem?_map, hslot]; rfl, rfl, rfl, ?_⟩
    exact congrArg Nat.cast (hfiles.countP_eq x.fileLog)
  · exact hcounts.slot_eq_iff (hmem hx hxs) (hmem hy hys)
  · obtain ⟨c, hcalled, hgo⟩ : ∃ c, s.files.Called c ∧
        ∀ files, (logFiles .itgLog).step s.files c = some files →
          ∃ s', s.go i x = some s' ∧ s'.files = files := by
      rcases hcall with ⟨hpc, hblank⟩ | hpc
      · refine ⟨_, hfiles.called_allow hx hpc hblank, fun files hstep => ?_⟩
        refine ⟨_, by rw [LogSessions.go, hpc]; exact congrArg (Option.map _) hstep, rfl⟩
      · refine ⟨_, hfiles.called_close hx hpc, fun files hstep => ?_⟩
        obtain ⟨m, hm, rfl⟩ := Option.map_eq_some_iff.1 hstep
        exact ⟨_, by rw [LogSessions.go, hpc]; exact congrArg (Option.map _) hm, rfl⟩
    obtain ⟨files, hstep, htrunc⟩ :=
      (LogFiles.Inv.of_reach hfiles.reach).exists_step .itgLog hcalled
    obtain ⟨s', hs', rfl⟩ := hgo files hstep
    refine ⟨s', ?_, fun f hf y hy hys => htrunc f hf _ (hmem hy hys)⟩
    change s.sessions[i]?.bind (fun x => s.go i x) = some s'
    rw [hx, Option.bind_some, hs']

/-- The request of a client, for a protocol and a name. -/
def signalRequest (protocol : UInt8) (logFile : List UInt8) : List UInt8 :=
  [protocol, 0, 0, 0] ++ logFile ++ List.replicate (dimLogFile - logFile.length) 0

/-- Two sessions, by TCP and by UDP, that log to the same file. -/
def twoSessions : List LogSessionAction :=
  [.accept, .go 0, .recv 0 (signalRequest l4ProtoTCP (chars "a")), .go 0, .go 0, .go 0, .go 0,
    .accept, .go 1, .recv 1 (signalRequest l4ProtoUDP (chars "a")), .go 1, .go 1, .go 1, .go 1,
    .go 0]

/-- The state after them. -/
theorem sessions_of_reach_two : ∃ s, logSessions.run .init twoSessions = some s ∧
    s.sessions.map (·.pc) = [.logPacket, .logPacket] ∧ s.Sound := by
  have hrun : (logSessions.run .init twoSessions).any fun s =>
      decide (s.sessions.map (·.pc) = [.logPacket, .logPacket]) := by decide +kernel
  obtain ⟨s, hs, hpc⟩ := (Option.any_eq_true ..).1 hrun
  refine ⟨s, hs, of_decide_eq_true hpc, sessions_of_reach (.run (.init rfl) ?_ hs)⟩
  decide +kernel

/-! ## Requests -/

/-- A session is about to read `signalingLog`, or has read the protocol, or the name. -/
def ChannelPc.reads : ChannelPc → Bool
  | .protocol | .logFile => true
  | .sendto | .recv | .allow | .channel | .accept | .logPacket | .close | .exited => false
@[inherit_doc ChannelPc.reads] def ChannelPc.hasProtocol : ChannelPc → Bool
  | .sendto | .recv | .protocol => false
  | .logFile | .allow | .channel | .accept | .logPacket | .close | .exited => true
@[inherit_doc ChannelPc.reads] def ChannelPc.hasLogFile : ChannelPc → Bool
  | .sendto | .recv | .protocol | .logFile => false
  | .allow | .channel | .accept | .logPacket | .close | .exited => true

/-- A session does what its own client has asked for, as far as it has read it. -/
def LogSession.Own (x : LogSession) : Prop :=
  (x.pc.hasProtocol → x.protocol = signalingProtocol x.request) ∧
    (x.pc.hasLogFile → signalingLogFile x.request = some x.logFile)

instance (x : LogSession) : Decidable x.Own := inferInstanceAs (Decidable (_ ∧ _))

/-- Requests arrive whole. -/
def WholeRequests (_ : LogSessions) : LogSessionAction → Prop
  | .recv _ signal => signal.length = sizeofSignaling
  | .accept | .go _ => True

/-- No request arrives while a session is about to read the one before. -/
def Undisturbed (s : LogSessions) : LogSessionAction → Prop
  | .recv _ _ => ∀ x ∈ s.sessions, x.pc.reads = false
  | .accept | .go _ => True

/-- Both. -/
def Alone (s : LogSessions) (a : LogSessionAction) : Prop := WholeRequests s a ∧ Undisturbed s a

/-- What a session is about to read is its own request. -/
structure LogSessions.RequestInv (s : LogSessions) : Prop where
  length_eq : s.signalingLog.length = sizeofSignaling
  eq_request : ∀ x ∈ s.sessions, x.pc.reads → s.signalingLog = x.request
  own : ∀ x ∈ s.sessions, x.Own

theorem LogSessions.RequestInv.put (h : s.RequestInv) {x' : LogSession}
    (hread : x'.pc.reads → s.signalingLog = x'.request) (hown : x'.Own) (files : LogFiles)
    (sockets : List LogSocket) :
    ({ s.put i x' with files := files, sockets := sockets } : LogSessions).RequestInv where
  length_eq := h.length_eq
  eq_request y hy hreads := by
    rcases List.mem_or_eq_of_mem_set hy with hy | rfl
    · exact h.eq_request y hy hreads
    · exact hread hreads
  own y hy := by
    rcases List.mem_or_eq_of_mem_set hy with hy | rfl
    · exact h.own y hy
    · exact hown

/-- A session that has read its request goes on. -/
theorem LogSessions.RequestInv.frame (h : s.RequestInv) (hx : x ∈ s.sessions) {x' : LogSession}
    (hreads : x'.pc.reads = false) (hhas : x.pc.hasLogFile) (hrequest : x'.request = x.request)
    (hprotocol : x'.protocol = x.protocol) (hlogFile : x'.logFile = x.logFile) (files : LogFiles)
    (sockets : List LogSocket) :
    ({ s.put i x' with files := files, sockets := sockets } : LogSessions).RequestInv := by
  have hhas' : x.pc.hasProtocol := by
    cases hpc : x.pc <;> simp_all [ChannelPc.hasLogFile, ChannelPc.hasProtocol]
  have ⟨hown, hown'⟩ := h.own x hx
  refine h.put (fun h => ?_) ⟨fun _ => ?_, fun _ => ?_⟩ _ _
  · rw [hreads] at h
    exact absurd h Bool.false_ne_true
  · rw [hprotocol, hrequest, hown hhas']
  · rw [hrequest, hlogFile, hown' hhas]

theorem LogSessions.RequestInv.go (h : s.RequestInv) (hx : s.sessions[i]? = some x)
    (hstep : s.go i x = some s') : s'.RequestInv := by
  have hmem := List.mem_of_getElem? hx
  have hreq := h.eq_request x hmem
  have hprotocol := (h.own x hmem).1
  cases hpc : x.pc with
  | recv => simp [LogSessions.go, hpc] at hstep
  | exited => simp [LogSessions.go, hpc] at hstep
  | sendto =>
    simp only [LogSessions.go, hpc, Option.some.injEq] at hstep
    subst hstep
    refine h.put ?_ ⟨?_, ?_⟩ _ _ <;>
      simp [ChannelPc.reads, ChannelPc.hasProtocol, ChannelPc.hasLogFile]
  | protocol =>
    simp only [LogSessions.go, hpc, Option.some.injEq] at hstep
    subst hstep
    have hrequest := hreq (by rw [hpc]; rfl)
    refine h.put ?_ ⟨?_, ?_⟩ _ _
    · exact fun _ => hrequest
    · exact fun _ => congrArg signalingProtocol hrequest
    · simp [ChannelPc.hasLogFile]
  | logFile =>
    simp only [LogSessions.go, hpc] at hstep
    obtain ⟨logFile, hname, rfl⟩ := Option.map_eq_some_iff.1 hstep
    have hrequest := hreq (by rw [hpc]; rfl)
    refine h.put ?_ ⟨?_, ?_⟩ _ _
    · simp [ChannelPc.reads]
    · exact fun _ => hprotocol (by rw [hpc]; rfl)
    · exact fun _ => hrequest ▸ hname
  | allow =>
    simp only [LogSessions.go, hpc] at hstep
    obtain ⟨files, -, rfl⟩ := Option.map_eq_some_iff.1 hstep
    refine h.frame hmem ?_ (by rw [hpc]; rfl) ?_ ?_ ?_ _ _ <;> rfl
  | close =>
    simp only [LogSessions.go, hpc] at hstep
    obtain ⟨memLogFile, -, rfl⟩ := Option.map_eq_some_iff.1 hstep
    refine h.frame hmem ?_ (by rw [hpc]; rfl) ?_ ?_ ?_ _ _ <;> rfl
  | channel =>
    simp only [LogSessions.go, hpc, Option.some.injEq] at hstep
    subst hstep
    refine h.frame hmem ?_ (by rw [hpc]; rfl) ?_ ?_ ?_ _ _
    · by_cases htcp : x.protocol = l4ProtoTCP <;> simp [ChannelPc.reads, htcp]
    all_goals rfl
  | accept =>
    simp only [LogSessions.go, hpc, Option.some.injEq] at hstep
    subst hstep
    refine h.frame hmem ?_ (by rw [hpc]; rfl) ?_ ?_ ?_ _ _ <;> rfl
  | logPacket =>
    simp only [LogSessions.go, hpc, Option.some.injEq] at hstep
    subst hstep
    refine h.frame hmem ?_ (by rw [hpc]; rfl) ?_ ?_ ?_ _ _ <;> rfl

theorem LogSessions.RequestInv.of_reach (h : logSessions.ReachVia Alone s) : s.RequestInv := by
  refine h.invariant (fun s hs => ?_) fun s a s' hs hP hstep => ?_
  · obtain rfl : s = _ := hs
    exact ⟨List.length_replicate, by simp [init], by simp [init]⟩
  · rcases LogSessions.step_cases hstep with ⟨-, hlt, rfl⟩ |
      ⟨i, signal, x, rfl, hx, hpc, -, rfl⟩ | ⟨i, x, rfl, hx, hgo⟩
    · refine ⟨hs.length_eq, fun y hy hreads => ?_, fun y hy => ?_⟩
      · rcases List.mem_append.1 hy with hy | hy
        · exact hs.eq_request y hy hreads
        · obtain rfl := List.mem_singleton.1 hy
          simp [LogSession.start, ChannelPc.reads] at hreads
      · rcases List.mem_append.1 hy with hy | hy
        · exact hs.own y hy
        · obtain rfl := List.mem_singleton.1 hy
          exact ⟨fun h => absurd h (by decide), fun h => absurd h (by decide)⟩
    · have hlen : signal.length = sizeofSignaling := hP.1
      have hwhole : blit s.signalingLog 0 signal = signal := by
        rw [blit, List.take_zero, List.nil_append, Nat.zero_add, hlen, ← hs.length_eq,
          List.drop_length, List.append_nil]
      refine ⟨(congrArg _ hwhole).trans hlen, fun y hy hreads => ?_, fun y hy => ?_⟩
      · rcases List.mem_or_eq_of_mem_set hy with hy | rfl
        · rw [hP.2 y hy] at hreads
          exact absurd hreads Bool.false_ne_true
        · exact hwhole
      · rcases List.mem_or_eq_of_mem_set hy with hy | rfl
        · exact hs.own y hy
        · simp [LogSession.Own, ChannelPc.hasProtocol, ChannelPc.hasLogFile]
    · exact hs.go hx hgo

instance (s : LogSessions) : DecidablePred (WholeRequests s)
  | .recv _ signal => inferInstanceAs (Decidable (signal.length = sizeofSignaling))
  | .accept | .go _ => isTrue trivial

instance (s : LogSessions) : DecidablePred (Undisturbed s)
  | .recv _ _ => inferInstanceAs (Decidable (∀ x ∈ s.sessions, x.pc.reads = false))
  | .accept | .go _ => isTrue trivial

instance (s : LogSessions) : DecidablePred (Alone s) :=
  fun _ => inferInstanceAs (Decidable (_ ∧ _))

/-- Two sessions receive their requests, before the first one reads its own. -/
def overwritten : List LogSessionAction :=
  [.accept, .accept, .go 0, .go 1, .recv 0 (signalRequest l4ProtoTCP (chars "a")),
    .recv 1 (signalRequest l4ProtoUDP (chars "b")), .go 0, .go 0]

/-- A session ends, and after it the client of another one closes its connection at once. -/
def unrequested : List LogSessionAction :=
  [.accept, .go 0, .recv 0 (signalRequest l4ProtoUDP (chars "a")), .go 0, .go 0, .go 0, .go 0,
    .go 0, .go 0, .accept, .go 1, .recv 1 [], .go 1, .go 1, .go 1]

/-- In the runs in which requests arrive whole, and none while a session is about to read the one
    before, all sessions do what their own clients have asked for. It takes both: a session
    may read the request of another one, and it may do what a session before it has been asked
    for, and truncate its log, without any request. -/
theorem own_request_of_alone :
    (∀ s, logSessions.ReachVia Alone s → ∀ x ∈ s.sessions, x.Own) ∧
    (∃ s, logSessions.ReachVia WholeRequests s ∧ ∃ x ∈ s.sessions, ¬x.Own) ∧
    ∃ s, logSessions.ReachVia Undisturbed s ∧
      ∃ x ∈ s.sessions, x.request = [] ∧ x.pc.hasStream ∧
        1 < s.files.truncated.count x.logFile := by
  refine ⟨fun s hs => (LogSessions.RequestInv.of_reach hs).own, ?_, ?_⟩
  · have hrun : (logSessions.run .init overwritten).any fun s =>
        decide (∃ x ∈ s.sessions, ¬x.Own) := by decide +kernel
    obtain ⟨s, hs, hown⟩ := (Option.any_eq_true ..).1 hrun
    exact ⟨s, .run (.init rfl) (by decide +kernel) hs, of_decide_eq_true hown⟩
  · have hrun : (logSessions.run .init unrequested).any fun s => decide
        (∃ x ∈ s.sessions, x.request = [] ∧ x.pc.hasStream ∧
          1 < s.files.truncated.count x.logFile) := by decide +kernel
    obtain ⟨s, hs, hlost⟩ := (Option.any_eq_true ..).1 hrun
    exact ⟨s, .run (.init rfl) (by decide +kernel) hs, of_decide_eq_true hlost⟩

/-- Two sessions, each of which reads its request before that of the other one arrives. -/
def oneByOne : List LogSessionAction :=
  [.accept, .accept, .go 0, .go 1, .recv 1 (signalRequest l4ProtoUDP (chars "b")), .go 1, .go 1,
    .recv 0 (signalRequest l4ProtoTCP (chars "a")), .go 1, .go 0, .go 0, .go 0]

/-- They have the protocols and the names of their clients. -/
theorem own_request_of_alone_two : ∃ s, logSessions.run .init oneByOne = some s ∧
    s.sessions.map (fun x => (x.protocol, x.logFile)) =
      [(l4ProtoTCP, chars "a"), (l4ProtoUDP, chars "b")] ∧
    ∀ x ∈ s.sessions, x.pc.hasStream ∧ x.Own := by
  have hrun : (logSessions.run .init oneByOne).any fun s => decide
      (s.sessions.map (fun x => (x.protocol, x.logFile)) =
        [(l4ProtoTCP, chars "a"), (l4ProtoUDP, chars "b")] ∧
      ∀ x ∈ s.sessions, x.pc.hasStream) := by decide +kernel
  obtain ⟨s, hs, hend⟩ := (Option.any_eq_true ..).1 hrun
  obtain ⟨hread, hstream⟩ := of_decide_eq_true hend
  have hreach : logSessions.ReachVia Alone s := .run (.init rfl) (by decide +kernel) hs
  exact ⟨s, hs, hread, fun x hx => ⟨hstream x hx, own_request_of_alone.1 s hreach x hx⟩⟩

end Ditg
