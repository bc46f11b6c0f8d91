import Ditg.Library.SlotTable
import Ditg.Library.Transition
import Ditg.Signaling.Session

/-!
# Sockets that flows share

When built with `MULTIPORT` the receiver lets the flows to a port share a socket: an entry of
`sharedTcpSockets` or `sharedUdpSockets` has the socket, and counts the flows that use it. The
thread of a flow (`udpSock`, `tcpSock`) locks the entry before it opens a socket and unlocks it
when the flow has been counted, in `tcpSock` only after a connection has been accepted. The
handlers of the sessions cancel the threads; a thread that has been cancelled stops at the next
call it waits in (`accept`, `recv`, `recvfrom` or `sleep`), and does not unlock anything.

The entry of a flow is the one of the port in its request, which is the port in network order;
if this is 0, it is the one of the port that the system has chosen, in the order of the host.

* `multiport`: the receiver, not in passive mode, with any number of sessions, their handlers
  and the threads of their flows taking steps in any order.

A handler or thread that has locked an entry and does not wait before it unlocks it does so in
one step. When the process exits, there are no more steps.
-/

namespace Ditg

open Bytes

/-! ## The model -/

/-- The two tables, `sharedTcpSockets` and `sharedUdpSockets`. -/
inductive SharedProto
  | tcp
  | udp
  deriving DecidableEq, Repr

/-- The table for the flows of a transport protocol, if there is one. -/
def sharedProto? (l4Proto : UInt8) : Option SharedProto :=
  if l4Proto = l4ProtoTCP then some .tcp
  else if l4Proto = l4ProtoUDP then some .udp
  else none

/-- An entry (`sharedSocketType`), with the thread that has locked its mutex. -/
structure SharedSocket where
  socket : ℕ
  inUse : ℤ
  mutexSharedSockets : Option ℕ
  deriving DecidableEq, Repr

/-- The values of `short`. -/
def short (n : ℤ) : ℤ := (n + 2 ^ 15) % 2 ^ 16 - 2 ^ 15

/-- Where the thread of a flow is. -/
inductive SockPc
  /-- Before it locks the entry of a port that has been asked for. -/
  | start
  /-- About to open a socket and bind it, or to tell that the one of the entry is used. -/
  | opening
  /-- About to lock the entry of a port that the system has chosen. -/
  | relocking
  /-- In `accept`. -/
  | accepting
  /-- About to count the flow. -/
  | counting
  /-- In `recv` or `recvfrom`. -/
  | receiving
  /-- In `sleep`, for good. -/
  | asleep
  | terminated
  deriving DecidableEq, Repr

/-- The thread of a flow: the function it runs, the slot it has been given (`param`), and its
    variables. -/
structure SockThread where
  proto : SharedProto
  session : ℕ
  slot : ℕ
  pc : SockPc
  sock : ℕ
  socketAlreadyOpen : Bool
  /-- `terminateThread` has been called. -/
  cancelled : Bool
  /-- For the record: the port that `sock` is bound to, the entry from which the flow has taken
      its socket, and that its handler is done with it. -/
  port : UInt16
  took : Option UInt16
  ended : Bool
  deriving DecidableEq, Repr

/-- A slot of `flowIdNum`, `paraThread` and `hThr`, as far as shared sockets are concerned. The
    address `destHost` has the port `indexPort` until a socket has been bound to it. -/
structure SockSlot where
  flowId : UInt32
  l4Proto : UInt8
  indexPort : UInt16
  socketClose : ℕ
  hThr : Option ℕ
  deriving DecidableEq, Repr

/-- Where the thread of a session is. -/
inductive SockPhase
  /-- In its loop. -/
  | idle
  /-- About to give back the socket of a flow, whose thread it has cancelled. -/
  | closing (k : ℕ)
  /-- At the end, about to close `socketClose` of a slot, and then to look at its entry. -/
  | collecting (i : ℕ)
  | sweeping (i : ℕ)
  deriving DecidableEq, Repr

/-- A session: its slots, what is in its pipe, and where its thread is. -/
structure SockSession where
  slots : List SockSlot
  rPipe : List (PipeCode × UInt32)
  phase : SockPhase
  deriving DecidableEq, Repr

/-- The receiver: the shared sockets, the descriptors that are open, with the port they are bound
    to (or 0), the sessions, and the threads of all flows. -/
structure Multiport where
  shared : SharedProto → UInt16 → SharedSocket
  files : ℕ → Option UInt16
  sessions : List SockSession
  threads : List SockThread

/-- A step of the handlers of a session. -/
inductive SessionAction
  | sendFlow (l4Proto : UInt8) (ptrPort : UInt16) (flowId : UInt32)
  /-- `TSP_CLOSED_FLOW` or `TSP_CLOSED_ERR`. -/
  | closed (flowId : UInt32)
  | giveBack
  /-- A message of the pipe. -/
  | pipe
  /-- The end of the session. -/
  | leave
  | collect
  | sweep
  deriving DecidableEq, Repr

/-- A step of the thread of a flow. The system chooses the descriptors of new sockets, and the
    port that a socket is bound to, if it can be bound. -/
inductive ThreadAction
  | lock
  | openSock (sock : ℕ) (port : Option UInt16)
  | join
  | relock
  | accept (newSock : ℕ)
  | count
  | recvError
  | recvEnd
  | stop
  deriving DecidableEq, Repr

/-- A step of the receiver. -/
inductive MultiportAction
  /-- A new session. -/
  | connect
  | session (j : ℕ) (a : SessionAction)
  | thread (t : ℕ) (a : ThreadAction)
  deriving DecidableEq, Repr

/-- A slot that has not been used. -/
def SockSlot.free : SockSlot := ⟨noFlow, 0, 0, 0, none⟩

/-- A session that has just been set up. -/
def SockSession.start : SockSession := ⟨List.replicate maxNumThread .free, [], .idle⟩

/-- The slot of a flow. -/
def SockSession.findFlow (ss : SockSession) (flowId : UInt32) : Option ℕ :=
  ss.slots.findIdx? (·.flowId = flowId)

/-- What a thread does once it has a socket. -/
def SharedProto.waits : SharedProto → SockPc
  | .tcp => .accepting
  | .udp => .counting

/-- A thread on its way to take its socket. -/
def SockPc.inFlight : SockPc → Bool
  | .start | .opening | .relocking | .accepting | .counting => true
  | .receiving | .asleep | .terminated => false

/-- The calls that a thread waits in. -/
def SockPc.waiting : SockPc → Bool
  | .accepting | .receiving | .asleep => true
  | .start | .opening | .relocking | .counting | .terminated => false

namespace Multiport

variable (s : Multiport)

/-- `sharedTcpSockets` and `sharedUdpSockets`. -/
def sharedTcpSockets : UInt16 → SharedSocket := s.shared .tcp
@[inherit_doc sharedTcpSockets] def sharedUdpSockets : UInt16 → SharedSocket := s.shared .udp

/-- A slot of a session. -/
def slot (j k : ℕ) : Option SockSlot := s.sessions[j]?.bind (·.slots[k]?)

/-- The slot that a thread has been given (`paraThread`). -/
def paraThread (th : SockThread) : SockSlot := (s.slot th.session th.slot).getD .free

/-- The entry of the flow of a thread. -/
def indexPort (th : SockThread) : UInt16 := (s.paraThread th).indexPort

/-- The entry of the flow of a thread, in its table. -/
def entry (th : SockThread) : SharedSocket := s.shared th.proto (s.indexPort th)

def setShared (p : SharedProto) (i : UInt16) (v : SharedSocket) : Multiport :=
  { s with shared := Function.update s.shared p (Function.update (s.shared p) i v) }

/-- `MUTEX_THREAD_LOCK` of the entry of a thread, which is free. -/
def lockEntry (t : ℕ) (th : SockThread) : Multiport :=
  s.setShared th.proto (s.indexPort th) { s.entry th with mutexSharedSockets := some t }

def setThread (t : ℕ) (th : SockThread) : Multiport := { s with threads := s.threads.set t th }

def modifySession (j : ℕ) (f : SockSession → SockSession) : Multiport :=
  { s with sessions := s.sessions.modify j f }

def setSlot (j k : ℕ) (v : SockSlot) : Multiport :=
  s.modifySession j fun ss => { ss with slots := ss.slots.set k v }

def setPhase (j : ℕ) (phase : SockPhase) : Multiport :=
  s.modifySession j fun ss => { ss with phase := phase }

def setFile (fd : ℕ) (port : Option UInt16) : Multiport :=
  { s with files := Function.update s.files fd port }

/-- A thread puts a message about its flow into the pipe of its session. -/
def sendPipeMsg (th : SockThread) (code : PipeCode) : Multiport :=
  s.modifySession th.session fun ss =>
    { ss with rPipe := ss.rPipe ++ [(code, (s.paraThread th).flowId)] }

/-! ### The threads of flows -/

section Thread

variable (t : ℕ) (th : SockThread)

/-- The lock of the entry of a port that has been asked for, which shows whether it has a
    socket. -/
def lock : Option Multiport :=
  if th.pc ≠ .start then none
  -- Without a port there is no entry yet.
  else if s.indexPort th = 0 then some (s.setThread t { th with pc := .opening })
  else if (s.entry th).mutexSharedSockets.isSome then none
  else some ((s.lockEntry t th).setThread t
    { th with
      pc := .opening
      sock := (s.entry th).socket
      socketAlreadyOpen := 0 < (s.entry th).socket
      port := (s.files (s.entry th).socket).getD 0 })

/-- A new socket is bound, which may fail. In `tcpSock` it is also made to listen. -/
def openSock (e : Endian) (sock : ℕ) (port : Option UInt16) : Option Multiport :=
  if th.pc ≠ .opening ∨ th.socketAlreadyOpen ∨ (s.files sock).isSome then none
  else match port with
    | none =>
      -- The entry, if it has been locked, stays so.
      some (((s.sendPipeMsg th .err1).setFile sock (some 0)).setThread t
        { th with pc := .asleep, sock := sock, port := 0 })
    | some port =>
      if s.indexPort th = 0 then
        -- `getsockname`, and then the entry in the order of the host.
        if port = 0 then none
        else some (((s.setSlot th.session th.slot
            { s.paraThread th with indexPort := port }).setFile sock (some port)).setThread t
          { th with pc := .relocking, sock := sock, port := port })
      else if port = ntohs e (s.indexPort th) then
        some (((s.sendPipeMsg th .ok).setFile sock (some port)).setThread t
          { th with pc := th.proto.waits, sock := sock, port := port })
      else none

/-- The socket of the entry is used. -/
def join : Option Multiport :=
  if th.pc = .opening ∧ th.socketAlreadyOpen then
    some ((s.sendPipeMsg th .ok).setThread t { th with pc := th.proto.waits })
  else none

/-- The lock of the entry of a port that the system has chosen. -/
def relock : Option Multiport :=
  if th.pc ≠ .relocking ∨ (s.entry th).mutexSharedSockets.isSome then none
  else some (((s.lockEntry t th).sendPipeMsg th .ok).setThread t { th with pc := th.proto.waits })

/-- The flow is counted, and the entry unlocked. -/
def takeSocket (socketClose : ℕ) : Multiport :=
  ((s.setShared th.proto (s.indexPort th)
      { socket := if th.socketAlreadyOpen then (s.entry th).socket else th.sock
        inUse := short ((s.entry th).inUse + 1)
        mutexSharedSockets := none }).setSlot th.session th.slot
      { s.paraThread th with socketClose := socketClose }).setThread t
    { th with pc := .receiving, took := some (s.indexPort th) }

/-- A connection is accepted. -/
def accept (newSock : ℕ) : Option Multiport :=
  if th.pc ≠ .accepting ∨ th.cancelled ∨ (s.files newSock).isSome then none
  else some ((s.takeSocket t th newSock).setFile newSock (some th.port))

/-- In `udpSock` there is nothing to wait for. -/
def count : Option Multiport :=
  if th.pc = .counting then some (s.takeSocket t th th.sock) else none

/-- A connection fails. (With a failure of `recvfrom` the process exits.) -/
def recvError : Option Multiport :=
  if th.pc = .receiving ∧ th.proto = .tcp ∧ ¬th.cancelled then
    some ((s.sendPipeMsg th .errSock).setThread t { th with pc := .asleep })
  else none

/-- A connection is closed by its sender. -/
def recvEnd : Option Multiport :=
  if th.pc = .receiving ∧ th.proto = .tcp ∧ ¬th.cancelled then
    some (s.setThread t { th with pc := .asleep })
  else none

/-- A thread that has been cancelled stops at the call it waits in. -/
def stop : Option Multiport :=
  if th.cancelled ∧ th.pc.waiting then some (s.setThread t { th with pc := .terminated }) else none

end Thread

/-- A step of a thread. -/
def threadStep (e : Endian) (t : ℕ) (th : SockThread) : ThreadAction → Option Multiport
  | .lock => s.lock t th
  | .openSock sock port => s.openSock t th e sock port
  | .join => s.join t th
  | .relock => s.relock t th
  | .accept newSock => s.accept t th newSock
  | .count => s.count t th
  | .recvError => s.recvError t th
  | .recvEnd => s.recvEnd t th
  | .stop => s.stop t th

/-! ### The handlers of sessions -/

/-- The thread of a slot, if it has one, is changed. -/
def modifyThread (hThr : Option ℕ) (f : SockThread → SockThread) : Multiport :=
  { s with threads := match hThr with
      | some t => s.threads.modify t f
      | none => s.threads }

/-- `terminateThread`. -/
def terminateThread (hThr : Option ℕ) : Multiport :=
  s.modifyThread hThr fun th => { th with cancelled := true }

/-- The handler is done with the thread of a slot. -/
def endThread (hThr : Option ℕ) : Multiport :=
  s.modifyThread hThr fun th => { th with ended := true }

section Handlers

variable (j : ℕ) (ss : SockSession)

/-- The request for a flow: a slot is filled, and a thread created. (With an unknown protocol
    there is no new thread.) -/
def sendFlow (l4Proto : UInt8) (ptrPort : UInt16) (flowId : UInt32) : Option Multiport :=
  if ss.phase ≠ .idle then none
  else (ss.findFlow noFlow).bind fun k => ss.slots[k]?.map fun slot =>
    match sharedProto? l4Proto with
    | some p =>
      { s.setSlot j k ⟨flowId, l4Proto, ptrPort, slot.socketClose, some s.threads.length⟩ with
        threads := s.threads ++ [{
          proto := p
          session := j
          slot := k
          pc := .start
          sock := 0
          socketAlreadyOpen := false
          cancelled := false
          port := 0
          took := none
          ended := false }] }
    | none =>
      s.setSlot j k ⟨flowId, l4Proto, ptrPort, slot.socketClose,
        if l4Proto = l4ProtoICMP then none else slot.hThr⟩

/-- A flow is closed: its thread is cancelled. -/
def closed (flowId : UInt32) : Option Multiport :=
  if ss.phase ≠ .idle then none
  else match ss.findFlow flowId with
    | some k => ss.slots[k]?.map fun slot => (s.terminateThread slot.hThr).setPhase j (.closing k)
    | none => some s

/-- The entry of a flow is locked, counts one flow less, and has no socket without flows. -/
def release (p : SharedProto) (i : UInt16) : Option Multiport :=
  let entry := s.shared p i
  if entry.mutexSharedSockets.isSome then none
  else
    let inUse := short (entry.inUse - 1)
    -- The socket may be 0 here, which is closed as well.
    if inUse = 0 then
      some ((s.setFile entry.socket none).setShared p i { entry with socket := 0, inUse := 0 })
    else some (s.setShared p i { entry with inUse := inUse })

/-- A slot is freed, and `socketClose` closed, if it is a socket. -/
def freeFlow (k : ℕ) (slot : SockSlot) : Multiport :=
  let s := if 0 < slot.socketClose then s.setFile slot.socketClose none else s
  ((s.setSlot j k { slot with flowId := noFlow }).endThread slot.hThr).setPhase j .idle

/-- The rest of the handler of `TSP_CLOSED_FLOW` and `TSP_CLOSED_ERR`. -/
def giveBack : Option Multiport :=
  match ss.phase with
  | .closing k => ss.slots[k]?.bind fun slot =>
    match sharedProto? slot.l4Proto with
    | some p => (s.release p slot.indexPort).map fun s =>
      s.freeFlow j k { slot with socketClose := if p = .udp then 0 else slot.socketClose }
    | none => some (s.freeFlow j k slot)
  | _ => none

/-- `pipeParser`: an error ends the flow, if it is live. -/
def pipeParser : Option Multiport :=
  if ss.phase ≠ .idle then none
  else match ss.rPipe with
    | [] => none
    | (code, flowId) :: rPipe =>
      let s := s.modifySession j fun ss => { ss with rPipe := rPipe }
      if code = .ok then some s
      -- All errors are handled alike, and none of them gives back the socket of the flow.
      else match ss.findFlow flowId with
        | some k => ss.slots[k]?.map fun slot =>
          ((s.terminateThread slot.hThr).setSlot j k { slot with flowId := noFlow }).endThread
            slot.hThr
        | none => some s

/-- The loop is left. -/
def leave : Option Multiport :=
  if ss.phase = .idle then some (s.setPhase j (.collecting 0)) else none

/-- At the end `socketClose` of every slot is closed, whatever it is. -/
def collect : Option Multiport :=
  match ss.phase with
  | .collecting i => ss.slots[i]?.map fun slot =>
    (s.setFile slot.socketClose none).setPhase j (.sweeping i)
  | _ => none

/-- And the socket of its entry, if no flow uses it. -/
def sweep : Option Multiport :=
  match ss.phase with
  | .sweeping i => ss.slots[i]?.bind fun slot =>
    match sharedProto? slot.l4Proto with
    | some p =>
      let entry := s.shared p slot.indexPort
      if entry.mutexSharedSockets.isSome then none
      -- A socket of flows that have not been closed is left open.
      else if entry.inUse = 0 ∧ 0 < entry.socket then
        some (((s.setFile entry.socket none).setShared p slot.indexPort
          { entry with socket := 0 }).setPhase j (.collecting (i + 1)))
      else some (s.setPhase j (.collecting (i + 1)))
    | none => some (s.setPhase j (.collecting (i + 1)))
  | _ => none

/-- A step of a session. -/
def sessionStep : SessionAction → Option Multiport
  | .sendFlow l4Proto ptrPort flowId => s.sendFlow j ss l4Proto ptrPort flowId
  | .closed flowId => s.closed j ss flowId
  | .giveBack => s.giveBack j ss
  | .pipe => s.pipeParser j ss
  | .leave => s.leave j ss
  | .collect => s.collect j ss
  | .sweep => s.sweep j ss

end Handlers

/-- A new session. -/
def connect : Multiport := { s with sessions := s.sessions ++ [.start] }

/-- A step. -/
def step (e : Endian) : MultiportAction → Option Multiport
  | .connect => some s.connect
  | .session j a => s.sessions[j]?.bind fun ss => s.sessionStep j ss a
  | .thread t a => s.threads[t]?.bind fun th => s.threadStep e t th a

end Multiport

/-- The receiver as `recvInit` leaves it, with some descriptors open. -/
def Multiport.start (files : ℕ → Option UInt16) : Multiport where
  shared _ _ := ⟨0, 0, none⟩
  files := files
  sessions := []
  threads := []

/-- The receiver, with its steps in any order. -/
def multiport (e : Endian) : Transition Multiport MultiportAction where
  init s := ∃ files n, (∀ fd, n ≤ fd → files fd = none) ∧ s = .start files
  step := (Multiport.step · e)

end Ditg
