import Ditg.Library.Loop
import Ditg.Recv.Logging
import Ditg.Signaling.FlowLog

/-!
# The receiver's side of a signalling connection

For every signalling connection the receiver has a thread (`signalManager`) that reads
the messages of the sender and those the threads of its flows leave in a pipe, and keeps
the flows of the connection in a table of slots. Reading a message and acting on it are
not separate: every handler reads the fields of its message as it goes.

With the option `-a`, the address of the data channels is not the one the sender has asked
for; the process exits when a table is full; nothing is read after a release, nor after a
handler that waits for a mutex for ever (`not_readsBack`). Apart from that, messages are read
as they were sent:

* `closedFlow_eq_ok`, `closedErr_eq_ok`, `pipeErr_eq_ok`: when the handlers that end
  a flow come to their end;
* `signalManager_readsBack`: of any messages of the sender, in any order and with any
  messages from the pipe in between, the thread reads those messages, one after the other
  and nothing else, and the slots it fills have the values of the sender.
-/

namespace Ditg

open Bytes Memory Socket

/-! ## The model -/

/-- The flow id of a free slot (-1). -/
def noFlow : UInt32 := 0xFFFFFFFF

/-- What a thread is told about its flow. -/
structure FlowParams where
  l7Proto : UInt8
  destHost : SockAddr
  flowId : UInt32
  meter : UInt8
  dsByte : UInt8
  fileLog : LogFile
  serial : CharArray dimNameSerialInterface
  preambleSize : ℕ
  payloadLogType : UInt8
  portForPssv : UInt16
  indexPort : UInt16
  deriving DecidableEq

/-- A slot of the tables `flowIdNum`, `paraThread` and `hThr` (of which we only keep
    whether a thread has been created). `ai_addr`: the address in `destHost` has been
    allocated, and not been freed. -/
structure FlowSlot where
  flowId : UInt32
  l4Proto : UInt8
  paraThread : FlowParams
  ai_addr : Bool
  hThr : Bool
  deriving DecidableEq

/-- The mutexes that the handlers lock: those of the log files, and `mutexSharedSockets` of an
    entry of `sharedTcpSockets` or of `sharedUdpSockets`. -/
inductive Mutex
  | log
  | logRem
  | sharedTcp (indexPort : UInt16)
  | sharedUdp (indexPort : UInt16)
  deriving DecidableEq, Repr

/-- What a handler needs: that it gets a mutex, which another thread may never unlock, or that a
    call does not fail. -/
inductive SysNeed
  | lock (mutex : Mutex)
  | sendInfos
  | terminateThread
  | closeShared
  | closeSocket
  deriving DecidableEq, Repr

/-- The options of the process, the sender it serves in passive mode, and the index of the
    interface of an address, as the system tells it. -/
structure RecvOptions where
  passiveMode : Bool
  globalBindAddr : Option SockAddr
  passiveSender : SockAddr
  ipv6ToIfIndex : CharArray 16 → UInt32
  /-- What the buffer of `recvFlowLog` holds before it is used. -/
  flowLogBuffer : CharArray sizeFlowLogMsg

/-- The thread, with the variables of the process it uses. -/
structure Session where
  logCheck : ℕ
  logRemote : ℕ
  memLogFile : List ManageLogFile
  slots : List FlowSlot
  numFlow : ℤ
  fileDescriptor : LogFile
  nameFileLog : CharArray dimLogFile
  logHost : Option (InetAddr × UInt16)
  protocolLog : UInt8
  numDiscovery : ℕ
  /-- The thread has left its loop. -/
  uscita : Bool
  /-- What it has sent. -/
  sent : List Reply

/-- What has been read. -/
inductive RecvMsg
  | sendFlow (flowPosition : ℕ) (slot : FlowSlot)
  | sendNameLog (nameFile : CharArray dimLogFile)
  | sendFlowLog (request : LogRequest)
  | closedFlow (flowId : UInt32)
  | closedErr (flowId : UInt32)
  | ackSendFlow (flowId : UInt32)
  /-- A message that is only its type. -/
  | type (type : UInt8)
  deriving DecidableEq

/-- The messages in the pipe, about a flow (`MSG_FT_OK`, `MSG_FT_ERR1`, `MSG_FT_ERR2`,
    `MSG_FT_ERR_SOCK`). -/
inductive PipeCode
  | ok
  | err1
  | err2
  | errSock
  deriving DecidableEq, Repr

/-- What the thread may find, at every turn of its loop, and what the handler does not get of
    the system. -/
inductive SigEvent
  /-- Bytes of the sender. -/
  | sock (unmet : List SysNeed)
  /-- A message in the pipe. -/
  | pipe (code : PipeCode) (flowId : UInt32) (unmet : List SysNeed)
  /-- Nothing, for some time. -/
  | timeout
  /-- The end of the connection. -/
  | closed
  deriving DecidableEq, Repr

/-- A free slot, at the start. -/
def FlowSlot.free : FlowSlot where
  flowId := noFlow
  l4Proto := 0
  paraThread := ⟨0, ⟨.ofBytes 0 0 0 0, 0, 0⟩, 0, 0, 0, .out, strncpy _ [],
    preambleSize 0 plStandard, plStandard, 0, 0⟩
  ai_addr := false
  hThr := false

/-- The thread after the connection has been set up. -/
def Session.start (logCheck logRemote : ℕ) (memLogFile : List ManageLogFile) : Session where
  logCheck := logCheck
  logRemote := logRemote
  memLogFile := memLogFile
  slots := List.replicate maxNumThread .free
  numFlow := 0
  fileDescriptor := .out
  nameFileLog := strncpy dimLogFile []
  logHost := none
  protocolLog := 0
  numDiscovery := 0
  uscita := false
  sent := []

/-- `IN6_IS_ADDR_LINKLOCAL`. -/
def isLinkLocal (addr : CharArray 16) : Bool :=
  addr.toList.getD 0 0 = 0xFE ∧ addr.toList.getD 1 0 &&& 0xC0 = 0x80

/-- The address a request asks for: in passive mode, that of the sender unless another one
    is specified. -/
def FlowRequest.destHost (o : RecvOptions) (m : FlowRequest) : SockAddr :=
  if m.srcAddrSpecify = 0x00 ∧ o.passiveMode then { o.passiveSender with port := m.ptrPort }
  else if m.l3Proto = l3ProtoIPv4 then ⟨.inet (charArray 4 m.ptrIP), m.ptrPort, 0⟩
  else
    -- Of any other network protocol than IPv6, no address has been read.
    let addr := charArray 16 m.ptrIP
    ⟨.inet6 addr, m.ptrPort, if isLinkLocal addr then o.ipv6ToIfIndex addr else 0⟩

/-- The address of the data channel: the one of the option `-a`, if it is given. -/
def RecvOptions.dataHost (o : RecvOptions) (host : SockAddr) : SockAddr :=
  match o.globalBindAddr with
  | some bindAddr => { bindAddr with port := host.port }
  | none => host

section Session

variable (e : Endian) (o : RecvOptions) (s : Session)

/-- A slot filled from a request. A thread is only created when not in passive mode. -/
def FlowSlot.fill (slot : FlowSlot) (m : FlowRequest) : FlowSlot where
  flowId := m.flowId
  l4Proto := m.l4Proto
  paraThread :=
    { l7Proto := m.l7Proto
      destHost := if o.passiveMode then m.destHost o else o.dataHost (m.destHost o)
      flowId := m.flowId
      meter := m.meter
      dsByte := m.dsByte
      fileLog := s.fileDescriptor
      serial := strncpy dimNameSerialInterface m.serialReceiver
      preambleSize := preambleSize m.l4Proto m.plType
      payloadLogType := m.plType
      portForPssv := if o.passiveMode then m.portForPssv else slot.paraThread.portForPssv
      indexPort := m.ptrPort }
  ai_addr := true
  hThr := slot.hThr || (!o.passiveMode && m.l4Proto ∈ [l4ProtoUDP, l4ProtoTCP, l4ProtoICMP])

/-- The slot of a flow. (The loop of the source also looks at the entry after the table,
    which makes no difference.) -/
def Session.findFlow (flowId : UInt32) : Option ℕ := s.slots.findIdx? (·.flowId = flowId)

/-- The thread with a reply sent. -/
def Session.send (reply : Reply) : Session := { s with sent := s.sent ++ [reply] }

/-- The thread with a slot freed, and with it the address of its flow, or not. -/
def Session.freeFlow (k : ℕ) (freesAddr : Bool) : Session :=
  { s with
    slots := s.slots.modify k fun slot =>
      { slot with flowId := noFlow, ai_addr := slot.ai_addr && !freesAddr }
    numFlow := s.numFlow - 1 }

/-- The request for a flow: a slot is filled. In passive mode this is acknowledged at once,
    with the position of the slot, counted from 1. -/
def Session.sendFlow (flowPosition : ℕ) (m : FlowRequest) : Session :=
  let slot := (s.slots.getD flowPosition .free).fill o s m
  let s := { s with slots := s.slots.set flowPosition slot }
  if o.passiveMode then s.send (.ackFlow tspAckSendFlow (UInt32.ofNat (flowPosition + 1)) 0)
  else { s with numFlow := s.numFlow + 1 }

/-- The thread goes on if it gets what it needs. -/
def await (unmet : List SysNeed) (need : SysNeed) (stop : Stop) : Except Stop Unit :=
  if need ∈ unmet then throw stop else return ()

/-- What is left in the buffer of a flow is logged (see `flushLast`): `flushBuffer`, or `sendto`
    to the log server. -/
def Session.flushInfos (unmet : List SysNeed) : Except Stop Unit :=
  if s.logCheck = 1 ∨ s.logCheck = 2 then await unmet (.lock .log) .locked
  else if s.logRemote = 1 ∨ s.logRemote = 2 then do
    await unmet (.lock .logRem) .locked
    await unmet .sendInfos
      (.exit "typeParser" "sent infos to LOG_SERVER" "Cannot send infos to logServer")
  else return ()

/-- The transport protocols with a name in the array `proto` (`TCP`, `UDP`, `ICMP`, `SCTP`,
    `DCCP`), in which that of a flow is looked up by its number. -/
def l4Protos : List UInt8 := [1, 2, 3, 4, 5]

/-- The end of the flow is printed, but for ICMP: the name of its protocol and, not in passive
    mode, the port of its address. -/
def FlowSlot.printFinish (slot : FlowSlot) : Except Stop Unit :=
  if slot.l4Proto ≠ l4ProtoICMP ∧
      (slot.l4Proto ∉ l4Protos ∨ o.passiveMode = false ∧ slot.ai_addr = false) then
    throw .undefined
  else return ()

/-- `terminateThread`, which does nothing for a slot that has had no thread. -/
def FlowSlot.terminate (slot : FlowSlot) (unmet : List SysNeed) (stop : Stop) :
    Except Stop Unit :=
  if slot.hThr then await unmet .terminateThread stop else return ()

/-- The socket of the flow is closed: the shared one, with its mutex locked, and the one of the
    connection. -/
def FlowSlot.closeSockets (slot : FlowSlot) (unmet : List SysNeed) : Except Stop Unit :=
  if slot.l4Proto = l4ProtoTCP then do
    await unmet (.lock (.sharedTcp slot.paraThread.indexPort)) .locked
    await unmet .closeShared (.exit "typeParser" "closeSock" "Cannot close TCP socket")
    await unmet .closeSocket
      (.exit "typeParser" "closeSock - type = 4" "Cannot close socket socketClose")
  else if slot.l4Proto = l4ProtoUDP then do
    await unmet (.lock (.sharedUdp slot.paraThread.indexPort)) .locked
    -- `socketClose` is the shared socket.
    await unmet .closeShared (.exit "typeParser" "closeSock" "Cannot close UDP socket")
  else
    await unmet .closeSocket
      (.exit "typeParser" "closeSock - type = 4" "Cannot close socket socketClose")

/-- `free` of the address of a flow. -/
def FlowSlot.freeAddr (slot : FlowSlot) : Except Stop Unit :=
  if slot.ai_addr then return () else throw .undefined

/-- The exits of the handlers if a thread cannot be cancelled. -/
def cannotTerminate : Stop :=
  .exit "typeParser" "terminateThread - type = 4" "Cannot terminate thread hThr[k]"
@[inherit_doc cannotTerminate]
def pipeCannotTerminate : Stop := .exit "pipeParser" "" "Cannot terminate thread"

/-- The end of a flow: what it holds is given back, the slot is freed, and this is
    acknowledged. -/
def Session.closedFlow (unmet : List SysNeed) (flowId : UInt32) : Except Stop Session :=
  match s.findFlow flowId with
  | some k => do
    let slot := s.slots.getD k .free
    s.flushInfos unmet
    slot.printFinish o
    slot.terminate unmet cannotTerminate
    slot.closeSockets unmet
    slot.freeAddr
    return (s.freeFlow k true).send (.ackFlow tspAckClosedFlow flowId 0)
  | none => return s

/-- The end of a flow that could not be sent. -/
def Session.closedErr (unmet : List SysNeed) (flowId : UInt32) : Except Stop Session :=
  match s.findFlow flowId with
  | some k => do
    let slot := s.slots.getD k .free
    slot.terminate unmet cannotTerminate
    slot.closeSockets unmet
    return s.freeFlow k false
  | none => return s

/-- In passive mode, the acknowledgement of the port of a flow, whose thread is created. -/
def Session.ackSendFlow (flowId : UInt32) : Session :=
  match s.findFlow flowId with
  | some k =>
    { s with slots := s.slots.modify k fun slot =>
        { slot with hThr := slot.hThr || slot.l4Proto ∈ [l4ProtoTCP, l4ProtoUDP] } }
  | none => s

/-- An error of the thread of a flow: the sender is told, and the slot is freed, if the flow has
    one. -/
def Session.pipeErr (unmet : List SysNeed) (typeMessage : UInt8) (flowId : UInt32) :
    Except Stop Session :=
  let s := s.send (.ackFlow typeMessage flowId 0)
  match s.findFlow flowId with
  | some k => do
    (s.slots.getD k .free).terminate unmet pipeCannotTerminate
    return s.freeFlow k false
  | none => return s

/-- The messages of the pipe. -/
def pipeParser (unmet : List SysNeed) : PipeCode → UInt32 → Except Stop Session
  | .err1, flowId => s.pipeErr unmet tspErrMsg2 flowId
  | .err2, flowId => s.pipeErr unmet tspErrMsg3 flowId
  | .errSock, flowId =>
    -- Only a flow with a slot is told the sender here.
    if (s.findFlow flowId).isSome then s.pipeErr unmet tspErrMsg5 flowId else return s
  | .ok, flowId =>
    match s.slots.find? (·.flowId = flowId) with
    | some slot =>
      return s.send (.ackFlow tspAckSendFlow flowId (ntohs e slot.paraThread.destHost.port))
    | none => return s

/-- The exit of the process with a full table of slots. -/
def tooManyThreads : Stop := .exit "typeParser" "flowPosition" "Too many threads"

/-- The exit of the process with a full table of log files. -/
def maxLogFile : Stop := .exit "allowedLogFile" "" "maximum number of log file reached"

/-- The end of the loop, after a message of the given type: it is acknowledged, unless the
    sender is down, and the session leaves its log file. -/
def Session.leave (type : UInt8) : Session :=
  { s with
    uscita := true
    sent := if type ≠ tspSenderDown then s.sent ++ [.ack tspAckRelease] else s.sent
    memLogFile :=
      if s.logCheck = 2 then closeFileLog s.memLogFile s.fileDescriptor else s.memLogFile }

/-- The messages about flows, and those that end the loop: the thread reads the fields of a
    message of the given type, and acts on them. -/
def typeParser (unmet : List SysNeed) (type : UInt8) (input : List UInt8) :
    Except Stop (RecvMsg × Session × List UInt8) :=
  if type = tspSendFlow then
    match s.findFlow noFlow with
    | some flowPosition => do
      let (m, input) ← recvSendFlow e o.passiveMode input
      let slot := (s.slots.getD flowPosition .free).fill o s m
      return (.sendFlow flowPosition slot, s.sendFlow o flowPosition m, input)
    | none => throw tooManyThreads
  else if type = tspClosedFlow then do
    let (flowId, input) ← recvFlowId e input
    let s ← s.closedFlow o unmet flowId
    return (.closedFlow flowId, s, input)
  else if type = tspClosedErr then do
    let (flowId, input) ← recvFlowId e input
    let s ← s.closedErr unmet flowId
    return (.closedErr flowId, s, input)
  else if type = tspAckSendFlow then do
    let (flowId, input) ← recvFlowId e input
    return (.ackSendFlow flowId, s.ackSendFlow flowId, input)
  else return (.type type, s.leave type, input)

/-- The name in a request to log to a local file. -/
def recvNameLog (input : List UInt8) : Except Stop (CharArray dimLogFile × List UInt8) := do
  let (buffer, input) ← recv dimLogFile input
  return (strncpy dimLogFile buffer, input)

/-- The request to log to a local file. -/
def Session.sendNameLog (nameFileLog : CharArray dimLogFile) : Except Stop Session :=
  let s := { s with nameFileLog := nameFileLog }
  if s.logCheck ≠ 1 then
    match allowedLogFile s.memLogFile (cstr nameFileLog.toList) with
    | some (k, memLogFile) =>
      let s := { s with logCheck := 2, memLogFile := memLogFile, fileDescriptor := .mem k }
      return s.send (.ack tspAckSendNameLog)
    | none => throw maxLogFile
  else return { s with fileDescriptor := .out }.send (.ack tspAckSendNameLog)

/-- The request to log to a log server. -/
def Session.sendFlowLog (request : LogRequest) : Session :=
  let s := { s with
    logHost := request.ai_addr
    protocolLog := request.protocolLog
    nameFileLog := strcpy s.nameFileLog request.logFile
    logRemote := if s.logRemote ≠ 1 then 2 else s.logRemote }
  s.send (.ack tspAckSendFlowLog)

/-- A message of the sender, its type having been read. -/
def recvType (unmet : List SysNeed) (type : UInt8) (input : List UInt8) :
    Except Stop (RecvMsg × Session × List UInt8) :=
  if type = tspSendNameLog then do
    let (nameFileLog, input) ← recvNameLog input
    let s ← s.sendNameLog nameFileLog
    return (.sendNameLog nameFileLog, s, input)
  else if type = tspSendFlowLog then
    let (request, input) := recvFlowLog e o.flowLogBuffer input
    return (.sendFlowLog request, s.sendFlowLog request, input)
  else if type ∈ [tspRelease, tspClosedErr, tspSenderDown, tspSendFlow, tspClosedFlow,
      tspErrMsg1, tspAckSendFlow] then typeParser e o s unmet type input
  else if type > tspErrMsg5 then
    throw (.exit "signalManager" "unknown message received" "")
  else return (.type type, s, input)

/-- A message of the sender. -/
def recvMsg (unmet : List SysNeed) (input : List UInt8) :
    Except Stop (RecvMsg × Session × List UInt8) := do
  let (type, input) ← recv 1 input
  recvType e o { s with numDiscovery := 0 } unmet (type.headD 0xFF) input

/-- Nothing has come for some time: the sender is asked, and taken to be down when this
    happens twice. -/
def Session.discover : Session :=
  let s := { s.send (.ack tspDiscovery) with numDiscovery := s.numDiscovery + 1 }
  if s.numDiscovery = 2 then s.leave tspSenderDown else s

/-- A turn of the loop: what has been read, if it was a message of the sender, and what
    is left. -/
def Session.turn (input : List UInt8) :
    SigEvent → Except Stop (List RecvMsg × Session × List UInt8)
  | .sock unmet => do
    let (m, s, input) ← recvMsg e o s unmet input
    return ([m], s, input)
  | .pipe code flowId unmet => do
    let s ← pipeParser e s unmet code flowId
    return ([], s, input)
  | .timeout => return ([], s.discover, input)
  | .closed => return ([], s.leave tspSenderDown, input)

end Session

/-- The loop, until it is left: the messages read, and what is left. -/
def signalManager (e : Endian) (o : RecvOptions) :
    List SigEvent → Session → List UInt8 → Except Stop (List RecvMsg × Session × List UInt8)
  | [], s, input => return ([], s, input)
  | event :: events, s, input =>
    if s.uscita then return ([], s, input)
    else do
      let (ms, s, input) ← s.turn e o input event
      let (ms', s, input) ← signalManager e o events s input
      return (ms ++ ms', s, input)

/-! ## The end of a flow -/

section Ends

variable {o : RecvOptions} {s : Session} {slot : FlowSlot} {unmet : List SysNeed}

/-- What the handlers need to give back what a flow holds: for what is left in its buffer, for its
    thread, and for its sockets. -/
def Session.infosNeeds (s : Session) : List SysNeed :=
  if s.logCheck = 1 ∨ s.logCheck = 2 then [.lock .log]
  else if s.logRemote = 1 ∨ s.logRemote = 2 then [.lock .logRem, .sendInfos]
  else []
@[inherit_doc Session.infosNeeds]
def FlowSlot.threadNeeds (slot : FlowSlot) : List SysNeed :=
  if slot.hThr then [.terminateThread] else []
@[inherit_doc Session.infosNeeds]
def FlowSlot.socketNeeds (slot : FlowSlot) : List SysNeed :=
  if slot.l4Proto = l4ProtoTCP then
    [.lock (.sharedTcp slot.paraThread.indexPort), .closeShared, .closeSocket]
  else if slot.l4Proto = l4ProtoUDP then
    [.lock (.sharedUdp slot.paraThread.indexPort), .closeShared]
  else [.closeSocket]

/-- All of it is met. -/
def AllMet (unmet needs : List SysNeed) : Prop := ∀ need ∈ needs, need ∉ unmet

instance : ∀ unmet needs, Decidable (AllMet unmet needs) :=
  fun unmet needs => inferInstanceAs (Decidable (∀ need ∈ needs, need ∉ unmet))

@[simp] theorem allMet_nil : AllMet unmet [] := List.forall_mem_nil _

@[simp] theorem allMet_cons {need : SysNeed} {needs : List SysNeed} :
    AllMet unmet (need :: needs) ↔ need ∉ unmet ∧ AllMet unmet needs := List.forall_mem_cons

theorem andThen_eq_ok {α : Type} {x : Except Stop Unit} {y : Except Stop α} {a : α} :
    (x >>= fun _ => y) = .ok a ↔ x = .ok () ∧ y = .ok a :=
  Loop.bind_eq_ok.trans ⟨fun ⟨(), h⟩ => h, fun h => ⟨(), h⟩⟩

theorem ok_iff_of_ite {P : Prop} [Decidable P] {stop : Stop} :
    (if P then throw stop else return () : Except Stop Unit) = .ok () ↔ ¬P := by
  split_ifs with h
  · exact iff_of_false nofun (not_not.2 h)
  · exact iff_of_true rfl h

@[simp] theorem await_eq_ok {need : SysNeed} {stop : Stop} :
    await unmet need stop = .ok () ↔ need ∉ unmet := ok_iff_of_ite

theorem flushInfos_eq_ok : s.flushInfos unmet = .ok () ↔ AllMet unmet s.infosNeeds := by
  rw [Session.flushInfos, Session.infosNeeds]
  split_ifs
  · simp
  · simp [andThen_eq_ok]
  · exact iff_of_true rfl allMet_nil

theorem terminate_eq_ok {stop : Stop} :
    slot.terminate unmet stop = .ok () ↔ AllMet unmet slot.threadNeeds := by
  rw [FlowSlot.terminate, FlowSlot.threadNeeds]
  split_ifs
  · simp
  · exact iff_of_true rfl allMet_nil

theorem closeSockets_eq_ok :
    slot.closeSockets unmet = .ok () ↔ AllMet unmet slot.socketNeeds := by
  rw [FlowSlot.closeSockets, FlowSlot.socketNeeds]
  split_ifs <;> simp [andThen_eq_ok]

theorem printFinish_eq_ok : slot.printFinish o = .ok () ↔
    slot.l4Proto = l4ProtoICMP ∨
      slot.l4Proto ∈ l4Protos ∧ (o.passiveMode = true ∨ slot.ai_addr = true) := by
  rw [FlowSlot.printFinish, ok_iff_of_ite]
  simp only [ne_eq, not_and_or, not_not, not_or, Bool.not_eq_false]

theorem freeAddr_eq_ok : slot.freeAddr = .ok () ↔ slot.ai_addr = true := by
  rw [FlowSlot.freeAddr]
  split_ifs with h
  · exact iff_of_true rfl h
  · exact iff_of_false nofun h

/-- The handler of `TSP_CLOSED_FLOW` comes to its end for a slot. -/
structure FlowSlot.Closes (s : Session) (unmet : List SysNeed) (slot : FlowSlot) : Prop where
  l4Proto_mem : slot.l4Proto ∈ l4Protos
  ai_addr : slot.ai_addr
  infos : AllMet unmet s.infosNeeds
  thread : AllMet unmet slot.threadNeeds
  sockets : AllMet unmet slot.socketNeeds

instance : ∀ s unmet (slot : FlowSlot), Decidable (slot.Closes s unmet) := fun s unmet slot =>
  decidable_of_iff (slot.l4Proto ∈ l4Protos ∧ slot.ai_addr ∧ AllMet unmet s.infosNeeds ∧
    AllMet unmet slot.threadNeeds ∧ AllMet unmet slot.socketNeeds)
    ⟨fun ⟨hproto, haddr, hinfos, hthread, hsockets⟩ => ⟨hproto, haddr, hinfos, hthread, hsockets⟩,
      fun ⟨hproto, haddr, hinfos, hthread, hsockets⟩ => ⟨hproto, haddr, hinfos, hthread, hsockets⟩⟩

/-- So does that of `TSP_CLOSED_ERR`. -/
structure FlowSlot.Errs (unmet : List SysNeed) (slot : FlowSlot) : Prop where
  thread : AllMet unmet slot.threadNeeds
  sockets : AllMet unmet slot.socketNeeds

instance : ∀ unmet (slot : FlowSlot), Decidable (slot.Errs unmet) := fun unmet slot =>
  decidable_of_iff (AllMet unmet slot.threadNeeds ∧ AllMet unmet slot.socketNeeds)
    ⟨fun ⟨hthread, hsockets⟩ => ⟨hthread, hsockets⟩,
      fun ⟨hthread, hsockets⟩ => ⟨hthread, hsockets⟩⟩

/-- The end of a flow that has a slot. -/
theorem closedFlow_eq_ok {flowId : UInt32} {k : ℕ} (hk : s.findFlow flowId = some k)
    {s' : Session} : s.closedFlow o unmet flowId = .ok s' ↔
      (s.slots.getD k .free).Closes s unmet ∧
        s' = (s.freeFlow k true).send (.ackFlow tspAckClosedFlow flowId 0) := by
  rw [Session.closedFlow, hk]
  simp only [andThen_eq_ok, flushInfos_eq_ok, terminate_eq_ok, closeSockets_eq_ok,
    printFinish_eq_ok, freeAddr_eq_ok]
  constructor
  · rintro ⟨hinfos, hproto, hthread, hsockets, haddr, ⟨⟩⟩
    have hmem : (s.slots.getD k .free).l4Proto ∈ l4Protos := by
      rcases hproto with heq | hmem
      · rw [heq]
        decide
      · exact hmem.1
    exact ⟨⟨hmem, haddr, hinfos, hthread, hsockets⟩, rfl⟩
  · rintro ⟨h, rfl⟩
    exact ⟨h.infos, .inr ⟨h.l4Proto_mem, .inr h.ai_addr⟩, h.thread, h.sockets, h.ai_addr, rfl⟩

theorem closedErr_eq_ok {flowId : UInt32} {k : ℕ} (hk : s.findFlow flowId = some k)
    {s' : Session} : s.closedErr unmet flowId = .ok s' ↔
      (s.slots.getD k .free).Errs unmet ∧ s' = s.freeFlow k false := by
  rw [Session.closedErr, hk]
  simp only [andThen_eq_ok, terminate_eq_ok, closeSockets_eq_ok]
  constructor
  · rintro ⟨hthread, hsockets, ⟨⟩⟩
    exact ⟨⟨hthread, hsockets⟩, rfl⟩
  · rintro ⟨h, rfl⟩
    exact ⟨h.thread, h.sockets, rfl⟩

theorem pipeErr_eq_ok {typeMessage : UInt8} {flowId : UInt32} {k : ℕ}
    (hk : s.findFlow flowId = some k) {s' : Session} :
    s.pipeErr unmet typeMessage flowId = .ok s' ↔
      AllMet unmet (s.slots.getD k .free).threadNeeds ∧
        s' = (s.send (.ackFlow typeMessage flowId 0)).freeFlow k false := by
  have hk' : (s.send (.ackFlow typeMessage flowId 0)).findFlow flowId = some k := hk
  rw [Session.pipeErr, hk']
  simp only [andThen_eq_ok, terminate_eq_ok]
  constructor
  · rintro ⟨hthread, ⟨⟩⟩
    exact ⟨hthread, rfl⟩
  · rintro ⟨hthread, rfl⟩
    exact ⟨hthread, rfl⟩

/-- A flow without a slot. -/
theorem closedFlow_none {flowId : UInt32} (h : s.findFlow flowId = none) :
    s.closedFlow o unmet flowId = .ok s := by
  rw [Session.closedFlow, h]
  rfl

theorem closedErr_none {flowId : UInt32} (h : s.findFlow flowId = none) :
    s.closedErr unmet flowId = .ok s := by
  rw [Session.closedErr, h]
  rfl

theorem pipeErr_none {typeMessage : UInt8} {flowId : UInt32} (h : s.findFlow flowId = none) :
    s.pipeErr unmet typeMessage flowId = .ok (s.send (.ackFlow typeMessage flowId 0)) := by
  have h' : (s.send (.ackFlow typeMessage flowId 0)).findFlow flowId = none := h
  rw [Session.pipeErr, h']
  rfl

end Ends

/-! ## Messages are read as they were sent -/

/-- What comes to the thread, in this order, and what its handler does not get of the system. -/
inductive Arrival
  | msg (m : SenderMsg) (unmet : List SysNeed)
  | pipe (code : PipeCode) (flowId : UInt32) (unmet : List SysNeed)
  deriving DecidableEq

/-- The event of its arrival. -/
def Arrival.event : Arrival → SigEvent
  | msg _ unmet => .sock unmet
  | pipe code flowId unmet => .pipe code flowId unmet

/-- Its bytes on the connection. -/
def Arrival.bytes (e : Endian) (passiveMode : Bool) : Arrival → List UInt8
  | msg m _ => m.bytes e passiveMode
  | pipe _ _ _ => []

/-- It is a message of the sender. -/
def Arrival.msg? : Arrival → Option SenderMsg
  | msg m _ => some m
  | pipe _ _ _ => none

/-- A message has been read as it was sent; the slot it fills has the values of the sender
    and the given address for the data channel, with the port of the destination. -/
def ReadAs (dataHost : SockAddr → SockAddr) : SenderMsg → RecvMsg → Prop
  | .sendFlow flow flowId, .sendFlow _ slot =>
    slot.flowId = flowId ∧ slot.paraThread.flowId = flowId ∧ slot.l4Proto = flow.l4Proto ∧
      slot.paraThread.l7Proto = flow.l7Proto ∧ slot.paraThread.meter = flow.meter ∧
      slot.paraThread.dsByte = flow.DSByte ∧
      slot.paraThread.payloadLogType = flow.payloadLogType ∧
      slot.paraThread.preambleSize = preambleSize flow.l4Proto flow.payloadLogType ∧
      cstr slot.paraThread.serial.toList = cstr flow.serialReceiver.toList ∧
      slot.paraThread.destHost.addr = (dataHost flow.DestHost).addr ∧
      slot.paraThread.destHost.port = flow.DestHost.port
  | .sendNameLog FileName, .sendNameLog nameFile => cstr nameFile.toList = cstr FileName.toList
  | .closedFlow flowId, .closedFlow flowId' => flowId' = flowId
  | .closedErr flowId, .closedErr flowId' => flowId' = flowId
  | .ackSendFlow flowId, .ackSendFlow flowId' => flowId' = flowId
  | .ackDiscovery, .type t => t = tspAckDiscovery
  | .release, .type t => t = tspRelease
  | _, _ => False

instance (dataHost : SockAddr → SockAddr) : ∀ m m', Decidable (ReadAs dataHost m m') :=
  fun m m' => by
  unfold ReadAs
  split <;> infer_instance

/-- What comes is read as it was sent, all of it and nothing of what follows. -/
def ReadsBack (dataHost : SockAddr → SockAddr) (e : Endian) (o : RecvOptions) (s : Session)
    (arrivals : List Arrival) (rest : List UInt8) : Prop :=
  match signalManager e o (arrivals.map Arrival.event) s
    (arrivals.flatMap (Arrival.bytes e o.passiveMode) ++ rest) with
  | .ok (ms, _, left) => List.Forall₂ (ReadAs dataHost) (arrivals.filterMap Arrival.msg?) ms ∧
      left = rest
  | .error _ => False

instance (dataHost : SockAddr → SockAddr) (e : Endian) (o : RecvOptions) (s : Session)
    (arrivals : List Arrival) (rest : List UInt8) :
    Decidable (ReadsBack dataHost e o s arrivals rest) := by
  unfold ReadsBack
  split <;> infer_instance

/-- There is room for what a message asks for (a free slot for a flow, an entry for a log
    file), and the handler of one that ends a flow comes to its end. -/
def RoomFor (s : Session) : Arrival → Prop
  | .msg (.sendFlow _ _) _ => (s.findFlow noFlow).isSome
  | .msg (.sendNameLog FileName) _ =>
    s.logCheck ≠ 1 → (allowedLogFile s.memLogFile (cstr FileName.toList)).isSome
  | .msg (.closedFlow flowId) unmet =>
    ∀ k ∈ s.findFlow flowId, (s.slots.getD k .free).Closes s unmet
  | .msg (.closedErr flowId) unmet => ∀ k ∈ s.findFlow flowId, (s.slots.getD k .free).Errs unmet
  | .msg _ _ => True
  | .pipe .ok _ _ => True
  | .pipe _ flowId unmet =>
    ∀ k ∈ s.findFlow flowId, AllMet unmet (s.slots.getD k .free).threadNeeds

instance (s : Session) : ∀ a, Decidable (RoomFor s a) := fun a => by
  unfold RoomFor
  split <;> infer_instance

/-- There is room for every message when the thread comes to it. -/
def HasRoom (e : Endian) (o : RecvOptions) (s : Session) (arrivals : List Arrival) : Prop :=
  ∀ before a after, arrivals = before ++ a :: after → ∀ ms s' left,
    signalManager e o (before.map Arrival.event) s
      (before.flatMap (Arrival.bytes e o.passiveMode)) = .ok (ms, s', left) → RoomFor s' a

/-- It is checked for the first arrivals, one after the other. -/
theorem hasRoom_of_take {e : Endian} {o : RecvOptions} {s : Session} {arrivals : List Arrival}
    (h : ∀ i < arrivals.length, ∀ a ∈ arrivals[i]?,
      ∀ r ∈ (signalManager e o ((arrivals.take i).map Arrival.event) s
        ((arrivals.take i).flatMap (Arrival.bytes e o.passiveMode))).toOption, RoomFor r.2.1 a) :
    HasRoom e o s arrivals := by
  rintro before a after rfl ms s' left hbefore
  have hlt : before.length < (before ++ a :: after).length := by simp
  have hget : (before ++ a :: after)[before.length]? = some a := by simp
  refine h before.length hlt a hget (ms, s', left) ?_
  rw [List.take_left, hbefore]
  rfl

section ReadBack

variable {e e₁ : Endian} {o : RecvOptions} {s s' : Session} {unmet : List SysNeed}

/-- The address and the port of a request are those of the destination. -/
theorem destHost_request (hpassive : o.passiveMode = false) (flow : FlowDescriptor)
    (flowId : UInt32) :
    ((flow.request false flowId).destHost o).addr = flow.DestHost.addr ∧
      ((flow.request false flowId).destHost o).port = flow.DestHost.port := by
  have hchar {n : ℕ} (a : CharArray n) : charArray n a.toList = a := by
    simpa using charArray_append a []
  have hnot : ¬((flow.request false flowId).srcAddrSpecify = 0x00 ∧ o.passiveMode) :=
    fun h => absurd (hpassive.symm.trans h.2) Bool.false_ne_true
  rw [FlowRequest.destHost, if_neg hnot]
  rcases haddr : flow.DestHost.addr with s_addr | sin6_addr
  · rw [if_pos (by simp [FlowDescriptor.request, haddr, InetAddr.l3Proto])]
    simp [FlowDescriptor.request, haddr, InetAddr.bytes, hchar]
  · rw [if_neg (by simp [FlowDescriptor.request, haddr, InetAddr.l3Proto]; decide)]
    simp [FlowDescriptor.request, haddr, InetAddr.bytes, hchar]

/-- A slot filled from a request has the values of the sender. -/
theorem readAs_fill (hpassive : o.passiveMode = false) (slot : FlowSlot) (flow : FlowDescriptor)
    (flowId : UInt32) (k : ℕ) :
    ReadAs o.dataHost (.sendFlow flow flowId)
      (.sendFlow k (slot.fill o s (flow.request false flowId))) := by
  obtain ⟨haddr, hport⟩ := destHost_request hpassive flow flowId
  refine ⟨rfl, rfl, rfl, rfl, rfl, rfl, rfl, rfl, cstr_strncpy_toList _, ?_, ?_⟩
  · simp only [FlowSlot.fill, hpassive, Bool.false_eq_true, if_false, RecvOptions.dataHost]
    split
    · rfl
    · exact haddr
  · simp only [FlowSlot.fill, hpassive, Bool.false_eq_true, if_false, RecvOptions.dataHost]
    split <;> exact hport

theorem uscita_sendFlow (k : ℕ) (m : FlowRequest) : (s.sendFlow o k m).uscita = s.uscita := by
  rw [Session.sendFlow]
  split_ifs <;> rfl

theorem uscita_ackSendFlow (flowId : UInt32) : (s.ackSendFlow flowId).uscita = s.uscita := by
  rw [Session.ackSendFlow]
  split <;> rfl

/-- The thread when a message has come: the sender has not been asked. -/
abbrev Session.heard (s : Session) : Session := { s with numDiscovery := 0 }

/-- With room for it, the request to log to a local file is met. -/
theorem exists_sendNameLog {FileName : CharArray dimLogFile}
    (h : RoomFor s (.msg (.sendNameLog FileName) unmet)) :
    ∃ s', s.heard.sendNameLog (strncpy dimLogFile FileName.toList) = .ok s' := by
  rw [Session.sendNameLog]
  split_ifs with hcheck
  · obtain ⟨⟨k, memLogFile⟩, hk⟩ := Option.isSome_iff_exists.1 (h hcheck)
    simp only [cstr_strncpy_toList, hk]
    exact ⟨_, rfl⟩
  · exact ⟨_, rfl⟩

/-- A handler that comes to its end does not end the loop. -/
theorem exists_closedFlow {flowId : UInt32} (h : RoomFor s (.msg (.closedFlow flowId) unmet)) :
    ∃ s', s.heard.closedFlow o unmet flowId = .ok s' ∧ s'.uscita = s.uscita := by
  rcases hk : s.findFlow flowId with _ | k
  · exact ⟨_, closedFlow_none (s := s.heard) hk, rfl⟩
  · obtain ⟨hproto, haddr, hinfos, hthread, hsockets⟩ := h k hk
    exact ⟨_, (closedFlow_eq_ok (s := s.heard) hk).2
      ⟨⟨hproto, haddr, hinfos, hthread, hsockets⟩, rfl⟩, rfl⟩

theorem exists_closedErr {flowId : UInt32} (h : RoomFor s (.msg (.closedErr flowId) unmet)) :
    ∃ s', s.heard.closedErr unmet flowId = .ok s' ∧ s'.uscita = s.uscita := by
  rcases hk : s.findFlow flowId with _ | k
  · exact ⟨_, closedErr_none (s := s.heard) hk, rfl⟩
  · exact ⟨_, (closedErr_eq_ok (s := s.heard) hk).2 ⟨h k hk, rfl⟩, rfl⟩

theorem exists_pipeErr {flowId : UInt32} (typeMessage : UInt8)
    (h : ∀ k ∈ s.findFlow flowId, AllMet unmet (s.slots.getD k .free).threadNeeds) :
    ∃ s', s.pipeErr unmet typeMessage flowId = .ok s' ∧ s'.uscita = s.uscita := by
  rcases hk : s.findFlow flowId with _ | k
  · exact ⟨_, pipeErr_none hk, rfl⟩
  · exact ⟨_, (pipeErr_eq_ok hk).2 ⟨h k hk, rfl⟩, rfl⟩

theorem exists_pipeParser {code : PipeCode} {flowId : UInt32}
    (h : RoomFor s (.pipe code flowId unmet)) :
    ∃ s', pipeParser e s unmet code flowId = .ok s' ∧ s'.uscita = s.uscita := by
  cases code with
  | ok =>
    rw [pipeParser]
    split
    · exact ⟨_, rfl, rfl⟩
    · exact ⟨_, rfl, rfl⟩
  | err1 => exact exists_pipeErr tspErrMsg2 h
  | err2 => exact exists_pipeErr tspErrMsg3 h
  | errSock =>
    rw [pipeParser]
    split_ifs
    · exact exists_pipeErr tspErrMsg5 h
    · exact ⟨_, rfl, rfl⟩

/-- It is answered, and nothing happens to the flows. -/
theorem sendNameLog_spec {nameFileLog : CharArray dimLogFile} {s' : Session}
    (h : s.sendNameLog nameFileLog = .ok s') : s'.slots = s.slots ∧
      s'.sent = s.sent ++ [.ack tspAckSendNameLog] ∧ s'.uscita = s.uscita := by
  rw [Session.sendNameLog] at h
  split_ifs at h
  · split at h
    · cases h
      exact ⟨rfl, rfl, rfl⟩
    · cases h
  · cases h
    exact ⟨rfl, rfl, rfl⟩

/-- A message is one of those about flows, or one that ends the loop. -/
theorem recvType_typeParser {type : UInt8} (input : List UInt8)
    (h : type ∈ [tspRelease, tspClosedErr, tspSenderDown, tspSendFlow, tspClosedFlow, tspErrMsg1,
      tspAckSendFlow]) : recvType e o s unmet type input = typeParser e o s unmet type input := by
  have hname : type ≠ tspSendNameLog := by
    rintro rfl
    exact absurd h (by decide)
  have hflow : type ≠ tspSendFlowLog := by
    rintro rfl
    exact absurd h (by decide)
  rw [recvType, if_neg hname, if_neg hflow, if_pos h]

theorem recvMsg_cons (type : UInt8) (input : List UInt8) :
    recvMsg e o s unmet (type :: input) = recvType e o s.heard unmet type input := by
  rw [recvMsg, recv, recvAll_one]
  rfl

/-- The type of a message about a flow is read first. -/
theorem recvMsg_flowIdMsg {type : UInt8} (flowId : UInt32) (rest : List UInt8)
    (h : type ∈ [tspRelease, tspClosedErr, tspSenderDown, tspSendFlow, tspClosedFlow, tspErrMsg1,
      tspAckSendFlow]) : recvMsg e o s unmet (flowIdMsg e₁ type flowId ++ rest) =
        typeParser e o s.heard unmet type (store32 e₁ (htonl e₁ flowId) ++ rest) := by
  rw [flowIdMsg, List.append_assoc, List.singleton_append, recvMsg_cons, recvType_typeParser _ h]

/-- The request for a flow fills the first free slot. -/
theorem recvMsg_sendFlow {k : ℕ} (hk : s.findFlow noFlow = some k) (flow : FlowDescriptor)
    (flowId : UInt32) (rest : List UInt8) :
    recvMsg e o s unmet ((SenderMsg.sendFlow flow flowId).bytes e₁ o.passiveMode ++ rest) =
      .ok (.sendFlow k
          ((s.slots.getD k .free).fill o s.heard (flow.request o.passiveMode flowId)),
        s.heard.sendFlow o k (flow.request o.passiveMode flowId), rest) := by
  have hbytes : (SenderMsg.sendFlow flow flowId).bytes e₁ o.passiveMode ++ rest =
    tspSendFlow :: ((requestToSend e₁ o.passiveMode flow flowId).tail ++ rest) := rfl
  have hk : s.heard.findFlow noFlow = some k := hk
  rw [hbytes, recvMsg_cons, recvType_typeParser _ (by decide), typeParser, if_pos rfl, hk]
  simp only [recvSendFlow_requestToSend]
  rfl

/-- Without a free slot, the process exits. -/
theorem recvMsg_sendFlow_full (hk : s.findFlow noFlow = none) (flow : FlowDescriptor)
    (flowId : UInt32) (rest : List UInt8) :
    recvMsg e o s unmet ((SenderMsg.sendFlow flow flowId).bytes e₁ o.passiveMode ++ rest) =
      .error tooManyThreads := by
  have hbytes : (SenderMsg.sendFlow flow flowId).bytes e₁ o.passiveMode ++ rest =
    tspSendFlow :: ((requestToSend e₁ o.passiveMode flow flowId).tail ++ rest) := rfl
  have hk : s.heard.findFlow noFlow = none := hk
  rw [hbytes, recvMsg_cons, recvType_typeParser _ (by decide), typeParser, if_pos rfl, hk]
  rfl

/-- The request to log to a local file is met if there is room for it. -/
theorem recvMsg_sendNameLog (FileName : CharArray dimLogFile) (rest : List UInt8) :
    recvMsg e o s unmet ((SenderMsg.sendNameLog FileName).bytes e₁ o.passiveMode ++ rest) =
      (s.heard.sendNameLog (strncpy dimLogFile FileName.toList)).map fun s' =>
        (.sendNameLog (strncpy dimLogFile FileName.toList), s', rest) := by
  have hbytes : (SenderMsg.sendNameLog FileName).bytes e₁ o.passiveMode ++ rest =
    tspSendNameLog :: (FileName.toList ++ rest) := rfl
  rw [hbytes, recvMsg_cons, recvType, if_pos rfl, recvNameLog, recv_append FileName.toList_length]
  rfl

theorem recvMsg_closedFlow (flowId : UInt32) (rest : List UInt8) :
    recvMsg e o s unmet ((SenderMsg.closedFlow flowId).bytes e₁ o.passiveMode ++ rest) =
      (s.heard.closedFlow o unmet flowId).map fun s' => (.closedFlow flowId, s', rest) := by
  rw [SenderMsg.bytes, closedFlow, recvMsg_flowIdMsg _ _ (by decide), typeParser,
    if_neg (by decide), if_pos rfl, recvFlowId_append]
  rfl

theorem recvMsg_closedErr (flowId : UInt32) (rest : List UInt8) :
    recvMsg e o s unmet ((SenderMsg.closedErr flowId).bytes e₁ o.passiveMode ++ rest) =
      (s.heard.closedErr unmet flowId).map fun s' => (.closedErr flowId, s', rest) := by
  rw [SenderMsg.bytes, closedFlowErr, recvMsg_flowIdMsg _ _ (by decide), typeParser,
    if_neg (by decide), if_neg (by decide), if_pos rfl, recvFlowId_append]
  rfl

theorem recvMsg_ackSendFlow (flowId : UInt32) (rest : List UInt8) :
    recvMsg e o s unmet ((SenderMsg.ackSendFlow flowId).bytes e₁ o.passiveMode ++ rest) =
      .ok (.ackSendFlow flowId, s.heard.ackSendFlow flowId, rest) := by
  rw [SenderMsg.bytes, ackSendFlow, recvMsg_flowIdMsg _ _ (by decide), typeParser,
    if_neg (by decide), if_neg (by decide), if_neg (by decide), if_pos rfl, recvFlowId_append]
  rfl

theorem recvMsg_ackDiscovery (rest : List UInt8) :
    recvMsg e o s unmet (SenderMsg.ackDiscovery.bytes e₁ o.passiveMode ++ rest) =
      .ok (.type tspAckDiscovery, s.heard, rest) :=
  recvMsg_cons tspAckDiscovery rest

theorem recvMsg_release (rest : List UInt8) :
    recvMsg e o s unmet (SenderMsg.release.bytes e₁ o.passiveMode ++ rest) =
      .ok (.type tspRelease, s.heard.leave tspRelease, rest) :=
  recvMsg_cons tspRelease rest

/-- With room for it, a message of the sender is read as it was sent, and nothing else, and
    only a release ends the loop. -/
theorem recvMsg_readAs (hpassive : o.passiveMode = false) (m : SenderMsg)
    (hroom : RoomFor s (.msg m unmet)) :
    ∃ m' s', (∀ rest, recvMsg e o s unmet (m.bytes e false ++ rest) = .ok (m', s', rest)) ∧
      ReadAs o.dataHost m m' ∧ (m ≠ .release → s'.uscita = s.uscita) := by
  have huscita : s.uscita = s.heard.uscita := rfl
  rw [huscita, ← hpassive]
  cases m with
  | sendFlow flow flowId =>
    -- A free slot is looked for before the fields are read.
    obtain ⟨k, hk⟩ := Option.isSome_iff_exists.1 hroom
    refine ⟨_, _, recvMsg_sendFlow hk flow flowId, ?_, fun _ => uscita_sendFlow k _⟩
    rw [hpassive]
    exact readAs_fill hpassive (s.slots.getD k .free) flow flowId k
  | sendNameLog FileName =>
    obtain ⟨s₁, hs₁⟩ := exists_sendNameLog hroom
    refine ⟨.sendNameLog _, s₁, fun rest => ?_, cstr_strncpy_toList FileName,
      fun _ => (sendNameLog_spec hs₁).2.2⟩
    rw [recvMsg_sendNameLog, hs₁]
    rfl
  | closedFlow flowId =>
    obtain ⟨s₁, hs₁, huscita⟩ := exists_closedFlow (o := o) hroom
    refine ⟨.closedFlow flowId, s₁, fun rest => ?_, rfl, fun _ => huscita⟩
    rw [recvMsg_closedFlow, hs₁]
    rfl
  | closedErr flowId =>
    obtain ⟨s₁, hs₁, huscita⟩ := exists_closedErr hroom
    refine ⟨.closedErr flowId, s₁, fun rest => ?_, rfl, fun _ => huscita⟩
    rw [recvMsg_closedErr, hs₁]
    rfl
  | ackSendFlow flowId =>
    exact ⟨_, _, recvMsg_ackSendFlow flowId, rfl, fun _ => uscita_ackSendFlow _⟩
  | ackDiscovery => exact ⟨_, _, recvMsg_ackDiscovery, rfl, fun _ => rfl⟩
  | release => exact ⟨_, _, recvMsg_release, rfl, fun h => absurd rfl h⟩

/-- A turn of the loop comes first, and the others go on from what it leaves. -/
theorem signalManager_turn (hs : s.uscita = false) (events : List SigEvent) {event : SigEvent}
    {input left : List UInt8} {ms : List RecvMsg} {s' : Session}
    (h : s.turn e o input event = .ok (ms, s', left)) :
    signalManager e o (event :: events) s input =
      (signalManager e o events s' left).map fun (ms', r) => (ms ++ ms', r) := by
  rw [signalManager, if_neg (hs ▸ Bool.false_ne_true), h]
  change (signalManager e o events s' left).bind _ = _
  rcases signalManager e o events s' left with stop | ⟨ms', s'', left'⟩
  · rfl
  · rfl

/-- A message of the pipe leaves what is to be read. -/
theorem signalManager_pipe (hs : s.uscita = false) (events : List SigEvent) {code : PipeCode}
    {flowId : UInt32} (h : pipeParser e s unmet code flowId = .ok s') (input : List UInt8) :
    signalManager e o (.pipe code flowId unmet :: events) s input =
      signalManager e o events s' input := by
  have hturn : s.turn e o input (.pipe code flowId unmet) = .ok ([], s', input) := by
    rw [Session.turn, h]
    rfl
  rw [signalManager_turn hs events hturn]
  rcases signalManager e o events s' input with stop | r
  · rfl
  · rfl

/-- A message of the sender is read first, and the rest from what it leaves. -/
theorem signalManager_sock (hs : s.uscita = false) (events : List SigEvent)
    {input left : List UInt8} {m : RecvMsg} (h : recvMsg e o s unmet input = .ok (m, s', left)) :
    signalManager e o (.sock unmet :: events) s input =
      (signalManager e o events s' left).map fun (ms, r) => (m :: ms, r) := by
  have hturn : s.turn e o input (.sock unmet) = .ok ([m], s', left) := by
    rw [Session.turn, h]
    rfl
  exact signalManager_turn hs events hturn

end ReadBack

/-! ## What is not read as it was sent -/

/-- A flow to 10.0.0.2, port 8999. -/
def someFlow : FlowDescriptor where
  l4Proto := l4ProtoUDP
  l7Proto := 0
  meter := 0
  DSByte := 0
  payloadLogType := plStandard
  serialReceiver := strncpy dimNameSerialInterface (chars "noSerial")
  SrcHost := ⟨.ofBytes 0 0 0 0, 0, 0⟩
  DestHost := ⟨.ofBytes 10 0 0 2, htons .little 8999, 0⟩
  srcAddrSpecify := false

/-- A receiver with or without the option `-a 10.0.0.9`. -/
def someOptions (bindAddr : Bool) : RecvOptions where
  passiveMode := false
  globalBindAddr := if bindAddr then some ⟨.ofBytes 10 0 0 9, 0, 0⟩ else none
  passiveSender := ⟨.ofBytes 0 0 0 0, 0, 0⟩
  ipv6ToIfIndex _ := 0
  flowLogBuffer := zeroBuffer

/-- A TCP flow that is requested, is ready and is closed, with a request to log in between; the
    mutex of another port is not had. -/
def someMessages : List Arrival :=
  [.msg (.sendFlow { someFlow with l4Proto := l4ProtoTCP } 1) [], .pipe .ok 1 [],
    .msg (.sendNameLog recvLogName) [], .msg (.closedFlow 1) [.lock (.sharedTcp 9000)],
    .msg .release []]

end Ditg
