import Ditg.Library.Bytes
import Ditg.Library.Memory
import Ditg.Library.Socket
import Ditg.Common.Packet

/-!
# The messages of the signalling protocol

What the two parties of a signalling connection write to it. A message is its type, a
byte, and the fields of the type, one after the other (`putValue`); it does not say how
long it is, so that both sides have to agree on the fields of every type.

* `SenderMsg`: the messages of the sender (`requestToSend`, `sendNameLog`, `closedFlow`
  and the others), and their bytes;
* `recvSendFlow`: how the receiver reads the fields of a request for a flow;
* `recvSendFlow_requestToSend`: it reads those of the sender, and nothing else.
-/

namespace Ditg

open Bytes Memory Socket

/-- The types of the messages. -/
def tspSendFlow : UInt8 := 3
@[inherit_doc tspSendFlow] def tspClosedFlow : UInt8 := 4
@[inherit_doc tspSendFlow] def tspAckSendFlow : UInt8 := 5
@[inherit_doc tspSendFlow] def tspAckClosedFlow : UInt8 := 6
@[inherit_doc tspSendFlow] def tspAckRelease : UInt8 := 7
@[inherit_doc tspSendFlow] def tspDiscovery : UInt8 := 8
@[inherit_doc tspSendFlow] def tspAckDiscovery : UInt8 := 9
@[inherit_doc tspSendFlow] def tspRelease : UInt8 := 11
@[inherit_doc tspSendFlow] def tspSendFlowLog : UInt8 := 12
@[inherit_doc tspSendFlow] def tspAckSendFlowLog : UInt8 := 13
@[inherit_doc tspSendFlow] def tspErrMsg1 : UInt8 := 14
@[inherit_doc tspSendFlow] def tspErrMsg2 : UInt8 := 15
@[inherit_doc tspSendFlow] def tspErrMsg3 : UInt8 := 16
@[inherit_doc tspSendFlow] def tspClosedErr : UInt8 := 17
@[inherit_doc tspSendFlow] def tspAckSendNameLog : UInt8 := 18
@[inherit_doc tspSendFlow] def tspSendNameLog : UInt8 := 19
@[inherit_doc tspSendFlow] def tspSenderDown : UInt8 := 20
@[inherit_doc tspSendFlow] def tspErrMsg4 : UInt8 := 21
@[inherit_doc tspSendFlow] def tspErrMsg5 : UInt8 := 22

/-- The network protocols, as they are sent. -/
def l3ProtoIPv4 : UInt8 := 4
@[inherit_doc l3ProtoIPv4] def l3ProtoIPv6 : UInt8 := 6

/-- The transport protocol ICMP. -/
def l4ProtoICMP : UInt8 := 3

/-- `DIM_NAME_SERIAL_INTERFACE`. -/
def dimNameSerialInterface : ℕ := 10

/-- `DIM_LOG_FILE`. -/
def dimLogFile : ℕ := 200

/-! ## Addresses -/

/-- An internet address of either family, as in memory. -/
inductive InetAddr
  | inet (s_addr : CharArray 4)
  | inet6 (sin6_addr : CharArray 16)
  deriving DecidableEq

/-- An IPv4 address by its bytes. -/
def InetAddr.ofBytes (a b c d : UInt8) : InetAddr := .inet ⟨[a, b, c, d], rfl⟩

/-- Its bytes. -/
def InetAddr.bytes : InetAddr → List UInt8
  | inet s_addr => s_addr.toList
  | inet6 sin6_addr => sin6_addr.toList

/-- `AF_INET`, or `AF_INET6`. -/
def InetAddr.ai_family : InetAddr → UInt32
  | inet _ => 2
  | inet6 _ => 10

/-- The network protocol of the address. -/
def InetAddr.l3Proto : InetAddr → UInt8
  | inet _ => l3ProtoIPv4
  | inet6 _ => l3ProtoIPv6

/-- An address with a port, which is in network order (`sin_port`, `sin6_port`), and a
    scope, for IPv6. -/
structure SockAddr where
  addr : InetAddr
  port : UInt16
  scope_id : UInt32
  deriving DecidableEq

/-! ## The messages of the sender -/

/-- What the sender knows of a flow, as far as it tells the receiver. -/
structure FlowDescriptor where
  l4Proto : UInt8
  l7Proto : UInt8
  meter : UInt8
  DSByte : UInt8
  payloadLogType : UInt8
  serialReceiver : CharArray dimNameSerialInterface
  SrcHost : SockAddr
  DestHost : SockAddr
  srcAddrSpecify : Bool
  deriving DecidableEq

section Sender

variable (e : Endian) (passiveMode : Bool)

/-- The request for a flow. In passive mode it is the source of the flow that is told, and
    the port of the destination comes before it. -/
def requestToSend (flow : FlowDescriptor) (flowId : UInt32) : List UInt8 :=
  let host := if passiveMode then flow.SrcHost else flow.DestHost
  [tspSendFlow, flow.l4Proto, flow.l7Proto, flow.meter, flow.DSByte, host.addr.l3Proto] ++
    store32 e (htonl e flowId) ++ [flow.payloadLogType] ++ flow.serialReceiver.toList ++
    (if passiveMode then
      store16 e (htons e flow.DestHost.port) ++ [if flow.srcAddrSpecify then 0xFF else 0x00]
    else []) ++
    store16 e (htons e host.port) ++ host.addr.bytes

/-- The request to log to a local file. -/
def sendNameLog (FileName : CharArray dimLogFile) : List UInt8 :=
  [tspSendNameLog] ++ FileName.toList

/-- A message about a flow. -/
def flowIdMsg (type : UInt8) (flowId : UInt32) : List UInt8 :=
  [type] ++ store32 e (htonl e flowId)

/-- The end of a flow, that of one that could not be sent, and, in passive mode, the
    acknowledgement of the port of a flow. -/
def closedFlow : UInt32 → List UInt8 := flowIdMsg e tspClosedFlow
@[inherit_doc closedFlow]
def closedFlowErr : UInt32 → List UInt8 := flowIdMsg e tspClosedErr
@[inherit_doc closedFlow]
def ackSendFlow : UInt32 → List UInt8 := flowIdMsg e tspAckSendFlow

/-- A message that is only its type. -/
def sendType (type : UInt8) : List UInt8 := [type]

/-- The messages of the sender, after the connection has been set up. -/
inductive SenderMsg
  | sendFlow (flow : FlowDescriptor) (flowId : UInt32)
  | sendNameLog (FileName : CharArray dimLogFile)
  | closedFlow (flowId : UInt32)
  | closedErr (flowId : UInt32)
  | ackSendFlow (flowId : UInt32)
  | ackDiscovery
  | release
  deriving DecidableEq

/-- The bytes of a message. -/
def SenderMsg.bytes : SenderMsg → List UInt8
  | sendFlow flow flowId => requestToSend e passiveMode flow flowId
  | sendNameLog FileName => Ditg.sendNameLog FileName
  | closedFlow flowId => Ditg.closedFlow e flowId
  | closedErr flowId => closedFlowErr e flowId
  | ackSendFlow flowId => Ditg.ackSendFlow e flowId
  | ackDiscovery => sendType tspAckDiscovery
  | release => sendType tspRelease

end Sender

/-! ## The messages of the receiver -/

/-- The messages of the receiver: one that is only its type (`sendAck`), or one about a
    flow (`sendAckFlow`). -/
inductive Reply
  | ack (typeMessage : UInt8)
  | ackFlow (typeMessage : UInt8) (flowId : UInt32) (openedPort : UInt16)
  deriving DecidableEq, Repr

/-- The bytes of a reply. Only the acknowledgement of a flow has a port. -/
def Reply.bytes (e : Endian) : Reply → List UInt8
  | ack typeMessage => [typeMessage]
  | ackFlow typeMessage flowId openedPort =>
    [typeMessage] ++ store32 e (htonl e flowId) ++
      if typeMessage = tspAckSendFlow then store16 e (htons e openedPort) else []

/-! ## Reading a message -/

/-- Why a reader has stopped. -/
inductive Stop
  /-- It waits for bytes. -/
  | blocked
  /-- It waits for a mutex. -/
  | locked
  /-- It has done what has no defined behaviour. -/
  | undefined
  /-- The process has exited (`reportErrorAndExit`). -/
  | exit (function program msg : String)
  deriving DecidableEq, Repr

/-- `recv` of all bytes asked for. -/
abbrev recv (n : ℕ) : List UInt8 → Except Stop (List UInt8 × List UInt8) := recvAll .blocked n

/-- The fields of a request for a flow, as read: the port is converted with `ntohs`, the
    address is as it came. -/
structure FlowRequest where
  l4Proto : UInt8
  l7Proto : UInt8
  meter : UInt8
  dsByte : UInt8
  l3Proto : UInt8
  flowId : UInt32
  plType : UInt8
  serialReceiver : List UInt8
  portForPssv : UInt16
  srcAddrSpecify : UInt8
  ptrPort : UInt16
  ptrIP : List UInt8
  deriving DecidableEq

section Reading

variable (e : Endian) (passiveMode : Bool)

/-- The number of bytes read of an address. -/
def addrSize (l3Proto : UInt8) : ℕ :=
  if l3Proto = l3ProtoIPv4 then 4 else if l3Proto = l3ProtoIPv6 then 16 else 0

/-- The fields there are only in passive mode. -/
def recvPassive (input : List UInt8) : Except Stop ((UInt16 × UInt8) × List UInt8) :=
  if passiveMode then do
    let (portForPssv, input) ← recv 2 input
    let (srcAddrSpecify, input) ← recv 1 input
    return ((ntohs e (load16 e portForPssv), srcAddrSpecify.headD 0), input)
  else return ((0, 0x00), input)

/-- The fields of a request for a flow, one `recv` after the other. -/
def recvSendFlow (input : List UInt8) : Except Stop (FlowRequest × List UInt8) := do
  let (buffer, input) ← recv 3 input
  let (dsByte, input) ← recv 1 input
  let (l3Proto, input) ← recv 1 input
  let (flowId, input) ← recv 4 input
  let (plType, input) ← recv 1 input
  let (serialReceiver, input) ← recv dimNameSerialInterface input
  let ((portForPssv, srcAddrSpecify), input) ← recvPassive e passiveMode input
  let (ptrPort, input) ← recv 2 input
  let (ptrIP, input) ← recv (addrSize (l3Proto.headD 0)) input
  return (
    { l4Proto := buffer.getD 0 0
      l7Proto := buffer.getD 1 0
      meter := buffer.getD 2 0
      dsByte := dsByte.headD 0
      l3Proto := l3Proto.headD 0
      flowId := ntohl e (load32 e flowId)
      plType := plType.headD 0
      serialReceiver := serialReceiver
      portForPssv := portForPssv
      srcAddrSpecify := srcAddrSpecify
      ptrPort := ntohs e (load16 e ptrPort)
      ptrIP := ptrIP }, input)

/-- The flow id of a message about a flow. -/
def recvFlowId (input : List UInt8) : Except Stop (UInt32 × List UInt8) := do
  let (buffer, input) ← recv 4 input
  return (ntohl e (load32 e buffer), input)

/-! ## Reading what has been sent -/

variable {passiveMode}

/-- The request for a flow, as the receiver should find it. -/
def FlowDescriptor.request (passiveMode : Bool) (flow : FlowDescriptor) (flowId : UInt32) :
    FlowRequest :=
  let host := if passiveMode then flow.SrcHost else flow.DestHost
  { l4Proto := flow.l4Proto
    l7Proto := flow.l7Proto
    meter := flow.meter
    dsByte := flow.DSByte
    l3Proto := host.addr.l3Proto
    flowId := flowId
    plType := flow.payloadLogType
    serialReceiver := flow.serialReceiver.toList
    portForPssv := if passiveMode then flow.DestHost.port else 0
    srcAddrSpecify := if passiveMode ∧ flow.srcAddrSpecify then 0xFF else 0x00
    ptrPort := host.port
    ptrIP := host.addr.bytes }

@[simp] theorem length_bytes_addr (addr : InetAddr) :
    addr.bytes.length = addrSize addr.l3Proto := by
  cases addr with
  | inet s_addr => exact s_addr.toList_length
  | inet6 sin6_addr => exact sin6_addr.toList_length

theorem recv_append {n : ℕ} {bs : List UInt8} (h : bs.length = n) (rest : List UInt8) :
    recv n (bs ++ rest) = .ok (bs, rest) :=
  recvAll_append Stop.blocked h rest

/-- A flow id is read as it was sent, by a host of either byte order. -/
theorem recvFlowId_append (e₁ e₂ : Endian) (flowId : UInt32) (rest : List UInt8) :
    recvFlowId e₂ (store32 e₁ (htonl e₁ flowId) ++ rest) = .ok (flowId, rest) := by
  have hload := ntohl_load32_htonl e₁ e₂ flowId []
  rw [List.append_nil] at hload
  rw [recvFlowId, recv_append (length_store32 e₁ _)]
  exact congrArg (fun id => Except.ok (id, rest)) hload

/-- The fields of passive mode are read as they were sent. -/
theorem recvPassive_append (e₁ e₂ : Endian) (flow : FlowDescriptor) (rest : List UInt8) :
    recvPassive e₂ passiveMode ((if passiveMode then
        store16 e₁ (htons e₁ flow.DestHost.port) ++ [if flow.srcAddrSpecify then 0xFF else 0x00]
      else []) ++ rest) =
      .ok ((if passiveMode then flow.DestHost.port else 0,
        if passiveMode ∧ flow.srcAddrSpecify then 0xFF else 0x00), rest) := by
  cases passiveMode with
  | false => rfl
  | true =>
    have hload := ntohs_load16_htons e₁ e₂ flow.DestHost.port []
    rw [List.append_nil] at hload
    simp only [recvPassive, if_true, List.append_assoc, true_and]
    rw [recv_append (length_store16 e₁ _)]
    exact congrArg (fun port => Except.ok ((port, _), rest)) hload

/-- The fields of a request are read as they were sent, by a host of either byte order, and
    nothing else is. -/
theorem recvSendFlow_requestToSend (e₁ e₂ : Endian) (flow : FlowDescriptor) (flowId : UInt32)
    (rest : List UInt8) :
    recvSendFlow e₂ passiveMode ((requestToSend e₁ passiveMode flow flowId).tail ++ rest) =
      .ok (flow.request passiveMode flowId, rest) := by
  have hid := ntohl_load32_htonl e₁ e₂ flowId []
  have hport := ntohs_load16_htons e₁ e₂
    (if passiveMode then flow.SrcHost else flow.DestHost).port []
  rw [List.append_nil] at hid hport
  have hbuffer (a b c : UInt8) (s : List UInt8) : recv 3 (a :: b :: c :: s) = .ok ([a, b, c], s) :=
    recv_append (show [a, b, c].length = 3 from rfl) s
  simp only [requestToSend, recvSendFlow, List.append_assoc, List.cons_append, List.nil_append,
    List.tail_cons, List.headD_cons, hbuffer, recvAll_one, recv_append (length_store32 e₁ _),
    recv_append (length_store16 e₁ _), recv_append flow.serialReceiver.toList_length,
    recv_append (length_bytes_addr _), recvPassive_append, bind, Except.bind, hid, hport]
  rfl

end Reading

end Ditg
