import Ditg.Signaling.Message

/-!
# The request for a log server

With a log server for the receiver, the sender tells it the address, the port and the
protocol of the server and the name of the log file (`sendLog`). How long the message is
depends on the family of the address. The receiver reads it at once, into a buffer whose
size does not (`recvFlowLog`), and which is of neither size: it is by 4 bytes longer than
the message with an IPv4 address, and by 8 shorter than that with an IPv6 address. The
latter does not fit the buffer of the sender either.

* `flowLog_readBack_iff`: the request fits its buffer, and is read back as a whole and
  alone, if and only if the address is one of IPv4 and no byte follows yet.
-/

namespace Ditg

open Bytes Memory

/-! ## The model -/

section Sender

variable (e : Endian) (logHost : SockAddr) (logProtocol : UInt8) (FileName : CharArray dimLogFile)

/-- The size of `Messaggio`. -/
def sizeMessaggio : ℕ := dimLogFile + 20

/-- What is put into `Messaggio`. -/
def flowLogMessaggio : List UInt8 :=
  [tspSendFlowLog] ++ store32 e (htonl e logHost.addr.ai_family) ++ logHost.addr.bytes ++
    store16 e logHost.port ++ [logProtocol] ++ FileName.toList

/-- How much of it is sent. -/
def sizeMessag : ℕ := 1 + 4 + 2 + 1 + dimLogFile + logHost.addr.bytes.length

/-- The request to log to a log server. -/
def sendLog : List UInt8 :=
  (flowLogMessaggio e logHost logProtocol FileName).take (sizeMessag logHost)

end Sender

/-- What the receiver finds in a request: the address and the port (as in memory) are only
    set for the two families. -/
structure LogRequest where
  ai_family : UInt32
  ai_addr : Option (InetAddr × UInt16)
  protocolLog : UInt8
  logFile : List UInt8
  deriving DecidableEq

/-- The size of the buffer of the receiver. -/
def sizeFlowLogMsg : ℕ := 2 * 4 + 4 + 2 + 1 + dimLogFile

/-- Reading a request, given what the buffer held before: as many bytes as there are, up to
    its size, then the fields where the family says. A pointer is what follows it. -/
def recvFlowLog (e : Endian) (buffer : CharArray sizeFlowLogMsg) (input : List UInt8) :
    LogRequest × List UInt8 :=
  let ptrIPVer := blit buffer.toList 0 (input.take sizeFlowLogMsg)
  let ptrIP := ptrIPVer.drop 4
  let ai_family := ntohl e (load32 e ptrIPVer)
  let ptrPort := ptrIP.drop (if ai_family = 10 then 16 else 4)
  let logProtocol := ptrPort.drop 2
  let fileName := logProtocol.drop 1
  ({ ai_family := ai_family
     ai_addr :=
      if ai_family = 2 then some (.inet (charArray 4 ptrIP), load16 e ptrPort)
      else if ai_family = 10 then some (.inet6 (charArray 16 ptrIP), load16 e ptrPort)
      else none
     protocolLog := logProtocol.headD 0
     logFile := cstr fileName }, input.drop sizeFlowLogMsg)

/-! ## When a request is read back -/

variable {e₁ e₂ : Endian} {buffer : CharArray sizeFlowLogMsg} {logHost : SockAddr}
  {logProtocol : UInt8} {FileName : CharArray dimLogFile} {later : List UInt8}

/-- A request fits its buffer, and from the bytes after its type, followed by those of
    later messages, the receiver reads the same address, port number, protocol and file
    name, and leaves the later messages. -/
structure FlowLogReadBack (e₁ e₂ : Endian) (buffer : CharArray sizeFlowLogMsg)
    (logHost : SockAddr) (logProtocol : UInt8) (FileName : CharArray dimLogFile)
    (later : List UInt8) : Prop where
  fits : (flowLogMessaggio e₁ logHost logProtocol FileName).length ≤ sizeMessaggio
  read : ∃ port, ntohs e₂ port = ntohs e₁ logHost.port ∧
    recvFlowLog e₂ buffer ((sendLog e₁ logHost logProtocol FileName).tail ++ later) =
      (⟨logHost.addr.ai_family, some (logHost.addr, port), logProtocol, cstr FileName.toList⟩,
        later)

theorem length_flowLogMessaggio :
    (flowLogMessaggio e₁ logHost logProtocol FileName).length = sizeMessag logHost := by
  simp only [flowLogMessaggio, sizeMessag, List.length_append, length_store32, length_store16,
    List.length_singleton, FileName.toList_length]
  omega

/-- All that is put into the buffer is sent. -/
theorem sendLog_eq :
    sendLog e₁ logHost logProtocol FileName = flowLogMessaggio e₁ logHost logProtocol FileName := by
  rw [sendLog, ← length_flowLogMessaggio, List.take_length]

/-- The port number is the same on both hosts. -/
theorem ntohs_load16_store16 (port : UInt16) :
    ntohs e₂ (load16 e₂ (store16 e₁ port)) = ntohs e₁ port := by
  simpa using ntohs_load16_htons e₁ e₂ (ntohs e₁ port) []

theorem load16_append {e : Endian} {bs : List UInt8} (h : bs.length = 2) (rest : List UInt8) :
    load16 e (bs ++ rest) = load16 e bs := by
  rw [load16, load16, List.take_left' h, List.take_of_length_le h.le]

theorem sizeMessag_inet (s_addr : CharArray 4) (port : UInt16) (scope_id : UInt32) :
    sizeMessag ⟨.inet s_addr, port, scope_id⟩ = 212 := by
  rw [sizeMessag, InetAddr.bytes, s_addr.toList_length]
  rfl

theorem sizeMessag_inet6 (sin6_addr : CharArray 16) (port : UInt16) (scope_id : UInt32) :
    sizeMessag ⟨.inet6 sin6_addr, port, scope_id⟩ = 224 := by
  rw [sizeMessag, InetAddr.bytes, sin6_addr.toList_length]
  rfl

/-- The bytes of a request after its type, in the buffer of the receiver. -/
theorem blit_tail (buffer : CharArray sizeFlowLogMsg) (bs : List UInt8) :
    blit buffer.toList 0 bs = bs ++ buffer.toList.drop bs.length := by
  rw [blit, List.take_zero, List.nil_append, Nat.zero_add]

/-- The receiver reads back a request with an IPv4 address. -/
theorem recvFlowLog_inet (s_addr : CharArray 4) (port : UInt16) (scope_id : UInt32)
    (hname : 0 ∈ FileName.toList) :
    recvFlowLog e₂ buffer (sendLog e₁ ⟨.inet s_addr, port, scope_id⟩ logProtocol FileName).tail =
      (⟨2, some (.inet s_addr, load16 e₂ (store16 e₁ port)), logProtocol, cstr FileName.toList⟩,
        []) := by
  have hlen := @length_flowLogMessaggio e₁ ⟨.inet s_addr, port, scope_id⟩ logProtocol FileName
  rw [sizeMessag_inet] at hlen
  have hle : (flowLogMessaggio e₁ ⟨.inet s_addr, port, scope_id⟩ logProtocol FileName).tail.length ≤
      sizeFlowLogMsg := by
    rw [List.length_tail, hlen]
    decide
  obtain ⟨stale, hstale⟩ : ∃ stale, stale = buffer.toList.drop 211 := ⟨_, rfl⟩
  have hbuffer : blit buffer.toList 0 ((sendLog e₁ ⟨.inet s_addr, port, scope_id⟩ logProtocol
      FileName).tail.take sizeFlowLogMsg) = store32 e₁ (htonl e₁ 2) ++ (s_addr.toList ++
        (store16 e₁ port ++ logProtocol :: (FileName.toList ++ stale))) := by
    rw [sendLog_eq, List.take_of_length_le hle, blit_tail, List.length_tail, hlen, ← hstale]
    simp only [flowLogMessaggio, InetAddr.bytes, InetAddr.ai_family, List.append_assoc,
      List.cons_append, List.nil_append, List.tail_cons]
  have hport := load16_append (e := e₂) (length_store16 e₁ port)
    (logProtocol :: (FileName.toList ++ stale))
  have hfile : cstr (FileName.toList ++ stale) = cstr FileName.toList := by
    obtain ⟨tl, htl⟩ := exists_eq_cstr_append hname
    rw [htl, List.append_assoc, List.cons_append, cstr_append_nul (nul_notMem_cstr _),
      cstr_append_nul (nul_notMem_cstr _)]
  have hsize : (if (2 : UInt32) = 10 then 16 else 4) = 4 := if_neg (by decide)
  have hrest : (sendLog e₁ ⟨.inet s_addr, port, scope_id⟩ logProtocol FileName).tail.drop
      sizeFlowLogMsg = [] := by
    rw [sendLog_eq, List.drop_of_length_le hle]
  simp only [recvFlowLog, hbuffer, ntohl_load32_htonl, List.drop_left' (length_store32 e₁ _),
    List.drop_left' (length_store16 e₁ port), List.drop_left' s_addr.toList_length, if_true, hsize,
    charArray_append, hport, hfile, List.drop_succ_cons, List.drop_zero, List.headD_cons, hrest]

/-- The request fits its buffer, and is read back as a whole and alone, if and only if the
    address of the server is one of IPv4 and no byte of a later message is there. -/
theorem flowLog_readBack_iff (hname : 0 ∈ FileName.toList) :
    FlowLogReadBack e₁ e₂ buffer logHost logProtocol FileName later ↔
      logHost.addr.l3Proto = l3ProtoIPv4 ∧ later = [] := by
  obtain ⟨s_addr | sin6_addr, port, scope_id⟩ := logHost
  · constructor
    · rintro ⟨-, port', -, hread⟩
      refine ⟨rfl, ?_⟩
      -- Four bytes of the later messages are taken with the request.
      have hrest := congrArg (List.length ∘ Prod.snd) hread
      simp only [recvFlowLog, Function.comp_apply, List.length_drop, List.length_append,
        List.length_tail, sendLog_eq, length_flowLogMessaggio, sizeMessag_inet,
        show sizeFlowLogMsg = 215 from rfl] at hrest
      exact List.length_eq_zero_iff.1 (by omega)
    · -- The four bytes that are missing stay as they were.
      rintro ⟨-, rfl⟩
      refine ⟨?_, _, ntohs_load16_store16 port, ?_⟩
      · rw [length_flowLogMessaggio, sizeMessag_inet]
        decide
      · rw [List.append_nil]
        exact recvFlowLog_inet s_addr port scope_id hname
  · constructor
    · -- 224 bytes, for a buffer of 220.
      rintro ⟨hfits, -⟩
      rw [length_flowLogMessaggio, sizeMessag_inet6] at hfits
      exact absurd hfits (by decide)
    · rintro ⟨hproto, -⟩
      exact absurd hproto (show l3ProtoIPv6 ≠ l3ProtoIPv4 by decide)

/-- A log server at 127.0.0.1, port 9001, and one at ::1. -/
def localLogHost : SockAddr := ⟨.ofBytes 127 0 0 1, htons .little 9001, 0⟩
@[inherit_doc localLogHost]
def localLogHost6 : SockAddr :=
  ⟨.inet6 ⟨List.replicate 15 0 ++ [1], rfl⟩, htons .little 9001, 0⟩

/-- The name of a log file. -/
def recvLogName : CharArray dimLogFile := strncpy dimLogFile (chars "recv.log")

/-- A buffer before it is used. -/
def zeroBuffer : CharArray sizeFlowLogMsg :=
  ⟨List.replicate sizeFlowLogMsg 0, List.length_replicate⟩

/-- The request for the server at 127.0.0.1 is read back. -/
theorem flowLog_readBack_local :
    FlowLogReadBack .little .little zeroBuffer localLogHost l4ProtoUDP recvLogName [] :=
  (flowLog_readBack_iff (by decide)).2 ⟨rfl, rfl⟩

/-- The request for the server at ::1 does not fit its buffer; that for 127.0.0.1 is read
    together with a release that follows. -/
theorem flowLog_not_readBack :
    ¬FlowLogReadBack .little .little zeroBuffer localLogHost6 l4ProtoUDP recvLogName [] ∧
      ¬FlowLogReadBack .little .little zeroBuffer localLogHost l4ProtoUDP recvLogName
        [tspRelease] := by
  refine ⟨fun ⟨hfits, _⟩ => ?_, fun ⟨_, port, _, hread⟩ => ?_⟩
  · rw [length_flowLogMessaggio] at hfits
    exact absurd hfits (by decide)
  · have hleft : (recvFlowLog .little zeroBuffer ((sendLog .little localLogHost l4ProtoUDP
        recvLogName).tail ++ [tspRelease])).2 = [] := by decide +kernel
    rw [hread] at hleft
    exact absurd hleft (List.cons_ne_nil _ _)

end Ditg
