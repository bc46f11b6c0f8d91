import Ditg.Sender.Distributions
import Ditg.Sender.Manager
import Ditg.Sender.PayloadSize
import Mathlib.Logic.Function.Basic

/-!
# The options of a flow

`flowParser` reads the arguments of a flow in a loop. A turn takes an option with its arguments, or
a keyword, sets what they say in the descriptor of the flow, in the global variables or in variables
of its own, and moves behind them. In script and daemon mode, `parserMultiFlows` reads the options
of the command line before, which are for all flows.

* `OptionEnv.optionName`, `OptionEnv.setOption`: the options;
* `OptionEnv.flowParserLoop`, `OptionEnv.multiFlowsLoop`: the loops.
-/

namespace Ditg

open Bytes Memory Stdlib

/-! ## Names -/

/-- The place of a name in a table that ends with a blank, from the place `i` on. -/
def findName (s : Argument) : UInt8 → List Argument → UInt8
  | _, [] => lxErrorByte
  | i, name :: names =>
    if name = chars " " then lxErrorByte
    else if sameText s name then i
    else findName s (i + 1) names

def meters : List Argument := [chars "", chars "OWDM", chars "RTTM", chars " "]

def l4Protocols : List Argument :=
  [chars "", chars "TCP", chars "UDP", chars "ICMP", chars "SCTP", chars "DCCP", chars " "]

def l7Protocols : List Argument :=
  [chars "", chars "Telnet", chars "VoIP", chars "DNS", chars "AoM", chars "CSa", chars "CSi",
    chars "Quake3", chars " "]

/-- The first name of a table is not looked at. -/
def findMeter (s : Argument) : UInt8 := findName s 1 meters.tail

@[inherit_doc findMeter]
def findL4Proto (s : Argument) : UInt8 := findName s 1 l4Protocols.tail

@[inherit_doc findMeter]
def findL7Proto (s : Argument) : UInt8 := findName s 1 l7Protocols.tail

/-! ## The state -/

/-- The descriptor of the flow, as far as options set it. `ptrPayloadBuffer` is what it points
    to. -/
structure OptionFlow (F : Type) where
  SrcHost : SockAddr
  DestHost : SockAddr
  srcPortSpecify : Bool
  iface : Option Argument
  meter : UInt8
  l4Proto : UInt8
  l7Proto : UInt8
  icmptype : ℤ
  DSByte : UInt32
  Duration : UInt64
  TTL : ℤ
  IntArriv : Distribution F
  PktSize : Distribution F
  bursty : Bool
  OnPeriod : Option (Distribution F)
  OffPeriod : Option (Distribution F)
  Nagle : Bool
  serial : ℤ
  serialReceiver : Argument
  sctpId : ℤ
  minPayloadSize : ℤ
  payloadLogType : ℤ
  payloadFile : Argument
  ptrPayloadBuffer : Option (List UInt8)
  dimPayloadBuffer : ℕ
  mean_adjustment : ℤ
  srcAddrSpecify : Bool
  dstPortSpecify : Bool
  pktSizeFile : Argument
  vectSize : List UInt32
  timeFile : Argument
  vectTime : List F
  numPacket : UInt32
  KBToSend : UInt64
  dstAddrSpecify : Bool
  SigDestHost : SockAddr
  SigSrcHost : Option SockAddr
  SigSrcPort : UInt16
  SigInterface : Option Argument
  pollingMode : Bool

/-- Where a log is sent: `logHost` with `protoTxLog`, or `serverLogReceiver` with
    `protoTx_ServerLogReceiver`. -/
structure LogTarget where
  host : SockAddr
  proto : UInt8

/-- An SCTP association. -/
structure SctpSession where
  numStreams : ℤ
  busyStreams : ℤ
  parsedStreams : ℤ
  sock : ℤ

/-- The global variables that options set. `-T SCTP` takes any number for an association, without
    comparing it to the length of `sctpSessions`; here there is an entry for each. -/
structure OptionGlobals where
  logging : Bool
  logremoto : Bool
  log : LogTarget
  logServer : Bool
  serverLog : LogTarget
  logFile : Argument
  namelogReceiver : Bool
  logFileReceiver : Argument
  logbuffer_size : UInt16
  passiveMode : Bool
  sctpSessions : ℤ → SctpSession

/-- What `flowParser` has between two options. -/
structure OptionState (F : Type) where
  flow : OptionFlow F
  globals : OptionGlobals
  Delay : UInt64
  seed : F
  SigDestHostSpecify : Bool
  SigPort : UInt16

/-- A flow of the script or of the manager, as another one finds it. -/
structure OtherPayload where
  payloadFile : Argument
  ptrPayloadBuffer : Option (List UInt8)
  dimPayloadBuffer : ℕ

/-- What the parser of a flow finds. -/
structure OptionEnv (F : Type) where
  build : Build
  BURSTY : Bool
  endian : Endian
  multiFlows : Bool
  id : ℤ
  /-- The second argument of the line. -/
  second : Argument
  /-- What the entry of `argv` behind the last argument points to. -/
  stale : Argument
  getaddrinfo : Argument → Option SockAddr
  strtod : Argument → F
  HUGE_VAL : F
  serialUp : Argument → ℤ
  /-- The files that `fopen` opens. -/
  file : Argument → Option (List UInt8)
  /-- Whether `malloc` returns memory of a size. -/
  malloc : ℕ → Bool
  /-- The flows of the script or of the manager. -/
  others : List OtherPayload
  /-- The first element of a vector without elements. -/
  behind : F

namespace OptionEnv

variable {F : Type} (env : OptionEnv F)

/-- An error in an option. -/
def error (text : String) : ParserExit := reportErrorAndExit "General parser" text env.id

/-- An option that does not exist. -/
def whatIs (arg : Argument) : ParserExit := .error "General parser" (.whatIs arg) env.id

end OptionEnv

/-! ## The names of the options -/

/-- The options of a flow. -/
inductive OptionName
  | p
  | poll
  | m
  | a
  | i
  | rp
  | rk
  | f
  | t
  | z
  | k
  | d
  | b
  | j
  | L
  | X
  | T
  | s
  | sp
  | sk
  | sa
  | l
  | x
  | q
  /-- `-C`, `-U`, `-E`, `-V`, `-Y`, `-N`, `-O`, `-G` and `-W`. -/
  | intArriv (letter : DistroLetter)
  | B
  /-- `-c`, `-u`, `-e`, `-v`, `-y`, `-n`, `-o`, `-g` and `-w`. -/
  | pktSize (letter : DistroLetter)
  | D
  | H
  | Fp
  | Fs
  | Ft
  | Ssa
  | Ssp
  | Sda
  | Sdp
  | Si
  deriving DecidableEq

/-- The branch for an argument with a dash. -/
def OptionEnv.optionName {F : Type} (env : OptionEnv F) (arg : Argument) :
    Except ParserExit OptionName :=
  match arg.char 1 with
  | 'p' =>
    if arg.char 2 ≠ 'o' then .ok .p
    else if arg = chars "-poll" then .ok .poll
    else .error (env.error "Error in parsing \"p\" or \"-poll\" options")
  | 'm' => .ok .m
  | 'a' => .ok .a
  | 'i' => .ok .i
  | 'r' =>
    match arg.char 2 with
    | 'p' => .ok .rp
    | 'k' => .ok .rk
    | _ => .error (env.whatIs arg)
  | 'f' => .ok .f
  | 't' => .ok .t
  | 'z' => .ok .z
  | 'k' => .ok .k
  | 'd' => .ok .d
  | 'b' => .ok .b
  | 'j' => .ok .j
  | 'L' => .ok .L
  | 'X' => .ok .X
  | 'T' => .ok .T
  | 's' =>
    if arg.length = 2 then .ok .s
    else
      match arg.char 2 with
      | 'p' => .ok .sp
      | 'k' => .ok .sk
      | 'a' => .ok .sa
      | _ => .error (env.whatIs arg)
  | 'l' => .ok .l
  | 'x' => .ok .x
  | 'q' => .ok .q
  | 'C' => .ok (.intArriv .C)
  | 'U' => .ok (.intArriv .U)
  | 'E' => .ok (.intArriv .E)
  | 'V' => .ok (.intArriv .V)
  | 'Y' => .ok (.intArriv .Y)
  | 'N' => .ok (.intArriv .N)
  | 'O' => .ok (.intArriv .O)
  | 'G' => .ok (.intArriv .G)
  | 'W' => .ok (.intArriv .W)
  | 'B' => if env.BURSTY then .ok .B else .error (env.whatIs arg)
  | 'c' => .ok (.pktSize .C)
  | 'u' => .ok (.pktSize .U)
  | 'e' => .ok (.pktSize .E)
  | 'v' => .ok (.pktSize .V)
  | 'y' => .ok (.pktSize .Y)
  | 'n' => .ok (.pktSize .N)
  | 'o' => .ok (.pktSize .O)
  | 'g' => .ok (.pktSize .G)
  | 'w' => .ok (.pktSize .W)
  | 'D' => .ok .D
  | 'H' => .ok .H
  | 'F' =>
    match arg.char 2 with
    | 'p' => .ok .Fp
    | 's' => .ok .Fs
    | 't' => .ok .Ft
    | _ => .error (env.whatIs arg)
  | 'S' =>
    match arg.char 2, arg.char 3 with
    | 's', 'a' => .ok .Ssa
    | 's', 'p' => .ok .Ssp
    | 'd', 'a' => .ok .Sda
    | 'd', 'p' => .ok .Sdp
    | 'i', _ => .ok .Si
    | _, _ => .error (env.whatIs arg)
  | _ => .error (env.whatIs arg)

/-! ## The options -/

/-- `htons(atoi(arg))`. -/
def OptionEnv.portOf {F : Type} (env : OptionEnv F) (arg : Argument) : UInt16 :=
  htons env.endian (UInt16.ofInt (atoi arg))

/-- A name or an address of a log server, or the protocol for it. -/
def OptionEnv.setLogTarget {F : Type} (env : OptionEnv F) (failed : ParserExit)
    (target : LogTarget) (arg : Argument) : Except ParserExit LogTarget :=
  if findL4Proto arg = lxErrorByte then
    match env.getaddrinfo arg with
    | some host => .ok { target with host }
    | none => .error failed
  else .ok { target with proto := findL4Proto arg }

/-- Neither an option nor a keyword. -/
def isPlain (arg : Argument) : Bool := arg.char 0 ≠ '-' ∧ findL7Proto arg = lxErrorByte

/-- `-L` and `-X`, with an address, a protocol, both of them or none. The number is that of the
    arguments that the loop moves by. -/
def OptionEnv.setLog {F : Type} (env : OptionEnv F) (fid : ℤ) (target : LogTarget) :
    List Argument → Except ParserExit (LogTarget × ℕ)
  | [] => .ok (target, 1)
  | x :: args =>
    if isPlain x then do
      let target ← env.setLogTarget
        (reportErrorAndExit "General parser" " Invalid log-server address or protocol" fid) target x
      match args with
      | [] => .ok (target, 2)
      | y :: _ =>
        if isPlain y then do
          let target ← env.setLogTarget
            (reportErrorAndExit "General parser" " Invalid log-server address" fid) target y
          .ok (target, 3)
        else .ok (target, 2)
    else .ok (target, 1)

/-- The argument of an option that may have one. That it is a keyword is not seen, as
    `findL7Proto` is never 0. -/
def optionalArgument : List Argument → Option Argument
  | [] => none
  | x :: _ => if x.char 0 = '-' ∨ findL7Proto x = 0 then none else some x

/-- The same for a name, with the name that there is otherwise. -/
def optionalName (otherwise : Argument) (args : List Argument) : Argument × ℕ :=
  match optionalArgument args with
  | none => (otherwise, 1)
  | some x => (x, 2)

section Setters

variable {F : Type} [CDouble F] [DecidableEq F] (env : OptionEnv F) (s : OptionState F)

/-- The flow is changed. -/
def OptionState.setFlow (flow : OptionFlow F) : OptionState F := { s with flow }

/-- `-p`. A type that does not exist is taken for the default one. -/
def OptionState.setPayloadLogType (arg : Argument) : Except ParserExit (OptionState F) :=
  let payloadLogType := if atoi arg < 0 ∨ atoi arg > 2 then 0 else atoi arg
  if payloadLogType ≠ 0 ∧ s.flow.meter = meterRTTM then
    .error (reportErrorAndExit "General parser"
      "It is possible to use the RTT meter only with the standard payload type" 0)
  else
    .ok (s.setFlow
      { s.flow with
        payloadLogType
        minPayloadSize :=
          if payloadLogType = 1 then 8
          else if payloadLogType = 2 then 4
          else s.flow.minPayloadSize })

/-- `-m`. -/
def OptionState.setMeter (arg : Argument) : Except ParserExit (OptionState F) :=
  let meter := findMeter arg
  if meter = lxErrorByte then
    .error (reportErrorAndExit "General parser" "Invalid measure type" 0)
  else if meter = meterRTTM ∧ s.flow.minPayloadSize < 16 then
    .error (reportErrorAndExit "General parser"
      "It is possible to use the RTT meter only with the standard payload type" 0)
  else .ok (s.setFlow { s.flow with meter })

/-- `-a`. The ports stay, and the address is also that of the signalling channel, unless this has
    one of its own. -/
def OptionState.setDestHost (arg : Argument) : Except ParserExit (OptionState F) :=
  match env.getaddrinfo arg with
  | none => .error (env.error "Invalid destination address")
  | some host =>
    let flow :=
      { s.flow with DestHost := host.setPort s.flow.DestHost.port, dstAddrSpecify := true }
    if s.SigDestHostSpecify then .ok (s.setFlow flow)
    else
      let SigPort := s.flow.SigDestHost.port
      .ok { s with flow := { flow with SigDestHost := host.setPort SigPort }, SigPort }

/-- `-f`. -/
def OptionState.setTTL (arg : Argument) : Except ParserExit (OptionState F) :=
  match strtol 0 arg with
  | none => .error (env.error "Invalid TTL")
  | some temp =>
    if temp < 0 ∨ temp > 255 then .error (env.error "Invalid TTL")
    else .ok (s.setFlow { s.flow with serialReceiver := chars "noSerial", TTL := temp })

/-- `-t`. -/
def OptionState.setDuration (arg : Argument) : Except ParserExit (OptionState F) :=
  let temp := (strtol 10 arg).getD 0
  if temp ≤ 0 then .error (env.error "Invalid Duration")
  else .ok (s.setFlow { s.flow with Duration := UInt64.ofInt temp })

/-- `-z`. -/
def OptionState.setNumPacket (arg : Argument) : Except ParserExit (OptionState F) :=
  let temp := (strtol 10 arg).getD 0
  if temp ≤ 0 then .error (env.error "Invalid number of packets")
  else .ok (s.setFlow { s.flow with numPacket := UInt32.ofInt temp })

/-- `-k`. -/
def OptionState.setKBToSend (arg : Argument) : Except ParserExit (OptionState F) :=
  let KBToSend := (strtoul 10 arg).getD 0
  if KBToSend = 0 then .error (env.error "Invalid number of kbyte")
  else .ok (s.setFlow { s.flow with KBToSend })

/-- `-d`. -/
def OptionState.setDelay (arg : Argument) : Except ParserExit (OptionState F) :=
  match strtol 10 arg with
  | none => .error (env.error "Invalid Delay")
  | some temp =>
    if temp < 0 then .error (env.error "Invalid Delay")
    else .ok { s with Delay := UInt64.ofInt temp }

/-- `-b`. -/
def OptionState.setDSByte (arg : Argument) : Except ParserExit (OptionState F) :=
  match strtol 0 arg with
  | none => .error (env.error "Invalid DS Byte")
  | some temp =>
    if temp < 0 ∨ temp > 255 then .error (env.error "Invalid DS Byte")
    else .ok (s.setFlow { s.flow with DSByte := UInt32.ofInt temp })

/-- `-j`. -/
def OptionState.setMeanAdjustment (arg : Argument) : Except ParserExit (OptionState F) :=
  if atoi arg ≠ 0 ∧ atoi arg ≠ 1 then .error (env.error "j option needs either 1 or 0")
  else .ok (s.setFlow { s.flow with mean_adjustment := atoi arg })

/-- `-s`. -/
def OptionState.setSeed (arg : Argument) : Except ParserExit (OptionState F) :=
  let seed := env.strtod arg
  if CDouble.Le ((1 : ℤ) : F) seed ∨ CDouble.Le seed ((0 : ℤ) : F) then
    .error (env.error "Invalid seed (0 < seed < 1)")
  else .ok { s with seed }

/-- `-sa`. The port stays. -/
def OptionState.setSrcHost (arg : Argument) : Except ParserExit (OptionState F) :=
  match env.getaddrinfo arg with
  | none => .error (env.error "Invalid source address")
  | some host =>
    .ok (s.setFlow
      { s.flow with SrcHost := host.setPort s.flow.SrcHost.port, srcAddrSpecify := true })

/-- The association and the number of streams of `-T SCTP`. -/
def OptionState.setSctp (id streams : Argument) : Except ParserExit (OptionState F) :=
  let sctpId := atoi id
  let sctpStreams := atoi streams
  let session := s.globals.sctpSessions sctpId
  if sctpStreams > 1 then
    .error (env.error "** SCTP multi-streaming support is not yet available **")
  else
    let session :=
      if session.parsedStreams = 0 then
        { numStreams := sctpStreams, busyStreams := 0, parsedStreams := 1, sock := -1 }
      else { session with parsedStreams := session.parsedStreams + 1 }
    if session.parsedStreams > session.numStreams then
      .error (env.error "Too many streams defined into SCTP session")
    else
      .ok { s with
        flow := { s.flow with sctpId }
        globals :=
          { s.globals with
            sctpSessions := Function.update s.globals.sctpSessions sctpId session } }

/-- `-T`. The smallest size of a packet increases whatever the protocol. -/
def OptionState.setL4Proto : List Argument → Except ParserExit (OptionState F × ℕ)
  | [] => .error (env.error "Invalid Protocol Type")
  | x :: args =>
    let l4Proto := findL4Proto x
    let s := s.setFlow { s.flow with l4Proto, minPayloadSize := s.flow.minPayloadSize + 4 }
    if l4Proto = lxErrorByte then .error (env.error "Invalid Protocol Type")
    else if l4Proto = l4ProtoICMP then
      match args with
      | [] => .ok (s, 2)
      | y :: _ =>
        if y.char 0 ≠ '-' then .ok (s.setFlow { s.flow with icmptype := atoi y }, 3)
        else .ok (s, 2)
    else if l4Proto = l4ProtoDCCP ∧ ¬env.build.DCCP then
      .error (env.error ("Invalid protocol type.\nPlease, to generate DCCP traffic flows " ++
        "recompile D-ITG with the DCCP feature enabled  (see manual for more details)."))
    else if l4Proto = l4ProtoSCTP then
      if env.build.SCTP then
        match args with
        | y :: z :: _ =>
          if y.char 0 = '-' ∨ z.char 0 = '-' then
            .error (env.error
              "SCTP protocol needs parameters (syntax: -T SCTP <association_id> <max_streams>)")
          else (s.setSctp env y z).map fun s => (s, 4)
        | _ =>
          .error (env.error
            "SCTP protocol needs parameters (syntax: -T SCTP <association_id> <max_streams>)")
      else
        .error (env.error ("Invalid protocol type.\nPlease, to generate SCTP traffic flows " ++
          "recompile D-ITG with the SCTP feature enabled (see manual for more details)."))
    else .ok (s, 2)

/-- The buffer of another flow is taken over if the names differ: `strcmp` is not 0 then. -/
def OptionFlow.share (f : OptionFlow F) (other : OtherPayload) : OptionFlow F :=
  if other.dimPayloadBuffer ≠ 0 ∧ f.payloadFile ≠ other.payloadFile then
    { f with
      ptrPayloadBuffer := other.ptrPayloadBuffer
      dimPayloadBuffer := other.dimPayloadBuffer }
  else f

/-- The buffer is read from the file, unless it has been taken over. -/
def OptionFlow.readPayload (f : OptionFlow F) (arg : Argument) :
    Except ParserExit (OptionFlow F) :=
  if f.dimPayloadBuffer = 0 then
    match env.file arg with
    | none =>
      .error (reportErrorAndExit "flowParser" "Error in opening the file of payload" env.id)
    | some bytes =>
      if env.malloc bytes.length then
        .ok { f with ptrPayloadBuffer := some bytes, dimPayloadBuffer := bytes.length }
      else .error (reportErrorAndExit "flowParser" "Non enough memory for load the file" env.id)
  else .ok f

/-- `-Fp`. -/
def OptionState.setPayloadFile (arg : Argument) : Except ParserExit (OptionState F) :=
  let flow := { s.flow with payloadFile := arg }
  let flow := if env.multiFlows then env.others.foldl OptionFlow.share flow else flow
  (flow.readPayload env arg).map s.setFlow

/-- The lines of a file without those that are empty. There is an error if it has no line at
    all. -/
def OptionEnv.fileLines (name : String) (arg : Argument) : Except ParserExit (List Argument) :=
  match env.file arg with
  | none =>
    .error (reportErrorAndExit "flowParser" ("Error in opening the file of " ++ name) env.id)
  | some file =>
    if file = [] then
      .error (reportErrorAndExit "flowParser" ("Error in reading the file of " ++ name) env.id)
    else .ok ((lines 29 file).filter (· ≠ chars "\n"))

/-- `-Fs`. -/
def OptionState.setPktSizeFile (arg : Argument) : Except ParserExit (OptionState F) := do
  let sizes ← env.fileLines "the packets sizes" arg
  if ∃ line ∈ sizes, atoi line ≤ 0 ∨ atoi line > 65536 then
    .error (reportErrorAndExit "flowParser"
      "Error in reading the file of the packets sizes: negative, too big or invalid number" env.id)
  else
    .ok (s.setFlow
      { s.flow with
        pktSizeFile := arg
        vectSize := s.flow.vectSize ++ sizes.map fun line => UInt32.ofInt (atoi line) })

/-- `-Ft`. The first time is the delay. -/
def OptionState.setTimeFile (arg : Argument) : Except ParserExit (OptionState F) := do
  let times ← env.fileLines "the IDT" arg
  if ∃ line ∈ times, CDouble.Le (env.strtod line) ((0 : ℤ) : F) ∨ env.strtod line = env.HUGE_VAL
  then
    .error (reportErrorAndExit "flowParser"
      "Error in reading the file of the IDT: negative, too big or invalid number" env.id)
  else
    let vectTime := s.flow.vectTime ++ times.map env.strtod
    .ok { s with
      flow := { s.flow with timeFile := arg, vectTime }
      Delay := UInt64.ofInt (CDouble.trunc (CDouble.floor (vectTime.head?.getD env.behind))) }

/-- The number of a port, from 1 on. -/
def OptionEnv.sigPort (arg : Argument) : Except ParserExit UInt16 :=
  if atoi arg < 1 ∨ atoi arg > 65535 then .error (env.error "Invalid port number")
  else .ok (UInt16.ofInt (atoi arg))

/-- `-Ssa`. -/
def OptionState.setSigSrcHost (arg : Argument) : Except ParserExit (OptionState F) :=
  match env.getaddrinfo arg with
  | none => .error (env.error "Invalid source address for the signal channel")
  | some host => .ok (s.setFlow { s.flow with SigSrcHost := some host })

/-- `-Ssp`. -/
def OptionState.setSigSrcPort (arg : Argument) : Except ParserExit (OptionState F) := do
  let SigPort ← env.sigPort arg
  .ok { s with flow := { s.flow with SigSrcPort := SigPort }, SigPort }

/-- `-Sda`. The port stays. -/
def OptionState.setSigDestHost (arg : Argument) : Except ParserExit (OptionState F) :=
  match env.getaddrinfo arg with
  | none => .error (env.error "Invalid destination address for the signal channel")
  | some host =>
    let SigPort := s.flow.SigDestHost.port
    .ok { s with
      flow := { s.flow with SigDestHost := host.setPort SigPort }
      SigDestHostSpecify := true
      SigPort }

/-- `-Sdp`. -/
def OptionState.setSigDestPort (arg : Argument) : Except ParserExit (OptionState F) := do
  let SigPort ← env.sigPort arg
  .ok { s with
    flow :=
      { s.flow with SigDestHost := s.flow.SigDestHost.setPort (htons env.endian SigPort) }
    SigPort }

end Setters

/-! ## A turn of the loop -/

section Turn

variable {F : Type} [CDouble F] [DecidableEq F] (env : OptionEnv F)

/-- An option with one argument. -/
def oneArgument (failed : ParserExit) (set : Argument → Except ParserExit (OptionState F)) :
    List Argument → Except ParserExit (OptionState F × ℕ)
  | [] => .error failed
  | x :: _ => (set x).map fun s => (s, 2)

/-- An option with one argument that has no dash. -/
def oneName (failed : ParserExit) (set : Argument → Except ParserExit (OptionState F)) :
    List Argument → Except ParserExit (OptionState F × ℕ) :=
  oneArgument failed fun x => if x.char 0 = '-' then .error failed else set x

/-- An option with the parameters of a distribution. -/
def setDistribution (failed : ParserExit) (reader : DistroReader F)
    (set : Distribution F → OptionState F) (args : List Argument) :
    Except ParserExit (OptionState F × ℕ) :=
  match reader.run args with
  | none => .error failed
  | some distribution => .ok (set distribution, reader.arity + 1)

/-- An option with the arguments behind it: the state, and by how many arguments the loop moves. -/
def OptionEnv.setOption (s : OptionState F) (args : List Argument) :
    OptionName → Except ParserExit (OptionState F × ℕ)
  | .p =>
    oneName (reportErrorAndExit "General parser" "Invalid payload log type" 0)
      s.setPayloadLogType args
  | .poll => .ok (s.setFlow { s.flow with pollingMode := true }, 1)
  -- It is not checked that there is an argument.
  | .m => (s.setMeter (args.headD env.stale)).map fun s => (s, 2)
  | .a => oneArgument (env.error "Invalid destination address") (s.setDestHost env) args
  | .i =>
    if s.flow.srcAddrSpecify then
      .error (env.error "use -i <interface> OR -sa <source_address>")
    else
      oneArgument (env.error "Invalid interface")
        (fun x => .ok (s.setFlow { s.flow with iface := some x })) args
  | .rp =>
    oneArgument (env.error "Invalid port number")
      (fun x =>
        .ok (s.setFlow
          { s.flow with
            DestHost := s.flow.DestHost.setPort (env.portOf x)
            dstPortSpecify := true }))
      args
  | .rk =>
    oneArgument (env.error "Invalid Serial Port")
      (fun x => .ok (s.setFlow { s.flow with serialReceiver := x })) args
  | .f => oneArgument (env.error "Invalid TTL") (s.setTTL env) args
  | .t => oneArgument (env.error "Invalid Duration") (s.setDuration env) args
  | .z => oneArgument (env.error "Invalid number of packets") (s.setNumPacket env) args
  | .k => oneArgument (env.error "Invalid number of kbyte") (s.setKBToSend env) args
  | .d => oneArgument (env.error "Invalid Delay") (s.setDelay env) args
  | .b => oneArgument (env.error "Invalid DS Byte") (s.setDSByte env) args
  | .j => oneArgument (env.error "j option needs either 1 or 0") (s.setMeanAdjustment env) args
  | .L =>
    if env.multiFlows then .error (env.error "-L option not allowed into script file")
    else
      (env.setLog env.id s.globals.log args).map fun (log, moved) =>
        ({ s with globals := { s.globals with logging := true, logremoto := true, log } }, moved)
  | .X =>
    if env.multiFlows then .error (env.error "-X option not allowed into script file")
    else
      (env.setLog env.id s.globals.serverLog args).map fun (serverLog, moved) =>
        ({ s with globals := { s.globals with logServer := true, serverLog } }, moved)
  | .T => s.setL4Proto env args
  | .s => oneArgument (env.error "Invalid seed (0 < seed < 1)") (s.setSeed env) args
  | .sp =>
    oneArgument (env.error "Invalid port number")
      (fun x =>
        .ok (s.setFlow
          { s.flow with
            SrcHost := s.flow.SrcHost.setPort (env.portOf x)
            srcPortSpecify := true }))
      args
  | .sk =>
    oneArgument (env.error "Invalid Serial Port")
      (fun x =>
        .ok (s.setFlow
          { s.flow with serial := env.serialUp x, serialReceiver := chars "noSerial" }))
      args
  | .sa =>
    if s.flow.iface = none then
      oneArgument (env.error "Invalid source address") (s.setSrcHost env) args
    else .error (env.error "use -i <interface> OR -sa <source_address>")
  | .l =>
    if env.multiFlows then .error (env.error "-l option not allowed into script file")
    else
      let (logFile, moved) := optionalName (chars "/tmp/ITGSend.log") args
      .ok ({ s with globals := { s.globals with logging := true, logFile } }, moved)
  | .x =>
    if env.multiFlows then .error (env.error "-x option not allowed into script file")
    else
      let (logFileReceiver, moved) := optionalName s.globals.logFileReceiver args
      .ok ({ s with globals := { s.globals with namelogReceiver := true, logFileReceiver } }, moved)
  | .q =>
    match optionalArgument args with
    | none => .ok (s, 1)
    | some x =>
      .ok ({ s with
        globals := { s.globals with logbuffer_size := UInt16.ofInt (atoi x) } }, 2)
  | .intArriv letter =>
    setDistribution (reportErrorAndExit "Protocol Parser" (intArrivError letter) env.id)
      (intArriv env.strtod letter) (fun IntArriv => s.setFlow { s.flow with IntArriv }) args
  | .B =>
    if args.length < 2 then
      .error (reportErrorAndExit "Protocol Parser" "Invalid settings for the On/Off periods1"
        env.id)
    else
      (burstyParser env.strtod env.id args).map fun (OnPeriod, OffPeriod, rest) =>
        (s.setFlow
          { s.flow with
            OnPeriod := some OnPeriod
            OffPeriod := some OffPeriod
            bursty := true },
          1 + (args.length - rest.length))
  | .pktSize letter =>
    setDistribution (reportErrorAndExit "Protocol Parser" (pktSizeError letter) env.id)
      (pktSize env.strtod letter) (fun PktSize => s.setFlow { s.flow with PktSize }) args
  | .D => .ok (s.setFlow { s.flow with Nagle := false }, 1)
  | .H => .ok ({ s with globals := { s.globals with passiveMode := true } }, 1)
  | .Fp =>
    oneName (env.error "Invalid name file specified for -Fp option") (s.setPayloadFile env) args
  | .Fs =>
    oneName (env.error "Invalid name file specified for -Fs option") (s.setPktSizeFile env) args
  | .Ft => oneName (env.error "Invalid name file specified for -Ft option") (s.setTimeFile env) args
  | .Ssa =>
    oneArgument (env.error "Invalid source address for the signal channel") (s.setSigSrcHost env)
      args
  | .Ssp => oneArgument (env.error "Invalid port number") (s.setSigSrcPort env) args
  | .Sda =>
    oneArgument (env.error "Invalid destination address for the signal channel")
      (s.setSigDestHost env) args
  | .Sdp => oneArgument (env.error "Invalid port number") (s.setSigDestPort env) args
  -- The loop moves twice, here and behind all options with `-S`.
  | .Si =>
    (oneArgument (env.error "Invalid interface")
      (fun x => .ok (s.setFlow { s.flow with SigInterface := some x })) args).map
        fun (s, moved) => (s, moved + 2)

/-- A keyword for an application. There is no branch for `AoM`. -/
def OptionEnv.setKeyword (s : OptionState F) (arg : Argument) (args : List Argument) :
    Except ParserExit (OptionState F × ℕ) :=
  let set (l4Proto : UInt8) (traffic : Traffic F) : OptionState F :=
    s.setFlow
      { s.flow with
        l7Proto := findL7Proto arg
        l4Proto
        IntArriv := traffic.IntArriv
        PktSize := traffic.PktSize }
  match findL7Proto arg with
  | 1 => .ok (set l4ProtoTCP telnetParser, 1)
  | 2 =>
    -- `voIPParser` reduces `argc` to 0, and moves in `argv` by itself.
    (voIPParser env.second env.id args).map fun traffic =>
      (set
        (if env.build.DCCP ∧ ¬(s.flow.l4Proto ≠ l4ProtoUDP ∧ s.flow.l4Proto ≠ l4ProtoDCCP) then
          s.flow.l4Proto
        else l4ProtoUDP) traffic, args.length + 1)
  | 3 => .ok (set s.flow.l4Proto dnsParser, 1)
  | 5 => .ok (set l4ProtoUDP CSParsera, 1)
  | 6 => .ok (set l4ProtoUDP CSParseri, 1)
  | 7 => .ok (set l4ProtoUDP QuakeParser, 1)
  | 255 => .error (env.whatIs arg)
  | proto => .ok (s.setFlow { s.flow with l7Proto := proto }, 0)

/-- A turn: the state, and by how many arguments the loop moves. -/
def OptionEnv.turn (s : OptionState F) :
    List Argument → Except ParserExit (OptionState F × ℕ)
  | [] => .ok (s, 0)
  | arg :: args =>
    if arg.char 0 = '-' then do
      let name ← env.optionName arg
      env.setOption s args name
    else env.setKeyword s arg args

/-- The loop of `flowParser`, on the arguments from `argv[h]` on. -/
def OptionEnv.flowParserLoop : Loop ParserExit (OptionState F × List Argument) where
  goesOn st := st.2 ≠ []
  body st := (env.turn st.1 st.2).map fun (s, moved) => (s, st.2.drop moved)

end Turn

/-- What `flowParser` starts with: `host` is the default destination. -/
def OptionState.start {F : Type} [CDouble F] (e : Endian) (host : SockAddr)
    (globals : OptionGlobals) : OptionState F where
  flow :=
    { SrcHost := host
      DestHost := host.setPort (htons e 8999)
      srcPortSpecify := false
      iface := none
      meter := meterOWDM
      l4Proto := l4ProtoUDP
      l7Proto := 0
      icmptype := 8
      DSByte := 0
      Duration := 10000
      TTL := 0
      IntArriv := ⟨.pdConstant, scaledConstant (((1000 : ℤ) : F) / ((1000 : ℤ) : F))⟩
      PktSize := ⟨.pdConstant, scaledConstant ((512 : ℤ) : F)⟩
      bursty := false
      OnPeriod := none
      OffPeriod := none
      Nagle := true
      serial := -1
      serialReceiver := chars "noSerial"
      sctpId := 0
      minPayloadSize := 16
      payloadLogType := 0
      payloadFile := []
      ptrPayloadBuffer := none
      dimPayloadBuffer := 0
      mean_adjustment := 1
      srcAddrSpecify := false
      dstPortSpecify := false
      pktSizeFile := []
      vectSize := []
      timeFile := []
      vectTime := []
      numPacket := 0
      KBToSend := 0
      dstAddrSpecify := false
      SigDestHost := host.setPort (htons e 9000)
      SigSrcHost := none
      SigSrcPort := 0
      SigInterface := none
      pollingMode := false }
  globals := globals
  Delay := 0
  seed := ((0 : ℤ) : F)
  SigDestHostSpecify := false
  SigPort := 0

/-- `-gui`, as the first argument, is not looked at. -/
def skipGui (argv : List Argument) : List Argument :=
  if argv.head? = some (chars "-gui") then argv.tail else argv

/-! ## The options for all flows -/

/-- A turn of the loop of `parserMultiFlows`. At an argument without a dash, it does nothing. -/
def OptionEnv.multiTurn {F : Type} (env : OptionEnv F) (g : OptionGlobals) :
    List Argument → Except ParserExit (OptionGlobals × ℕ)
  | [] => .ok (g, 0)
  | arg :: args =>
    if arg.char 0 = '-' then
      match arg.char 1 with
      | 'h' => .error .help
      | 'q' =>
        match args with
        | [] => .ok (g, 1)
        | x :: _ =>
          if isPlain x then .ok ({ g with logbuffer_size := UInt16.ofInt (atoi x) }, 2)
          else .ok (g, 1)
      | 'l' =>
        let (logFile, moved) := optionalName (chars "/tmp/ITGSend.log") args
        .ok ({ g with logging := true, logFile }, moved)
      | 'L' =>
        (env.setLog 0 g.log args).map fun (log, moved) =>
          ({ g with logging := true, logremoto := true, log }, moved)
      | 'X' =>
        (env.setLog 0 g.serverLog args).map fun (serverLog, moved) =>
          ({ g with logServer := true, serverLog }, moved)
      | 'x' =>
        let (logFileReceiver, moved) := optionalName g.logFileReceiver args
        .ok ({ g with namelogReceiver := true, logFileReceiver }, moved)
      | _ => .error (.error "General parser" (.notGlobal arg) 0)
    else .ok (g, 0)

/-- The loop of `parserMultiFlows`, on the arguments from `argv[0]` on. -/
def OptionEnv.multiFlowsLoop {F : Type} (env : OptionEnv F) :
    Loop ParserExit (OptionGlobals × List Argument) where
  goesOn st := st.2 ≠ []
  body st := (env.multiTurn st.1 st.2).map fun (g, moved) => (g, st.2.drop moved)

/-! ## A host -/

/-- A host that knows only itself, with a `strtod` for whole numbers. -/
def localEnv : OptionEnv ℚ where
  build := { SCTP := false, DCCP := false }
  BURSTY := true
  endian := .little
  multiFlows := false
  id := 1
  second := []
  stale := []
  getaddrinfo arg :=
    if arg = chars "127.0.0.1" then some ⟨.ofBytes 127 0 0 1, 0, 0⟩ else none
  strtod arg := ((strtol 10 arg).getD 0 : ℤ)
  HUGE_VAL := 2 ^ 1024
  serialUp _ := -1
  file _ := none
  malloc _ := true
  others := []
  behind := 0

/-- The global variables before the parser starts. -/
def localGlobals : OptionGlobals where
  logging := false
  logremoto := false
  log := ⟨⟨.ofBytes 127 0 0 1, 0, 0⟩, l4ProtoUDP⟩
  logServer := false
  serverLog := ⟨⟨.ofBytes 127 0 0 1, 0, 0⟩, l4ProtoUDP⟩
  logFile := chars "/tmp/ITGSend.log"
  namelogReceiver := false
  logFileReceiver := []
  logbuffer_size := 50
  passiveMode := false
  sctpSessions _ := { numStreams := 0, busyStreams := 0, parsedStreams := 0, sock := 0 }

/-- A flow on this host. -/
def localState : OptionState ℚ := .start .little ⟨.ofBytes 127 0 0 1, 0, 0⟩ localGlobals

end Ditg
