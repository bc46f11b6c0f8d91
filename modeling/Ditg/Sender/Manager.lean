import Ditg.Library.Loop
import Ditg.Sender.Channels
import Ditg.Signaling.Message

/-!
# The sender's side of a signalling connection

For every channel the sender has a thread (`signalManager`) that reads the messages of the
receiver and those the threads of its flows leave in the pipe of the channel. It starts the
thread of a flow when the receiver is ready for it, and tells the parser of a flow, in a
pipe of the flow, when the flow has ended. A flow that ends leaves the channel, and with the
last one the thread is done.

* `Manager.handle`, `Manager.pipe`: what the thread does with a message;
* `recvReply_bytes`: the messages of the receiver are read as they were sent;
* `signalManager_replies`: so are all of them, with anything from the pipe in between, as
  long as the channel is not released before, and they name flows that there are.
-/

namespace Ditg

open Bytes Socket

/-! ## The model -/

/-- The messages of the receiver, between the two acknowledgements with which the
    connection begins and ends. -/
inductive ReplyMsg
  | ackSendFlow (flowId : UInt32) (openedPort : UInt16)
  | ackClosedFlow (flowId : UInt32)
  | errMsg2 (flowId : UInt32)
  | errMsg3 (flowId : UInt32)
  | errMsg5 (flowId : UInt32)
  | discovery
  deriving DecidableEq, Repr

/-- A message, as the receiver sends it. -/
def ReplyMsg.reply : ReplyMsg → Reply
  | ackSendFlow flowId openedPort => .ackFlow tspAckSendFlow flowId openedPort
  | ackClosedFlow flowId => .ackFlow tspAckClosedFlow flowId 0
  | errMsg2 flowId => .ackFlow tspErrMsg2 flowId 0
  | errMsg3 flowId => .ackFlow tspErrMsg3 flowId 0
  | errMsg5 flowId => .ackFlow tspErrMsg5 flowId 0
  | discovery => .ack tspDiscovery

/-- The messages in the pipe of a channel, about a flow (`MSG_SM_NEWFLOW`, `MSG_SM_ENDFLOW`,
    `MSG_SM_ERRFLOW`, `MSG_SM_SNDACK`). -/
inductive SmCode
  | newFlow
  | endFlow
  | errFlow
  | sndAck
  deriving DecidableEq, Repr

instance : LawfulBEq (SmCode × UInt32) := inferInstance

/-- The messages in the pipe of a flow (`MSG_FP_END`, `MSG_FP_ERR1`, `MSG_FP_ERR2`). -/
inductive FpCode
  | fpEnd
  | fpErr1
  | fpErr2
  deriving DecidableEq, Repr

/-- What the thread may find, at every turn of its loop. -/
inductive SmEvent
  /-- Bytes of the receiver. -/
  | sock
  /-- A message in the pipe. -/
  | pipe (code : SmCode) (flowId : UInt32)
  /-- A flow more on the channel. -/
  | join
  deriving DecidableEq, Repr

/-- The thread, with its channel and the entries of the table `flows` that the parsers of flows
    have filled. -/
structure Manager where
  channel : SignalChannel
  flows : Fin maxNumThread → Option FlowDescriptor
  /-- The flows whose thread has been created. -/
  flowSenders : List UInt32
  /-- What it has put into the pipes of flows. -/
  parserPipes : List (UInt32 × FpCode)
  /-- What it has sent. -/
  sent : List SenderMsg
  /-- The thread has exited. -/
  exited : Bool

/-- A flow leaves a channel, which is released by the last one (see
    `Channels.isChannelClosable`). -/
def SignalChannel.leave (ch : SignalChannel) : Bool × SignalChannel :=
  if ch.flows - 1 = 0 then
    (true, { ch with flows := ch.flows - 1, socket := none, errorLog := false, pipe := false })
  else (false, { ch with flows := ch.flows - 1 })

/-- `SET_PORT`. -/
def SockAddr.setPort (host : SockAddr) (port : UInt16) : SockAddr := { host with port := port }

namespace Manager

variable (s : Manager)

/-- The entry of a flow. -/
def flow? (flowId : UInt32) : Option FlowDescriptor :=
  if h : flowId.toNat < maxNumThread then s.flows ⟨flowId.toNat, h⟩ else none

/-- The entry of a flow, as the thread uses it: it does not check the id, so that it goes beyond
    the table, or finds no address. -/
def flow (flowId : UInt32) : Except Stop FlowDescriptor :=
  match s.flow? flowId with
  | some flow => return flow
  | none => throw .undefined

/-- The thread with another entry for a flow. -/
def setFlow (flowId : UInt32) (flow : FlowDescriptor) : Manager :=
  { s with flows := fun i => if i.val = flowId.toNat then some flow else s.flows i }

/-- The thread with a message sent. -/
def send (m : SenderMsg) : Manager := { s with sent := s.sent ++ [m] }

/-- The thread with a message put into the pipe of a flow. -/
def sendPipeMsg (flowId : UInt32) (code : FpCode) : Manager :=
  { s with parserPipes := s.parserPipes ++ [(flowId, code)] }

/-- A flow leaves the channel: the last one releases it, and the thread exits. -/
def isChannelClosable : Manager :=
  if s.channel.leave.1 then
    { s with channel := s.channel.leave.2, sent := s.sent ++ [.release], exited := true }
  else { s with channel := s.channel.leave.2 }

/-- The flow may start: the port of the receiver, if it has told one, is that of the flow. -/
def createFlowSender (flowId : UInt32) (flow : FlowDescriptor) (openedPort : UInt16) : Manager :=
  let s := if openedPort ≠ 0 then
      s.setFlow flowId { flow with DestHost := flow.DestHost.setPort openedPort }
    else s
  { s with flowSenders := s.flowSenders ++ [flowId] }

/-- The end of a flow, which is told its parser after the flow has left the channel. -/
def endFlow (flowId : UInt32) (code : FpCode) : Except Stop Manager := do
  let _ ← s.flow flowId
  return s.isChannelClosable.sendPipeMsg flowId code

/-- A message of the receiver, with the port as it is in memory. -/
def handle : ReplyMsg → Except Stop Manager
  | .ackClosedFlow flowId => s.endFlow flowId .fpEnd
  | .ackSendFlow flowId openedPort => do
    let flow ← s.flow flowId
    return s.createFlowSender flowId flow openedPort
  | .discovery => return s.send .ackDiscovery
  | .errMsg2 flowId | .errMsg3 flowId | .errMsg5 flowId => s.endFlow flowId .fpErr1

/-- A message of the pipe. -/
def pipe : SmCode → UInt32 → Except Stop Manager
  | .newFlow, flowId => do
    let flow ← s.flow flowId
    return s.send (.sendFlow flow flowId)
  | .endFlow, flowId => return s.send (.closedFlow flowId)
  | .errFlow, flowId => do
    let _ ← s.flow flowId
    return ((s.sendPipeMsg flowId .fpErr2).send (.closedErr flowId)).isChannelClosable
  | .sndAck, flowId => return s.send (.ackSendFlow flowId)

end Manager

/-- A message of the receiver, its type having been read. The port is not converted. -/
def recvReplyType (e : Endian) (type : UInt8) (input : List UInt8) :
    Except Stop (ReplyMsg × List UInt8) :=
  if type = tspAckClosedFlow then do
    let (flowId, input) ← recvFlowId e input
    return (.ackClosedFlow flowId, input)
  else if type = tspAckSendFlow then do
    let (flowId, input) ← recvFlowId e input
    let (openedPort, input) ← recv 2 input
    return (.ackSendFlow flowId (load16 e openedPort), input)
  else if type = tspDiscovery then return (.discovery, input)
  else if type = tspErrMsg2 then do
    let (flowId, input) ← recvFlowId e input
    return (.errMsg2 flowId, input)
  else if type = tspErrMsg3 then do
    let (flowId, input) ← recvFlowId e input
    return (.errMsg3 flowId, input)
  else if type = tspErrMsg5 then do
    let (flowId, input) ← recvFlowId e input
    return (.errMsg5 flowId, input)
  else throw (.exit "signalManager" "Got unknown message from receiver" "")

/-- A message of the receiver. -/
def recvReply (e : Endian) (input : List UInt8) : Except Stop (ReplyMsg × List UInt8) := do
  let (type, input) ← recv 1 input
  recvReplyType e (type.headD 0xFF) input

/-- A turn of the loop: what has been read, if it was a message of the receiver, and what is
    left. -/
def Manager.turn (e : Endian) (s : Manager) (input : List UInt8) :
    SmEvent → Except Stop (List ReplyMsg × Manager × List UInt8)
  | .sock => do
    let (m, input) ← recvReply e input
    let s ← s.handle m
    return ([m], s, input)
  | .pipe code flowId => do
    let s ← s.pipe code flowId
    return ([], s, input)
  | .join => return ([], { s with channel.flows := s.channel.flows + 1 }, input)

/-- The loop, until the thread exits: the messages read, and what is left. -/
def Manager.signalManager (e : Endian) : List SmEvent → Manager → List UInt8 →
    Except Stop (List ReplyMsg × Manager × List UInt8)
  | [], s, input => return ([], s, input)
  | event :: events, s, input =>
    if s.exited then return ([], s, input)
    else do
      let (ms, s, input) ← s.turn e input event
      let (ms', s, input) ← signalManager e events s input
      return (ms ++ ms', s, input)

/-! ## Messages are read as they were sent -/

/-- What comes to the thread, in this order. -/
inductive SmArrival
  | reply (m : ReplyMsg)
  | pipe (code : SmCode) (flowId : UInt32)
  | join
  deriving DecidableEq

namespace SmArrival

/-- The event of its arrival. -/
def event : SmArrival → SmEvent
  | reply _ => .sock
  | pipe code flowId => .pipe code flowId
  | join => .join

/-- Its bytes on the connection. -/
def bytes (e : Endian) : SmArrival → List UInt8
  | reply m => m.reply.bytes e
  | pipe _ _ => []
  | join => []

/-- It is a message of the receiver. -/
def reply? : SmArrival → Option ReplyMsg
  | reply m => some m
  | pipe _ _ => none
  | join => none

/-- A flow leaves the channel with it. -/
def leaves : SmArrival → Bool
  | reply (.ackClosedFlow _) | reply (.errMsg2 _) | reply (.errMsg3 _) | reply (.errMsg5 _) => true
  | pipe .errFlow _ => true
  | _ => false

/-- The flow it names. -/
def flowId? : SmArrival → Option UInt32
  | reply (.ackSendFlow flowId _) | reply (.ackClosedFlow flowId) | reply (.errMsg2 flowId)
  | reply (.errMsg3 flowId) | reply (.errMsg5 flowId) | pipe _ flowId => some flowId
  | reply .discovery | join => none

/-- The flows of the channel after it. -/
def flowsAfter (flows : ℤ) (a : SmArrival) : ℤ :=
  if a.leaves then flows - 1 else if a = .join then flows + 1 else flows

end SmArrival

/-- Of what comes, only the last one may close the channel. -/
def StaysOpen (flows : ℤ) : List SmArrival → Prop
  | [] => True
  | [_] => True
  | a :: b :: as => (a.leaves → flows ≠ 1) ∧ StaysOpen (a.flowsAfter flows) (b :: as)

/-- A message in the memory of a host: its port is in network order. -/
def ReplyMsg.inMemory (e : Endian) : ReplyMsg → ReplyMsg
  | ackSendFlow flowId openedPort => .ackSendFlow flowId (htons e openedPort)
  | m => m

section Replies

variable {e₁ e₂ : Endian}

theorem load16_htons (e₁ e₂ : Endian) (x : UInt16) :
    load16 e₂ (store16 e₁ (htons e₁ x)) = htons e₂ x := by
  have h := congrArg (htons e₂) (ntohs_load16_htons e₁ e₂ x [])
  rwa [List.append_nil, htons_htons] at h

theorem recvReply_cons (e : Endian) (type : UInt8) (input : List UInt8) :
    recvReply e (type :: input) = recvReplyType e type input := by
  rw [recvReply, recv, recvAll_one]
  rfl

/-- The types with a flow id and nothing else. -/
theorem recvReply_flowId {m : UInt32 → ReplyMsg} {type : UInt8}
    (hread : ∀ input, recvReplyType e₂ type input =
      (recvFlowId e₂ input).map fun (flowId, input) => (m flowId, input))
    (htype : type ≠ tspAckSendFlow) (flowId : UInt32) (rest : List UInt8) :
    recvReply e₂ ((Reply.ackFlow type flowId 0).bytes e₁ ++ rest) = .ok (m flowId, rest) := by
  rw [Reply.bytes, if_neg htype, List.append_nil, List.append_assoc, List.singleton_append,
    recvReply_cons, hread, recvFlowId_append]
  rfl

/-- A message is read as it was sent, and nothing else is. -/
theorem recvReply_bytes (m : ReplyMsg) (rest : List UInt8) :
    recvReply e₂ (m.reply.bytes e₁ ++ rest) = .ok (m.inMemory e₂, rest) := by
  cases m with
  | ackSendFlow flowId openedPort =>
    -- The only message with a port.
    rw [ReplyMsg.reply, Reply.bytes, if_pos rfl, List.append_assoc, List.append_assoc,
      List.singleton_append, recvReply_cons, recvReplyType, if_neg (by decide), if_pos rfl,
      recvFlowId_append]
    change (recv 2 _ >>= _) = _
    rw [recv_append (length_store16 e₁ _)]
    exact congrArg (fun port => Except.ok (ReplyMsg.ackSendFlow flowId port, rest))
      (load16_htons e₁ e₂ openedPort)
  | ackClosedFlow flowId => exact recvReply_flowId (fun _ => rfl) (by decide) flowId rest
  | errMsg2 flowId => exact recvReply_flowId (fun _ => rfl) (by decide) flowId rest
  | errMsg3 flowId => exact recvReply_flowId (fun _ => rfl) (by decide) flowId rest
  | errMsg5 flowId => exact recvReply_flowId (fun _ => rfl) (by decide) flowId rest
  | discovery => rfl

/-- The thread after it has seen what comes. -/
def Manager.after (e : Endian) (s : Manager) : SmArrival → Except Stop Manager
  | .reply m => s.handle (m.inMemory e)
  | .pipe code flowId => s.pipe code flowId
  | .join => return { s with channel.flows := s.channel.flows + 1 }

variable {s s' : Manager}

/-- A turn of the loop sees what has come. -/
theorem turn_arrival (a : SmArrival) (rest : List UInt8) :
    s.turn e₂ (a.bytes e₁ ++ rest) a.event =
      (s.after e₂ a).map fun s' => ((a.reply?.map (ReplyMsg.inMemory e₂)).toList, s', rest) := by
  cases a with
  | reply m =>
    rw [SmArrival.bytes, SmArrival.event, Manager.turn, recvReply_bytes, Manager.after]
    change (s.handle (m.inMemory e₂)).bind _ = _
    cases s.handle (m.inMemory e₂) <;> rfl
  | pipe code flowId =>
    rw [SmArrival.event, Manager.turn, Manager.after]
    cases s.pipe code flowId <;> rfl
  | join => rfl

/-! ## The table of flows -/

theorem flow_eq_ok {flowId : UInt32} {flow : FlowDescriptor} :
    s.flow flowId = .ok flow ↔ s.flow? flowId = some flow := by
  rw [Manager.flow]
  cases s.flow? flowId with
  | none => exact iff_of_false nofun nofun
  | some flow' => exact ⟨fun h => congrArg some (Except.ok.inj h), fun h => by cases h; rfl⟩

theorem flow?_setFlow (flowId : UInt32) (flow : FlowDescriptor) (f : UInt32) :
    (s.setFlow flowId flow).flow? f =
      if f = flowId ∧ f.toNat < maxNumThread then some flow else s.flow? f := by
  have hval : f.toNat = flowId.toNat ↔ f = flowId := UInt32.toNat_inj
  simp only [Manager.flow?, Manager.setFlow, hval]
  by_cases hlt : f.toNat < maxNumThread
  · simp [hlt]
  · simp [hlt]

/-- The flows that there are. -/
theorem flow?_isSome_setFlow {flowId : UInt32} (hflow : (s.flow? flowId).isSome)
    (flow : FlowDescriptor) (f : UInt32) :
    ((s.setFlow flowId flow).flow? f).isSome = (s.flow? f).isSome := by
  rw [flow?_setFlow]
  split_ifs with h
  · rw [h.1, hflow]
    rfl
  · rfl

/-- A flow that starts may change its entry only. -/
theorem createFlowSender_spec {flowId : UInt32} (hflow : (s.flow? flowId).isSome)
    (flow : FlowDescriptor) (openedPort : UInt16) :
    (s.createFlowSender flowId flow openedPort).channel = s.channel ∧
      (s.createFlowSender flowId flow openedPort).exited = s.exited ∧
      ∀ f, ((s.createFlowSender flowId flow openedPort).flow? f).isSome =
        (s.flow? f).isSome := by
  rw [Manager.createFlowSender]
  split_ifs
  · exact ⟨rfl, rfl, flow?_isSome_setFlow hflow _⟩
  · exact ⟨rfl, rfl, fun _ => rfl⟩

/-- A flow that leaves the channel: the thread exits with the last one. -/
theorem isChannelClosable_spec : s.isChannelClosable.channel.flows = s.channel.flows - 1 ∧
    (s.isChannelClosable.exited ↔ s.exited ∨ s.channel.flows = 1) ∧
    s.isChannelClosable.flows = s.flows := by
  rw [Manager.isChannelClosable, SignalChannel.leave]
  by_cases h : s.channel.flows = 1
  · rw [if_pos (sub_eq_zero.2 h)]
    exact ⟨rfl, iff_of_true rfl (.inr h), rfl⟩
  · rw [if_neg fun h0 => h (sub_eq_zero.1 h0)]
    exact ⟨rfl, ⟨.inl, fun hs => hs.resolve_right h⟩, rfl⟩

/-- What becomes of the flows of the channel and of the table, and when the thread exits. -/
structure AfterSpec (s : Manager) (a : SmArrival) (s' : Manager) : Prop where
  flows_eq : s'.channel.flows = a.flowsAfter s.channel.flows
  exited_iff : s'.exited ↔ s.exited ∨ a.leaves ∧ s.channel.flows = 1
  table : ∀ f, (s'.flow? f).isSome = (s.flow? f).isSome

/-- What leaves the channel and the table alone. -/
theorem AfterSpec.of_stays {a : SmArrival} (ha : a.leaves = false) (hjoin : a ≠ .join)
    (hchannel : s'.channel = s.channel) (hexited : s'.exited = s.exited)
    (htable : ∀ f, (s'.flow? f).isSome = (s.flow? f).isSome) : AfterSpec s a s' where
  flows_eq := by rw [SmArrival.flowsAfter, ha, if_neg Bool.false_ne_true, if_neg hjoin, hchannel]
  exited_iff := by simp [ha, hexited]
  table := htable

/-- With a flow that leaves the channel. -/
theorem AfterSpec.of_leaves (t : Manager) {a : SmArrival} (ha : a.leaves)
    (hchannel : t.channel = s.channel) (hexited : t.exited = s.exited) (hflows : t.flows = s.flows)
    (hs' : s'.channel = t.isChannelClosable.channel) (he' : s'.exited = t.isChannelClosable.exited)
    (hf' : s'.flows = t.isChannelClosable.flows) : AfterSpec s a s' := by
  obtain ⟨hnum, hexit, htable⟩ := isChannelClosable_spec (s := t)
  refine ⟨?_, ?_, fun f => ?_⟩
  · rw [SmArrival.flowsAfter, if_pos ha, hs', hnum, hchannel]
  · rw [he', hexit, hexited, hchannel]
    simp [ha]
  · simp only [Manager.flow?, hf', htable, hflows]

/-- What names a flow that there is, is seen, and has these effects. -/
theorem exists_after (e : Endian) {a : SmArrival}
    (hflow : ∀ f ∈ a.flowId?, (s.flow? f).isSome) :
    ∃ s', s.after e a = .ok s' ∧ AfterSpec s a s' := by
  have hentry {flowId : UInt32} (h : a.flowId? = some flowId) :
      ∃ flow, s.flow flowId = .ok flow := by
    obtain ⟨flow, hsome⟩ := Option.isSome_iff_exists.1 (hflow flowId h)
    exact ⟨flow, flow_eq_ok.2 hsome⟩
  have hleave {flowId : UInt32} (code : FpCode) (h : a.flowId? = some flowId) (ha : a.leaves) :
      ∃ s', s.endFlow flowId code = .ok s' ∧ AfterSpec s a s' := by
    obtain ⟨flow, hok⟩ := hentry h
    refine ⟨s.isChannelClosable.sendPipeMsg flowId code, ?_,
      .of_leaves s ha rfl rfl rfl rfl rfl rfl⟩
    rw [Manager.endFlow, hok]
    rfl
  cases a with
  | reply m =>
    cases m with
    | ackSendFlow flowId openedPort =>
      obtain ⟨flow, hok⟩ := hentry rfl
      refine ⟨s.createFlowSender flowId flow (htons e openedPort), ?_, ?_⟩
      · rw [Manager.after, ReplyMsg.inMemory, Manager.handle, hok]
        rfl
      · obtain ⟨hchannel, hexited, htable⟩ :=
          createFlowSender_spec (hflow flowId rfl) flow (htons e openedPort)
        exact .of_stays rfl nofun hchannel hexited htable
    | ackClosedFlow flowId => exact hleave .fpEnd rfl rfl
    | errMsg2 flowId => exact hleave .fpErr1 rfl rfl
    | errMsg3 flowId => exact hleave .fpErr1 rfl rfl
    | errMsg5 flowId => exact hleave .fpErr1 rfl rfl
    | discovery => exact ⟨_, rfl, .of_stays rfl nofun rfl rfl fun _ => rfl⟩
  | pipe code flowId =>
    obtain ⟨flow, hok⟩ := hentry rfl
    cases code with
    | newFlow =>
      refine ⟨s.send (.sendFlow flow flowId), ?_, .of_stays rfl nofun rfl rfl fun _ => rfl⟩
      rw [Manager.after, Manager.pipe, hok]
      rfl
    | endFlow => exact ⟨_, rfl, .of_stays rfl nofun rfl rfl fun _ => rfl⟩
    | errFlow =>
      refine ⟨((s.sendPipeMsg flowId .fpErr2).send (.closedErr flowId)).isChannelClosable, ?_,
        .of_leaves ((s.sendPipeMsg flowId .fpErr2).send (.closedErr flowId)) rfl rfl rfl rfl rfl
          rfl rfl⟩
      rw [Manager.after, Manager.pipe, hok]
      rfl
    | sndAck => exact ⟨_, rfl, .of_stays rfl nofun rfl rfl fun _ => rfl⟩
  | join => exact ⟨_, rfl, rfl, by simp [SmArrival.leaves], fun _ => rfl⟩

/-- The thread after all that comes. -/
def Manager.afterAll (e : Endian) (s : Manager) (arrivals : List SmArrival) : Except Stop Manager :=
  arrivals.foldlM (Manager.after e) s

/-- The loop sees all that comes, as long as nothing but the last of it closes the channel, and
    it names flows that there are. -/
theorem signalManager_arrivals (hs : s.exited = false) {arrivals : List SmArrival}
    (hopen : StaysOpen s.channel.flows arrivals)
    (hflows : ∀ a ∈ arrivals, ∀ f ∈ a.flowId?, (s.flow? f).isSome) (rest : List UInt8) :
    ∃ s', s.afterAll e₂ arrivals = .ok s' ∧
      s.signalManager e₂ (arrivals.map SmArrival.event)
        (arrivals.flatMap (SmArrival.bytes e₁) ++ rest) =
          .ok ((arrivals.filterMap SmArrival.reply?).map (ReplyMsg.inMemory e₂), s', rest) := by
  induction arrivals generalizing s with
  | nil => exact ⟨s, rfl, rfl⟩
  | cons a arrivals ih =>
    rw [List.forall_mem_cons] at hflows
    obtain ⟨s₁, hs₁, hspec⟩ := exists_after e₂ hflows.1
    have hrest : ∃ s', s₁.afterAll e₂ arrivals = .ok s' ∧
        s₁.signalManager e₂ (arrivals.map SmArrival.event)
          (arrivals.flatMap (SmArrival.bytes e₁) ++ rest) =
            .ok ((arrivals.filterMap SmArrival.reply?).map (ReplyMsg.inMemory e₂), s', rest) := by
      cases arrivals with
      | nil => exact ⟨s₁, rfl, rfl⟩
      | cons b arrivals =>
        -- The channel stays open, so the thread goes on.
        refine ih ?_ (hspec.flows_eq ▸ hopen.2) fun a' ha' f hf => ?_
        · rw [← Bool.not_eq_true, hspec.exited_iff, hs]
          rintro (h | ⟨hleaves, hone⟩)
          · exact Bool.false_ne_true h
          · exact hopen.1 hleaves hone
        · rw [hspec.table]
          exact hflows.2 a' ha' f hf
    obtain ⟨s', hs', hloop⟩ := hrest
    refine ⟨s', ?_, ?_⟩
    · rw [Manager.afterAll, List.foldlM_cons, hs₁]
      exact hs'
    · rw [List.map_cons, List.flatMap_cons, List.append_assoc, Manager.signalManager,
        if_neg (hs ▸ Bool.false_ne_true), turn_arrival, hs₁]
      change (Manager.signalManager e₂ _ _ _ >>= _) = _
      rw [hloop]
      cases h : a.reply? with
      | none => rw [List.filterMap_cons_none h]; rfl
      | some m => rw [List.filterMap_cons_some h]; rfl

theorem htons_ne_zero {e : Endian} {port : UInt16} (h : port ≠ 0) : htons e port ≠ 0 := fun h0 =>
  h <| by
    have := congrArg (htons e) h0
    rw [htons_htons] at this
    rw [this]
    cases e <;> rfl

/-- After a connection has been set up, of messages of the receiver, with messages of the pipe
    and new flows in between, the thread of the sender reads those messages, and nothing else,
    and every port it is told is then the one of the flow, in network order, whatever the byte
    orders of the two hosts; as long as no message before the last one closes the channel, and
    all messages name flows that there are. -/
theorem signalManager_replies (hs : s.exited = false) (arrivals : List SmArrival)
    (hopen : StaysOpen s.channel.flows arrivals)
    (hflows : ∀ a ∈ arrivals, ∀ f ∈ a.flowId?, (s.flow? f).isSome) (rest : List UInt8) :
    ∃ s', s.signalManager e₂ (arrivals.map SmArrival.event)
        (arrivals.flatMap (SmArrival.bytes e₁) ++ rest) =
          .ok ((arrivals.filterMap SmArrival.reply?).map (ReplyMsg.inMemory e₂), s', rest) ∧
      ∀ before flowId openedPort, arrivals = before ++ [.reply (.ackSendFlow flowId openedPort)] →
        openedPort ≠ 0 →
          (s'.flow? flowId).map (·.DestHost.port) = some (htons e₂ openedPort) := by
  obtain ⟨s', hall, hloop⟩ := @signalManager_arrivals e₁ e₂ s hs arrivals hopen hflows rest
  refine ⟨s', hloop, ?_⟩
  rintro before flowId openedPort rfl hport
  rw [Manager.afterAll, List.foldlM_append] at hall
  obtain ⟨s₁, -, hlast⟩ := Loop.bind_eq_ok.1 hall
  obtain ⟨s₂, hhandle, heq⟩ := Loop.bind_eq_ok.1 hlast
  cases heq
  obtain ⟨flow, hflow, heq⟩ := Loop.bind_eq_ok.1 hhandle
  cases heq
  rw [flow_eq_ok] at hflow
  have hlt : flowId.toNat < maxNumThread := by
    by_contra hlt
    rw [Manager.flow?, dif_neg hlt] at hflow
    cases hflow
  have hentry : (s₁.createFlowSender flowId flow (htons e₂ openedPort)).flow? flowId =
      some { flow with DestHost := flow.DestHost.setPort (htons e₂ openedPort) } := by
    rw [Manager.createFlowSender, if_pos (htons_ne_zero hport)]
    change (s₁.setFlow flowId _).flow? flowId = _
    rw [flow?_setFlow, if_pos ⟨rfl, hlt⟩]
  rw [hentry]
  rfl

end Replies

/-- A thread whose channel has a number of flows, with the entries from 1 to `n`. -/
def someManager (flows : ℤ) (n : ℕ) : Manager where
  channel := { SignalChannel.closed with socket := some 0, flows := flows, pipe := true }
  flows i := if 1 ≤ i.val ∧ i.val ≤ n then some someFlow else none
  flowSenders := []
  parserPipes := []
  sent := []
  exited := false

/-- What a receiver may send that has two flows to wait for, the second one of which fails. -/
def someReplies : List SmArrival :=
  [.pipe .newFlow 1, .reply (.ackSendFlow 1 8999), .join, .pipe .newFlow 2, .reply .discovery,
    .reply (.errMsg2 2), .reply (.ackSendFlow 1 9000)]

/-- Its messages are read by a host of the other byte order, and the port it has told last is the
    one of the flow. -/
theorem signalManager_replies_two : ∃ s', (someManager 1 2).signalManager .little
    (someReplies.map SmArrival.event) (someReplies.flatMap (SmArrival.bytes .big) ++ []) =
      .ok ((someReplies.filterMap SmArrival.reply?).map (ReplyMsg.inMemory .little), s', []) ∧
    (s'.flow? 1).map (·.DestHost.port) = some (htons .little 9000) := by
  have hopen : StaysOpen 1 someReplies := by
    refine ⟨nofun, nofun, nofun, nofun, nofun, fun _ => by decide, trivial⟩
  have hall : someReplies.all fun a =>
      a.flowId?.all fun f => ((someManager 1 2).flow? f).isSome := by decide
  obtain ⟨s', hs', hport⟩ := @signalManager_replies .big .little (someManager 1 2) rfl
    someReplies hopen (fun a ha =>
      (Option.all_eq_true _ _).1 (List.all_eq_true.1 hall a ha)) []
  exact ⟨s', hs', hport someReplies.dropLast 1 9000 rfl (by decide)⟩

/-- What comes after the end of the last flow is not read, and the port of a flow behind the
    table has no place. -/
theorem signalManager_not_replies : (¬∀ (s : Manager) (arrivals : List SmArrival),
    s.exited = false → ∃ s', s.signalManager .little (arrivals.map SmArrival.event)
      (arrivals.flatMap (SmArrival.bytes .little)) =
        .ok ((arrivals.filterMap SmArrival.reply?).map (ReplyMsg.inMemory .little), s', [])) ∧
    ((someManager 1 1).signalManager .little [.sock]
      ((SmArrival.reply (.ackSendFlow 400 8999)).bytes .little)).map (·.1) =
        .error .undefined := by
  refine ⟨fun h => ?_, by decide +kernel⟩
  obtain ⟨s', hs'⟩ := h (someManager 1 1) [.reply (.ackClosedFlow 1), .reply .discovery] rfl
  have hread : ((someManager 1 1).signalManager .little [.sock, .sock]
      (([.reply (.ackClosedFlow 1), .reply .discovery] :
        List SmArrival).flatMap (SmArrival.bytes .little))).map (·.1) =
        .ok [.ackClosedFlow 1] := by decide +kernel
  rw [List.map_cons, List.map_cons, List.map_nil, SmArrival.event] at hs'
  have heq := Except.ok.inj (hread.symm.trans (congrArg (Except.map (·.1)) hs'))
  have hlen : 1 = 2 := congrArg List.length heq
  exact absurd hlen (by decide)

end Ditg
