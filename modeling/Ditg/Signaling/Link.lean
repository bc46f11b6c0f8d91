import Ditg.Sender.Manager
import Ditg.Signaling.FlowLife
import Ditg.Signaling.Slots

/-!
# A signalling connection

The two threads of a signalling connection, one at each side, and the threads of the flows on
its channel, which reach them by pipes. What the two sides send each other, and what is put
into a pipe, comes in the order in which it has been sent, and whenever the system lets it.

* `link`: the connection and all its threads, taking steps in any order;
* `step_channel`: what a step may do to the channel: a flow gets it, or leaves it, or it is
  kept.

What happens to a flow of the connection is the subject of `Ditg.Signaling.Steps`, and what
follows for the channel that of `Ditg.Signaling.Release`.
-/

namespace Ditg

open Bytes

/-! ## The model -/

/-- What a thread reads of a reply, if it can: the sender has the byte order `e₁`, the
    receiver has `e₂`. -/
def Reply.msg? (e₁ e₂ : Endian) (reply : Reply) : Option ReplyMsg :=
  match recvReply e₁ (reply.bytes e₂) with
  | .ok (m, []) => some m
  | _ => none

/-- A signalling connection. Of what has been sent, and of what has been put into a pipe, we
    keep all, and how much of it has been read. -/
structure Link where
  /-- The thread of the sender. -/
  manager : Manager
  /-- What it has to put into the pipe of a flow, which has left the channel. -/
  pending : Option (UInt32 × FpCode)
  /-- The thread of the receiver. -/
  session : Session
  /-- The flows that have got the channel, and those that have left it. -/
  registered : List UInt32
  lowered : List UInt32
  /-- The threads that send a flow. -/
  running : List UInt32
  /-- The pipe of the channel. -/
  smPipe : List (SmCode × UInt32)
  smRead : ℕ
  /-- The pipe of the receiver. -/
  rPipe : List (PipeCode × UInt32)
  rRead : ℕ
  /-- The messages of the sender that have been read, and those of the receiver. -/
  recvRead : ℕ
  sendRead : ℕ
  /-- Something has been put into the pipe of the channel, which was closed. -/
  late : Bool

/-- The steps: of the threads of a flow at the sender (`flowParser`, `flowSender`), of the two
    threads of the connection, and of the thread of a flow at the receiver. -/
inductive LinkAction
  /-- A flow gets the channel, and asks for a request to be sent. -/
  | register (flowId : UInt32)
  | newFlow (flowId : UInt32)
  /-- The thread that sends a flow is ready (in passive mode), is done, or has failed. -/
  | sndAck (flowId : UInt32)
  | endFlow (flowId : UInt32)
  | errFlow (flowId : UInt32)
  /-- The sender reads its pipe, or a message; a flow that has left the channel is told. -/
  | smPipe
  | smSock
  | finish
  /-- The thread of a flow at the receiver has something to tell. -/
  | thread (code : PipeCode) (flowId : UInt32)
  /-- The receiver reads a message, or its pipe, or has waited for too long. -/
  | recvSock
  | recvPipe
  | timeout
  deriving DecidableEq, Repr

namespace Link

variable (e₁ e₂ : Endian) (o : RecvOptions) (s : Link)

/-- The thread of the sender does not read: it has exited, or it has a flow to tell. -/
def Busy : Prop := s.manager.exited ∨ s.pending.isSome

instance : Decidable s.Busy := inferInstanceAs (Decidable (_ ∨ _))

/-- A message is put into the pipe of the channel. -/
def write (code : SmCode) (flowId : UInt32) : Link :=
  { s with
    smPipe := s.smPipe ++ [(code, flowId)]
    late := s.late || !s.manager.channel.pipe }

/-- A flow leaves the channel; its parser is told afterwards. -/
def leave (flowId : UInt32) (code : FpCode) : Link :=
  { s with
    manager := s.manager.isChannelClosable
    lowered := s.lowered ++ [flowId]
    pending := some (flowId, code) }

/-- A message of the receiver (see `Manager.handle`), unless it names a flow that is not there. -/
def handle : ReplyMsg → Option Link
  | .ackClosedFlow flowId => (s.manager.flow? flowId).map fun _ => s.leave flowId .fpEnd
  | .ackSendFlow flowId openedPort => (s.manager.flow? flowId).map fun flow =>
    { s with
      manager := s.manager.createFlowSender flowId flow openedPort
      running := s.running ++ [flowId] }
  | .discovery => some { s with manager := s.manager.send .ackDiscovery }
  | .errMsg2 flowId | .errMsg3 flowId | .errMsg5 flowId =>
    (s.manager.flow? flowId).map fun _ => s.leave flowId .fpErr1

/-- A message of the pipe of the channel. With the failure of its sender, a flow leaves the
    channel. -/
def pipe (code : SmCode) (flowId : UInt32) : Option Link :=
  match s.manager.pipe code flowId with
  | .ok manager => some { s with
      manager := manager
      lowered := if code = .errFlow then s.lowered ++ [flowId] else s.lowered }
  | .error _ => none

/-- A thread for a flow with the given transport protocol may have this to tell: that it is
    ready, when not in passive mode; that it cannot bind, or is not allowed to; that there is
    something wrong with its connection. -/
def tells (passiveMode : Bool) (l4Proto : UInt8) : PipeCode → Bool
  | .ok => !passiveMode && l4Proto ∈ [l4ProtoUDP, l4ProtoTCP, l4ProtoICMP]
  | .err1 => l4Proto ∈ [l4ProtoUDP, l4ProtoTCP]
  | .err2 => !passiveMode && l4Proto = l4ProtoICMP
  | .errSock => l4Proto = l4ProtoTCP

/-- The thread of a flow has something to tell: the flow has a slot, in passive mode its thread
    has been created after the acknowledgement of its port, and this has not been told before.
    After an error at the start, nothing else is told. -/
def CanTell (code : PipeCode) (flowId : UInt32) : Prop :=
  flowId ≠ noFlow ∧
  (∃ slot ∈ s.session.slots, slot.flowId = flowId ∧ tells o.passiveMode slot.l4Proto code) ∧
  (o.passiveMode → .ackSendFlow flowId ∈ s.manager.sent.take s.recvRead) ∧
  (.err1, flowId) ∉ s.rPipe ∧ (.err2, flowId) ∉ s.rPipe ∧
  match code with
  | .ok => (.ok, flowId) ∉ s.rPipe
  | .err1 | .err2 => (.ok, flowId) ∉ s.rPipe ∧ (.errSock, flowId) ∉ s.rPipe
  | .errSock => (o.passiveMode ∨ (.ok, flowId) ∈ s.rPipe) ∧ (.errSock, flowId) ∉ s.rPipe

instance : ∀ code flowId, Decidable (s.CanTell o code flowId) := fun code flowId => by
  unfold CanTell
  cases code <;> dsimp only <;> infer_instance

/-- The message of the receiver that comes next, if it can be read. -/
def reply? : Option ReplyMsg := s.session.sent[s.sendRead]?.bind (Reply.msg? e₁ e₂)

/-- The receiver reads a message, unless the process exits. Its handlers get what they need: one
    that waits for ever takes no step. -/
def recvSock (m : SenderMsg) : Option Link :=
  match recvMsg e₂ o s.session [] (m.bytes e₁ o.passiveMode) with
  | .ok (_, session, []) => some { s with session := session, recvRead := s.recvRead + 1 }
  | _ => none

/-- It reads one of its pipe. -/
def recvPipe (code : PipeCode) (flowId : UInt32) : Option Link :=
  match pipeParser e₂ s.session [] code flowId with
  | .ok session => some { s with session := session, rRead := s.rRead + 1 }
  | .error _ => none

/-- A step. In passive mode a flow gets the channel even if it has been released (see
    `Channels.identifySignalManager`). -/
def step : LinkAction → Option Link
  | .register flowId =>
    if flowId ≠ noFlow ∧ flowId ∉ s.registered ∧
        (s.manager.channel.socket.isSome ∨ o.passiveMode) then
      some { s with
        registered := s.registered ++ [flowId]
        manager := { s.manager with channel.flows := s.manager.channel.flows + 1 } }
    else none
  | .newFlow flowId =>
    if flowId ∈ s.registered ∧ (.newFlow, flowId) ∉ s.smPipe then some (s.write .newFlow flowId)
    else none
  | .sndAck flowId =>
    if o.passiveMode ∧ flowId ∈ s.running ∧
        s.smPipe.count (.sndAck, flowId) < s.manager.flowSenders.count flowId then
      some (s.write .sndAck flowId)
    else none
  | .endFlow flowId =>
    if flowId ∈ s.running then
      some { s.write .endFlow flowId with running := s.running.erase flowId }
    else none
  | .errFlow flowId =>
    if flowId ∈ s.running then
      some { s.write .errFlow flowId with running := s.running.erase flowId }
    else none
  | .smPipe =>
    if s.Busy then none
    else s.smPipe[s.smRead]?.bind fun (code, flowId) =>
      { s with smRead := s.smRead + 1 }.pipe code flowId
  | .smSock =>
    if s.Busy then none
    else (s.reply? e₁ e₂).bind fun m => { s with sendRead := s.sendRead + 1 }.handle m
  | .finish =>
    s.pending.map fun (flowId, code) =>
      { s with manager := s.manager.sendPipeMsg flowId code, pending := none }
  | .thread code flowId =>
    if s.CanTell o code flowId then some { s with rPipe := s.rPipe ++ [(code, flowId)] } else none
  | .recvSock =>
    if s.session.uscita then none else s.manager.sent[s.recvRead]?.bind (s.recvSock e₁ e₂ o)
  | .recvPipe =>
    if s.session.uscita then none
    else s.rPipe[s.rRead]?.bind fun (code, flowId) => s.recvPipe e₂ code flowId
  | .timeout =>
    if s.session.uscita then none else some { s with session := s.session.discover }

/-- A connection that has just been set up, with the flow that has opened the channel. -/
def start (flowId : UInt32) (flows : Fin maxNumThread → Option FlowDescriptor) (socket : ℕ)
    (DestAddr : SockAddr) (session : Session) : Link where
  manager :=
    { channel :=
        { socket := some socket
          flows := 1
          pipe := true
          DestAddr := DestAddr
          errorLog := false
          handle := true }
      flows := flows
      flowSenders := []
      parserPipes := []
      sent := []
      exited := false }
  pending := none
  session :=
    { session with
      slots := List.replicate maxNumThread .free
      numFlow := 0
      uscita := false
      sent := [] }
  registered := [flowId]
  lowered := []
  running := []
  smPipe := []
  smRead := 0
  rPipe := []
  rRead := 0
  recvRead := 0
  sendRead := 0
  late := false

end Link

/-- The connection, with its steps in any order. -/
def link (e₁ e₂ : Endian) (o : RecvOptions) : Transition Link LinkAction where
  init s := ∃ flowId flows socket DestAddr session, flowId ≠ noFlow ∧
    s = .start flowId flows socket DestAddr session
  step := Link.step e₁ e₂ o

/-! ## The channel of a connection -/

namespace Link

variable {e₁ e₂ : Endian} {o : RecvOptions} {s s' : Link} {a : LinkAction}

/-- A flow gets the channel. -/
structure Joins (o : RecvOptions) (s s' : Link) (flowId : UInt32) : Prop where
  ne_noFlow : flowId ≠ noFlow
  notMem : flowId ∉ s.registered
  isOpen : s.manager.channel.socket.isSome ∨ o.passiveMode
  eq : s' = { s with
    registered := s.registered ++ [flowId]
    manager := { s.manager with channel.flows := s.manager.channel.flows + 1 } }

/-- A flow leaves the channel. -/
structure Leaves (s s' : Link) (flowId : UInt32) : Prop where
  not_busy : ¬s.Busy
  registered : s'.registered = s.registered
  lowered : s'.lowered = s.lowered ++ [flowId]
  channel : s'.manager.channel = s.manager.channel.leave.2
  exited : s'.manager.exited = s.manager.channel.leave.1
  release : .release ∈ s'.manager.sent → .release ∈ s.manager.sent ∨ s'.manager.exited
  pending : s'.pending = none ∨ ∃ code, s'.pending = some (flowId, code)

/-- Nothing happens to the channel. -/
structure Keeps (s s' : Link) : Prop where
  registered : s'.registered = s.registered
  lowered : s'.lowered = s.lowered
  channel : s'.manager.channel = s.manager.channel
  exited : s'.manager.exited = s.manager.exited
  release : .release ∈ s'.manager.sent → .release ∈ s.manager.sent
  pending : s'.pending = none ∨ s'.pending = s.pending

theorem recvSock_eq {m : SenderMsg} (h : s.recvSock e₁ e₂ o m = some s') :
    ∃ session, s' = { s with session := session, recvRead := s.recvRead + 1 } := by
  rw [recvSock] at h
  split at h
  · exact ⟨_, (Option.some.inj h).symm⟩
  · cases h

theorem recvPipe_eq {code : PipeCode} {flowId : UInt32} (h : s.recvPipe e₂ code flowId = some s') :
    ∃ session, pipeParser e₂ s.session [] code flowId = .ok session ∧
      s' = { s with session := session, rRead := s.rRead + 1 } := by
  rw [recvPipe] at h
  split at h
  · exact ⟨_, ‹_›, (Option.some.inj h).symm⟩
  · cases h

/-- What a message of the pipe does, if there is its flow. -/
theorem pipe_eq {code : SmCode} {flowId : UInt32} (h : s.pipe code flowId = some s') :
    (∃ flow, code = .newFlow ∧ s' = { s with manager := s.manager.send (.sendFlow flow flowId) }) ∨
    (code = .endFlow ∧ s' = { s with manager := s.manager.send (.closedFlow flowId) }) ∨
    (code = .errFlow ∧ s' = { s with
      manager := ((s.manager.sendPipeMsg flowId .fpErr2).send (.closedErr flowId)).isChannelClosable
      lowered := s.lowered ++ [flowId] }) ∨
    (code = .sndAck ∧ s' = { s with manager := s.manager.send (.ackSendFlow flowId) }) := by
  rw [pipe] at h
  split at h
  · rename_i manager hpipe
    cases h
    cases code with
    | newFlow =>
      obtain ⟨flow, -, heq⟩ := Loop.bind_eq_ok.1 hpipe
      cases heq
      exact .inl ⟨flow, rfl, rfl⟩
    | endFlow =>
      cases hpipe
      exact .inr (.inl ⟨rfl, rfl⟩)
    | errFlow =>
      obtain ⟨flow, -, heq⟩ := Loop.bind_eq_ok.1 hpipe
      cases heq
      exact .inr (.inr (.inl ⟨rfl, rfl⟩))
    | sndAck =>
      cases hpipe
      exact .inr (.inr (.inr ⟨rfl, rfl⟩))
  · cases h

/-- A flow leaves the channel, by a thread that has not exited and sends no release before. -/
theorem leaves_isChannelClosable (manager : Manager) {flowId : UInt32} (hbusy : ¬s.Busy)
    (hchannel : manager.channel = s.manager.channel) (hexited : manager.exited = s.manager.exited)
    (hsent : .release ∈ manager.sent → .release ∈ s.manager.sent)
    (hmanager : s'.manager = manager.isChannelClosable) (hregistered : s'.registered = s.registered)
    (hlowered : s'.lowered = s.lowered ++ [flowId])
    (hpending : s'.pending = none ∨ ∃ code, s'.pending = some (flowId, code)) :
    s.Leaves s' flowId := by
  have hopen : s.manager.exited = false := by
    rw [← Bool.not_eq_true]
    exact fun hs => hbusy (.inl hs)
  by_cases hleave : s.manager.channel.leave.1
  · have heq : s'.manager = { manager with
        channel := manager.channel.leave.2
        sent := manager.sent ++ [.release]
        exited := true } := by
      rw [hmanager, Manager.isChannelClosable, hchannel, if_pos hleave]
    exact ⟨hbusy, hregistered, hlowered, by rw [heq, hchannel], by rw [heq, hleave],
      fun _ => .inr (by rw [heq]), hpending⟩
  · have heq : s'.manager = { manager with channel := manager.channel.leave.2 } := by
      rw [hmanager, Manager.isChannelClosable, hchannel, if_neg hleave]
    refine ⟨hbusy, hregistered, hlowered, by rw [heq, hchannel], ?_, ?_, hpending⟩
    · rw [heq, hexited, hopen, Bool.eq_false_iff.2 hleave]
    · exact fun hmem => .inl (hsent (by rwa [heq] at hmem))

/-- The end of the channel for a flow, as the receiver tells it. -/
theorem leaves_handle (hbusy : ¬s.Busy) (flowId : UInt32) (code : FpCode) :
    s.Leaves ({ s with sendRead := s.sendRead + 1 }.leave flowId code) flowId :=
  leaves_isChannelClosable s.manager hbusy rfl rfl id rfl rfl rfl (.inr ⟨code, rfl⟩)

/-- A flow that starts changes the table of flows only. -/
theorem createFlowSender_same (manager : Manager) (flowId : UInt32) (flow : FlowDescriptor)
    (openedPort : UInt16) :
    (manager.createFlowSender flowId flow openedPort).channel = manager.channel ∧
      (manager.createFlowSender flowId flow openedPort).exited = manager.exited ∧
      (manager.createFlowSender flowId flow openedPort).sent = manager.sent := by
  rw [Manager.createFlowSender]
  split_ifs <;> exact ⟨rfl, rfl, rfl⟩

/-- A message other than a release. -/
theorem release_of_send {m : SenderMsg} (hm : m ≠ .release)
    (h : .release ∈ (s.manager.send m).sent) : .release ∈ s.manager.sent :=
  (List.mem_append.1 h).resolve_right fun hmem => hm (List.mem_singleton.1 hmem).symm

/-- What may happen to the channel. -/
theorem step_channel (h : s.step e₁ e₂ o a = some s') :
    (∃ flowId, a = .register flowId ∧ s.Joins o s' flowId) ∨
      (∃ flowId, s.Leaves s' flowId) ∨ s.Keeps s' := by
  cases a with
  | register f =>
    obtain ⟨⟨hf, hnew, hopen⟩, rfl⟩ := by
      simpa only [step, Option.ite_none_right_eq_some, Option.some.injEq] using h
    exact .inl ⟨f, rfl, hf, hnew, hopen, rfl⟩
  | newFlow f | sndAck f | endFlow f | errFlow f | thread code f =>
    obtain ⟨-, rfl⟩ := by
      simpa only [step, Option.ite_none_right_eq_some, Option.some.injEq] using h
    exact .inr (.inr ⟨rfl, rfl, rfl, rfl, id, .inr rfl⟩)
  | smPipe =>
    obtain ⟨hbusy, hbind⟩ := by simpa only [step, Option.ite_none_left_eq_some] using h
    obtain ⟨⟨code, f⟩, -, hpipe⟩ := Option.bind_eq_some_iff.1 hbind
    have hpending : s.pending = none :=
      Option.not_isSome_iff_eq_none.1 fun hsome => hbusy (.inr hsome)
    rcases pipe_eq hpipe with ⟨flow, -, rfl⟩ | ⟨-, rfl⟩ | ⟨-, rfl⟩ | ⟨-, rfl⟩
    · exact .inr (.inr ⟨rfl, rfl, rfl, rfl, release_of_send (by nofun), .inr rfl⟩)
    · exact .inr (.inr ⟨rfl, rfl, rfl, rfl, release_of_send (by nofun), .inr rfl⟩)
    · -- The flow leaves the channel as soon as the receiver has been told.
      refine .inr (.inl ⟨f, leaves_isChannelClosable
        ((s.manager.sendPipeMsg f .fpErr2).send (.closedErr f)) hbusy rfl rfl ?_ rfl rfl rfl
        (.inl hpending)⟩)
      exact release_of_send (by nofun)
    · exact .inr (.inr ⟨rfl, rfl, rfl, rfl, release_of_send (by nofun), .inr rfl⟩)
  | smSock =>
    obtain ⟨hbusy, hbind⟩ := by simpa only [step, Option.ite_none_left_eq_some] using h
    obtain ⟨m, -, hhandle⟩ := Option.bind_eq_some_iff.1 hbind
    cases m with
    -- The messages after which a flow leaves the channel.
    | ackClosedFlow f | errMsg2 f | errMsg3 f | errMsg5 f =>
      obtain ⟨flow, -, rfl⟩ := Option.map_eq_some_iff.1 hhandle
      exact .inr (.inl ⟨f, leaves_handle hbusy f _⟩)
    | ackSendFlow f openedPort =>
      obtain ⟨flow, -, rfl⟩ := Option.map_eq_some_iff.1 hhandle
      obtain ⟨hchannel, hexited, hsent⟩ := createFlowSender_same s.manager f flow openedPort
      exact .inr (.inr ⟨rfl, rfl, hchannel, hexited, fun hmem => hsent ▸ hmem, .inr rfl⟩)
    | discovery =>
      cases hhandle
      exact .inr (.inr ⟨rfl, rfl, rfl, rfl, release_of_send (by nofun), .inr rfl⟩)
  | finish =>
    obtain ⟨⟨f, code⟩, -, rfl⟩ := Option.map_eq_some_iff.1 h
    exact .inr (.inr ⟨rfl, rfl, rfl, rfl, id, .inl rfl⟩)
  | recvSock =>
    obtain ⟨-, hbind⟩ := by simpa only [step, Option.ite_none_left_eq_some] using h
    obtain ⟨m, -, hrecv⟩ := Option.bind_eq_some_iff.1 hbind
    obtain ⟨session, rfl⟩ := recvSock_eq hrecv
    exact .inr (.inr ⟨rfl, rfl, rfl, rfl, id, .inr rfl⟩)
  | recvPipe =>
    obtain ⟨-, hbind⟩ := by simpa only [step, Option.ite_none_left_eq_some] using h
    obtain ⟨⟨code, f⟩, -, hrecv⟩ := Option.bind_eq_some_iff.1 hbind
    obtain ⟨session, -, rfl⟩ := recvPipe_eq hrecv
    exact .inr (.inr ⟨rfl, rfl, rfl, rfl, id, .inr rfl⟩)
  | timeout =>
    obtain ⟨-, rfl⟩ := by
      simpa only [step, Option.ite_none_left_eq_some, Option.some.injEq] using h
    exact .inr (.inr ⟨rfl, rfl, rfl, rfl, id, .inr rfl⟩)

/-- Who puts something into the pipe of the channel. -/
theorem late_of_step (h : s.step e₁ e₂ o a = some s') (hlate : s'.late) :
    s.late ∨ s.manager.channel.pipe = false ∧
      ∃ flowId, flowId ∈ s.running ∨ flowId ∈ s.registered ∧ (.newFlow, flowId) ∉ s.smPipe := by
  have hwrite (hlate : (s.late || !s.manager.channel.pipe) = true) :
      s.late ∨ s.manager.channel.pipe = false := by
    simpa using hlate
  cases a with
  | newFlow f =>
    obtain ⟨hf, rfl⟩ := by
      simpa only [step, Option.ite_none_right_eq_some, Option.some.injEq] using h
    exact (hwrite hlate).imp id fun hpipe => ⟨hpipe, f, .inr hf⟩
  | sndAck f =>
    obtain ⟨⟨-, hf, -⟩, rfl⟩ := by
      simpa only [step, Option.ite_none_right_eq_some, Option.some.injEq] using h
    exact (hwrite hlate).imp id fun hpipe => ⟨hpipe, f, .inl hf⟩
  | endFlow f | errFlow f =>
    obtain ⟨hf, rfl⟩ := by
      simpa only [step, Option.ite_none_right_eq_some, Option.some.injEq] using h
    exact (hwrite hlate).imp id fun hpipe => ⟨hpipe, f, .inl hf⟩
  | register f | thread code f =>
    obtain ⟨-, rfl⟩ := by
      simpa only [step, Option.ite_none_right_eq_some, Option.some.injEq] using h
    exact .inl hlate
  | smPipe =>
    obtain ⟨-, hbind⟩ := by simpa only [step, Option.ite_none_left_eq_some] using h
    obtain ⟨⟨code, f⟩, -, hpipe⟩ := Option.bind_eq_some_iff.1 hbind
    rcases pipe_eq hpipe with ⟨flow, -, rfl⟩ | ⟨-, rfl⟩ | ⟨-, rfl⟩ | ⟨-, rfl⟩ <;>
      exact .inl hlate
  | smSock =>
    obtain ⟨-, hbind⟩ := by simpa only [step, Option.ite_none_left_eq_some] using h
    obtain ⟨m, -, hhandle⟩ := Option.bind_eq_some_iff.1 hbind
    cases m with
    | ackClosedFlow f | errMsg2 f | errMsg3 f | errMsg5 f | ackSendFlow f openedPort =>
      obtain ⟨flow, -, rfl⟩ := Option.map_eq_some_iff.1 hhandle
      exact .inl hlate
    | discovery =>
      cases hhandle
      exact .inl hlate
  | finish =>
    obtain ⟨m, -, rfl⟩ := Option.map_eq_some_iff.1 h
    exact .inl hlate
  | recvSock =>
    obtain ⟨-, hbind⟩ := by simpa only [step, Option.ite_none_left_eq_some] using h
    obtain ⟨m, -, hrecv⟩ := Option.bind_eq_some_iff.1 hbind
    obtain ⟨session, rfl⟩ := recvSock_eq hrecv
    exact .inl hlate
  | recvPipe =>
    obtain ⟨-, hbind⟩ := by simpa only [step, Option.ite_none_left_eq_some] using h
    obtain ⟨⟨code, f⟩, -, hrecv⟩ := Option.bind_eq_some_iff.1 hbind
    obtain ⟨session, -, rfl⟩ := recvPipe_eq hrecv
    exact .inl hlate
  | timeout =>
    obtain ⟨-, rfl⟩ := by
      simpa only [step, Option.ite_none_left_eq_some, Option.some.injEq] using h
    exact .inl hlate

end Link

end Ditg
