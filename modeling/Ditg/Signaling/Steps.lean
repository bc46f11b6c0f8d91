import Ditg.Signaling.Lives

/-!
# The steps of a signalling connection

What the threads of a connection do, flow by flow: a step is an event in the life of one flow,
or of none (`life_step`), so that the lives of `FlowLife` are those of the flows of a
connection (`life_reachVia`).

In passive mode this needs that a flow gets the slot whose position is acknowledged
(`Link.AcksOwn`): the receiver does not acknowledge the id of the flow.
-/

namespace Ditg

open Bytes FlowLife Memory

namespace Link

variable {e₁ e₂ : Endian} {s s' : Link}

/-! ## What the sender does -/

/-- An event in the life of a flow, or in none. -/
def happens (passiveMode : Bool) : Option (UInt32 × FlowEvent) → (UInt32 → FlowLife) →
    UInt32 → FlowLife
  | some (f, ev) => on f fun l => l.next passiveMode ev
  | none => id

/-- The event of a message that is got. -/
def gets (b : Option (Kind × UInt32)) : Option (UInt32 × FlowEvent) :=
  b.map fun (k, f) => (f, .get k)

variable {p : Bool}

theorem moves_leave {m : ReplyMsg} (hread : s.reply? e₁ e₂ = some m) (hpending : s.pending = none)
    {f : UInt32} {code : FpCode} :
    Moves e₁ e₂ s ({ s with sendRead := s.sendRead + 1 }.leave f code) fun lives =>
      on f (fun l => { l with fpEnd := l.fpEnd + if code = .fpEnd then 1 else 0 })
        (on f (fun l => { l with lowered := l.lowered + 1 }) (take? m.about lives)) :=
  (((moves_sendRead hread).trans moves_isChannelClosable).trans (moves_lowered f)).trans
    (moves_pending (s := { s with
      sendRead := s.sendRead + 1
      manager := s.manager.isChannelClosable
      lowered := s.lowered ++ [f] }) hpending f code)

/-- What the sender does with a message of the receiver. -/
theorem moves_handle {m : ReplyMsg} (hread : s.reply? e₁ e₂ = some m)
    (hpending : s.pending = none)
    (hhandle : { s with sendRead := s.sendRead + 1 }.handle m = some s') :
    Moves e₁ e₂ s s' (happens p (gets m.about)) := by
  cases m with
  | ackSendFlow f openedPort =>
    obtain ⟨flow, -, rfl⟩ := Option.map_eq_some_iff.1 hhandle
    refine ((moves_sendRead hread).trans (moves_createFlowSender f flow openedPort)).congr ?_
    simp only [take?, ReplyMsg.about, on_on]
    rfl
  | discovery =>
    cases hhandle
    exact ((moves_sendRead hread).trans (moves_send .ackDiscovery)).congr rfl
  | ackClosedFlow f | errMsg2 f | errMsg3 f | errMsg5 f =>
    obtain ⟨flow, -, rfl⟩ := Option.map_eq_some_iff.1 hhandle
    refine (moves_leave hread hpending).congr ?_
    simp only [take?, ReplyMsg.about, on_on]
    rfl

theorem moves_sendPipeMsg (f : UInt32) (code : FpCode) (hcode : code ≠ .fpEnd) :
    Moves e₁ e₂ s { s with manager := s.manager.sendPipeMsg f code } id := by
  refine fun hs => ⟨{ hs with }, funext fun g => ?_⟩
  refine FlowLife.ext rfl rfl rfl rfl rfl ?_ rfl rfl
  simp [life, fpEnds, Manager.sendPipeMsg, List.count_append, hcode]

/-- What the sender does with a message of the pipe. -/
theorem moves_pipe {code : SmCode} {f : UInt32} (hread : s.smPipe[s.smRead]? = some (code, f))
    (hpipe : { s with smRead := s.smRead + 1 }.pipe code f = some s') :
    Moves e₁ e₂ s s' (happens p (gets (smAbout (code, f)))) := by
  rcases pipe_eq hpipe with ⟨flow, rfl, rfl⟩ | ⟨rfl, rfl⟩ | ⟨rfl, rfl⟩ | ⟨rfl, rfl⟩
  · refine Moves.congr (Moves.trans (moves_smRead hread) (moves_send (.sendFlow flow f))) ?_
    simp only [take?, put?, smAbout, SenderMsg.about, on_on]
    rfl
  · refine Moves.congr (Moves.trans (moves_smRead hread) (moves_send (.closedFlow f))) ?_
    simp only [take?, put?, smAbout, SenderMsg.about, on_on]
    rfl
  · -- The flow is told first, then the receiver, and then the channel has a flow less.
    refine Moves.congr (Moves.trans (Moves.trans (Moves.trans (Moves.trans (moves_smRead hread)
      (moves_sendPipeMsg f .fpErr2 (by decide))) (moves_send (.closedErr f)))
      moves_isChannelClosable) (moves_lowered f)) ?_
    simp only [take?, put?, smAbout, SenderMsg.about, on_on, id_eq]
    rfl
  · exact Moves.congr (Moves.trans (moves_smRead hread) (moves_send (.ackSendFlow f))) rfl

/-! ## What the receiver does -/

/-- The replies are about what they tell. -/
theorem about_reply (e₁ e₂ : Endian) (m : ReplyMsg) : m.reply.about e₁ e₂ = m.about := by
  have hread := @recvReply_bytes e₂ e₁ m []
  rw [List.append_nil] at hread
  rw [Reply.about, Reply.msg?, hread]
  cases m <;> rfl

/-- What does not matter for the flows, in a session. -/
theorem moves_session (session : Session) (hids : session.flowIdNum = s.session.flowIdNum)
    (hsent : session.sent = s.session.sent) : Moves e₁ e₂ s { s with session := session } id :=
  moves_same (by rw [flowData, flowData, hids]) (by rw [logs, logs, hsent])

/-- A session answers. -/
theorem moves_send_session (session : Session) (reply : Reply)
    (hids : session.flowIdNum = s.session.flowIdNum)
    (hsent : session.sent = s.session.sent ++ [reply]) :
    Moves e₁ e₂ s { s with session := session } (put? (reply.about e₁ e₂)) :=
  Moves.congr (Moves.trans (moves_answer reply)
    (moves_session (s := { s with session := s.session.send reply }) session hids hsent)) rfl

/-- A flow without a slot. -/
theorem slots_eq_zero {f : UInt32} (hf : f ≠ noFlow) (h : s.session.findFlow f = none) :
    (s.life e₁ e₂ f).slots = 0 :=
  Nat.eq_zero_of_not_pos fun hpos => by
    have := (slotsOf_pos_iff hf).1 hpos
    rw [h] at this
    exact absurd this Bool.false_ne_true

theorem slots_pos {f : UInt32} {k : ℕ} (hf : f ≠ noFlow) (h : s.session.findFlow f = some k) :
    0 < (s.life e₁ e₂ f).slots :=
  (slotsOf_pos_iff hf).2 (by rw [h]; rfl)

variable {o : RecvOptions}

/-- A message of the sender is read, and the slot of its flow is freed. -/
theorem moves_recvRead_freeFlow {m : SenderMsg} {f : UInt32} {k : ℕ} (hf : f ≠ noFlow)
    (hread : s.manager.sent[s.recvRead]? = some m) (hfind : s.session.findFlow f = some k)
    (freesAddr : Bool) :
    Moves e₁ e₂ s { s with
        recvRead := s.recvRead + 1
        session := s.session.heard.freeFlow k freesAddr } fun lives =>
      on f (fun l => { l with slots := l.slots - 1 }) (take? m.about lives) := by
  have hheard : Moves e₁ e₂ s
      { s with recvRead := s.recvRead + 1, session := s.session.heard } (take? m.about) :=
    Moves.congr (Moves.trans (moves_recvRead hread) (moves_session _ rfl rfl)) rfl
  exact Moves.trans hheard (moves_freeFlow
    (s := { s with recvRead := s.recvRead + 1, session := s.session.heard }) hf hfind freesAddr)

/-- The end of a flow. -/
theorem moves_closedFlow {f : UInt32} (hf : f ≠ noFlow)
    (hread : s.manager.sent[s.recvRead]? = some (.closedFlow f)) {session : Session}
    (hclosed : s.session.heard.closedFlow o [] f = .ok session) :
    Moves e₁ e₂ s { s with recvRead := s.recvRead + 1, session := session }
      (happens p (some (f, .get .closedFlow))) := by
  rcases hfind : s.session.findFlow f with _ | k
  · have hfind' : s.session.heard.findFlow f = none := hfind
    rw [closedFlow_none hfind'] at hclosed
    cases hclosed
    refine Moves.congr (Moves.trans (moves_recvRead hread) (moves_session _ rfl rfl)) ?_
    have hslot : ¬0 < (s.life e₁ e₂ f).slots := (slots_eq_zero hf hfind).not_gt
    change on f (fun l => l.take .closedFlow) _ = on f (fun l => l.next p (.get .closedFlow)) _
    exact on_congr (if_neg hslot).symm
  · have hfind' : s.session.heard.findFlow f = some k := hfind
    obtain ⟨-, rfl⟩ := (closedFlow_eq_ok hfind').1 hclosed
    refine Moves.congr (Moves.trans (moves_recvRead_freeFlow hf hread hfind true)
      (moves_answer (s := { s with
        recvRead := s.recvRead + 1
        session := s.session.heard.freeFlow k true }) (.ackFlow tspAckClosedFlow f 0))) ?_
    have habout := about_reply e₁ e₂ (.ackClosedFlow f)
    rw [ReplyMsg.reply] at habout
    simp only [habout, put?, take?, ReplyMsg.about, SenderMsg.about, on_on]
    have hslot : 0 < (s.life e₁ e₂ f).slots := slots_pos hf hfind
    change _ = on f (fun l => l.next p (.get .closedFlow)) _
    exact on_congr (if_pos hslot).symm

/-- The end of a flow that could not be sent. -/
theorem moves_closedErr {f : UInt32} (hf : f ≠ noFlow)
    (hread : s.manager.sent[s.recvRead]? = some (.closedErr f)) {session : Session}
    (hclosed : s.session.heard.closedErr [] f = .ok session) :
    Moves e₁ e₂ s { s with recvRead := s.recvRead + 1, session := session }
      (happens p (some (f, .get .closedErr))) := by
  rcases hfind : s.session.findFlow f with _ | k
  · have hfind' : s.session.heard.findFlow f = none := hfind
    rw [closedErr_none hfind'] at hclosed
    cases hclosed
    refine Moves.congr (Moves.trans (moves_recvRead hread) (moves_session _ rfl rfl)) ?_
    have hslots : (s.life e₁ e₂ f).slots = 0 := slots_eq_zero hf hfind
    change on f (fun l => l.take .closedErr) _ = on f (fun l => l.next p (.get .closedErr)) _
    refine on_congr (FlowLife.ext rfl ?_ rfl rfl rfl rfl rfl rfl)
    simp only [FlowLife.next, FlowLife.handle, take, hslots]
  · have hfind' : s.session.heard.findFlow f = some k := hfind
    obtain ⟨-, rfl⟩ := (closedErr_eq_ok hfind').1 hclosed
    refine Moves.congr (moves_recvRead_freeFlow hf hread hfind false) ?_
    simp only [take?, SenderMsg.about, on_on]
    rfl

/-- In passive mode, what the receiver acknowledges is the flow that has asked. -/
def OwnSlot (o : RecvOptions) (s : Link) : SenderMsg → Prop
  | .sendFlow _ f => o.passiveMode → ∀ k ∈ s.session.findFlow noFlow, UInt32.ofNat (k + 1) = f
  | _ => True

/-- The request for a flow. -/
theorem moves_sendFlow {flow : FlowDescriptor} {f : UInt32} (hf : f ≠ noFlow) {k : ℕ}
    (hk : s.session.findFlow noFlow = some k)
    (hread : s.manager.sent[s.recvRead]? = some (.sendFlow flow f))
    (hown : s.OwnSlot o (.sendFlow flow f)) :
    Moves e₁ e₂ s
      { s with
        recvRead := s.recvRead + 1
        session := s.session.heard.sendFlow o k (flow.request o.passiveMode f) }
      (happens o.passiveMode (some (f, .get .sendFlow))) := by
  have hids := flowIdNum_sendFlow (o := o) (s := s.session.heard) k
    (flow.request o.passiveMode f)
  by_cases hpassive : o.passiveMode
  · -- In passive mode the request is acknowledged at once.
    rw [Session.sendFlow, if_pos hpassive] at hids ⊢
    refine Moves.congr (Moves.trans (Moves.trans (moves_recvRead hread)
      (moves_fill (s := { s with recvRead := s.recvRead + 1 }) { s.session.heard with
        slots := s.session.heard.slots.set k
          ((s.session.heard.slots.getD k .free).fill o s.session.heard
            (flow.request o.passiveMode f)) } hf hk rfl hids))
      (moves_answer (.ackFlow tspAckSendFlow (UInt32.ofNat (k + 1)) 0))) ?_
    have habout := about_reply e₁ e₂ (.ackSendFlow f 0)
    rw [ReplyMsg.reply] at habout
    simp only [hown hpassive k hk, habout, put?, take?, ReplyMsg.about, SenderMsg.about, on_on]
    rw [happens]
    refine on_congr ?_
    simp only [FlowLife.next, FlowLife.handle, if_pos hpassive]
    rfl
  · -- Otherwise it is once the thread of the flow is ready.
    have hsent : (s.session.heard.sendFlow o k (flow.request o.passiveMode f)).sent =
        s.session.sent := by
      rw [Session.sendFlow, if_neg hpassive]
    refine Moves.congr (Moves.trans (moves_recvRead hread)
      (moves_fill (s := { s with recvRead := s.recvRead + 1 }) _ hf hk hsent hids)) ?_
    simp only [take?, SenderMsg.about, on_on]
    rw [happens]
    refine on_congr ?_
    simp only [FlowLife.next, FlowLife.handle, if_neg hpassive]
    rfl

/-- A message that no flow has an event of. -/
theorem moves_other {m : SenderMsg} (hread : s.manager.sent[s.recvRead]? = some m)
    (hm : m.about = none) (hstep : s.recvSock e₁ e₂ o m = some s') :
    Moves e₁ e₂ s s' id := by
  have hmove {r : RecvMsg} {session : Session} (reply? : Option Reply)
      (hrecv : recvMsg e₂ o s.session [] (m.bytes e₁ o.passiveMode) = .ok (r, session, []))
      (hids : session.flowIdNum = s.session.flowIdNum)
      (hsent : session.sent = s.session.sent ++ reply?.toList)
      (hreply : ∀ reply, reply? = some reply → reply.about e₁ e₂ = none) :
      Moves e₁ e₂ s s' id := by
    rw [recvSock, hrecv] at hstep
    cases hstep
    have htake : Moves e₁ e₂ s _ (take? m.about) := moves_recvRead hread
    rw [hm] at htake
    rcases reply? with _ | reply
    · rw [Option.toList_none, List.append_nil] at hsent
      exact Moves.congr (Moves.trans htake (moves_session _ hids hsent)) rfl
    · refine Moves.congr (Moves.trans htake (moves_send_session _ reply hids hsent)) ?_
      rw [hreply reply rfl]
      rfl
  have happend {r : RecvMsg} {session : Session}
      (h : ∀ rest, recvMsg e₂ o s.session [] (m.bytes e₁ o.passiveMode ++ rest) =
        .ok (r, session, rest)) :
      recvMsg e₂ o s.session [] (m.bytes e₁ o.passiveMode) = .ok (r, session, []) := by
    have := h []
    rwa [List.append_nil] at this
  cases m with
  | sendFlow flow f => cases hm
  | closedFlow f => cases hm
  | closedErr f => cases hm
  | sendNameLog FileName =>
    rcases hname : s.session.heard.sendNameLog (strncpy dimLogFile FileName.toList) with _ | session
    · -- There is no free log file, so that the process exits.
      have hrecv := @recvMsg_sendNameLog e₂ e₁ o s.session [] FileName []
      rw [hname, List.append_nil] at hrecv
      rw [recvSock, hrecv] at hstep
      cases hstep
    · have hrecv := happend fun rest => by rw [recvMsg_sendNameLog, hname]; rfl
      obtain ⟨hslots, hsent, -⟩ := sendNameLog_spec hname
      refine hmove (some (.ack tspAckSendNameLog)) hrecv (congrArg (List.map _) hslots) hsent ?_
      rintro _ ⟨⟩
      rfl
  | ackSendFlow f =>
    obtain ⟨hids, hsent⟩ := ackSendFlow_spec (s := s.session.heard) f
    refine hmove none (happend (recvMsg_ackSendFlow f)) hids ?_ ?_
    · rw [hsent, Option.toList_none, List.append_nil]
    · rintro _ ⟨⟩
  | ackDiscovery =>
    refine hmove none (happend recvMsg_ackDiscovery) rfl (List.append_nil _).symm ?_
    rintro _ ⟨⟩
  | release =>
    refine hmove (some (.ack tspAckRelease)) (happend recvMsg_release) rfl rfl ?_
    rintro _ ⟨⟩
    rfl

/-- What the receiver does with a message of the sender. -/
theorem moves_recvSock {m : SenderMsg} (hread : s.manager.sent[s.recvRead]? = some m)
    (hf : ∀ k f, m.about = some (k, f) → f ≠ noFlow) (hown : s.OwnSlot o m)
    (hstep : s.recvSock e₁ e₂ o m = some s') :
    Moves e₁ e₂ s s' (happens o.passiveMode (gets m.about)) := by
  have hrecv {r : RecvMsg} {x : Except Stop Session}
      (h : ∀ rest, recvMsg e₂ o s.session [] (m.bytes e₁ o.passiveMode ++ rest) =
        x.map fun session => (r, session, rest)) :
      ∃ session, x = .ok session ∧
        s' = { s with session := session, recvRead := s.recvRead + 1 } := by
    have := h []
    rw [List.append_nil] at this
    rw [recvSock, this] at hstep
    cases x with
    | error stop => cases hstep
    | ok session => exact ⟨session, rfl, (Option.some.inj hstep).symm⟩
  cases m with
  | sendFlow flow f =>
    rcases hk : s.session.findFlow noFlow with _ | k
    · -- The process exits.
      have hfull := @recvMsg_sendFlow_full e₂ e₁ o s.session [] hk flow f []
      rw [List.append_nil] at hfull
      rw [recvSock, hfull] at hstep
      cases hstep
    · obtain ⟨session, heq, rfl⟩ := hrecv (x := .ok _) (recvMsg_sendFlow hk flow f)
      cases heq
      exact moves_sendFlow (hf _ f rfl) hk hread hown
  | closedFlow f =>
    obtain ⟨session, hclosed, rfl⟩ := hrecv (recvMsg_closedFlow f)
    exact moves_closedFlow (hf _ f rfl) hread hclosed
  | closedErr f =>
    obtain ⟨session, hclosed, rfl⟩ := hrecv (recvMsg_closedErr f)
    exact moves_closedErr (hf _ f rfl) hread hclosed
  | sendNameLog FileName => exact moves_other hread rfl hstep
  | ackSendFlow f => exact moves_other hread rfl hstep
  | ackDiscovery => exact moves_other hread rfl hstep
  | release => exact moves_other hread rfl hstep

/-- A flow with a slot is ended by a message of the pipe: the sender is told, and the slot is
    freed. -/
theorem moves_pipeErr {code : PipeCode} {f : UInt32} (hf : f ≠ noFlow)
    (hread : s.rPipe[s.rRead]? = some (code, f)) {k : ℕ} (hfind : s.session.findFlow f = some k)
    {typeMessage : UInt8} {session : Session}
    (herr : s.session.pipeErr [] typeMessage f = .ok session) :
    Moves e₁ e₂ s { s with session := session, rRead := s.rRead + 1 } fun lives =>
      on f (fun l => { l with slots := l.slots - 1 })
        (put? ((Reply.ackFlow typeMessage f 0).about e₁ e₂) (take? (ftAbout (code, f)) lives)) := by
  obtain ⟨-, rfl⟩ := (pipeErr_eq_ok hfind).1 herr
  have hfind' : (s.session.send (.ackFlow typeMessage f 0)).findFlow f = some k := hfind
  exact Moves.trans (Moves.trans (moves_rRead hread) (moves_answer (.ackFlow typeMessage f 0)))
    (moves_freeFlow (s := { s with
      session := s.session.send (.ackFlow typeMessage f 0)
      rRead := s.rRead + 1 }) hf hfind' false)

/-- A flow that cannot be started is told the sender, whether or not it has a slot. -/
theorem moves_errStart {code : PipeCode} {f : UInt32} (hf : f ≠ noFlow)
    (hread : s.rPipe[s.rRead]? = some (code, f)) (hcode : ftAbout (code, f) = (.ftErr, f))
    {typeMessage : UInt8}
    (hreply : (Reply.ackFlow typeMessage f 0).about e₁ e₂ = some (.errStart, f))
    {session : Session} (herr : s.session.pipeErr [] typeMessage f = .ok session) :
    Moves e₁ e₂ s { s with session := session, rRead := s.rRead + 1 }
      (happens p (some (f, .get .ftErr))) := by
  rcases hfind : s.session.findFlow f with _ | k
  · rw [pipeErr_none hfind] at herr
    cases herr
    refine Moves.congr (Moves.trans (moves_rRead hread)
      (moves_answer (.ackFlow typeMessage f 0))) ?_
    have hslots : (s.life e₁ e₂ f).slots = 0 := slots_eq_zero hf hfind
    simp only [hreply, hcode, put?, take?, on_on]
    rw [happens]
    refine on_congr (FlowLife.ext rfl ?_ rfl rfl rfl rfl rfl rfl)
    simp only [FlowLife.next, FlowLife.handle, take, put, hslots, Function.comp_apply]
  · refine Moves.congr (moves_pipeErr hf hread hfind herr) ?_
    simp only [hreply, hcode, put?, take?, on_on]
    rfl

/-- A slot with the id of a flow is the one that is found. -/
theorem findFlow_isSome_iff {f : UInt32} : (s.session.findFlow f).isSome ↔
    (s.session.slots.find? (·.flowId = f)).isSome := by
  rw [Session.findFlow, List.findIdx?_isSome, List.find?_isSome, List.any_eq_true]

/-- What the receiver does with a message of its pipe. -/
theorem moves_pipeParser {code : PipeCode} {f : UInt32} (hf : f ≠ noFlow)
    (hread : s.rPipe[s.rRead]? = some (code, f)) {session : Session}
    (hparse : pipeParser e₂ s.session [] code f = .ok session) :
    Moves e₁ e₂ s { s with session := session, rRead := s.rRead + 1 }
      (happens p (gets (some (ftAbout (code, f))))) := by
  cases code with
  | err1 => exact moves_errStart hf hread rfl (about_reply e₁ e₂ (.errMsg2 f)) hparse
  | err2 => exact moves_errStart hf hread rfl (about_reply e₁ e₂ (.errMsg3 f)) hparse
  | ok =>
    rw [pipeParser] at hparse
    rcases hfind : s.session.slots.find? (·.flowId = f) with _ | slot
    · simp only [hfind] at hparse
      cases hparse
      refine Moves.congr (moves_rRead hread) ?_
      -- The message of a flow without a slot is only read.
      have hslot : ¬0 < (s.life e₁ e₂ f).slots := by
        rw [life, slotsOf_pos_iff hf, findFlow_isSome_iff, hfind]
        exact Bool.false_ne_true
      change on f (fun l => l.take .ftOk) _ = on f (fun l => l.next p (.get .ftOk)) _
      exact on_congr (if_neg hslot).symm
    · -- A flow with a slot is acknowledged.
      have hslot : 0 < (s.life e₁ e₂ f).slots := by
        rw [life, slotsOf_pos_iff hf, findFlow_isSome_iff, hfind]
        rfl
      simp only [hfind] at hparse
      cases hparse
      refine Moves.congr (Moves.trans (moves_rRead hread) (moves_answer
        (.ackFlow tspAckSendFlow f (ntohs e₂ slot.paraThread.destHost.port)))) ?_
      have habout := about_reply e₁ e₂
        (.ackSendFlow f (ntohs e₂ slot.paraThread.destHost.port))
      rw [ReplyMsg.reply] at habout
      simp only [habout, put?, take?, ftAbout, ReplyMsg.about, on_on]
      change _ = on f (fun l => l.next p (.get .ftOk)) _
      exact on_congr (if_pos hslot).symm
  | errSock =>
    rw [pipeParser] at hparse
    rcases hfind : s.session.findFlow f with _ | k
    · rw [hfind, Option.isSome_none, if_neg Bool.false_ne_true] at hparse
      cases hparse
      refine Moves.congr (moves_rRead hread) ?_
      have hslot : ¬0 < (s.life e₁ e₂ f).slots := (slots_eq_zero hf hfind).not_gt
      change on f (fun l => l.take .ftErrSock) _ = on f (fun l => l.next p (.get .ftErrSock)) _
      exact on_congr (if_neg hslot).symm
    · -- The sender is told, and the slot is free.
      have hslot : 0 < (s.life e₁ e₂ f).slots := slots_pos hf hfind
      rw [hfind, Option.isSome_some, if_pos rfl] at hparse
      refine Moves.congr (moves_pipeErr hf hread hfind hparse) ?_
      have habout := about_reply e₁ e₂ (.errMsg5 f)
      rw [ReplyMsg.reply] at habout
      simp only [habout, put?, take?, ftAbout, ReplyMsg.about, on_on]
      change _ = on f (fun l => l.next p (.get .ftErrSock)) _
      exact on_congr (if_pos hslot).symm

/-! ## A step of the connection -/

/-- The event of a step, and the flow it happens to. -/
def event (e₁ e₂ : Endian) (s : Link) : LinkAction → Option (UInt32 × FlowEvent)
  | .register f => some (f, .register)
  | .newFlow f => some (f, .ask)
  | .endFlow f => some (f, .endSender)
  | .errFlow f => some (f, .failSender)
  | .smPipe => gets (s.smPipe[s.smRead]?.bind smAbout)
  | .smSock => gets ((s.reply? e₁ e₂).bind ReplyMsg.about)
  | .thread .ok f => some (f, .threadOk)
  | .thread .err1 f | .thread .err2 f => some (f, .threadErr)
  | .thread .errSock f => some (f, .threadErrSock)
  | .recvSock => gets (s.manager.sent[s.recvRead]?.bind SenderMsg.about)
  | .recvPipe => gets (s.rPipe[s.rRead]?.map ftAbout)
  | .sndAck _ | .finish | .timeout => none

/-- No more has been read than has been sent. -/
theorem gotCount_le_sentCount (b : Kind × UInt32) : s.gotCount e₁ e₂ b ≤ s.sentCount e₁ e₂ b := by
  have hsm : tally smAbout (s.smPipe.take s.smRead) b ≤ tally smAbout s.smPipe b :=
    tally_take_le _
  have hmsg : tally SenderMsg.about (s.manager.sent.take s.recvRead) b ≤
    tally SenderMsg.about s.manager.sent b := tally_take_le _
  have hft : tally (some ∘ ftAbout) (s.rPipe.take s.rRead) b ≤
    tally (some ∘ ftAbout) s.rPipe b := tally_take_le _
  have hreply : tally (Reply.about e₁ e₂) (s.session.sent.take s.sendRead) b ≤
    tally (Reply.about e₁ e₂) s.session.sent b := tally_take_le _
  simp only [gotCount, sentCount]
  omega

/-- A message that is read has been sent. -/
theorem can_get {k : Kind} {f : UInt32} (hs : s.InOrder)
    (h : Moves e₁ e₂ s s' (take? (some (k, f)))) : (s.life e₁ e₂ f).Can p (.get k) := by
  have hlife : s'.life e₁ e₂ f = (s.life e₁ e₂ f).take k := by
    rw [(h hs).2]
    exact Function.update_self ..
  have hsent : (s.life e₁ e₂ f).sent k = (s'.life e₁ e₂ f).sent k := by rw [hlife]; rfl
  have hgot : (s.life e₁ e₂ f).got k + 1 = (s'.life e₁ e₂ f).got k := by
    rw [hlife]
    simp [take]
  have hle : (s'.life e₁ e₂ f).got k ≤ (s'.life e₁ e₂ f).sent k := gotCount_le_sentCount _
  change (s.life e₁ e₂ f).got k < (s.life e₁ e₂ f).sent k
  omega

/-- A flow that is read about is not the id of a free slot. -/
theorem ne_noFlow_of_can {k : Kind} {f : UInt32} (hno : s.life e₁ e₂ noFlow = fresh)
    (hcan : (s.life e₁ e₂ f).Can p (.get k)) : f ≠ noFlow := by
  rintro rfl
  rw [hno] at hcan
  exact Nat.lt_irrefl 0 hcan

/-- What has not been put into the pipe of the channel. -/
theorem sent_newFlow_eq_zero {f : UInt32} (h : (.newFlow, f) ∉ s.smPipe) :
    (s.life e₁ e₂ f).sent .newFlow = 0 := by
  have hsm : tally smAbout s.smPipe (.newFlow, f) = 0 := by
    refine tally_eq_zero ?_
    rintro ⟨code, g⟩ hmem habout
    cases code <;> cases habout
    exact h hmem
  simp only [life, sentCount, hsm, tally_msg_eq_zero (show Kind.newFlow ∉ _ by decide),
    tally_ft_eq_zero (show Kind.newFlow ∉ _ by decide),
    tally_reply_eq_zero (show Kind.newFlow ∉ _ by decide), Nat.add_zero]

/-- What a thread of the receiver has not told. -/
theorem sent_ft_eq_zero {k : Kind} {f : UInt32} (hk : k ∈ [.ftOk, .ftErr, .ftErrSock])
    (h : ∀ code, ftAbout (code, f) = (k, f) → (code, f) ∉ s.rPipe) :
    (s.life e₁ e₂ f).sent k = 0 := by
  have hft : tally (some ∘ ftAbout) s.rPipe (k, f) = 0 := by
    refine tally_eq_zero ?_
    rintro ⟨code, g⟩ hmem habout
    obtain rfl : g = f := by
      cases code <;> exact congrArg Prod.snd (Option.some.inj habout)
    exact h code (Option.some.inj habout) hmem
  have hsm : k ∉ [.newFlow, .endFlow, .errFlow] := by
    intro h
    cases k <;> revert hk h <;> decide
  have hmsg : k ∉ [.sendFlow, .closedFlow, .closedErr] := by
    intro h
    cases k <;> revert hk h <;> decide
  have hreply : k ∉ [.ackSendFlow, .ackClosedFlow, .errStart, .errSock] := by
    intro h
    cases k <;> revert hk h <;> decide
  simp only [life, sentCount, hft, tally_sm_eq_zero hsm, tally_msg_eq_zero hmsg,
    tally_reply_eq_zero hreply, Nat.add_zero]

variable {a : LinkAction}

/-- What the threads of a flow at the sender do. -/
theorem step_flow (h : s.step e₁ e₂ o a = some s') {f : UInt32}
    (ha : a ∈ [.register f, .newFlow f, .sndAck f, .endFlow f, .errFlow f]) :
    Moves e₁ e₂ s s' (happens o.passiveMode (s.event e₁ e₂ a)) ∧
      ∀ g ev, s.event e₁ e₂ a = some (g, ev) → (s.life e₁ e₂ g).Can o.passiveMode ev := by
  simp only [List.mem_cons, List.not_mem_nil, or_false] at ha
  obtain rfl | rfl | rfl | rfl | rfl := ha
  · obtain ⟨⟨-, hnew, -⟩, rfl⟩ := by
      simpa only [step, Option.ite_none_right_eq_some, Option.some.injEq] using h
    refine ⟨moves_register f _, ?_⟩
    rintro g ev ⟨⟩
    exact List.count_eq_zero.2 hnew
  · obtain ⟨⟨hregistered, hasked⟩, rfl⟩ := by
      simpa only [step, Option.ite_none_right_eq_some, Option.some.injEq] using h
    refine ⟨moves_write .newFlow f, ?_⟩
    rintro g ev ⟨⟩
    exact ⟨List.count_pos_iff.2 hregistered, sent_newFlow_eq_zero hasked⟩
  · obtain ⟨-, rfl⟩ := by
      simpa only [step, Option.ite_none_right_eq_some, Option.some.injEq] using h
    refine ⟨moves_write .sndAck f, ?_⟩
    rintro g ev ⟨⟩
  · obtain ⟨hrunning, rfl⟩ := by
      simpa only [step, Option.ite_none_right_eq_some, Option.some.injEq] using h
    refine ⟨Moves.congr (Moves.trans (moves_write .endFlow f) (moves_erase f)) ?_, ?_⟩
    · simp only [put?, smAbout, on_on]
      rfl
    · rintro g ev ⟨⟩
      exact List.count_pos_iff.2 hrunning
  · obtain ⟨hrunning, rfl⟩ := by
      simpa only [step, Option.ite_none_right_eq_some, Option.some.injEq] using h
    refine ⟨Moves.congr (Moves.trans (moves_write .errFlow f) (moves_erase f)) ?_, ?_⟩
    · simp only [put?, smAbout, on_on]
      rfl
    · rintro g ev ⟨⟩
      exact List.count_pos_iff.2 hrunning

/-- What the thread of a flow at the receiver does. -/
theorem step_thread {code : PipeCode} {f : UInt32}
    (h : s.step e₁ e₂ o (.thread code f) = some s') :
    Moves e₁ e₂ s s' (happens o.passiveMode (s.event e₁ e₂ (.thread code f))) ∧
      ∀ g ev, s.event e₁ e₂ (.thread code f) = some (g, ev) →
        (s.life e₁ e₂ g).Can o.passiveMode ev := by
  obtain ⟨⟨hf, ⟨slot, hslot, rfl, htells⟩, -, herr₁, herr₂, hcode⟩, rfl⟩ := by
    simpa only [step, Option.ite_none_right_eq_some, Option.some.injEq] using h
  have hmove : Moves e₁ e₂ s _ (put? (ftAbout (code, slot.flowId))) := moves_tell code slot.flowId
  have hpos : 0 < (s.life e₁ e₂ slot.flowId).slots := by
    rw [life, slotsOf, if_neg hf, List.count_pos_iff]
    exact List.mem_map_of_mem hslot
  have herr : (s.life e₁ e₂ slot.flowId).sent .ftErr = 0 :=
    sent_ft_eq_zero (by decide) fun code habout => by
      cases code <;> first | assumption | cases habout
  -- A message that is not in the pipe has not been told.
  have hzero {k : Kind} {c : PipeCode} (hk : k ∈ [.ftOk, .ftErrSock])
      (hc : ∀ code, (ftAbout (code, slot.flowId)).1 = k → code = c)
      (hnot : (c, slot.flowId) ∉ s.rPipe) : (s.life e₁ e₂ slot.flowId).sent k = 0 := by
    refine sent_ft_eq_zero (by simp at hk ⊢; tauto) fun code habout => ?_
    rw [hc code (congrArg Prod.fst habout)]
    exact hnot
  cases code with
  | ok =>
    refine ⟨hmove, ?_⟩
    rintro g ev ⟨⟩
    -- Only threads that are not in passive mode tell that they are ready.
    have hactive : o.passiveMode = false := by
      simp only [tells, Bool.and_eq_true, Bool.not_eq_true'] at htells
      exact htells.1
    exact ⟨hactive, hpos, hzero (by decide) (fun code h => by cases code <;> trivial) hcode, herr⟩
  | err1 | err2 =>
    refine ⟨hmove, ?_⟩
    rintro g ev ⟨⟩
    exact ⟨hpos, hzero (by decide) (fun code h => by cases code <;> trivial) hcode.1, herr,
      hzero (by decide) (fun code h => by cases code <;> trivial) hcode.2⟩
  | errSock =>
    refine ⟨hmove, ?_⟩
    rintro g ev ⟨⟩
    exact ⟨hpos, herr, hzero (by decide) (fun code h => by cases code <;> trivial) hcode.2⟩

/-- What the thread of the sender does. -/
theorem step_manager (h : s.step e₁ e₂ o a = some s') (ha : a ∈ [.smPipe, .smSock, .finish])
    (hs : s.InOrder) :
    Moves e₁ e₂ s s' (happens o.passiveMode (s.event e₁ e₂ a)) ∧
      ∀ f ev, s.event e₁ e₂ a = some (f, ev) → (s.life e₁ e₂ f).Can o.passiveMode ev := by
  simp only [List.mem_cons, List.not_mem_nil, or_false] at ha
  obtain rfl | rfl | rfl := ha
  · obtain ⟨-, hbind⟩ := by simpa only [step, Option.ite_none_left_eq_some] using h
    obtain ⟨⟨code, f⟩, hread, hpipe⟩ := Option.bind_eq_some_iff.1 hbind
    simp only [event, hread, Option.bind_some]
    refine ⟨moves_pipe hread hpipe, fun g ev heq => ?_⟩
    obtain ⟨⟨k, g⟩, habout, ⟨⟩⟩ := Option.map_eq_some_iff.1 heq
    exact can_get hs (habout ▸ moves_smRead hread)
  · obtain ⟨hbusy, hbind⟩ := by simpa only [step, Option.ite_none_left_eq_some] using h
    obtain ⟨m, hread, hhandle⟩ := Option.bind_eq_some_iff.1 hbind
    have hpending : s.pending = none :=
      Option.not_isSome_iff_eq_none.1 fun hsome => hbusy (.inr hsome)
    simp only [event, hread, Option.bind_some]
    refine ⟨moves_handle hread hpending hhandle, fun g ev heq => ?_⟩
    obtain ⟨⟨k, g⟩, habout, ⟨⟩⟩ := Option.map_eq_some_iff.1 heq
    exact can_get hs (habout ▸ moves_sendRead hread)
  · obtain ⟨⟨f, code⟩, hpending, rfl⟩ := Option.map_eq_some_iff.1 h
    refine ⟨moves_finish hpending, ?_⟩
    rintro g ev ⟨⟩

/-- In passive mode, a flow that the receiver is about to read the request of gets the slot
    whose position is acknowledged. -/
def AcksOwn (o : RecvOptions) (s : Link) : LinkAction → Prop
  | .recvSock => ∀ m ∈ s.manager.sent[s.recvRead]?, s.OwnSlot o m
  | _ => True

instance : ∀ m, Decidable (s.OwnSlot o m)
  | .sendFlow _ f => inferInstanceAs
    (Decidable (o.passiveMode → ∀ k ∈ s.session.findFlow noFlow, UInt32.ofNat (k + 1) = f))
  | .sendNameLog _ | .closedFlow _ | .closedErr _ | .ackSendFlow _ | .ackDiscovery | .release =>
    instDecidableTrue

instance : ∀ a, Decidable (s.AcksOwn o a)
  | .recvSock => inferInstanceAs (Decidable (∀ m ∈ s.manager.sent[s.recvRead]?, s.OwnSlot o m))
  | .register _ | .newFlow _ | .sndAck _ | .endFlow _ | .errFlow _ | .smPipe | .smSock | .finish
  | .thread _ _ | .recvPipe | .timeout => instDecidableTrue

/-- What the thread of the receiver does. -/
theorem step_session (h : s.step e₁ e₂ o a = some s') (ha : a ∈ [.recvSock, .recvPipe, .timeout])
    (hs : s.InOrder) (hno : s.life e₁ e₂ noFlow = fresh) (hown : s.AcksOwn o a) :
    Moves e₁ e₂ s s' (happens o.passiveMode (s.event e₁ e₂ a)) ∧
      ∀ f ev, s.event e₁ e₂ a = some (f, ev) → (s.life e₁ e₂ f).Can o.passiveMode ev := by
  simp only [List.mem_cons, List.not_mem_nil, or_false] at ha
  obtain rfl | rfl | rfl := ha
  · obtain ⟨-, hbind⟩ := by simpa only [step, Option.ite_none_left_eq_some] using h
    obtain ⟨m, hread, hrecv⟩ := Option.bind_eq_some_iff.1 hbind
    -- What is read has been sent.
    have hcan (k : Kind) (f : UInt32) (habout : m.about = some (k, f)) :
        (s.life e₁ e₂ f).Can o.passiveMode (.get k) :=
      can_get hs (habout ▸ moves_recvRead hread)
    simp only [event, hread, Option.bind_some]
    refine ⟨moves_recvSock hread (fun k f habout => ne_noFlow_of_can hno (hcan k f habout))
      (hown m hread) hrecv, fun g ev heq => ?_⟩
    obtain ⟨⟨k, g⟩, habout, ⟨⟩⟩ := Option.map_eq_some_iff.1 heq
    exact hcan k g habout
  · obtain ⟨-, hbind⟩ := by simpa only [step, Option.ite_none_left_eq_some] using h
    obtain ⟨⟨code, f⟩, hread, hrecv⟩ := Option.bind_eq_some_iff.1 hbind
    obtain ⟨session, hparse, rfl⟩ := recvPipe_eq hrecv
    have habout : ftAbout (code, f) = ((ftAbout (code, f)).1, f) := by cases code <;> rfl
    have hcan : (s.life e₁ e₂ f).Can o.passiveMode (.get (ftAbout (code, f)).1) :=
      can_get hs (habout ▸ moves_rRead hread)
    simp only [event, hread, Option.map_some]
    refine ⟨moves_pipeParser (ne_noFlow_of_can hno hcan) hread hparse, ?_⟩
    rw [habout]
    rintro g ev ⟨⟩
    exact hcan
  · obtain ⟨-, rfl⟩ := by
      simpa only [step, Option.ite_none_left_eq_some, Option.some.injEq] using h
    refine ⟨?_, by rintro g ev ⟨⟩⟩
    -- A discovery is about no flow, and leaves the slots as they are.
    have hids : s.session.discover.flowIdNum = s.session.flowIdNum := by
      rw [Session.discover]
      split_ifs <;> rfl
    have hsent : s.session.discover.sent = s.session.sent ++ [.ack tspDiscovery] := by
      rw [Session.discover]
      split_ifs <;> rfl
    exact Moves.congr (moves_send_session _ (.ack tspDiscovery) hids hsent) rfl

/-- A step of the connection is an event in the life of one flow, or of none. -/
theorem life_step (h : s.step e₁ e₂ o a = some s') (hs : s.InOrder)
    (hno : s.life e₁ e₂ noFlow = fresh) (hown : s.AcksOwn o a) :
    Moves e₁ e₂ s s' (happens o.passiveMode (s.event e₁ e₂ a)) ∧
      ∀ f ev, s.event e₁ e₂ a = some (f, ev) → (s.life e₁ e₂ f).Can o.passiveMode ev := by
  cases a with
  | register f | newFlow f | sndAck f | endFlow f | errFlow f =>
    exact step_flow (f := f) h (by simp)
  | thread code f => exact step_thread h
  | smPipe | smSock | finish => exact step_manager h (by simp) hs
  | recvSock | recvPipe | timeout => exact step_session h (by simp) hs hno hown

/-- A flow has another id than a free slot. -/
theorem noFlow_notMem_registered (hs : noFlow ∉ s.registered)
    (h : s.step e₁ e₂ o a = some s') : noFlow ∉ s'.registered := by
  obtain ⟨f, -, hjoins⟩ | ⟨f, hleaves⟩ | hkeeps := step_channel h
  · rw [hjoins.eq]
    exact fun hmem => (List.mem_append.1 hmem).elim hs fun hmem =>
      hjoins.ne_noFlow (List.mem_singleton.1 hmem).symm
  · rw [hleaves.registered]
    exact hs
  · rw [hkeeps.registered]
    exact hs

/-- A connection that has just been set up. -/
theorem life_start {opener : UInt32} {flows : Fin maxNumThread → Option FlowDescriptor}
    {socket : ℕ} {DestAddr : SockAddr} {session : Session} (f : UInt32) :
    (start opener flows socket DestAddr session).life e₁ e₂ f =
      { fresh with registered := if f = opener then 1 else 0 } := by
  have hcount : [opener].count f = if f = opener then 1 else 0 := by
    by_cases hf : f = opener
    · rw [if_pos hf, hf, List.count_singleton_self]
    · rw [if_neg hf, List.count_eq_zero, List.mem_singleton]
      exact hf
  have hslots : (start opener flows socket DestAddr session).slotsOf f = 0 := by
    rw [slotsOf]
    split_ifs with hf
    · rfl
    · refine List.count_eq_zero.2 fun hmem => hf ?_
      simp only [start, Session.flowIdNum, List.map_replicate] at hmem
      exact List.eq_of_mem_replicate hmem
  exact FlowLife.ext hcount hslots rfl rfl rfl rfl rfl rfl

/-- The flows of a connection have the lives of `FlowLife`: if the steps satisfy a condition, so
    do the events. -/
theorem life_reachVia {C : Link → LinkAction → Prop} {P : FlowLife → FlowEvent → Prop}
    (hown : ∀ s a, C s a → s.AcksOwn o a)
    (hevent : ∀ s a f ev, C s a → s.event e₁ e₂ a = some (f, ev) → P (s.life e₁ e₂ f) ev)
    (hregister : P fresh .register) (h : (link e₁ e₂ o).ReachVia C s) :
    s.InOrder ∧ noFlow ∉ s.registered ∧
      ∀ f, (flowLife o.passiveMode).ReachVia P (s.life e₁ e₂ f) := by
  have hinit (s : Link) (hs : (link e₁ e₂ o).init s) : s.InOrder ∧ noFlow ∉ s.registered ∧
      ∀ f, (flowLife o.passiveMode).ReachVia P (s.life e₁ e₂ f) := by
    obtain ⟨opener, flows, socket, DestAddr, session, hopener, rfl⟩ := hs
    refine ⟨⟨Nat.zero_le _, Nat.zero_le _, Nat.zero_le _, Nat.zero_le _⟩, ?_, fun f => ?_⟩
    · exact fun hmem => hopener (List.mem_singleton.1 hmem).symm
    · rw [life_start]
      split_ifs
      · -- The flow that has opened the channel.
        exact .step (.init rfl) hregister rfl
      · exact .init rfl
  have hstep (s : Link) (a : LinkAction) (s' : Link)
      (hs : s.InOrder ∧ noFlow ∉ s.registered ∧
        ∀ f, (flowLife o.passiveMode).ReachVia P (s.life e₁ e₂ f))
      (hC : C s a) (hstep : (link e₁ e₂ o).step s a = some s') :
      s'.InOrder ∧ noFlow ∉ s'.registered ∧
        ∀ f, (flowLife o.passiveMode).ReachVia P (s'.life e₁ e₂ f) := by
    obtain ⟨horder, hno, hlives⟩ := hs
    have hfresh : s.life e₁ e₂ noFlow = fresh :=
      eq_fresh_of_reachVia (hlives noFlow) (List.count_eq_zero.2 hno)
    obtain ⟨hmoves, hcan⟩ := life_step hstep horder hfresh (hown s a hC)
    obtain ⟨horder', hlife⟩ := hmoves horder
    refine ⟨horder', noFlow_notMem_registered hno hstep, fun f => ?_⟩
    rw [hlife]
    rcases hev : s.event e₁ e₂ a with _ | ⟨g, ev⟩
    · exact hlives f
    · rw [happens, on]
      by_cases hfg : f = g
      · subst hfg
        rw [Function.update_self]
        exact .step (hlives f) (hevent s a f ev hC hev)
          ((flowLife_step_iff _ _).2 ⟨hcan f ev hev, rfl⟩)
      · rw [Function.update_of_ne hfg]
        exact hlives f
  exact h.invariant hinit hstep

end Link

end Ditg
