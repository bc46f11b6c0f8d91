import Ditg.Signaling.Link

/-!
# The flows of a signalling connection

A connection seen from one of its flows (`Link.life`): how often it has been registered and
has left the channel, its slots and its threads, and the messages about it that have been
sent, and read.

The steps of the connection are put together from parts (`Link.Moves`) that send a message,
read one, or change what there is of one flow. What the steps are is the subject of
`Ditg.Signaling.Steps`.
-/

namespace Ditg

open Bytes FlowLife

/-! ## What messages are about -/

/-- The kind of a message, and the flow it is about, if it is about one and matters for its
    life. -/
def smAbout : SmCode × UInt32 → Option (Kind × UInt32)
  | (.newFlow, flowId) => some (.newFlow, flowId)
  | (.endFlow, flowId) => some (.endFlow, flowId)
  | (.errFlow, flowId) => some (.errFlow, flowId)
  | (.sndAck, _) => none

@[inherit_doc smAbout]
def ftAbout : PipeCode × UInt32 → Kind × UInt32
  | (.ok, flowId) => (.ftOk, flowId)
  | (.err1, flowId) | (.err2, flowId) => (.ftErr, flowId)
  | (.errSock, flowId) => (.ftErrSock, flowId)

@[inherit_doc smAbout]
def SenderMsg.about : SenderMsg → Option (Kind × UInt32)
  | sendFlow _ flowId => some (.sendFlow, flowId)
  | closedFlow flowId => some (.closedFlow, flowId)
  | closedErr flowId => some (.closedErr, flowId)
  | _ => none

@[inherit_doc smAbout]
def ReplyMsg.about : ReplyMsg → Option (Kind × UInt32)
  | ackSendFlow flowId _ => some (.ackSendFlow, flowId)
  | ackClosedFlow flowId => some (.ackClosedFlow, flowId)
  | errMsg2 flowId | errMsg3 flowId => some (.errStart, flowId)
  | errMsg5 flowId => some (.errSock, flowId)
  | discovery => none

@[inherit_doc smAbout]
def Reply.about (e₁ e₂ : Endian) (reply : Reply) : Option (Kind × UInt32) :=
  (reply.msg? e₁ e₂).bind ReplyMsg.about

/-- The messages of a kind about a flow. -/
def tally {M : Type*} (about : M → Option (Kind × UInt32)) (ms : List M) (b : Kind × UInt32) : ℕ :=
  ms.countP fun m => about m = some b

section Tally

variable {M : Type*} {about : M → Option (Kind × UInt32)} {ms : List M} {m : M}
  {b : Kind × UInt32} {n : ℕ}

theorem tally_append_singleton :
    tally about (ms ++ [m]) b = tally about ms b + if about m = some b then 1 else 0 := by
  simp [tally, List.countP_append, List.countP_singleton]

/-- The message that is read next. -/
theorem tally_take_succ (h : ms[n]? = some m) : tally about (ms.take (n + 1)) b =
    tally about (ms.take n) b + if about m = some b then 1 else 0 := by
  rw [List.take_add_one, h, Option.toList_some, tally_append_singleton]

/-- What is sent has not been read. -/
theorem tally_take_append (h : n ≤ ms.length) (ms' : List M) :
    tally about ((ms ++ ms').take n) b = tally about (ms.take n) b := by
  rw [List.take_append_of_le_length h]

theorem tally_take_le (n : ℕ) : tally about (ms.take n) b ≤ tally about ms b :=
  (List.take_sublist n ms).countP_le

theorem tally_eq_zero (h : ∀ m ∈ ms, about m ≠ some b) : tally about ms b = 0 :=
  List.countP_eq_zero.2 fun m hm => by simpa using h m hm

theorem tally_pos (hm : m ∈ ms) (h : about m = some b) : 0 < tally about ms b :=
  List.countP_pos_iff.2 ⟨m, hm, decide_eq_true h⟩

/-- The kinds of messages in each direction. -/
theorem tally_sm_eq_zero {k : Kind} {f : UInt32} (hk : k ∉ [.newFlow, .endFlow, .errFlow])
    (ms : List (SmCode × UInt32)) : tally smAbout ms (k, f) = 0 := by
  refine tally_eq_zero ?_
  rintro ⟨code, g⟩ - h
  cases code <;> cases h <;> exact hk (by decide)

@[inherit_doc tally_sm_eq_zero]
theorem tally_msg_eq_zero {k : Kind} {f : UInt32} (hk : k ∉ [.sendFlow, .closedFlow, .closedErr])
    (ms : List SenderMsg) : tally SenderMsg.about ms (k, f) = 0 := by
  refine tally_eq_zero ?_
  rintro m - h
  cases m <;> cases h <;> exact hk (by decide)

@[inherit_doc tally_sm_eq_zero]
theorem tally_ft_eq_zero {k : Kind} {f : UInt32} (hk : k ∉ [.ftOk, .ftErr, .ftErrSock])
    (ms : List (PipeCode × UInt32)) : tally (some ∘ ftAbout) ms (k, f) = 0 := by
  refine tally_eq_zero ?_
  rintro ⟨code, g⟩ - h
  cases code <;> cases h <;> exact hk (by decide)

@[inherit_doc tally_sm_eq_zero]
theorem tally_reply_eq_zero {e₁ e₂ : Endian} {k : Kind} {f : UInt32}
    (hk : k ∉ [.ackSendFlow, .ackClosedFlow, .errStart, .errSock]) (ms : List Reply) :
    tally (Reply.about e₁ e₂) ms (k, f) = 0 := by
  refine tally_eq_zero ?_
  rintro reply - h
  obtain ⟨m, -, hm⟩ := Option.bind_eq_some_iff.1 h
  cases m <;> cases hm <;> exact hk (by decide)

end Tally

/-! ## The life of a flow of a connection -/

namespace Link

variable (e₁ e₂ : Endian) (s : Link)

/-- The messages that have been sent, and those that have been read. -/
def sentCount (b : Kind × UInt32) : ℕ :=
  tally smAbout s.smPipe b + tally SenderMsg.about s.manager.sent b +
    tally (some ∘ ftAbout) s.rPipe b + tally (Reply.about e₁ e₂) s.session.sent b
@[inherit_doc sentCount]
def gotCount (b : Kind × UInt32) : ℕ :=
  tally smAbout (s.smPipe.take s.smRead) b +
    tally SenderMsg.about (s.manager.sent.take s.recvRead) b +
    tally (some ∘ ftAbout) (s.rPipe.take s.rRead) b +
    tally (Reply.about e₁ e₂) (s.session.sent.take s.sendRead) b

/-- The slots of a flow. -/
def slotsOf (flowId : UInt32) : ℕ :=
  if flowId = noFlow then 0 else s.session.flowIdNum.count flowId

/-- The end of a flow that its parser has been told, or is about to be told. -/
def fpEnds (flowId : UInt32) : ℕ :=
  s.manager.parserPipes.count (flowId, .fpEnd) + if s.pending = some (flowId, .fpEnd) then 1 else 0

/-- What has happened to a flow. -/
def life (flowId : UInt32) : FlowLife where
  registered := s.registered.count flowId
  slots := s.slotsOf flowId
  started := s.manager.flowSenders.count flowId
  running := s.running.count flowId
  lowered := s.lowered.count flowId
  fpEnd := s.fpEnds flowId
  sent k := s.sentCount e₁ e₂ (k, flowId)
  got k := s.gotCount e₁ e₂ (k, flowId)

/-- No more has been read than has been sent. -/
structure InOrder : Prop where
  smRead_le : s.smRead ≤ s.smPipe.length
  rRead_le : s.rRead ≤ s.rPipe.length
  recvRead_le : s.recvRead ≤ s.manager.sent.length
  sendRead_le : s.sendRead ≤ s.session.sent.length

end Link

/-- What happens to one flow. -/
def on (flowId : UInt32) (p : FlowLife → FlowLife) (lives : UInt32 → FlowLife) :
    UInt32 → FlowLife := Function.update lives flowId (p (lives flowId))

theorem on_on (flowId : UInt32) (p q : FlowLife → FlowLife) (lives : UInt32 → FlowLife) :
    on flowId q (on flowId p lives) = on flowId (q ∘ p) lives := by
  simp only [on, Function.update_self, Function.update_idem, Function.comp_apply]

theorem on_congr {flowId : UInt32} {p q : FlowLife → FlowLife} {lives : UInt32 → FlowLife}
    (h : p (lives flowId) = q (lives flowId)) : on flowId p lives = on flowId q lives := by
  rw [on, h, on]

/-- A message is sent, or got. -/
def put? : Option (Kind × UInt32) → (UInt32 → FlowLife) → UInt32 → FlowLife
  | some (k, flowId) => on flowId fun l => l.put k
  | none => id
@[inherit_doc put?]
def take? : Option (Kind × UInt32) → (UInt32 → FlowLife) → UInt32 → FlowLife
  | some (k, flowId) => on flowId fun l => l.take k
  | none => id

namespace Link

variable {e₁ e₂ : Endian} {s s' s'' : Link}

/-- A part of a step: no more is read than has been sent, and the lives of the flows change. -/
def Moves (e₁ e₂ : Endian) (s s' : Link) (p : (UInt32 → FlowLife) → UInt32 → FlowLife) : Prop :=
  s.InOrder → s'.InOrder ∧ s'.life e₁ e₂ = p (s.life e₁ e₂)

/-- One part after another. -/
theorem Moves.trans {p q : (UInt32 → FlowLife) → UInt32 → FlowLife} (h : Moves e₁ e₂ s s' p)
    (h' : Moves e₁ e₂ s' s'' q) : Moves e₁ e₂ s s'' fun lives => q (p lives) := by
  intro hs
  obtain ⟨hs', hlife⟩ := h hs
  obtain ⟨hs'', hlife'⟩ := h' hs'
  exact ⟨hs'', by rw [hlife', hlife]⟩

theorem Moves.congr {p q : (UInt32 → FlowLife) → UInt32 → FlowLife} (h : Moves e₁ e₂ s s' p)
    (hq : p (s.life e₁ e₂) = q (s.life e₁ e₂)) : Moves e₁ e₂ s s' q :=
  fun hs => hq ▸ h hs

/-- What a life depends on, apart from messages. -/
def flowData (s : Link) :=
  (s.registered, s.session.flowIdNum, s.manager.flowSenders, s.running, s.lowered,
    s.manager.parserPipes, s.pending)

/-- What has been sent, and read. -/
def logs (s : Link) :=
  (s.smPipe, s.smRead, s.rPipe, s.rRead, s.manager.sent, s.recvRead, s.session.sent, s.sendRead)

/-- What does not matter for the flows. -/
theorem moves_same (hflows : s'.flowData = s.flowData) (hlogs : s'.logs = s.logs) :
    Moves e₁ e₂ s s' id := by
  obtain ⟨h₁, h₂, h₃, h₄, h₅, h₆, h₇⟩ := by simpa only [flowData, Prod.mk.injEq] using hflows
  obtain ⟨l₁, l₂, l₃, l₄, l₅, l₆, l₇, l₈⟩ := by simpa only [logs, Prod.mk.injEq] using hlogs
  intro hs
  refine ⟨⟨?_, ?_, ?_, ?_⟩, ?_⟩
  · rw [l₁, l₂]
    exact hs.smRead_le
  · rw [l₃, l₄]
    exact hs.rRead_le
  · rw [l₅, l₆]
    exact hs.recvRead_le
  · rw [l₇, l₈]
    exact hs.sendRead_le
  · funext f
    simp only [life, slotsOf, fpEnds, sentCount, gotCount, h₁, h₂, h₃, h₄, h₅, h₆, h₇, l₁, l₂, l₃,
      l₄, l₅, l₆, l₇, l₈, id_eq]

/-- A message that is sent or got. -/
theorem life_eq_put {b : Option (Kind × UInt32)} (hflows : s'.flowData = s.flowData)
    (hsent : ∀ x, s'.sentCount e₁ e₂ x = s.sentCount e₁ e₂ x + if b = some x then 1 else 0)
    (hgot : ∀ x, s'.gotCount e₁ e₂ x = s.gotCount e₁ e₂ x) :
    s'.life e₁ e₂ = put? b (s.life e₁ e₂) := by
  obtain ⟨h₁, h₂, h₃, h₄, h₅, h₆, h₇⟩ := by simpa only [flowData, Prod.mk.injEq] using hflows
  funext f
  have hlife : s'.life e₁ e₂ f = { s.life e₁ e₂ f with
      sent := fun k => s.sentCount e₁ e₂ (k, f) + if b = some (k, f) then 1 else 0 } := by
    simp only [life, slotsOf, fpEnds, h₁, h₂, h₃, h₄, h₅, h₆, h₇, hsent, hgot]
  rw [hlife]
  rcases b with _ | ⟨k, g⟩
  · rfl
  · by_cases hfg : f = g
    · subst hfg
      simp [put?, on, put, life, eq_comm]
    · simp [put?, on, Function.update_of_ne hfg, life, Ne.symm hfg]
@[inherit_doc life_eq_put]
theorem life_eq_take {b : Option (Kind × UInt32)} (hflows : s'.flowData = s.flowData)
    (hsent : ∀ x, s'.sentCount e₁ e₂ x = s.sentCount e₁ e₂ x)
    (hgot : ∀ x, s'.gotCount e₁ e₂ x = s.gotCount e₁ e₂ x + if b = some x then 1 else 0) :
    s'.life e₁ e₂ = take? b (s.life e₁ e₂) := by
  obtain ⟨h₁, h₂, h₃, h₄, h₅, h₆, h₇⟩ := by simpa only [flowData, Prod.mk.injEq] using hflows
  funext f
  have hlife : s'.life e₁ e₂ f = { s.life e₁ e₂ f with
      got := fun k => s.gotCount e₁ e₂ (k, f) + if b = some (k, f) then 1 else 0 } := by
    simp only [life, slotsOf, fpEnds, h₁, h₂, h₃, h₄, h₅, h₆, h₇, hsent, hgot]
  rw [hlife]
  rcases b with _ | ⟨k, g⟩
  · rfl
  · by_cases hfg : f = g
    · subst hfg
      simp [take?, on, take, life, eq_comm]
    · simp [take?, on, Function.update_of_ne hfg, life, Ne.symm hfg]

/-! ## Messages -/

theorem moves_write (code : SmCode) (f : UInt32) :
    Moves e₁ e₂ s (s.write code f) (put? (smAbout (code, f))) := by
  intro hs
  refine ⟨{ hs with smRead_le := ?_ }, life_eq_put rfl (fun x => ?_) fun x => ?_⟩
  · exact hs.smRead_le.trans (by simp [write])
  · simp only [sentCount, write, tally_append_singleton]
    omega
  · simp only [gotCount, write, tally_take_append hs.smRead_le]

theorem moves_send (m : SenderMsg) :
    Moves e₁ e₂ s { s with manager := s.manager.send m } (put? m.about) := by
  intro hs
  refine ⟨{ hs with recvRead_le := ?_ }, life_eq_put rfl (fun x => ?_) fun x => ?_⟩
  · exact hs.recvRead_le.trans (by simp [Manager.send])
  · simp only [sentCount, Manager.send, tally_append_singleton]
    omega
  · simp only [gotCount, Manager.send, tally_take_append hs.recvRead_le]

theorem moves_tell (code : PipeCode) (f : UInt32) :
    Moves e₁ e₂ s { s with rPipe := s.rPipe ++ [(code, f)] } (put? (ftAbout (code, f))) := by
  intro hs
  refine ⟨{ hs with rRead_le := ?_ }, life_eq_put rfl (fun x => ?_) fun x => ?_⟩
  · exact hs.rRead_le.trans (by simp)
  · simp only [sentCount, tally_append_singleton, Function.comp_apply]
    omega
  · simp only [gotCount, tally_take_append hs.rRead_le]

theorem moves_answer (reply : Reply) :
    Moves e₁ e₂ s { s with session := s.session.send reply } (put? (reply.about e₁ e₂)) := by
  intro hs
  refine ⟨{ hs with sendRead_le := ?_ }, life_eq_put rfl (fun x => ?_) fun x => ?_⟩
  · exact hs.sendRead_le.trans (by simp [Session.send])
  · simp only [sentCount, Session.send, tally_append_singleton]
    omega
  · simp only [gotCount, Session.send, tally_take_append hs.sendRead_le]

theorem succ_le_of_getElem? {M : Type*} {ms : List M} {m : M} {n : ℕ} (h : ms[n]? = some m) :
    n + 1 ≤ ms.length :=
  (List.getElem?_eq_some_iff.1 h).1

theorem moves_smRead {m : SmCode × UInt32} (h : s.smPipe[s.smRead]? = some m) :
    Moves e₁ e₂ s { s with smRead := s.smRead + 1 } (take? (smAbout m)) := by
  intro hs
  refine ⟨{ hs with smRead_le := succ_le_of_getElem? h }, ?_⟩
  refine life_eq_take rfl (fun x => rfl) fun x => ?_
  simp only [gotCount, tally_take_succ h]
  omega

theorem moves_rRead {m : PipeCode × UInt32} (h : s.rPipe[s.rRead]? = some m) :
    Moves e₁ e₂ s { s with rRead := s.rRead + 1 } (take? (ftAbout m)) := by
  intro hs
  refine ⟨{ hs with rRead_le := succ_le_of_getElem? h }, ?_⟩
  refine life_eq_take rfl (fun x => rfl) fun x => ?_
  simp only [gotCount, tally_take_succ h, Function.comp_apply]
  omega

theorem moves_recvRead {m : SenderMsg} (h : s.manager.sent[s.recvRead]? = some m) :
    Moves e₁ e₂ s { s with recvRead := s.recvRead + 1 } (take? m.about) := by
  intro hs
  refine ⟨{ hs with recvRead_le := succ_le_of_getElem? h }, ?_⟩
  refine life_eq_take rfl (fun x => rfl) fun x => ?_
  simp only [gotCount, tally_take_succ h]
  omega

theorem moves_sendRead {m : ReplyMsg} (h : s.reply? e₁ e₂ = some m) :
    Moves e₁ e₂ s { s with sendRead := s.sendRead + 1 } (take? m.about) := by
  obtain ⟨reply, hreply, hm⟩ := Option.bind_eq_some_iff.1 h
  have habout : reply.about e₁ e₂ = m.about := by rw [Reply.about, hm, Option.bind_some]
  intro hs
  refine ⟨{ hs with sendRead_le := succ_le_of_getElem? hreply }, ?_⟩
  refine life_eq_take rfl (fun x => rfl) fun x => ?_
  simp only [gotCount, tally_take_succ hreply, habout]
  omega

/-! ## What there is of a flow -/

/-- What changes for one flow. -/
theorem eq_on {lives lives' : UInt32 → FlowLife} {f : UInt32} {p : FlowLife → FlowLife}
    (h : lives' f = p (lives f)) (hne : ∀ g, g ≠ f → lives' g = lives g) :
    lives' = on f p lives :=
  Function.eq_update_iff.2 ⟨h, hne⟩

/-- The slots of the session change, by those of one flow. -/
theorem moves_slots {session : Session} {f : UInt32} (p : ℕ → ℕ)
    (hsent : session.sent = s.session.sent)
    (hslots : ({ s with session := session } : Link).slotsOf f = p (s.slotsOf f))
    (hne : ∀ g, g ≠ f → ({ s with session := session } : Link).slotsOf g = s.slotsOf g) :
    Moves e₁ e₂ s { s with session := session } (on f fun l => { l with slots := p l.slots }) := by
  intro hs
  refine ⟨{ hs with sendRead_le := hsent ▸ hs.sendRead_le }, ?_⟩
  have hcount : ({ s with session := session } : Link).sentCount e₁ e₂ = s.sentCount e₁ e₂ ∧
      ({ s with session := session } : Link).gotCount e₁ e₂ = s.gotCount e₁ e₂ := by
    constructor <;> funext x
    · simp only [sentCount, hsent]
    · simp only [gotCount, hsent]
  refine eq_on ?_ fun g hg => ?_
  · simp only [life, hcount, hslots]
    rfl
  · simp only [life, hcount, hne g hg]
    rfl

/-- A free slot is filled. -/
theorem moves_fill (session : Session) {f : UInt32} {k : ℕ} (hf : f ≠ noFlow)
    (hk : s.session.findFlow noFlow = some k) (hsent : session.sent = s.session.sent)
    (hids : session.flowIdNum = s.session.flowIdNum.set k f) :
    Moves e₁ e₂ s { s with session := session }
      (on f fun l => { l with slots := l.slots + 1 }) := by
  rw [findFlow_eq] at hk
  have hcount := fun z => SlotTable.count_set f z (SlotTable.find_eq_some hk)
  refine moves_slots (· + 1) hsent ?_ fun g hg => ?_
  · have := hcount f
    simp only [slotsOf, hids, if_neg hf, if_neg (Ne.symm hf)] at this ⊢
    simpa using this
  · have := hcount g
    simp only [slotsOf, hids]
    split_ifs with hg0
    · rfl
    · simpa [Ne.symm hg0, Ne.symm hg] using this

/-- The slot of a flow is freed. -/
theorem moves_freeFlow {f : UInt32} {k : ℕ} (hf : f ≠ noFlow)
    (hk : s.session.findFlow f = some k) (freesAddr : Bool) :
    Moves e₁ e₂ s { s with session := s.session.freeFlow k freesAddr }
      (on f fun l => { l with slots := l.slots - 1 }) := by
  rw [findFlow_eq] at hk
  have hcount := fun z => SlotTable.count_set noFlow z (SlotTable.find_eq_some hk)
  refine moves_slots (· - 1) rfl ?_ fun g hg => ?_
  · have := hcount f
    simp only [slotsOf, flowIdNum_freeFlow, if_neg hf, if_neg (Ne.symm hf), if_true] at this ⊢
    omega
  · have := hcount g
    simp only [slotsOf, flowIdNum_freeFlow]
    split_ifs with hg0
    · rfl
    · simpa [Ne.symm hg0, Ne.symm hg] using this

/-- A flow has a slot if it is found. -/
theorem slotsOf_pos_iff {f : UInt32} (hf : f ≠ noFlow) :
    0 < s.slotsOf f ↔ (s.session.findFlow f).isSome := by
  rw [slotsOf, if_neg hf, List.count_pos_iff, findFlow_eq, Option.isSome_iff_ne_none, Ne,
    SlotTable.find_eq_none, not_not]

theorem moves_register (f : UInt32) (flows : ℤ) :
    Moves e₁ e₂ s { s with
        registered := s.registered ++ [f]
        manager := { s.manager with channel.flows := flows } }
      (on f fun l => { l with registered := l.registered + 1 }) := by
  refine fun hs => ⟨{ hs with }, eq_on ?_ fun g hg => ?_⟩
  · exact FlowLife.ext (by simp [life]) rfl rfl rfl rfl rfl rfl rfl
  · exact FlowLife.ext (by simp [life, Ne.symm hg]) rfl rfl rfl rfl rfl rfl rfl

theorem moves_createFlowSender (f : UInt32) (flow : FlowDescriptor) (openedPort : UInt16) :
    Moves e₁ e₂ s { s with
        manager := s.manager.createFlowSender f flow openedPort
        running := s.running ++ [f] }
      (on f fun l => { l with started := l.started + 1, running := l.running + 1 }) := by
  rw [Manager.createFlowSender]
  refine fun hs => ⟨?_, ?_⟩
  · split_ifs <;> exact { hs with }
  · split_ifs <;> refine eq_on ?_ fun g hg => ?_
    · exact FlowLife.ext rfl rfl (by simp [life, Manager.setFlow]) (by simp [life]) rfl rfl rfl rfl
    · exact FlowLife.ext rfl rfl (by simp [life, Manager.setFlow, Ne.symm hg])
        (by simp [life, Ne.symm hg]) rfl rfl rfl rfl
    · exact FlowLife.ext rfl rfl (by simp [life]) (by simp [life]) rfl rfl rfl rfl
    · exact FlowLife.ext rfl rfl (by simp [life, Ne.symm hg]) (by simp [life, Ne.symm hg]) rfl rfl
        rfl rfl

theorem moves_erase (f : UInt32) :
    Moves e₁ e₂ s { s with running := s.running.erase f }
      (on f fun l => { l with running := l.running - 1 }) := by
  refine fun hs => ⟨{ hs with }, eq_on ?_ fun g hg => ?_⟩
  · exact FlowLife.ext rfl rfl rfl List.count_erase_self rfl rfl rfl rfl
  · exact FlowLife.ext rfl rfl rfl (List.count_erase_of_ne hg) rfl rfl rfl rfl

theorem moves_lowered (f : UInt32) :
    Moves e₁ e₂ s { s with lowered := s.lowered ++ [f] }
      (on f fun l => { l with lowered := l.lowered + 1 }) := by
  refine fun hs => ⟨{ hs with }, eq_on ?_ fun g hg => ?_⟩
  · exact FlowLife.ext rfl rfl rfl rfl (by simp [life]) rfl rfl rfl
  · exact FlowLife.ext rfl rfl rfl rfl (by simp [life, Ne.symm hg]) rfl rfl rfl

/-- A flow is about to be told its end, or an error. -/
theorem moves_pending (hpending : s.pending = none) (f : UInt32) (code : FpCode) :
    Moves e₁ e₂ s { s with pending := some (f, code) }
      (on f fun l => { l with fpEnd := l.fpEnd + if code = .fpEnd then 1 else 0 }) := by
  refine fun hs => ⟨{ hs with }, eq_on ?_ fun g hg => ?_⟩
  · exact FlowLife.ext rfl rfl rfl rfl rfl (by simp [life, fpEnds, hpending]) rfl rfl
  · exact FlowLife.ext rfl rfl rfl rfl rfl (by simp [life, fpEnds, hpending, Ne.symm hg]) rfl rfl

/-- It is told. -/
theorem moves_finish {f : UInt32} {code : FpCode} (hpending : s.pending = some (f, code)) :
    Moves e₁ e₂ s { s with manager := s.manager.sendPipeMsg f code, pending := none } id := by
  refine fun hs => ⟨{ hs with }, funext fun g => ?_⟩
  refine FlowLife.ext rfl rfl rfl rfl rfl ?_ rfl rfl
  simp only [life, fpEnds, Manager.sendPipeMsg, hpending, List.count_append, List.count_singleton,
    beq_iff_eq, id_eq, Option.some.injEq]
  simp

/-- The channel has a flow less. -/
theorem moves_isChannelClosable :
    Moves e₁ e₂ s { s with manager := s.manager.isChannelClosable } id := by
  rw [Manager.isChannelClosable]
  split_ifs
  · exact Moves.congr (Moves.trans (moves_send .release) (moves_same rfl rfl)) rfl
  · exact moves_same rfl rfl

end Link

end Ditg
