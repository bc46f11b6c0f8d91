import Ditg.Library.SlotTable
import Ditg.Library.Transition
import Ditg.Signaling.Session

/-!
# The slots of the flows of a session

A flow of a session has a slot from its request on, until the sender closes it or its
thread tells that it cannot go on. Every handler of the receiver looks for the slot of a
flow itself, by the id of the flow; a free slot has the id `noFlow`.

* `slotSystem`: a session, with the messages about flows that come to it in any order, and what
  their handlers do not get of the system;
* `slotsHold_iff`: every live flow has one slot, the others are free, `numFlow` counts the
  flows, and a message changes the slot of its flow only, as long as no message ends the
  flow `noFlow`, which is taken to be live when there is a free slot, and the handlers come to
  their end.
-/

namespace Ditg

open Bytes

/-! ## The model -/

/-- The column `flowIdNum` of the table of slots. -/
def Session.flowIdNum (s : Session) : List UInt32 := s.slots.map (·.flowId)

/-- The messages about flows. -/
inductive SlotMsg
  | sendFlow (flow : FlowDescriptor) (flowId : UInt32)
  | closedFlow (flowId : UInt32)
  | closedErr (flowId : UInt32)
  | pipe (code : PipeCode) (flowId : UInt32)
  deriving DecidableEq

namespace SlotMsg

/-- A message, as it comes to the session, and what its handler does not get. -/
def arrival (unmet : List SysNeed) : SlotMsg → Arrival
  | sendFlow flow flowId => .msg (.sendFlow flow flowId) unmet
  | closedFlow flowId => .msg (.closedFlow flowId) unmet
  | closedErr flowId => .msg (.closedErr flowId) unmet
  | pipe code flowId => .pipe code flowId unmet

/-- The flow it names. -/
def flowId : SlotMsg → UInt32
  | sendFlow _ flowId | closedFlow flowId | closedErr flowId | pipe _ flowId => flowId

/-- It is a request. -/
def isRequest : SlotMsg → Bool
  | sendFlow _ _ => true
  | _ => false

/-- It ends the flow it names. -/
def ends : SlotMsg → Bool
  | closedFlow _ | closedErr _ | pipe .err1 _ | pipe .err2 _ | pipe .errSock _ => true
  | sendFlow _ _ | pipe .ok _ => false

/-- The flows that are live after a message. -/
def after (m : SlotMsg) (live : List UInt32) : List UInt32 :=
  if m.isRequest then m.flowId :: live
  else if m.ends then live.filter (· ≠ m.flowId)
  else live

end SlotMsg

/-- A session, with the flows that have been requested and have not ended. -/
structure LiveSession where
  session : Session
  live : List UInt32

/-- A request is for a flow that is not live, of which there are not too many. -/
def Admissible (s : LiveSession) (m : SlotMsg) : Prop :=
  m.isRequest → m.flowId ∉ s.live ∧ m.flowId ≠ noFlow ∧ s.live.length < maxNumThread

instance : ∀ s m, Decidable (Admissible s m) := fun s m =>
  inferInstanceAs (Decidable (m.isRequest → m.flowId ∉ s.live ∧ m.flowId ≠ noFlow ∧
    s.live.length < maxNumThread))

/-- The messages in any order, as far as the session can read them and their handlers come to
    their end. -/
def slotSystem (e : Endian) (o : RecvOptions) :
    Transition LiveSession (SlotMsg × List SysNeed) where
  init s := ∃ logCheck logRemote memLogFile, s = ⟨.start logCheck logRemote memLogFile, []⟩
  step s := fun (m, unmet) =>
    if Admissible s m then
      match s.session.turn e o ((m.arrival unmet).bytes e o.passiveMode)
        (m.arrival unmet).event with
      | .ok (_, session, []) => some ⟨session, m.after s.live⟩
      | _ => none
    else none

/-- What the table of slots is for. -/
structure SlotsHold (s : LiveSession) : Prop where
  one_slot : ∀ flowId ∈ s.live, ∃! k : ℕ, s.session.flowIdNum[k]? = some flowId
  others_free : ∀ flowId ∈ s.session.flowIdNum, flowId ∉ s.live → flowId = noFlow
  numFlow_eq : s.session.numFlow = SlotTable.used noFlow s.session.flowIdNum

/-- What a message may change, and how the end of a flow is answered. -/
structure SlotStep (s : LiveSession) (m : SlotMsg) (s' : LiveSession) : Prop where
  slots_eq : ∀ k : ℕ, s.session.flowIdNum[k]? ≠ some m.flowId →
    s'.session.flowIdNum[k]? ≠ some m.flowId → s'.session.slots[k]? = s.session.slots[k]?
  not_live : ¬m.isRequest → m.flowId ∉ s.live →
    s'.session.slots = s.session.slots ∧ s'.session.numFlow = s.session.numFlow
  answer : ∀ flowId, m = .closedFlow flowId → s'.session.sent = s.session.sent ++
    if flowId ∈ s.live then [.ackFlow tspAckClosedFlow flowId 0] else []

/-- A message that ends a flow does not name `noFlow`, unless there is no free slot. -/
def NamesFlow (s : LiveSession) (m : SlotMsg) : Prop :=
  m.ends → m.flowId = noFlow → noFlow ∉ s.session.flowIdNum

instance : ∀ s m, Decidable (NamesFlow s m) := fun s m =>
  inferInstanceAs (Decidable (m.ends → m.flowId = noFlow → noFlow ∉ s.session.flowIdNum))

/-- The step of a message that does not end the flow `noFlow`, and whose handler comes to its
    end. -/
structure EndsWell (s : LiveSession) (a : SlotMsg × List SysNeed) : Prop where
  names : NamesFlow s a.1
  room : ¬a.1.isRequest → RoomFor s.session (a.1.arrival a.2)

instance : ∀ s a, Decidable (EndsWell s a) := fun s a =>
  decidable_of_iff (NamesFlow s a.1 ∧ (¬a.1.isRequest → RoomFor s.session (a.1.arrival a.2)))
    ⟨fun ⟨hnames, hroom⟩ => ⟨hnames, hroom⟩, fun ⟨hnames, hroom⟩ => ⟨hnames, hroom⟩⟩

section Slots

variable {e : Endian} {o : RecvOptions} {s s' : Session} {unmet : List SysNeed}

/-! ## What the handlers do to the table -/

theorem findFlow_eq (flowId : UInt32) : s.findFlow flowId = SlotTable.find s.flowIdNum flowId := by
  rw [Session.findFlow, Session.flowIdNum, SlotTable.find, List.findIdx?_map]
  rfl

theorem flowIdNum_freeFlow (k : ℕ) (freesAddr : Bool) :
    (s.freeFlow k freesAddr).flowIdNum = s.flowIdNum.set k noFlow := by
  refine List.ext_getElem? fun j => ?_
  simp only [Session.flowIdNum, Session.freeFlow, List.getElem?_map, List.getElem?_modify,
    List.getElem?_set, List.length_map]
  split_ifs with hkj hlt
  · subst hkj
    rw [List.getElem?_eq_getElem hlt]
    rfl
  · rw [List.getElem?_eq_none (Nat.not_lt.1 (hkj ▸ hlt))]
    rfl
  · rcases s.slots[j]? with _ | slot <;> rfl

theorem slots_freeFlow_of_ne {k j : ℕ} (h : j ≠ k) (freesAddr : Bool) :
    (s.freeFlow k freesAddr).slots[j]? = s.slots[j]? :=
  List.getElem?_modify_ne _ _ (Ne.symm h)

theorem flowIdNum_sendFlow (k : ℕ) (m : FlowRequest) :
    (s.sendFlow o k m).flowIdNum = s.flowIdNum.set k m.flowId := by
  have hslots : (s.sendFlow o k m).slots =
      s.slots.set k ((s.slots.getD k .free).fill o s m) := by
    rw [Session.sendFlow]
    split_ifs <;> rfl
  rw [Session.flowIdNum, hslots, List.map_set]
  rfl

theorem slots_sendFlow_of_ne {k j : ℕ} (m : FlowRequest) (h : j ≠ k) :
    (s.sendFlow o k m).slots[j]? = s.slots[j]? := by
  have hslots : (s.sendFlow o k m).slots =
      s.slots.set k ((s.slots.getD k .free).fill o s m) := by
    rw [Session.sendFlow]
    split_ifs <;> rfl
  rw [hslots, List.getElem?_set_ne (Ne.symm h)]

/-- The acknowledgement of a port leaves the ids and what has been sent. -/
theorem ackSendFlow_spec (flowId : UInt32) :
    (s.ackSendFlow flowId).flowIdNum = s.flowIdNum ∧ (s.ackSendFlow flowId).sent = s.sent := by
  rw [Session.ackSendFlow]
  split
  · refine ⟨List.ext_getElem? fun j => ?_, rfl⟩
    simp only [Session.flowIdNum, List.getElem?_map, List.getElem?_modify]
    split_ifs
    · rcases s.slots[j]? with _ | slot <;> rfl
    · rcases s.slots[j]? with _ | slot <;> rfl
  · exact ⟨rfl, rfl⟩

/-- What the end of a flow does to the table: its slot is freed, if it has one. -/
def Session.endFlow (s : Session) (flowId : UInt32) (freesAddr : Bool) : Session :=
  match s.findFlow flowId with
  | some k => s.freeFlow k freesAddr
  | none => s

theorem endFlow_some {flowId : UInt32} {k : ℕ} (h : s.findFlow flowId = some k)
    (freesAddr : Bool) : s.endFlow flowId freesAddr = s.freeFlow k freesAddr := by
  rw [Session.endFlow, h]

theorem endFlow_none {flowId : UInt32} (h : s.findFlow flowId = none) (freesAddr : Bool) :
    s.endFlow flowId freesAddr = s := by
  rw [Session.endFlow, h]

/-- What becomes of a session in which a message ends a flow. -/
structure Ended (s : Session) (m : SlotMsg) (s' : Session) : Prop where
  table : ∃ freesAddr, s'.slots = (s.endFlow m.flowId freesAddr).slots ∧
    s'.numFlow = (s.endFlow m.flowId freesAddr).numFlow
  answer : ∀ flowId, m = .closedFlow flowId → s'.sent = s.sent ++
    if (s.findFlow flowId).isSome then [.ackFlow tspAckClosedFlow flowId 0] else []

theorem ended_closedFlow {flowId : UInt32} (h : s.heard.closedFlow o unmet flowId = .ok s') :
    RoomFor s (.msg (.closedFlow flowId) unmet) ∧ Ended s (.closedFlow flowId) s' := by
  rcases hk : s.findFlow flowId with _ | k
  · rw [closedFlow_none (s := s.heard) hk] at h
    cases h
    refine ⟨fun k' hk' => (Option.some_ne_none k' (hk'.symm.trans hk)).elim, ?_, ?_⟩
    · exact ⟨true, by rw [SlotMsg.flowId, endFlow_none hk], by rw [SlotMsg.flowId, endFlow_none hk]⟩
    · rintro _ ⟨⟩
      rw [hk, Option.isSome_none, if_neg Bool.false_ne_true, List.append_nil]
  · obtain ⟨⟨hproto, haddr, hinfos, hthread, hsockets⟩, rfl⟩ :=
      (closedFlow_eq_ok (s := s.heard) hk).1 h
    refine ⟨fun k' hk' => ?_, ?_, ?_⟩
    · obtain rfl : k' = k := Option.some.inj (hk'.symm.trans hk)
      exact ⟨hproto, haddr, hinfos, hthread, hsockets⟩
    · exact ⟨true, by rw [SlotMsg.flowId, endFlow_some hk]; rfl,
        by rw [SlotMsg.flowId, endFlow_some hk]; rfl⟩
    · rintro _ ⟨⟩
      rw [hk, Option.isSome_some, if_pos rfl]
      rfl

theorem ended_closedErr {flowId : UInt32} (h : s.heard.closedErr unmet flowId = .ok s') :
    RoomFor s (.msg (.closedErr flowId) unmet) ∧ Ended s (.closedErr flowId) s' := by
  rcases hk : s.findFlow flowId with _ | k
  · rw [closedErr_none (s := s.heard) hk] at h
    cases h
    refine ⟨fun k' hk' => (Option.some_ne_none k' (hk'.symm.trans hk)).elim, ?_, nofun⟩
    exact ⟨false, by rw [SlotMsg.flowId, endFlow_none hk], by rw [SlotMsg.flowId, endFlow_none hk]⟩
  · obtain ⟨herrs, rfl⟩ := (closedErr_eq_ok (s := s.heard) hk).1 h
    refine ⟨fun k' hk' => ?_, ?_, nofun⟩
    · obtain rfl : k' = k := Option.some.inj (hk'.symm.trans hk)
      exact herrs
    · exact ⟨false, by rw [SlotMsg.flowId, endFlow_some hk]; rfl,
        by rw [SlotMsg.flowId, endFlow_some hk]; rfl⟩

theorem ended_pipeErr {typeMessage : UInt8} {flowId : UInt32}
    (h : s.pipeErr unmet typeMessage flowId = .ok s') :
    (∀ k ∈ s.findFlow flowId, AllMet unmet (s.slots.getD k .free).threadNeeds) ∧
      s'.slots = (s.endFlow flowId false).slots ∧
      s'.numFlow = (s.endFlow flowId false).numFlow := by
  rcases hk : s.findFlow flowId with _ | k
  · rw [pipeErr_none hk] at h
    cases h
    rw [endFlow_none hk]
    exact ⟨nofun, rfl, rfl⟩
  · obtain ⟨hthread, rfl⟩ := (pipeErr_eq_ok hk).1 h
    rw [endFlow_some hk]
    refine ⟨fun k' hk' => ?_, rfl, rfl⟩
    obtain rfl := Option.some.inj hk'
    exact hthread

/-- A message of the pipe that ends a flow. -/
theorem ended_pipeParser {code : PipeCode} (hcode : code ≠ .ok) {flowId : UInt32}
    (h : pipeParser e s unmet code flowId = .ok s') :
    RoomFor s (.pipe code flowId unmet) ∧ Ended s (.pipe code flowId) s' := by
  have hended {typeMessage : UInt8} (h : s.pipeErr unmet typeMessage flowId = .ok s') :=
    ended_pipeErr h
  have hpipe {code : PipeCode} (f : UInt32) (heq : SlotMsg.pipe code flowId = .closedFlow f) :
      False := by cases heq
  cases code with
  | ok => exact absurd rfl hcode
  | err1 =>
    obtain ⟨hroom, hslots, hnum⟩ := hended h
    exact ⟨hroom, ⟨false, hslots, hnum⟩, fun f heq => (hpipe f heq).elim⟩
  | err2 =>
    obtain ⟨hroom, hslots, hnum⟩ := hended h
    exact ⟨hroom, ⟨false, hslots, hnum⟩, fun f heq => (hpipe f heq).elim⟩
  | errSock =>
    rw [pipeParser] at h
    split_ifs at h with hsome
    · obtain ⟨hroom, hslots, hnum⟩ := hended h
      exact ⟨hroom, ⟨false, hslots, hnum⟩, fun f heq => (hpipe f heq).elim⟩
    · -- A flow without a slot.
      cases h
      have hnone := Option.not_isSome_iff_eq_none.1 hsome
      refine ⟨fun k hk => (Option.some_ne_none k (hk.symm.trans hnone)).elim, ?_,
        fun f heq => (hpipe f heq).elim⟩
      exact ⟨false, by rw [SlotMsg.flowId, endFlow_none hnone],
        by rw [SlotMsg.flowId, endFlow_none hnone]⟩

theorem pipeParser_ok (flowId : UInt32) : ∃ s', pipeParser e s unmet .ok flowId = .ok s' ∧
    s'.slots = s.slots ∧ s'.numFlow = s.numFlow := by
  rw [pipeParser]
  split <;> exact ⟨_, rfl, rfl, rfl⟩

theorem turn_sock {m : SenderMsg} {r : RecvMsg} {x : Except Stop Session}
    (h : ∀ rest, recvMsg e o s unmet (m.bytes e o.passiveMode ++ rest) =
      x.map fun s' => (r, s', rest)) :
    s.turn e o (m.bytes e o.passiveMode) (.sock unmet) = x.map fun s' => ([r], s', []) := by
  have := h []
  rw [List.append_nil] at this
  rw [Session.turn, this]
  cases x <;> rfl

/-- The handler of a message that ends a flow comes to its end if and only if there is room, and
    then the slot of the flow is free. -/
theorem turn_ends {m : SlotMsg} (h : m.ends) : ∃ ms, ∃ x : Except Stop Session,
    s.turn e o ((m.arrival unmet).bytes e o.passiveMode) (m.arrival unmet).event =
      x.map (fun s' => (ms, s', [])) ∧
    (∀ s', x = .ok s' → RoomFor s (m.arrival unmet) ∧ Ended s m s') ∧
    (RoomFor s (m.arrival unmet) → ∃ s', x = .ok s') := by
  cases m with
  | sendFlow flow flowId => exact absurd h Bool.false_ne_true
  | closedFlow flowId =>
    refine ⟨_, _, turn_sock (recvMsg_closedFlow flowId), fun s' => ended_closedFlow,
      fun hroom => ?_⟩
    obtain ⟨s', hs', -⟩ := exists_closedFlow (o := o) hroom
    exact ⟨s', hs'⟩
  | closedErr flowId =>
    refine ⟨_, _, turn_sock (recvMsg_closedErr flowId), fun s' => ended_closedErr, fun hroom => ?_⟩
    obtain ⟨s', hs', -⟩ := exists_closedErr hroom
    exact ⟨s', hs'⟩
  | pipe code flowId =>
    have hok : code ≠ .ok := by
      rintro rfl
      exact absurd h Bool.false_ne_true
    refine ⟨[], pipeParser e s unmet code flowId, ?_, fun s' => ended_pipeParser hok,
      fun hroom => ?_⟩
    · rw [SlotMsg.arrival, Arrival.event, Session.turn]
      cases pipeParser e s unmet code flowId <;> rfl
    · obtain ⟨s', hs', -⟩ := exists_pipeParser (e := e) hroom
      exact ⟨s', hs'⟩

end Slots

/-! ## What holds of the table -/

section SlotSystem

variable {e : Endian} {o : RecvOptions} {s s' : LiveSession} {m : SlotMsg} {unmet : List SysNeed}

theorem slotSystem_step : (slotSystem e o).step s (m, unmet) =
    if Admissible s m then
      match s.session.turn e o ((m.arrival unmet).bytes e o.passiveMode)
        (m.arrival unmet).event with
      | .ok (_, session, []) => some ⟨session, m.after s.live⟩
      | _ => none
    else none := rfl

theorem isRequest_of_ends (h : m.ends) : m.isRequest = false := by
  cases m with
  | sendFlow flow flowId => exact absurd h Bool.false_ne_true
  | closedFlow flowId => rfl
  | closedErr flowId => rfl
  | pipe code flowId => rfl

theorem admissible_of_not_isRequest (h : m.isRequest = false) : Admissible s m :=
  fun hrequest => absurd (h.symm.trans hrequest) Bool.false_ne_true

/-- A message that ends a flow: whether there is a step, and what it does. -/
theorem slotSystem_step_ends (h : m.ends) :
    (∀ s', (slotSystem e o).step s (m, unmet) = some s' →
      RoomFor s.session (m.arrival unmet) ∧ Ended s.session m s'.session ∧
        s'.live = s.live.filter (· ≠ m.flowId)) ∧
    (RoomFor s.session (m.arrival unmet) → ∃ s', (slotSystem e o).step s (m, unmet) = some s') := by
  have hrequest := isRequest_of_ends h
  have hlive : m.after s.live = s.live.filter (· ≠ m.flowId) := by
    simp [SlotMsg.after, hrequest, h]
  obtain ⟨ms, x, hturn, hok, hroom⟩ := @turn_ends e o s.session unmet _ h
  rw [slotSystem_step, if_pos (admissible_of_not_isRequest hrequest), hturn, ← hlive]
  cases x with
  | error stop =>
    refine ⟨nofun, fun h => ?_⟩
    obtain ⟨s', hs'⟩ := hroom h
    cases hs'
  | ok session =>
    refine ⟨?_, fun _ => ⟨_, rfl⟩⟩
    rintro _ ⟨⟩
    exact ⟨(hok session rfl).1, (hok session rfl).2, rfl⟩

/-- The three kinds of steps. -/
theorem slotSystem_step_cases (hpassive : o.passiveMode = false)
    (h : (slotSystem e o).step s (m, unmet) = some s') :
    (∃ flow flowId k, m = .sendFlow flow flowId ∧ flowId ∉ s.live ∧ flowId ≠ noFlow ∧
      s.session.findFlow noFlow = some k ∧
      s' = ⟨s.session.heard.sendFlow o k (flow.request false flowId), flowId :: s.live⟩) ∨
    (m.ends ∧ Ended s.session m s'.session ∧ s'.live = s.live.filter (· ≠ m.flowId)) ∨
    ∃ flowId, m = .pipe .ok flowId ∧ s'.session.slots = s.session.slots ∧
      s'.session.numFlow = s.session.numFlow ∧ s'.live = s.live := by
  by_cases hends : m.ends
  · obtain ⟨-, hended, hlive⟩ := (slotSystem_step_ends hends).1 s' h
    exact .inr (.inl ⟨hends, hended, hlive⟩)
  · rw [slotSystem_step] at h
    cases m with
    | sendFlow flow flowId =>
      split_ifs at h with hadm
      obtain ⟨hlive, hne, -⟩ := hadm rfl
      rcases hk : s.session.findFlow noFlow with _ | k
      · -- The table is full: the process exits.
        have hread := @recvMsg_sendFlow_full e e o s.session unmet hk flow flowId []
        rw [List.append_nil] at hread
        rw [SlotMsg.arrival, Arrival.bytes, Arrival.event, Session.turn, hread] at h
        cases h
      · have hturn := turn_sock (x := .ok _)
          (@recvMsg_sendFlow e e o s.session unmet k hk flow flowId)
        rw [SlotMsg.arrival, Arrival.bytes, Arrival.event, hturn] at h
        cases h
        exact .inl ⟨flow, flowId, k, rfl, hlive, hne, rfl, by rw [hpassive]; rfl⟩
    | closedFlow flowId => exact absurd rfl hends
    | closedErr flowId => exact absurd rfl hends
    | pipe code flowId =>
      cases code with
      | ok =>
        obtain ⟨session, hparse, hslots, hnum⟩ :=
          @pipeParser_ok e s.session unmet flowId
        rw [if_pos (admissible_of_not_isRequest rfl), SlotMsg.arrival, Arrival.event,
          Session.turn, hparse] at h
        cases h
        exact .inr (.inr ⟨flowId, rfl, hslots, hnum, rfl⟩)
      | err1 => exact absurd rfl hends
      | err2 => exact absurd rfl hends
      | errSock => exact absurd rfl hends

/-- The table holds the live flows, and `numFlow` counts its slots. -/
structure SlotInv (s : LiveSession) : Prop where
  holds : SlotTable.Holds noFlow s.session.flowIdNum s.live
  numFlow_eq : s.session.numFlow = SlotTable.used noFlow s.session.flowIdNum
  length_eq : s.session.flowIdNum.length = maxNumThread

theorem SlotInv.slotsHold (h : SlotInv s) : SlotsHold s where
  one_slot _ hlive := h.holds.exists_unique hlive
  others_free _ hmem hlive := h.holds.eq_free_of_notMem hmem hlive
  numFlow_eq := h.numFlow_eq

/-- A request fills the first free slot. -/
theorem SlotInv.sendFlow (h : SlotInv s) (hpassive : o.passiveMode = false) {k : ℕ}
    {m : FlowRequest} (hk : s.session.findFlow noFlow = some k) (hlive : m.flowId ∉ s.live)
    (hne : m.flowId ≠ noFlow) :
    SlotInv ⟨s.session.heard.sendFlow o k m, m.flowId :: s.live⟩ := by
  rw [findFlow_eq] at hk
  have hfree := SlotTable.find_eq_some hk
  have hids : (s.session.heard.sendFlow o k m).flowIdNum = s.session.flowIdNum.set k m.flowId :=
    flowIdNum_sendFlow k m
  have hnum : (s.session.heard.sendFlow o k m).numFlow = s.session.numFlow + 1 := by
    rw [Session.sendFlow, if_neg (by simp [hpassive])]
  refine ⟨?_, ?_, ?_⟩
  · rw [hids]
    exact h.holds.fill hfree hlive hne
  · have hused := SlotTable.used_set noFlow m.flowId hfree
    rw [if_neg (not_not.2 rfl), if_pos hne] at hused
    rw [hids, hnum, h.numFlow_eq]
    omega
  · rw [hids, List.length_set, h.length_eq]

/-- A request finds a free slot. -/
theorem SlotInv.exists_step_sendFlow (h : SlotInv s) (hadm : Admissible s m)
    (hrequest : m.isRequest) : ∃ s', (slotSystem e o).step s (m, unmet) = some s' := by
  cases m with
  | sendFlow flow flowId =>
    have hfree := h.holds.free_mem (h.length_eq ▸ (hadm rfl).2.2)
    obtain ⟨k, hk⟩ := SlotTable.exists_find_eq hfree
    rw [← findFlow_eq] at hk
    have hturn := turn_sock (x := .ok _) (@recvMsg_sendFlow e e o s.session unmet k hk flow flowId)
    rw [slotSystem_step, if_pos hadm, SlotMsg.arrival, Arrival.bytes, Arrival.event, hturn]
    exact ⟨_, rfl⟩
  | closedFlow flowId => exact absurd hrequest Bool.false_ne_true
  | closedErr flowId => exact absurd hrequest Bool.false_ne_true
  | pipe code flowId => exact absurd hrequest Bool.false_ne_true

/-- Ending a flow frees its slot, if it has one. -/
theorem SlotInv.ended (h : SlotInv s) (hnames : m.flowId = noFlow → noFlow ∉ s.session.flowIdNum)
    (hended : Ended s.session m s'.session) (hlive : s'.live = s.live.filter (· ≠ m.flowId)) :
    SlotInv s' := by
  obtain ⟨freesAddr, hslots, hnum⟩ := hended.table
  have hids : s'.session.flowIdNum = (s.session.endFlow m.flowId freesAddr).flowIdNum :=
    congrArg (List.map _) hslots
  rcases hfind : s.session.findFlow m.flowId with _ | k
  · rw [endFlow_none hfind] at hids hnum
    rw [findFlow_eq, SlotTable.find_eq_none] at hfind
    have hmem : m.flowId ∉ s.live := by
      intro hmem
      have hne : m.flowId ≠ noFlow := fun heq => h.holds.free_notMem (heq ▸ hmem)
      exact hfind ((h.holds.mem_iff _ hne).2 hmem)
    have hsame : s.live.filter (· ≠ m.flowId) = s.live :=
      List.filter_eq_self.2 fun x hx => decide_eq_true fun heq => hmem (heq ▸ hx)
    exact ⟨by rw [hids, hlive, hsame]; exact h.holds, by rw [hnum, hids, h.numFlow_eq],
      by rw [hids, h.length_eq]⟩
  · rw [endFlow_some hfind, flowIdNum_freeFlow] at hids
    rw [endFlow_some hfind] at hnum
    rw [findFlow_eq] at hfind
    have hk := SlotTable.find_eq_some hfind
    have hne : m.flowId ≠ noFlow := fun heq => hnames heq (heq ▸ List.mem_of_getElem? hk)
    refine ⟨by rw [hids, hlive]; exact h.holds.clear hk hne, ?_, ?_⟩
    · have hused := SlotTable.used_set noFlow noFlow hk
      have hnum' : s'.session.numFlow = s.session.numFlow - 1 := hnum
      rw [if_pos hne, if_neg (not_not.2 rfl)] at hused
      rw [hids, hnum', h.numFlow_eq]
      omega
    · rw [hids, List.length_set, h.length_eq]

/-- The table after a step. -/
theorem SlotInv.step (h : SlotInv s) (hpassive : o.passiveMode = false) (hnames : NamesFlow s m)
    (hstep : (slotSystem e o).step s (m, unmet) = some s') : SlotInv s' := by
  obtain ⟨flow, flowId, k, rfl, hlive, hne, hk, rfl⟩ | ⟨hends, hended, hlive⟩ |
    ⟨flowId, rfl, hslots, hnum, hlive⟩ := slotSystem_step_cases hpassive hstep
  · exact h.sendFlow hpassive hk hlive hne
  · exact h.ended (hnames hends) hended hlive
  · have hids : s'.session.flowIdNum = s.session.flowIdNum := congrArg (List.map _) hslots
    exact ⟨by rw [hids, hlive]; exact h.holds, by rw [hnum, hids, h.numFlow_eq],
      by rw [hids, h.length_eq]⟩

/-- A message changes the slot of the flow it names, and none if the flow is not live. -/
theorem SlotInv.slotStep (h : SlotInv s) (hpassive : o.passiveMode = false)
    (hnames : NamesFlow s m) (hstep : (slotSystem e o).step s (m, unmet) = some s') :
    SlotStep s m s' := by
  obtain ⟨flow, flowId, k, rfl, hlive, hne, hk, rfl⟩ | ⟨hends, hended, hlive⟩ |
    ⟨flowId, rfl, hslots, hnum, hlive⟩ := slotSystem_step_cases hpassive hstep
  · refine ⟨fun j _ hj => slots_sendFlow_of_ne _ fun hjk => hj ?_, fun hr => absurd rfl hr, nofun⟩
    rw [findFlow_eq] at hk
    have hlt : k < s.session.flowIdNum.length :=
      (List.getElem?_eq_some_iff.1 (SlotTable.find_eq_some hk)).1
    have hids : (s.session.heard.sendFlow o k (flow.request false flowId)).flowIdNum =
      s.session.flowIdNum.set k flowId := flowIdNum_sendFlow k _
    rw [hjk, hids, List.getElem?_set_self hlt]
    rfl
  · obtain ⟨freesAddr, hslots, hnum⟩ := hended.table
    -- A flow has a slot if and only if it is live.
    have hsome : (s.session.findFlow m.flowId).isSome ↔ m.flowId ∈ s.live := by
      rw [findFlow_eq, Option.isSome_iff_ne_none, Ne, SlotTable.find_eq_none, not_not]
      by_cases heq : m.flowId = noFlow
      · rw [heq]
        exact iff_of_false (hnames hends heq) h.holds.free_notMem
      · exact h.holds.mem_iff _ heq
    refine ⟨fun j hj _ => ?_, fun _ hdead => ?_, fun flowId hm => ?_⟩
    · rcases hfind : s.session.findFlow m.flowId with _ | k
      · rw [hslots, endFlow_none hfind]
      · rw [hslots, endFlow_some hfind]
        rw [findFlow_eq] at hfind
        refine slots_freeFlow_of_ne ?_ freesAddr
        rintro rfl
        exact hj (SlotTable.find_eq_some hfind)
    · have hfind : s.session.findFlow m.flowId = none :=
        Option.not_isSome_iff_eq_none.1 fun hs => hdead (hsome.1 hs)
      rw [hslots, hnum, endFlow_none hfind]
      exact ⟨rfl, rfl⟩
    · subst hm
      have hsome : (s.session.findFlow flowId).isSome ↔ flowId ∈ s.live := hsome
      rw [hended.answer flowId rfl]
      simp only [hsome]
  · exact ⟨fun j _ _ => by rw [hslots], fun _ _ => ⟨hslots, hnum⟩, nofun⟩

/-- The flow `noFlow` is ended in a free slot, and `numFlow` is lowered. -/
theorem not_slotsHold_of_noFlow (h : SlotInv s) (hnames : ¬NamesFlow s m)
    (hstep : (slotSystem e o).step s (m, unmet) = some s') : ¬SlotsHold s' := by
  simp only [NamesFlow, not_forall, not_not] at hnames
  obtain ⟨hends, heq, hmem⟩ := hnames
  obtain ⟨-, hended, -⟩ := (slotSystem_step_ends hends).1 s' hstep
  obtain ⟨freesAddr, hslots, hnum⟩ := hended.table
  obtain ⟨k, hk⟩ := SlotTable.exists_find_eq hmem
  have hfind : s.session.findFlow m.flowId = some k := by rw [heq, findFlow_eq, hk]
  have hids : s'.session.flowIdNum = (s.session.endFlow m.flowId freesAddr).flowIdNum :=
    congrArg (List.map _) hslots
  rw [endFlow_some hfind, flowIdNum_freeFlow] at hids
  rw [endFlow_some hfind] at hnum
  have hused := SlotTable.used_set noFlow noFlow (SlotTable.find_eq_some hk)
  have hnum' : s'.session.numFlow = s.session.numFlow - 1 := hnum
  intro hs'
  have hbad := hs'.numFlow_eq
  rw [hids, hnum', h.numFlow_eq] at hbad
  omega

/-- A message that ends well has a step, a request always does. -/
theorem SlotInv.exists_step (h : SlotInv s) (hadm : Admissible s m)
    (hwell : EndsWell s (m, unmet)) : ∃ s', (slotSystem e o).step s (m, unmet) = some s' := by
  by_cases hends : m.ends
  · refine (slotSystem_step_ends hends).2 (hwell.room ?_)
    rw [isRequest_of_ends hends]
    exact Bool.false_ne_true
  · cases m with
    | sendFlow flow flowId => exact h.exists_step_sendFlow hadm rfl
    | closedFlow flowId => exact absurd rfl hends
    | closedErr flowId => exact absurd rfl hends
    | pipe code flowId =>
      cases code with
      | ok =>
        obtain ⟨session, hparse, -⟩ :=
          @pipeParser_ok e s.session unmet flowId
        rw [slotSystem_step, if_pos hadm, SlotMsg.arrival, Arrival.event, Session.turn, hparse]
        exact ⟨_, rfl⟩
      | err1 => exact absurd rfl hends
      | err2 => exact absurd rfl hends
      | errSock => exact absurd rfl hends

/-- A step that keeps the table is one that ends well. -/
theorem SlotInv.endsWell (h : SlotInv s) (hstep : (slotSystem e o).step s (m, unmet) = some s')
    (hs' : SlotsHold s') : EndsWell s (m, unmet) where
  names := by_contra fun hnames => not_slotsHold_of_noFlow h hnames hstep hs'
  room hrequest := by
    by_cases hends : m.ends
    · exact ((slotSystem_step_ends hends).1 s' hstep).1
    · cases m with
      | sendFlow flow flowId => exact absurd rfl hrequest
      | closedFlow flowId => exact absurd rfl hends
      | closedErr flowId => exact absurd rfl hends
      | pipe code flowId =>
        cases code with
        | ok => trivial
        | err1 => exact absurd rfl hends
        | err2 => exact absurd rfl hends
        | errSock => exact absurd rfl hends

end SlotSystem

/-- The start of a session. -/
def someSession : LiveSession := ⟨.start 0 0 [], []⟩

/-- Two flows are requested, the first one is closed, and a third one gets its slot. -/
def reuse : List (SlotMsg × List SysNeed) :=
  [(.sendFlow someFlow 1, []), (.sendFlow someFlow 2, []), (.closedFlow 1, []),
    (.sendFlow { someFlow with l4Proto := l4ProtoTCP } 3, [])]

end Ditg
