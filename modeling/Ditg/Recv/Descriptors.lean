import Ditg.Library.Ownership
import Ditg.Recv.SharedSteps

/-!
# Descriptors

A session knows the sockets of its flows by their numbers. Once the thread of a flow has the
socket that it receives from, it is `socketClose` of the slot of the flow, and it is closed
when the flow is closed, or else at the end of the session. But `socketClose` is reset only
for flows on UDP, and at the end of the session it is closed whatever it is: this may be a
descriptor that has been closed already, and that the system has given to another session
since, or 0 if the slot has never had a socket.

* `descriptors`: the receiver, in passive mode or not, with the threads whose sockets are not
  shared, and with who has opened the descriptors;
* `closes_own`: sessions close what their own flows have opened, and not closed since, as long
  as they close the flows and end with all sockets in their slots (`Fresh`).
-/

namespace Ditg

open Bytes

/-! ## The model -/

/-- A thread with a socket of its own: `icmpSock`, and in passive mode `udpSock` and `tcpSock`. -/
structure OwnThread where
  session : ℕ
  slot : ℕ
  sock : Option ℕ
  /-- `socketClose` has been set. -/
  taken : Bool
  deriving DecidableEq, Repr

/-- Who has opened a descriptor: a thread of a flow, one with a socket of its own or not. -/
structure Opener where
  session : ℕ
  own : Bool
  thread : ℕ
  deriving DecidableEq, Repr

/-- Where a descriptor is for a flow that has opened it: in `socketClose` of its slot, or in a
    variable of its thread that `socketClose` is to be set to. -/
inductive FdHolder
  | slot (j k : ℕ)
  | thread (t : ℕ)
  | ownThread (t : ℕ)
  deriving DecidableEq, Repr

/-- A call of `closeSock` with `socketClose`: who had opened the descriptor, if it was open and
    opened for a flow. -/
structure Closing where
  session : ℕ
  fd : ℕ
  opener : Option Opener
  deriving DecidableEq, Repr

/-- The receiver, and for the record who has opened the descriptors of flows, and what has been
    closed. -/
structure Descriptors where
  sys : Multiport
  ownThreads : List OwnThread
  book : Ownership FdHolder ℕ Opener
  closings : List Closing

/-- A step of the receiver. -/
inductive FdAction
  | multiport (a : MultiportAction)
  /-- `TSP_ACK_SEND_FLOW`. -/
  | ackSendFlow (j : ℕ) (flowId : UInt32)
  /-- A thread with a socket of its own opens it, and sets `socketClose`. -/
  | ownSocket (t sock : ℕ)
  | ownTake (t : ℕ)
  /-- The rest of the process opens a descriptor, or closes one that it has opened. -/
  | openOther (fd : ℕ)
  | closeOther (fd : ℕ)
  deriving DecidableEq, Repr

namespace Multiport

variable (s : Multiport)

/-- The slot that a session is about to give back, or to close at its end, and its index. -/
def endingSlot (j : ℕ) : Option (ℕ × SockSlot) :=
  s.sessions[j]?.bind fun ss => match ss.phase with
    | .closing k | .collecting k | .sweeping k => ss.slots[k]?.map fun slot => (k, slot)
    | .idle => none

/-- The socket of the entry of a flow, if this is closed with the flow. -/
def lastSocket (slot : SockSlot) : Option ℕ :=
  (sharedProto? slot.l4Proto).bind fun p =>
    if short ((s.shared p slot.indexPort).inUse - 1) = 0 then
      some (s.shared p slot.indexPort).socket
    else none

/-- The socket of the entry of a slot, if this is closed at the end of the session. -/
def unusedSocket (slot : SockSlot) : Option ℕ :=
  (sharedProto? slot.l4Proto).bind fun p =>
    if (s.shared p slot.indexPort).inUse = 0 ∧ 0 < (s.shared p slot.indexPort).socket then
      some (s.shared p slot.indexPort).socket
    else none

/-- A thread is created for the flow in a slot. -/
def createThread (p : SharedProto) (j k : ℕ) (slot : SockSlot) : Multiport :=
  { s.setSlot j k { slot with hThr := some s.threads.length } with
    threads := s.threads ++ [{
      proto := p
      session := j
      slot := k
      pc := .start
      sock := 0
      socketAlreadyOpen := false
      cancelled := false
      port := 0
      took := none
      ended := false }] }

/-- The request for a flow in passive mode: the thread is created later. -/
def passiveFlow (j : ℕ) (ss : SockSession) (l4Proto : UInt8) (ptrPort : UInt16)
    (flowId : UInt32) : Option Multiport :=
  if ss.phase ≠ .idle then none
  else (ss.findFlow noFlow).bind fun k => ss.slots[k]?.map fun slot =>
    s.setSlot j k ⟨flowId, l4Proto, ptrPort, slot.socketClose, slot.hThr⟩

/-- In passive mode there is one session. -/
def passiveStep (e : Endian) : MultiportAction → Option Multiport
  | .connect => if s.sessions = [] then some s.connect else none
  | .session j (.sendFlow l4Proto ptrPort flowId) =>
    s.sessions[j]?.bind fun ss => s.passiveFlow j ss l4Proto ptrPort flowId
  | a => s.step e a

end Multiport

namespace Descriptors

variable (s : Descriptors)

/-- The slot of a session is closed: `closeSock` with `socketClose`. -/
def closeSocket (j k fd : ℕ) : Descriptors :=
  { s with
    book := (s.book.drop (.slot j k)).free fd
    closings := s.closings ++ [⟨j, fd, s.book.owner fd⟩] }

/-- The socket of an entry is closed, if it is. -/
def closeEntry : Option ℕ → Descriptors
  | some fd => { s with book := s.book.free fd }
  | none => s

/-- A slot is given back: `socketClose` is reset on UDP only. -/
def giveBack (j k : ℕ) (slot : SockSlot) : Descriptors :=
  let s := s.closeEntry (s.sys.lastSocket slot)
  if sharedProto? slot.l4Proto = some .udp then { s with book := s.book.drop (.slot j k) }
  else if 0 < slot.socketClose then s.closeSocket j k slot.socketClose
  else s

/-- What a step of a session means for the descriptors. -/
def recordSession (j : ℕ) (a : SessionAction) : Descriptors :=
  match a with
  | .giveBack => (s.sys.endingSlot j).elim s fun x => s.giveBack j x.1 x.2
  | .collect => (s.sys.endingSlot j).elim s fun x => s.closeSocket j x.1 x.2.socketClose
  | .sweep => (s.sys.endingSlot j).elim s fun x => s.closeEntry (s.sys.unusedSocket x.2)
  | _ => s

/-- What a step of a thread means for the descriptors. -/
def recordThread (t : ℕ) (th : SockThread) (a : ThreadAction) : Descriptors :=
  let opener : Opener := ⟨th.session, false, t⟩
  match a with
  | .openSock sock port =>
    -- On TCP the socket is not the one that will be in `socketClose`.
    if th.proto = .udp ∧ port.isSome then
      { s with book := (s.book.take sock opener).keep (.thread t) sock opener }
    else { s with book := s.book.take sock opener }
  | .accept newSock =>
    { s with
      book := (s.book.take newSock opener).keep (.slot th.session th.slot) newSock opener }
  -- A socket that other flows have opened is not kept by the thread.
  | .count => { s with book := s.book.pass (.thread t) (.slot th.session th.slot) }
  | _ => s

/-- The thread of a request for a flow on ICMP. -/
def requestThread (j : ℕ) (l4Proto : UInt8) : List OwnThread :=
  if l4Proto = l4ProtoICMP then
    ((s.sys.sessions[j]?.bind fun ss => ss.findFlow noFlow).map fun k =>
      (⟨j, k, none, false⟩ : OwnThread)).toList
  else []

/-- What a step means for the descriptors. -/
def record (passiveMode : Bool) : MultiportAction → Descriptors
  | .connect => s
  | .session j (.sendFlow l4Proto _ _) =>
    if passiveMode then s
    else { s with ownThreads := s.ownThreads ++ s.requestThread j l4Proto }
  | .session j a => s.recordSession j a
  | .thread t a => match s.sys.threads[t]? with
    | some th => s.recordThread t th a
    | none => s

/-- A thread is created for a flow that has been requested: in passive mode, as it should be. -/
def ackSendFlow (passiveMode : Bool) (j : ℕ) (flowId : UInt32) : Option Descriptors :=
  s.sys.sessions[j]?.bind fun ss =>
    if ss.phase ≠ .idle then none
    else match ss.findFlow flowId with
      | some k => ss.slots[k]?.map fun slot =>
        match sharedProto? slot.l4Proto with
        | some p =>
          if passiveMode then { s with ownThreads := s.ownThreads ++ [⟨j, k, none, false⟩] }
          else { s with sys := s.sys.createThread p j k slot }
        | none => s
      | none => some s

/-- A socket is opened. -/
def ownSocket (t sock : ℕ) (th : OwnThread) : Option Descriptors :=
  if th.sock.isSome ∨ (s.sys.files sock).isSome then none
  else
    let opener : Opener := ⟨th.session, true, t⟩
    some { s with
      sys := s.sys.setFile sock (some 0)
      ownThreads := s.ownThreads.set t { th with sock := some sock }
      book := (s.book.take sock opener).keep (.ownThread t) sock opener }

/-- `socketClose` is set. -/
def ownTake (t : ℕ) (th : OwnThread) : Option Descriptors :=
  if th.taken then none
  else th.sock.bind fun sock => (s.sys.slot th.session th.slot).map fun slot =>
    { s with
      sys := s.sys.setSlot th.session th.slot { slot with socketClose := sock }
      ownThreads := s.ownThreads.set t { th with taken := true }
      book := s.book.pass (.ownThread t) (.slot th.session th.slot) }

/-- A step. A thread with a socket of its own that has been cancelled may stop anywhere. -/
def step (e : Endian) (passiveMode : Bool) : FdAction → Option Descriptors
  | .multiport a =>
    (if passiveMode then s.sys.passiveStep e a else s.sys.step e a).map fun sys =>
      { s.record passiveMode a with sys := sys }
  | .ackSendFlow j flowId => s.ackSendFlow passiveMode j flowId
  | .ownSocket t sock => s.ownThreads[t]?.bind fun th => s.ownSocket t sock th
  | .ownTake t => s.ownThreads[t]?.bind fun th => s.ownTake t th
  | .openOther fd =>
    if (s.sys.files fd).isSome then none else some { s with sys := s.sys.setFile fd (some 0) }
  | .closeOther fd =>
    if (s.sys.files fd).isSome ∧ s.book.owner fd = none then
      some { s with sys := s.sys.setFile fd none }
    else none

end Descriptors

/-- The receiver as `recvInit` leaves it, with some descriptors open. -/
def Descriptors.start (files : ℕ → Option UInt16) : Descriptors where
  sys := .start files
  ownThreads := []
  book := .new
  closings := []

/-- The receiver, with its steps in any order. -/
def descriptors (e : Endian) (passiveMode : Bool) : Transition Descriptors FdAction where
  init s := ∃ files n, (∀ fd, n ≤ fd → files fd = none) ∧ s = .start files
  step s := s.step e passiveMode

/-! ## Statements -/

namespace Descriptors

variable (s : Descriptors)

/-- Sessions have closed what their own flows have opened, and not closed before. -/
def ClosesOwn : Prop := ∀ c ∈ s.closings, ∃ o, c.opener = some o ∧ o.session = c.session

/-- A step closes what it should:
    * a flow that is not on UDP is closed when its slot has no socket, or the one that a flow has
      opened, not closed since the slot got it;
    * at the end of a session every slot has such a socket;
    * the socket of an entry is not in a slot that is not given back with it, nor about to be. -/
def Fresh : FdAction → Prop
  | .multiport (.session j .giveBack) => ∀ x ∈ s.sys.endingSlot j,
    (sharedProto? x.2.l4Proto ≠ some .udp → 0 < x.2.socketClose → s.book.Keeps (.slot j x.1)) ∧
      ∀ fd ∈ s.sys.lastSocket x.2, ∀ c ∈ s.book.kept, c.handle = fd →
        sharedProto? x.2.l4Proto = some .udp ∧ c.holder = .slot j x.1
  | .multiport (.session j .collect) => ∀ x ∈ s.sys.endingSlot j, s.book.Keeps (.slot j x.1)
  | .multiport (.session j .sweep) => ∀ x ∈ s.sys.endingSlot j,
    ∀ fd ∈ s.sys.unusedSocket x.2, ∀ c ∈ s.book.kept, c.handle ≠ fd
  | _ => True

instance : ∀ a, Decidable (s.Fresh a) := fun a => by
  unfold Fresh
  split <;> infer_instance

end Descriptors

/-! ## Where descriptors are -/

/-- A thread has its socket, if it is to have one. -/
def SockThread.hasSock (th : SockThread) : Prop := th.pc ≠ .start ∧ th.pc ≠ .opening

theorem hasSock_waits {th : SockThread} (h : th.pc = th.proto.waits) : th.hasSock := by
  rcases waits_cases th.proto with hw | hw <;> rw [hw] at h <;>
    exact ⟨by rw [h]; nofun, by rw [h]; nofun⟩

namespace Multiport

/-- The slots of all threads are there. -/
def Homed (s : Multiport) : Prop := ∀ th ∈ s.threads, (s.slot th.session th.slot).isSome

/-- The sockets in the slots, other than `x`, and in the variables of threads stay there. -/
structure SamePlaces (x : Option (ℕ × ℕ)) (s s' : Multiport) : Prop where
  slots : ∀ j k slot, x ≠ some (j, k) → s.slot j k = some slot →
    ∃ slot', s'.slot j k = some slot' ∧ slot'.socketClose = slot.socketClose
  threads : ∀ (t : ℕ) (th : SockThread), s.threads[t]? = some th → th.hasSock →
    ∃ th', s'.threads[t]? = some th' ∧ th'.hasSock ∧ th'.session = th.session ∧
      th'.sock = th.sock
  homed : s.Homed → s'.Homed

variable {e : Endian} {s s' s'' : Multiport} {t : ℕ} {th th' : SockThread} {j k : ℕ}
  {ss : SockSession} {slot : SockSlot} {x : Option (ℕ × ℕ)}

theorem SamePlaces.trans (h : SamePlaces x s s') (h' : SamePlaces x s' s'') :
    SamePlaces x s s'' where
  slots j k slot hne hslot := by
    obtain ⟨slot₁, hslot₁, heq₁⟩ := h.slots j k slot hne hslot
    obtain ⟨slot₂, hslot₂, heq₂⟩ := h'.slots j k slot₁ hne hslot₁
    exact ⟨slot₂, hslot₂, heq₂.trans heq₁⟩
  threads t th ht hsock := by
    obtain ⟨th₁, ht₁, hsock₁, hsession₁, heq₁⟩ := h.threads t th ht hsock
    obtain ⟨th₂, ht₂, hsock₂, hsession₂, heq₂⟩ := h'.threads t th₁ ht₁ hsock₁
    exact ⟨th₂, ht₂, hsock₂, hsession₂.trans hsession₁, heq₂.trans heq₁⟩
  homed hs := h'.homed (h.homed hs)

theorem samePlaces_of_eq (hslots : ∀ j k, s'.slot j k = s.slot j k)
    (hthreads : s'.threads = s.threads) : SamePlaces x s s' where
  slots j k slot _ h := ⟨slot, (hslots j k).trans h, rfl⟩
  threads t th h hsock := ⟨th, by rw [hthreads, h], hsock, rfl, rfl⟩
  homed hs th hth := by
    rw [hthreads] at hth
    rw [hslots]
    exact hs th hth

/-- A thread that has its socket keeps it. -/
theorem samePlaces_setThread (ht : s.threads[t]? = some th)
    (hhome : th'.session = th.session ∧ th'.slot = th.slot)
    (h : th.hasSock → th'.hasSock ∧ th'.sock = th.sock) : SamePlaces x s (s.setThread t th') where
  slots j k slot _ hslot := ⟨slot, hslot, rfl⟩
  threads t₁ th₁ ht₁ hsock := by
    rw [getElem?_setThread ht]
    split_ifs with htt
    · rw [htt, ht] at ht₁
      cases ht₁
      exact ⟨th', rfl, (h hsock).1, hhome.1, (h hsock).2⟩
    · exact ⟨th₁, ht₁, hsock, rfl, rfl⟩
  homed hs th₁ hth₁ := by
    rcases List.mem_or_eq_of_mem_set hth₁ with hth₁ | rfl
    · exact hs th₁ hth₁
    · have hslot := hs th (List.mem_of_getElem? ht)
      rw [← hhome.1, ← hhome.2] at hslot
      exact hslot

theorem samePlaces_modifyThread (hThr : Option ℕ) {f : SockThread → SockThread}
    (hhome : ∀ th, (f th).session = th.session ∧ (f th).slot = th.slot)
    (h : ∀ th, th.hasSock → (f th).hasSock ∧ (f th).sock = th.sock) :
    SamePlaces x s (s.modifyThread hThr f) := by
  obtain heq | ⟨t, th, -, ht, heq⟩ := s.modifyThread_eq hThr f
  · rw [heq]
    exact samePlaces_of_eq (fun _ _ => rfl) rfl
  · rw [heq]
    exact samePlaces_setThread ht (hhome th) (h th)

theorem samePlaces_terminateThread (hThr : Option ℕ) : SamePlaces x s (s.terminateThread hThr) :=
  samePlaces_modifyThread hThr (fun _ => ⟨rfl, rfl⟩) fun _ h => ⟨h, rfl⟩

theorem samePlaces_endThread (hThr : Option ℕ) : SamePlaces x s (s.endThread hThr) :=
  samePlaces_modifyThread hThr (fun _ => ⟨rfl, rfl⟩) fun _ h => ⟨h, rfl⟩

theorem samePlaces_setPhase (j : ℕ) (phase : SockPhase) : SamePlaces x s (s.setPhase j phase) :=
  samePlaces_of_eq (slot_setPhase phase) rfl

theorem samePlaces_sendPipeMsg (th : SockThread) (code : PipeCode) :
    SamePlaces x s (s.sendPipeMsg th code) :=
  samePlaces_of_eq (slot_sendPipeMsg code) rfl

theorem samePlaces_setFile (fd : ℕ) (port : Option UInt16) :
    SamePlaces x s (s.setFile fd port) :=
  samePlaces_of_eq (fun _ _ => rfl) rfl

theorem samePlaces_setShared (p : SharedProto) (i : UInt16) (v : SharedSocket) :
    SamePlaces x s (s.setShared p i v) :=
  samePlaces_of_eq (fun _ _ => rfl) rfl

/-- A slot that is not the one that may change keeps its socket. -/
theorem samePlaces_setSlot {v : SockSlot} (hslot : s.slot j k = some slot)
    (h : x ≠ some (j, k) → v.socketClose = slot.socketClose) :
    SamePlaces x s (s.setSlot j k v) where
  slots j' k' slot' hne hslot' := by
    rw [slot_setSlot (by rw [hslot]; rfl)]
    split_ifs with hjk
    · rw [hjk.1, hjk.2, hslot] at hslot'
      rw [hjk.1, hjk.2] at hne
      cases hslot'
      exact ⟨v, rfl, h hne⟩
    · exact ⟨slot', hslot', rfl⟩
  threads t th ht hsock := ⟨th, ht, hsock, rfl, rfl⟩
  homed hs th hth := by
    rw [slot_setSlot (by rw [hslot]; rfl)]
    split_ifs
    · rfl
    · exact hs th hth

theorem samePlaces_append {th : SockThread} (hslot : (s.slot th.session th.slot).isSome) :
    SamePlaces x s { s with threads := s.threads ++ [th] } where
  slots j k slot _ hslot := ⟨slot, hslot, rfl⟩
  threads t th ht hsock := by
    obtain ⟨hlt, -⟩ := List.getElem?_eq_some_iff.1 ht
    exact ⟨th, (List.getElem?_append_left hlt).trans ht, hsock, rfl, rfl⟩
  homed hs := List.forall_mem_append.2 ⟨hs, List.forall_mem_singleton.2 hslot⟩

theorem samePlaces_connect : SamePlaces x s s.connect := by
  have hslots (j k : ℕ) (slot : SockSlot) (hslot : s.slot j k = some slot) :
      s.connect.slot j k = some slot := by
    rcases slot_connect s j k with heq | ⟨hnone, -⟩
    · exact heq.trans hslot
    · exact absurd (hnone.symm.trans hslot) nofun
  refine ⟨fun j k slot _ hslot => ⟨slot, hslots j k slot hslot, rfl⟩,
    fun t th ht hsock => ⟨th, ht, hsock, rfl, rfl⟩, fun hs th hth => ?_⟩
  obtain ⟨slot, hslot⟩ := Option.isSome_iff_exists.1 (hs th hth)
  rw [hslots _ _ slot hslot]
  rfl

/-! ### Steps that leave descriptors where they are -/

/-- A thread is created for a slot. -/
theorem samePlaces_createThread (hslot : s.slot j k = some slot) {v : SockSlot}
    (hv : v.socketClose = slot.socketClose) (p : SharedProto) :
    SamePlaces x s { s.setSlot j k v with
      threads := s.threads ++ [⟨p, j, k, .start, 0, false, false, 0, none, false⟩] } := by
  have hset : SamePlaces x s (s.setSlot j k v) := samePlaces_setSlot hslot fun _ => hv
  have hsome : ((s.setSlot j k v).slot j k).isSome := by
    rw [slot_setSlot (by rw [hslot]; rfl), if_pos ⟨rfl, rfl⟩]
    rfl
  exact hset.trans (samePlaces_append hsome)

/-- A step of a session that closes nothing. -/
theorem sessionStep_samePlaces {a : SessionAction} (hss : s.sessions[j]? = some ss)
    (ha : a ≠ .giveBack ∧ a ≠ .collect ∧ a ≠ .sweep) (h : s.sessionStep j ss a = some s') :
    SamePlaces x s s' ∧ s'.files = s.files := by
  cases a with
  | sendFlow l4Proto ptrPort flowId =>
    rw [sessionStep, sendFlow] at h
    split at h
    · cases h
    · obtain ⟨k, -, h⟩ := Option.bind_eq_some_iff.1 h
      obtain ⟨slot, hslot, rfl⟩ := Option.map_eq_some_iff.1 h
      have hsome := slot_eq_some.2 ⟨ss, hss, hslot⟩
      split
      · exact ⟨samePlaces_createThread (v := ⟨flowId, l4Proto, ptrPort, slot.socketClose, _⟩)
          hsome rfl _, rfl⟩
      · exact ⟨samePlaces_setSlot hsome fun _ => rfl, rfl⟩
  | closed flowId =>
    obtain ⟨k, slot, -, -, rfl⟩ | rfl := closed_eq_some h
    · exact ⟨(samePlaces_terminateThread _).trans (samePlaces_setPhase _ _), rfl⟩
    · exact ⟨samePlaces_of_eq (fun _ _ => rfl) rfl, rfl⟩
  | giveBack => exact absurd rfl ha.1
  | pipe =>
    obtain ⟨code, flowId, rPipe, u, -, rfl, h⟩ := pipeParser_eq_some h
    -- An error message makes the slot free, without closing anything.
    have hpipe : SamePlaces x s (s.modifySession j fun ss => { ss with rPipe := rPipe }) :=
      samePlaces_of_eq (slot_setPipe rPipe j) rfl
    obtain rfl | ⟨k, slot, -, -, hslot, rfl⟩ := h
    · exact ⟨hpipe, rfl⟩
    · have hstop := hpipe.trans (samePlaces_terminateThread slot.hThr)
      have hset := hstop.trans (samePlaces_setSlot (v := { slot with flowId := noFlow })
        ((slot_setPipe rPipe j j k).trans (slot_eq_some.2 ⟨ss, hss, hslot⟩)) fun _ => rfl)
      exact ⟨hset.trans (samePlaces_endThread _), rfl⟩
  | leave =>
    rw [leave_eq_some h]
    exact ⟨samePlaces_setPhase _ _, rfl⟩
  | collect => exact absurd rfl ha.2.1
  | sweep => exact absurd rfl ha.2.2

/-- A step of a thread that opens nothing, and does not set `socketClose`. -/
theorem threadStep_samePlaces {a : ThreadAction} (ht : s.threads[t]? = some th)
    (ha : (∀ sock port, a ≠ .openSock sock port) ∧ (∀ newSock, a ≠ .accept newSock) ∧ a ≠ .count)
    (h : s.threadStep e t th a = some s') : SamePlaces x s s' ∧ s'.files = s.files := by
  -- A thread that has stopped receiving still has its socket.
  have hparks (hpark : a = .recvError ∨ a = .recvEnd ∨ a = .stop) :
      SamePlaces x s s' ∧ s'.files = s.files := by
    obtain ⟨u, pc, hu, hpc, rfl⟩ := threadStep_parks hpark h
    have hsock : ({ th with pc := pc } : SockThread).hasSock := by
      rcases hpc with ⟨rfl, -⟩ | ⟨rfl, -⟩ <;> exact ⟨nofun, nofun⟩
    rcases hu with rfl | rfl
    · exact ⟨samePlaces_setThread ht ⟨rfl, rfl⟩ fun _ => ⟨hsock, rfl⟩, rfl⟩
    · exact ⟨(samePlaces_sendPipeMsg _ _).trans
        (samePlaces_setThread ht ⟨rfl, rfl⟩ fun _ => ⟨hsock, rfl⟩), rfl⟩
  cases a with
  | lock =>
    obtain ⟨hpc, ⟨-, rfl⟩ | ⟨-, -, rfl⟩⟩ := lock_eq_some h
    · exact ⟨samePlaces_setThread ht ⟨rfl, rfl⟩ fun hsock => absurd hpc hsock.1, rfl⟩
    · exact ⟨(samePlaces_setShared _ _ _).trans
        (samePlaces_setThread ht ⟨rfl, rfl⟩ fun hsock => absurd hpc hsock.1), rfl⟩
  | openSock sock port => exact absurd rfl (ha.1 sock port)
  | join =>
    obtain ⟨hpc, -, rfl⟩ := join_eq_some h
    exact ⟨(samePlaces_sendPipeMsg _ _).trans
      (samePlaces_setThread ht ⟨rfl, rfl⟩ fun hsock => absurd hpc hsock.2), rfl⟩
  | relock =>
    obtain ⟨-, -, rfl⟩ := relock_eq_some h
    have hlock : SamePlaces x s (s.lockEntry t th) := samePlaces_setShared _ _ _
    exact ⟨hlock.trans ((samePlaces_sendPipeMsg _ _).trans
      (samePlaces_setThread ht ⟨rfl, rfl⟩ fun _ => ⟨hasSock_waits rfl, rfl⟩)), rfl⟩
  | accept newSock => exact absurd rfl (ha.2.1 newSock)
  | count => exact absurd rfl ha.2.2
  | recvError => exact hparks (.inl rfl)
  | recvEnd => exact hparks (.inr (.inl rfl))
  | stop => exact hparks (.inr (.inr rfl))

/-- A socket is opened, and is in the variable of the thread. -/
theorem openSock_samePlaces {sock : ℕ} {port : Option UInt16} (ht : s.threads[t]? = some th)
    (hslot : (s.slot th.session th.slot).isSome) (h : s.openSock t th e sock port = some s') :
    SamePlaces x s s' ∧ s.files sock = none ∧
      (∃ p, s'.files = Function.update s.files sock (some p)) ∧
      ∃ th', s'.threads[t]? = some th' ∧ th'.hasSock ∧ th'.session = th.session ∧
        th'.sock = sock := by
  obtain ⟨hpc, -, hfile, h⟩ := openSock_eq_some h
  have hthread (u : Multiport) (pc : SockPc) (port : UInt16) (hu : u.threads = s.threads) :
      SamePlaces x u (u.setThread t { th with pc := pc, sock := sock, port := port }) ∧
        (u.setThread t { th with pc := pc, sock := sock, port := port }).threads[t]? =
          some { th with pc := pc, sock := sock, port := port } := by
    have htu : u.threads[t]? = some th := by rw [hu, ht]
    exact ⟨samePlaces_setThread htu ⟨rfl, rfl⟩ fun hsock => absurd hpc hsock.2,
      (getElem?_setThread htu _ t).trans (if_pos rfl)⟩
  obtain ⟨slot, hslot⟩ := Option.isSome_iff_exists.1 hslot
  obtain ⟨-, rfl⟩ | ⟨p, -, -, -, rfl⟩ | ⟨p, -, -, -, rfl⟩ := h
  · -- The socket cannot be bound.
    obtain ⟨hset, hget⟩ := hthread ((s.sendPipeMsg th .err1).setFile sock (some 0)) .asleep 0 rfl
    exact ⟨((samePlaces_sendPipeMsg _ _).trans (samePlaces_setFile _ _)).trans hset, hfile,
      ⟨0, rfl⟩, _, hget, ⟨SockPc.noConfusion, SockPc.noConfusion⟩, rfl, rfl⟩
  · -- The system has chosen the port, which goes to the slot.
    have hport : SamePlaces x s (s.setSlot th.session th.slot
        { s.paraThread th with indexPort := p }) := by
      refine samePlaces_setSlot hslot fun _ => ?_
      rw [paraThread, hslot]
      rfl
    obtain ⟨hset, hget⟩ := hthread ((s.setSlot th.session th.slot
      { s.paraThread th with indexPort := p }).setFile sock (some p)) .relocking p rfl
    exact ⟨(hport.trans (samePlaces_setFile _ _)).trans hset, hfile, ⟨p, rfl⟩, _, hget,
      ⟨SockPc.noConfusion, SockPc.noConfusion⟩, rfl, rfl⟩
  · -- It is bound to the port that has been asked for.
    obtain ⟨hset, hget⟩ := hthread ((s.sendPipeMsg th .ok).setFile sock (some p)) th.proto.waits
      p rfl
    exact ⟨((samePlaces_sendPipeMsg _ _).trans (samePlaces_setFile _ _)).trans hset, hfile,
      ⟨p, rfl⟩, _, hget, hasSock_waits rfl, rfl, rfl⟩

/-- `socketClose` is set, and nothing else changes. -/
theorem takeSocket_samePlaces (ht : s.threads[t]? = some th)
    (hslot : (s.slot th.session th.slot).isSome) (sock : ℕ) :
    SamePlaces (some (th.session, th.slot)) s (s.takeSocket t th sock) ∧
      (s.takeSocket t th sock).files = s.files ∧
      ∃ slot, (s.takeSocket t th sock).slot th.session th.slot = some slot ∧
        slot.socketClose = sock := by
  obtain ⟨slot, hslot'⟩ := Option.isSome_iff_exists.1 hslot
  refine ⟨?_, rfl, _, (slot_setSlot hslot _ _ _).trans (if_pos ⟨rfl, rfl⟩), rfl⟩
  refine .trans (.trans (samePlaces_setShared _ _ _) (samePlaces_setSlot hslot' ?_))
    (samePlaces_setThread ht ⟨rfl, rfl⟩ fun _ => ⟨⟨nofun, nofun⟩, rfl⟩)
  exact fun h => absurd rfl h

/-! ### Steps that close descriptors -/

/-- A descriptor is closed, if there is one. -/
def closeFile (files : ℕ → Option UInt16) : Option ℕ → ℕ → Option UInt16
  | some fd => Function.update files fd none
  | none => files

theorem endingSlot_eq_some (hss : s.sessions[j]? = some ss)
    (hphase : ss.phase = .closing k ∨ ss.phase = .collecting k ∨ ss.phase = .sweeping k)
    (hk : ss.slots[k]? = some slot) : s.endingSlot j = some (k, slot) := by
  rw [endingSlot, hss, Option.bind_some]
  rcases hphase with hphase | hphase | hphase <;> rw [hphase] <;>
    exact congrArg (Option.map _) hk

theorem release_files {p : SharedProto} (hp : sharedProto? slot.l4Proto = some p)
    (h : s.release p slot.indexPort = some s') :
    s'.files = closeFile s.files (s.lastSocket slot) ∧ s'.sessions = s.sessions ∧
      s'.threads = s.threads := by
  rw [lastSocket, hp, Option.bind_some]
  obtain ⟨-, ⟨hzero, rfl⟩ | ⟨hne, rfl⟩⟩ := release_eq_some h
  · rw [if_pos hzero]
    exact ⟨rfl, rfl, rfl⟩
  · rw [if_neg hne]
    exact ⟨rfl, rfl, rfl⟩

/-- A slot is freed: it keeps the number that has been closed. -/
theorem freeFlow_samePlaces {v : SockSlot} (hslot : s.slot j k = some slot)
    (hv : x ≠ some (j, k) → v.socketClose = slot.socketClose) :
    SamePlaces x s (s.freeFlow j k v) ∧ (s.freeFlow j k v).files =
      closeFile s.files (if 0 < v.socketClose then some v.socketClose else none) := by
  have hfree (u : Multiport) (hu : u.slot j k = some slot) :
      SamePlaces x u (((u.setSlot j k { v with flowId := noFlow }).endThread v.hThr).setPhase
        j .idle) := by
    have hset : SamePlaces x u (u.setSlot j k { v with flowId := noFlow }) :=
      samePlaces_setSlot hu hv
    exact hset.trans ((samePlaces_endThread _).trans (samePlaces_setPhase _ _))
  rw [freeFlow]
  split_ifs
  · exact ⟨(samePlaces_setFile _ _).trans (hfree _ hslot), rfl⟩
  · exact ⟨hfree s hslot, rfl⟩

theorem giveBack_samePlaces (hss : s.sessions[j]? = some ss) (h : s.giveBack j ss = some s') :
    ∃ k slot, s.endingSlot j = some (k, slot) ∧ s.slot j k = some slot ∧
      if sharedProto? slot.l4Proto = some .udp then
        SamePlaces (some (j, k)) s s' ∧ s'.files = closeFile s.files (s.lastSocket slot)
      else SamePlaces none s s' ∧ s'.files = closeFile (closeFile s.files (s.lastSocket slot))
        (if 0 < slot.socketClose then some slot.socketClose else none) := by
  obtain ⟨k, slot, hphase, hk, h⟩ := giveBack_eq_some h
  have hslot := slot_eq_some.2 ⟨ss, hss, hk⟩
  refine ⟨k, slot, endingSlot_eq_some hss (.inl hphase) hk, hslot, ?_⟩
  obtain ⟨p, u, hp, hu, rfl⟩ | ⟨hnone, rfl⟩ := h
  · obtain ⟨hfiles, hsessions, hthreads⟩ := release_files hp hu
    have hsame {x : Option (ℕ × ℕ)} : SamePlaces x s u :=
      samePlaces_of_eq (fun j k => by rw [Multiport.slot, hsessions, Multiport.slot]) hthreads
    have hslot' : u.slot j k = some slot := by rw [Multiport.slot, hsessions]; exact hslot
    rw [hp, ← hfiles]
    by_cases hudp : p = .udp
    · subst hudp
      obtain ⟨hfree, hfiles⟩ := freeFlow_samePlaces (x := some (j, k))
        (v := { slot with socketClose := 0 }) hslot' fun h => absurd rfl h
      rw [if_pos rfl]
      exact ⟨hsame.trans hfree, hfiles⟩
    · -- On TCP `socketClose` is closed as well, but not reset.
      obtain ⟨hfree, hfiles⟩ := freeFlow_samePlaces (x := none) (v := slot) hslot' fun _ => rfl
      rw [if_neg fun h => hudp (Option.some.inj h), if_neg hudp]
      exact ⟨hsame.trans hfree, hfiles⟩
  · -- There is no entry on ICMP.
    rw [hnone, if_neg (Option.some_ne_none _).symm]
    obtain ⟨hsame, hfiles⟩ := freeFlow_samePlaces hslot fun _ => rfl
    have hlast : s.lastSocket slot = none := by rw [lastSocket, hnone]; rfl
    rw [hlast]
    exact ⟨hsame, hfiles⟩

theorem sweep_samePlaces (hss : s.sessions[j]? = some ss) (h : s.sweep j ss = some s') :
    ∃ k slot, s.endingSlot j = some (k, slot) ∧ SamePlaces x s s' ∧
      s'.files = closeFile s.files (s.unusedSocket slot) := by
  rw [sweep] at h
  split at h
  · next i hphase =>
    obtain ⟨slot, hslot, h⟩ := Option.bind_eq_some_iff.1 h
    refine ⟨i, slot, endingSlot_eq_some hss (.inr (.inr hphase)) hslot, ?_⟩
    rw [unusedSocket]
    split at h
    · next p hp =>
      rw [hp, Option.bind_some]
      dsimp only at h
      split_ifs at h ⊢ with hmutex hzero
      · cases h
        exact ⟨(samePlaces_setFile _ _).trans
          ((samePlaces_setShared _ _ _).trans (samePlaces_setPhase _ _)), rfl⟩
      · cases h
        exact ⟨samePlaces_setPhase _ _, rfl⟩
    · next hp =>
      cases h
      rw [hp]
      exact ⟨samePlaces_setPhase _ _, rfl⟩
  · cases h

end Multiport

/-! ## The invariant -/

namespace Descriptors

/-- A holder has a descriptor, in a session. -/
def Has (s : Descriptors) : FdHolder → ℕ → ℕ → Prop
  | .slot j' k, j, fd => j' = j ∧ ∃ slot, s.sys.slot j k = some slot ∧ slot.socketClose = fd
  | .thread t, j, fd => ∃ th, s.sys.threads[t]? = some th ∧ th.hasSock ∧ th.session = j ∧
      th.sock = fd
  | .ownThread t, j, fd => ∃ th, s.ownThreads[t]? = some th ∧ th.session = j ∧ th.sock = some fd

/-- What is kept is where it should be, and open, and what has been closed was kept. -/
structure FdInv (s : Descriptors) : Prop where
  homed : s.sys.Homed
  sound : s.book.Sound
  has : ∀ c ∈ s.book.kept, s.Has c.holder c.opener.session c.handle
  file : ∀ n, (s.book.owner n).isSome → (s.sys.files n).isSome
  right : s.ClosesOwn

/-- The threads with sockets of their own keep them. -/
def SameOwn (l l' : List OwnThread) : Prop :=
  ∀ (t : ℕ) (th : OwnThread), l[t]? = some th → th.sock.isSome →
    ∃ th', l'[t]? = some th' ∧ th'.session = th.session ∧ th'.sock = th.sock

theorem sameOwn_refl (l : List OwnThread) : SameOwn l l := fun _ th ht _ => ⟨th, ht, rfl, rfl⟩

theorem sameOwn_append (l l' : List OwnThread) : SameOwn l (l ++ l') := by
  intro t th ht _
  obtain ⟨hlt, -⟩ := List.getElem?_eq_some_iff.1 ht
  exact ⟨th, (List.getElem?_append_left hlt).trans ht, rfl, rfl⟩

theorem sameOwn_set {l : List OwnThread} {t : ℕ} {th th' : OwnThread} (ht : l[t]? = some th)
    (h : th.sock.isSome → th'.session = th.session ∧ th'.sock = th.sock) :
    SameOwn l (l.set t th') := by
  intro t₁ th₁ ht₁ hsock
  by_cases htt : t = t₁
  · subst htt
    obtain ⟨hlt, -⟩ := List.getElem?_eq_some_iff.1 ht
    obtain rfl := Option.some.inj (ht.symm.trans ht₁)
    exact ⟨th', List.getElem?_set_self hlt, h hsock⟩
  · exact ⟨th₁, (List.getElem?_set_ne htt).trans ht₁, rfl, rfl⟩

variable {e : Endian} {passiveMode : Bool} {s s' : Descriptors} {sys : Multiport} {j k n : ℕ}
  {x : Option (ℕ × ℕ)}

theorem Has.of_same (hsys : s.sys.SamePlaces x s'.sys) (hown : SameOwn s.ownThreads s'.ownThreads)
    {y : FdHolder} (hy : ∀ j k, x = some (j, k) → y ≠ .slot j k) (h : s.Has y j n) :
    s'.Has y j n := by
  cases y with
  | slot j' k =>
    obtain ⟨rfl, slot, hslot, rfl⟩ := h
    obtain ⟨slot', hslot', heq⟩ := hsys.slots _ _ _ (fun hx => hy _ _ hx rfl) hslot
    exact ⟨rfl, slot', hslot', heq⟩
  | thread t =>
    obtain ⟨th, ht, hsock, rfl, rfl⟩ := h
    exact hsys.threads t th ht hsock
  | ownThread t =>
    obtain ⟨th, ht, rfl, hsock⟩ := h
    obtain ⟨th', ht', hsession, heq⟩ := hown t th ht (by rw [hsock]; rfl)
    exact ⟨th', ht', hsession, heq.trans hsock⟩

/-- A step that changes at most the socket in one slot: what is kept after it was kept before,
    or is where it should be. -/
theorem FdInv.of (h : s.FdInv) (hsys : s.sys.SamePlaces x s'.sys)
    (hown : SameOwn s.ownThreads s'.ownThreads) (hsound : s'.book.Sound)
    (hkept : ∀ c ∈ s'.book.kept, (c ∈ s.book.kept ∧ ∀ j k, x = some (j, k) → c.holder ≠ .slot j k) ∨
      s'.Has c.holder c.opener.session c.handle)
    (hfile : ∀ n, (s'.book.owner n).isSome → (s'.sys.files n).isSome) (hright : s'.ClosesOwn) :
    s'.FdInv where
  homed := hsys.homed h.homed
  sound := hsound
  has c hc := by
    obtain ⟨hc, hne⟩ | hhas := hkept c hc
    · exact (h.has c hc).of_same hsys hown hne
    · exact hhas
  file := hfile
  right := hright

/-- A step that leaves the record as it is. -/
theorem FdInv.quiet (h : s.FdInv) (hsys : s.sys.SamePlaces none s'.sys)
    (hfiles : ∀ n, (s.book.owner n).isSome → (s.sys.files n).isSome → (s'.sys.files n).isSome)
    (hown : SameOwn s.ownThreads s'.ownThreads) (hbook : s'.book = s.book)
    (hclosings : s'.closings = s.closings) : s'.FdInv := by
  refine h.of hsys hown (hbook ▸ h.sound) (fun c hc => .inl ⟨hbook ▸ hc, nofun⟩) ?_ ?_
  · intro n hn
    rw [hbook] at hn
    exact hfiles n hn (h.file n hn)
  · rw [ClosesOwn, hclosings]
    exact h.right

/-! ### Sessions -/

/-- The descriptors that are known to be open are, when one of them is closed. -/
theorem file_free {b : Ownership FdHolder ℕ Opener} {files : ℕ → Option UInt16}
    (h : ∀ n, (b.owner n).isSome → (files n).isSome) (fd n : ℕ)
    (hn : ((b.free fd).owner n).isSome) : (Function.update files fd none n).isSome := by
  change (Function.update b.owner fd none n).isSome at hn
  by_cases heq : n = fd
  · rw [heq, Function.update_self] at hn
    exact absurd hn Bool.noConfusion
  · rw [Function.update_of_ne heq] at hn ⊢
    exact h n hn

/-- `socketClose` is closed, which is kept in its slot. -/
theorem FdInv.closeSocket (h : s.FdInv) {slot : SockSlot} (hslot : s.sys.slot j k = some slot)
    (hkeeps : s.book.Keeps (.slot j k)) (hsys : s.sys.SamePlaces none sys)
    (hfiles : sys.files = Function.update s.sys.files slot.socketClose none) :
    FdInv { s.closeSocket j k slot.socketClose with sys := sys } := by
  obtain ⟨c, hc, hholder⟩ := hkeeps
  have hhas := h.has c hc
  rw [hholder] at hhas
  obtain ⟨hsession, slot', hslot', hhandle⟩ := hhas
  rw [← hsession, hslot] at hslot'
  cases hslot'
  refine h.of hsys (sameOwn_refl _) ?_ (fun d hd => .inl ⟨(Ownership.mem_drop.1 hd).1, nofun⟩)
    (fun n hn => ?_) ?_
  · have hclose := h.sound.close hc
    rw [hholder, ← hhandle] at hclose
    exact hclose
  · rw [hfiles]
    exact file_free h.file _ n hn
  · -- The descriptor that is closed is the one that has been kept.
    refine List.forall_mem_append.2 ⟨h.right, List.forall_mem_singleton.2 ⟨c.opener, ?_, ?_⟩⟩
    · rw [hhandle]
      exact h.sound.owner_eq c hc
    · exact hsession.symm

/-- The socket of an entry is closed, which no flow keeps. -/
theorem FdInv.closeEntry (h : s.FdInv) {fd : Option ℕ}
    (hfd : ∀ n ∈ fd, ∀ c ∈ s.book.kept, c.handle ≠ n) (hsys : s.sys.SamePlaces none sys)
    (hfiles : sys.files = Multiport.closeFile s.sys.files fd) :
    FdInv { s.closeEntry fd with sys := sys } := by
  rcases fd with _ | fd
  · exact h.quiet hsys (fun n _ hn => by rw [hfiles]; exact hn) (sameOwn_refl _) rfl rfl
  · refine h.of hsys (sameOwn_refl _) (h.sound.free (hfd fd rfl)) (fun c hc => .inl ⟨hc, nofun⟩)
      (fun n hn => ?_) h.right
    rw [hfiles]
    exact file_free h.file fd n hn

theorem FdInv.giveBack (h : s.FdInv) {ss : SockSession} (hss : s.sys.sessions[j]? = some ss)
    (hfresh : s.Fresh (.multiport (.session j .giveBack)))
    (hstep : s.sys.giveBack j ss = some sys) :
    FdInv { s.recordSession j .giveBack with sys := sys } := by
  obtain ⟨k, slot, hend, hslot, hplaces⟩ := Multiport.giveBack_samePlaces hss hstep
  obtain ⟨hkeeps, hlast⟩ := hfresh (k, slot) hend
  rw [recordSession, hend]
  change FdInv { s.giveBack j k slot with sys := sys }
  rw [Descriptors.giveBack]
  by_cases hudp : sharedProto? slot.l4Proto = some .udp
  · rw [if_pos hudp] at hplaces ⊢
    obtain ⟨hsys, hfiles⟩ := hplaces
    have hne (c : Kept FdHolder ℕ Opener) (hc : c ∈ (s.book.drop (.slot j k)).kept) (j' k' : ℕ)
        (hx : some (j, k) = some (j', k')) : c.holder ≠ .slot j' k' := by
      cases hx
      exact (Ownership.mem_drop.1 hc).2
    rcases hl : s.sys.lastSocket slot with _ | fd
    · rw [hl] at hfiles
      refine h.of hsys (sameOwn_refl _) (h.sound.drop _)
        (fun c hc => .inl ⟨(Ownership.mem_drop.1 hc).1, hne c hc⟩) (fun n hn => ?_) h.right
      rw [hfiles]
      exact h.file n hn
    · rw [hl] at hfiles
      refine h.of hsys (sameOwn_refl _) ((h.sound.drop _).free fun c hc heq => ?_)
        (fun c hc => .inl ⟨(Ownership.mem_drop.1 hc).1, hne c hc⟩) (fun n hn => ?_) h.right
      · obtain ⟨hc, hne⟩ := Ownership.mem_drop.1 hc
        exact hne (hlast fd hl c hc heq).2
      · rw [hfiles]
        exact file_free h.file fd n hn
  · rw [if_neg hudp] at hplaces ⊢
    obtain ⟨hsys, hfiles⟩ := hplaces
    -- The socket of the entry is closed before `socketClose`.
    let u : Multiport :=
      { s.sys with files := Multiport.closeFile s.sys.files (s.sys.lastSocket slot) }
    have hclosed : FdInv { s.closeEntry (s.sys.lastSocket slot) with sys := u } :=
      h.closeEntry (fun fd hfd c hc heq => hudp (hlast fd hfd c hc heq).1)
        (Multiport.samePlaces_of_eq (fun _ _ => rfl) rfl) rfl
    have hu : u.SamePlaces none s.sys := Multiport.samePlaces_of_eq (fun _ _ => rfl) rfl
    by_cases hpos : 0 < slot.socketClose
    · rw [if_pos hpos] at hfiles ⊢
      have hkept : (s.closeEntry (s.sys.lastSocket slot)).book.kept = s.book.kept := by
        rcases s.sys.lastSocket slot with _ | fd <;> rfl
      obtain ⟨c, hc, hholder⟩ := hkeeps hudp hpos
      exact hclosed.closeSocket hslot ⟨c, hkept ▸ hc, hholder⟩ (hu.trans hsys) hfiles
    · rw [if_neg hpos] at hfiles ⊢
      refine hclosed.quiet (hu.trans hsys) (fun n _ hn => ?_) (sameOwn_refl _) rfl rfl
      rw [hfiles]
      exact hn

theorem FdInv.sessionStep (h : s.FdInv) {ss : SockSession} (hss : s.sys.sessions[j]? = some ss)
    {a : SessionAction} (hfresh : s.Fresh (.multiport (.session j a)))
    (hstep : s.sys.sessionStep j ss a = some sys) :
    FdInv { s.recordSession j a with sys := sys } := by
  have hquiet (ha : a ≠ .giveBack ∧ a ≠ .collect ∧ a ≠ .sweep) : FdInv { s with sys := sys } := by
    obtain ⟨hsys, hfiles⟩ := Multiport.sessionStep_samePlaces hss ha hstep
    exact h.quiet hsys (fun n _ hn => by rw [hfiles]; exact hn) (sameOwn_refl _) rfl rfl
  cases a with
  | sendFlow l4Proto ptrPort flowId => exact hquiet ⟨nofun, nofun, nofun⟩
  | closed flowId => exact hquiet ⟨nofun, nofun, nofun⟩
  | giveBack => exact h.giveBack hss hfresh hstep
  | pipe => exact hquiet ⟨nofun, nofun, nofun⟩
  | leave => exact hquiet ⟨nofun, nofun, nofun⟩
  | collect =>
    obtain ⟨i, slot, hphase, hslot, rfl⟩ := Multiport.collect_eq_some hstep
    have hend := Multiport.endingSlot_eq_some hss (.inr (.inl hphase)) hslot
    rw [recordSession, hend]
    exact h.closeSocket (Multiport.slot_eq_some.2 ⟨ss, hss, hslot⟩) (hfresh _ hend)
      ((Multiport.samePlaces_setFile _ _).trans (Multiport.samePlaces_setPhase _ _)) rfl
  | sweep =>
    obtain ⟨i, slot, hend, hsys, hfiles⟩ := Multiport.sweep_samePlaces hss hstep
    rw [recordSession, hend]
    exact h.closeEntry (hfresh _ hend) hsys hfiles

/-! ### Threads -/

/-- A descriptor that the system gives is not open, nor kept. -/
theorem FdInv.owner_eq_none (h : s.FdInv) {fd : ℕ} (hfile : s.sys.files fd = none) :
    s.book.owner fd = none := by
  rw [← Option.not_isSome_iff_eq_none]
  intro howner
  have hsome := h.file fd howner
  rw [hfile] at hsome
  exact absurd hsome Bool.noConfusion

/-- The descriptors that are known to be open are, when one is opened. -/
theorem file_take {b : Ownership FdHolder ℕ Opener} {files : ℕ → Option UInt16}
    (h : ∀ n, (b.owner n).isSome → (files n).isSome) {fd n : ℕ} {o : Opener} {port : UInt16}
    (hn : ((b.take fd o).owner n).isSome) : (Function.update files fd (some port) n).isSome := by
  change (Function.update b.owner fd (some o) n).isSome at hn
  by_cases heq : n = fd
  · rw [heq, Function.update_self]
    rfl
  · rw [Function.update_of_ne heq] at hn ⊢
    exact h n hn

/-- A descriptor is opened, which is kept from now on. -/
theorem FdInv.openKept (h : s.FdInv) {fd : ℕ} (hfd : s.sys.files fd = none) {y : FdHolder}
    {o : Opener} {port : UInt16} (hy : ∀ j k, x = some (j, k) → y = .slot j k)
    (hsys : s.sys.SamePlaces x s'.sys)
    (hfiles : s'.sys.files = Function.update s.sys.files fd (some port))
    (hown : SameOwn s.ownThreads s'.ownThreads) (hclosings : s'.closings = s.closings)
    (hbook : s'.book = (s.book.take fd o).keep y fd o) (hhas : s'.Has y o.session fd) :
    s'.FdInv := by
  have howner := h.owner_eq_none hfd
  refine h.of hsys hown ?_ (fun c hc => ?_) (fun n hn => ?_) ?_
  · rw [hbook]
    exact (h.sound.take howner o).keep (fun c hc => h.sound.handle_ne howner hc)
      (Function.update_self ..) y
  · rw [hbook] at hc
    rcases Ownership.mem_keep.1 hc with rfl | ⟨hc, hne⟩
    · exact .inr hhas
    · exact .inl ⟨hc, fun j k hx => hy j k hx ▸ hne⟩
  · rw [hbook] at hn
    rw [hfiles]
    exact file_take h.file hn
  · rw [ClosesOwn, hclosings]
    exact h.right

/-- What a thread keeps is passed to its slot, as `socketClose`. -/
theorem FdInv.passKept (h : s.FdInv) {y : FdHolder} {sock : ℕ}
    (hy : ∀ j' n, s.Has y j' n → j' = j ∧ n = sock) (hsys : s.sys.SamePlaces (some (j, k)) s'.sys)
    (hslot : ∃ slot, s'.sys.slot j k = some slot ∧ slot.socketClose = sock)
    (hfiles : s'.sys.files = s.sys.files) (hown : SameOwn s.ownThreads s'.ownThreads)
    (hbook : s'.book = s.book.pass y (.slot j k)) (hclosings : s'.closings = s.closings) :
    s'.FdInv := by
  refine h.of hsys hown (hbook ▸ h.sound.pass _ _) (fun c hc => ?_) (fun n hn => ?_) ?_
  · rw [hbook] at hc
    rcases Ownership.mem_pass.1 hc with ⟨d, hd, rfl, rfl⟩ | ⟨hc, -, hne⟩
    · obtain ⟨hsession, hhandle⟩ := hy _ _ (h.has d hd)
      obtain ⟨slot, hslot, rfl⟩ := hslot
      exact .inr ⟨hsession.symm, slot, hsession ▸ hslot, hhandle.symm⟩
    · refine .inl ⟨hc, fun j' k' hx => ?_⟩
      cases hx
      exact hne
  · rw [hbook] at hn
    rw [hfiles]
    exact h.file n hn
  · rw [ClosesOwn, hclosings]
    exact h.right

theorem FdInv.threadStep (h : s.FdInv) {t : ℕ} {th : SockThread} (ht : s.sys.threads[t]? = some th)
    {a : ThreadAction} (hstep : s.sys.threadStep e t th a = some sys) :
    FdInv { s.recordThread t th a with sys := sys } := by
  have hhome := h.homed th (List.mem_of_getElem? ht)
  have hquiet (ha : (∀ sock port, a ≠ .openSock sock port) ∧ (∀ newSock, a ≠ .accept newSock) ∧
      a ≠ .count) : FdInv { s with sys := sys } := by
    obtain ⟨hsys, hfiles⟩ := Multiport.threadStep_samePlaces ht ha hstep
    exact h.quiet hsys (fun n _ hn => by rw [hfiles]; exact hn) (sameOwn_refl _) rfl rfl
  cases a with
  | lock => exact hquiet ⟨nofun, nofun, nofun⟩
  | openSock sock port =>
    obtain ⟨hsys, hfile, ⟨p, hfiles⟩, th', hth', hsock, hsession, hvar⟩ :=
      Multiport.openSock_samePlaces (x := none) ht hhome hstep
    rw [recordThread]
    dsimp only
    split_ifs
    · exact h.openKept (x := none) hfile (y := .thread t) nofun hsys hfiles (sameOwn_refl _) rfl rfl
        ⟨th', hth', hsock, hsession, hvar⟩
    · -- A socket that is not kept.
      refine h.of hsys (sameOwn_refl _) (h.sound.take (h.owner_eq_none hfile) _)
        (fun c hc => .inl ⟨hc, nofun⟩) (fun n hn => ?_) h.right
      rw [hfiles]
      exact file_take h.file hn
  | join => exact hquiet ⟨nofun, nofun, nofun⟩
  | relock => exact hquiet ⟨nofun, nofun, nofun⟩
  | accept newSock =>
    obtain ⟨-, -, hfile, rfl⟩ := Multiport.accept_eq_some hstep
    -- The connection is in the slot at once.
    obtain ⟨hsys, hfiles, hslot⟩ := Multiport.takeSocket_samePlaces ht hhome newSock
    refine h.openKept hfile (y := .slot th.session th.slot) (fun j k hx => ?_)
      (hsys.trans (Multiport.samePlaces_setFile _ _)) rfl (sameOwn_refl _) rfl rfl ⟨rfl, hslot⟩
    cases hx
    rfl
  | count =>
    obtain ⟨-, rfl⟩ := Multiport.count_eq_some hstep
    -- The socket of the entry goes from the thread to its slot.
    obtain ⟨hsys, hfiles, hslot⟩ := Multiport.takeSocket_samePlaces ht hhome th.sock
    refine h.passKept (y := .thread t) (fun j' n hhas => ?_) hsys hslot hfiles
      (sameOwn_refl _) rfl rfl
    obtain ⟨th', ht', -, rfl, rfl⟩ := hhas
    obtain rfl := Option.some.inj (ht.symm.trans ht')
    exact ⟨rfl, rfl⟩
  | recvError => exact hquiet ⟨nofun, nofun, nofun⟩
  | recvEnd => exact hquiet ⟨nofun, nofun, nofun⟩
  | stop => exact hquiet ⟨nofun, nofun, nofun⟩

/-! ### Threads with sockets of their own -/

theorem FdInv.ownSocket (h : s.FdInv) {t sock : ℕ} {th : OwnThread}
    (ht : s.ownThreads[t]? = some th) (hstep : s.ownSocket t sock th = some s') : s'.FdInv := by
  rw [Descriptors.ownSocket] at hstep
  split_ifs at hstep with hguard
  rw [not_or, Option.not_isSome_iff_eq_none, Option.not_isSome_iff_eq_none] at hguard
  obtain ⟨hlt, -⟩ := List.getElem?_eq_some_iff.1 ht
  cases hstep
  refine h.openKept (x := none) hguard.2 (y := .ownThread t) nofun
    (Multiport.samePlaces_setFile _ _) rfl (sameOwn_set ht fun hsock => ?_) rfl rfl
    ⟨_, List.getElem?_set_self hlt, rfl, rfl⟩
  rw [hguard.1] at hsock
  exact absurd hsock Bool.noConfusion

theorem FdInv.ownTake (h : s.FdInv) {t : ℕ} {th : OwnThread} (ht : s.ownThreads[t]? = some th)
    (hstep : s.ownTake t th = some s') : s'.FdInv := by
  rw [Descriptors.ownTake] at hstep
  split_ifs at hstep with htaken
  obtain ⟨sock, hsock, hstep⟩ := Option.bind_eq_some_iff.1 hstep
  obtain ⟨slot, hslot, rfl⟩ := Option.map_eq_some_iff.1 hstep
  refine h.passKept (y := .ownThread t) (fun j' n hhas => ?_)
    (Multiport.samePlaces_setSlot hslot fun hx => absurd rfl hx)
    ⟨_, (Multiport.slot_setSlot (by rw [hslot]; rfl) _ _ _).trans (if_pos ⟨rfl, rfl⟩), rfl⟩ rfl
    (sameOwn_set ht fun _ => ⟨rfl, rfl⟩) rfl rfl
  obtain ⟨th', ht', rfl, hsock'⟩ := hhas
  obtain rfl := Option.some.inj (ht.symm.trans ht')
  exact ⟨rfl, Option.some.inj (hsock'.symm.trans hsock)⟩

theorem FdInv.ackSendFlow (h : s.FdInv) {flowId : UInt32}
    (hstep : s.ackSendFlow passiveMode j flowId = some s') : s'.FdInv := by
  obtain ⟨ss, hss, hstep⟩ := Option.bind_eq_some_iff.1 hstep
  split at hstep
  · cases hstep
  · split at hstep
    · next k hk =>
      obtain ⟨slot, hslot, rfl⟩ := Option.map_eq_some_iff.1 hstep
      split
      · next p hp =>
        split_ifs
        · exact h.quiet (Multiport.samePlaces_of_eq (fun _ _ => rfl) rfl) (fun _ _ hn => hn)
            (sameOwn_append _ _) rfl rfl
        · exact h.quiet (Multiport.samePlaces_createThread
            (v := { slot with hThr := some s.sys.threads.length })
            (Multiport.slot_eq_some.2 ⟨ss, hss, hslot⟩) rfl p) (fun _ _ hn => hn)
            (sameOwn_refl _) rfl rfl
      · exact h
    · cases hstep
      exact h

/-! ### All steps -/

/-- A request for a flow: its thread may be one with a socket of its own. -/
theorem FdInv.sendFlow (h : s.FdInv) (hsys : s.sys.SamePlaces none sys)
    (hfiles : sys.files = s.sys.files) (l4Proto : UInt8) (ptrPort : UInt16) (flowId : UInt32) :
    FdInv { s.record passiveMode (.session j (.sendFlow l4Proto ptrPort flowId)) with
      sys := sys } := by
  rw [record]
  split_ifs
  · exact h.quiet hsys (fun n _ hn => by rw [hfiles]; exact hn) (sameOwn_refl _) rfl rfl
  · exact h.quiet hsys (fun n _ hn => by rw [hfiles]; exact hn) (sameOwn_append _ _) rfl rfl

theorem FdInv.multiportStep (h : s.FdInv) {a : MultiportAction} (hfresh : s.Fresh (.multiport a))
    (hstep : s.sys.step e a = some sys) : FdInv { s.record passiveMode a with sys := sys } := by
  cases a with
  | connect =>
    cases hstep
    exact h.quiet Multiport.samePlaces_connect (fun _ _ hn => hn) (sameOwn_refl _) rfl rfl
  | session j a =>
    obtain ⟨ss, hss, hstep⟩ := Option.bind_eq_some_iff.1 hstep
    cases a with
    | sendFlow l4Proto ptrPort flowId =>
      have hsend : SessionAction.sendFlow l4Proto ptrPort flowId ≠ .giveBack ∧
          SessionAction.sendFlow l4Proto ptrPort flowId ≠ .collect ∧
          SessionAction.sendFlow l4Proto ptrPort flowId ≠ .sweep := ⟨nofun, nofun, nofun⟩
      obtain ⟨hsys, hfiles⟩ := Multiport.sessionStep_samePlaces hss hsend hstep
      exact h.sendFlow hsys hfiles l4Proto ptrPort flowId
    | closed flowId => exact h.sessionStep hss hfresh hstep
    | giveBack => exact h.sessionStep hss hfresh hstep
    | pipe => exact h.sessionStep hss hfresh hstep
    | leave => exact h.sessionStep hss hfresh hstep
    | collect => exact h.sessionStep hss hfresh hstep
    | sweep => exact h.sessionStep hss hfresh hstep
  | thread t a =>
    obtain ⟨th, ht, hstep⟩ := Option.bind_eq_some_iff.1 hstep
    rw [record, ht]
    exact h.threadStep ht hstep

theorem FdInv.passiveStep (h : s.FdInv) {a : MultiportAction} (hfresh : s.Fresh (.multiport a))
    (hstep : s.sys.passiveStep e a = some sys) :
    FdInv { s.record passiveMode a with sys := sys } := by
  unfold Multiport.passiveStep at hstep
  split at hstep
  · split_ifs at hstep
    cases hstep
    exact h.quiet Multiport.samePlaces_connect (fun _ _ hn => hn) (sameOwn_refl _) rfl rfl
  · next j l4Proto ptrPort flowId =>
    obtain ⟨ss, hss, hstep⟩ := Option.bind_eq_some_iff.1 hstep
    rw [Multiport.passiveFlow] at hstep
    split_ifs at hstep
    obtain ⟨k, -, hstep⟩ := Option.bind_eq_some_iff.1 hstep
    obtain ⟨slot, hslot, rfl⟩ := Option.map_eq_some_iff.1 hstep
    exact h.sendFlow (Multiport.samePlaces_setSlot
      (v := ⟨flowId, l4Proto, ptrPort, slot.socketClose, slot.hThr⟩)
      (Multiport.slot_eq_some.2 ⟨ss, hss, hslot⟩) fun _ => rfl) rfl l4Proto ptrPort flowId
  · exact h.multiportStep hfresh hstep

theorem FdInv.step (h : s.FdInv) {a : FdAction} (hfresh : s.Fresh a)
    (hstep : s.step e passiveMode a = some s') : s'.FdInv := by
  cases a with
  | multiport a =>
    obtain ⟨sys, hsys, rfl⟩ := Option.map_eq_some_iff.1 hstep
    split_ifs at hsys
    · exact h.passiveStep hfresh hsys
    · exact h.multiportStep hfresh hsys
  | ackSendFlow j flowId => exact h.ackSendFlow hstep
  | ownSocket t sock =>
    obtain ⟨th, ht, hstep⟩ := Option.bind_eq_some_iff.1 hstep
    exact h.ownSocket ht hstep
  | ownTake t =>
    obtain ⟨th, ht, hstep⟩ := Option.bind_eq_some_iff.1 hstep
    exact h.ownTake ht hstep
  | openOther fd =>
    rw [Descriptors.step] at hstep
    split_ifs at hstep
    cases hstep
    refine h.quiet (Multiport.samePlaces_setFile _ _) (fun n _ hn => ?_) (sameOwn_refl _) rfl rfl
    change (Function.update s.sys.files fd (some 0) n).isSome
    rw [Function.update_apply]
    split_ifs
    · rfl
    · exact hn
  | closeOther fd =>
    rw [Descriptors.step] at hstep
    split_ifs at hstep with hguard
    cases hstep
    refine h.quiet (Multiport.samePlaces_setFile _ _) (fun n howner hn => ?_) (sameOwn_refl _)
      rfl rfl
    -- The descriptor that is closed is not one of a flow.
    have hne : n ≠ fd := by
      rintro rfl
      rw [hguard.2] at howner
      exact absurd howner Bool.noConfusion
    change (Function.update s.sys.files fd none n).isSome
    rwa [Function.update_of_ne hne]

theorem fdInv_start (files : ℕ → Option UInt16) : (Descriptors.start files).FdInv where
  homed := nofun
  sound := Ownership.sound_new
  has := nofun
  file _ hn := absurd hn Bool.noConfusion
  right := nofun

end Descriptors

/-! ## Main theorem -/

/-- Sessions close what their own flows have opened, and not closed before, in a run in which
    they close the slots of flows, at the latest at their end, while these have the sockets. -/
theorem closes_own (e : Endian) (passiveMode : Bool) {s : Descriptors}
    (h : (descriptors e passiveMode).ReachVia Descriptors.Fresh s) : s.ClosesOwn := by
  have hinv : s.FdInv := by
    refine h.invariant ?_ fun s a s' hs hfresh hstep => hs.step hfresh hstep
    rintro s ⟨files, n, -, rfl⟩
    exact Descriptors.fdInv_start files
  exact hinv.right

/-- A flow on TCP of a session gets a connection, with the descriptor 6. -/
def connectFlow (j t : ℕ) (port : UInt16) : List FdAction :=
  [.multiport (.session j (.sendFlow l4ProtoTCP port 1)), .multiport (.thread t .lock),
    .multiport (.thread t (.openSock 5 (some (ntohs .little port)))),
    .multiport (.thread t (.accept 6))]

/-- It is closed. -/
def closeFlow (j : ℕ) : List FdAction :=
  [.multiport (.session j (.closed 1)), .multiport (.session j .giveBack)]

/-- Two sessions, one after the other, have a flow. -/
def flowAfterFlow : List FdAction :=
  [.multiport .connect, .multiport .connect] ++ connectFlow 0 0 80 ++ closeFlow 0 ++
    connectFlow 1 1 81

theorem init_start : (descriptors .little false).init (.start Multiport.stdFiles) :=
  ⟨Multiport.stdFiles, 3, fun _ hfd => if_neg (Nat.not_lt.2 hfd), rfl⟩

theorem closes_own_reused : ∃ s, (descriptors .little false).run (.start Multiport.stdFiles)
      (flowAfterFlow ++ closeFlow 1) = some s ∧
    s.closings.map (fun c => (c.session, c.fd)) = [(0, 6), (1, 6)] ∧ s.ClosesOwn := by
  have hrun : ((descriptors .little false).run (.start Multiport.stdFiles)
      (flowAfterFlow ++ closeFlow 1)).map (fun s => s.closings.map fun c => (c.session, c.fd)) =
        some [(0, 6), (1, 6)] := by decide +kernel
  obtain ⟨s, hs, hclosings⟩ := Option.map_eq_some_iff.1 hrun
  have hvia : (descriptors .little false).StepsVia Descriptors.Fresh (.start Multiport.stdFiles)
      (flowAfterFlow ++ closeFlow 1) := by decide +kernel
  exact ⟨s, hs, hclosings, closes_own .little false (.run (.init init_start) hvia hs)⟩

/-- The first session leaves when the second one has its flow, and closes the connection of that:
    the number 6 is still in its own slot. -/
theorem closes_other : ¬∀ s, (descriptors .little false).Reachable s → s.ClosesOwn := by
  intro h
  have hrun : ((descriptors .little false).run (.start Multiport.stdFiles)
      (flowAfterFlow ++ [.multiport (.session 0 .leave), .multiport (.session 0 .collect)])).map
        (·.closings) = some [⟨0, 6, some ⟨0, false, 0⟩⟩, ⟨0, 6, some ⟨1, false, 1⟩⟩] := by
    decide +kernel
  obtain ⟨s, hs, hclosings⟩ := Option.map_eq_some_iff.1 hrun
  have hmem : (⟨0, 6, some ⟨1, false, 1⟩⟩ : Closing) ∈ s.closings := by
    rw [hclosings]
    decide
  obtain ⟨o, ho, hsession⟩ := h s (.run (.init init_start) hs) _ hmem
  cases ho
  exact absurd hsession (by decide)

end Ditg
