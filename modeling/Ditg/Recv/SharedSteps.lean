import Ditg.Recv.SharedSocket

/-!
# What the steps of the receiver do to shared sockets

Said once for what is proved about the receiver's shared sockets: what every step does, and that
a thread which is to take its socket has its slot to itself.

* `Given`: a thread has a slot, which has it. `AllGiven.setThread`, `AllGiven.fill` and the like
  say that this stays so, as long as a request does not get the slot of such a thread.
-/

namespace Ditg

open Bytes

/-! ## Threads and slots -/

/-- A thread has locked the entry of its flow, which has the index `i`. -/
def SockThread.locks (th : SockThread) (i : UInt16) : Prop :=
  th.pc = .opening ∧ i ≠ 0 ∨ th.pc = .accepting ∨ th.pc = .counting

theorem SockThread.locks.inFlight {th : SockThread} {i : UInt16} (h : th.locks i) :
    th.pc.inFlight := by
  rcases h with ⟨hpc, -⟩ | hpc | hpc <;> rw [hpc] <;> rfl

theorem waits_cases (p : SharedProto) : p.waits = .accepting ∨ p.waits = .counting := by
  cases p
  · exact .inl rfl
  · exact .inr rfl

/-- What a slot is for its thread. -/
def SockSlot.core (slot : SockSlot) : UInt8 × UInt16 × Option ℕ :=
  (slot.l4Proto, slot.indexPort, slot.hThr)

namespace Multiport

/-- A thread that is to take its socket has a slot, which has it. -/
def Given (s : Multiport) (t : ℕ) (th : SockThread) : Prop :=
  th.took = none ∧ ∃ slot, s.slot th.session th.slot = some slot ∧ slot.hThr = some t ∧
    sharedProto? slot.l4Proto = some th.proto

/-- Every thread that is to take its socket has one. -/
def AllGiven (s : Multiport) : Prop :=
  ∀ t th, s.threads[t]? = some th → th.pc.inFlight → s.Given t th

/-- Two states have the same slots, as far as the threads are concerned. -/
def SameSlots (s s' : Multiport) : Prop :=
  ∀ j k, (s'.slot j k).map SockSlot.core = (s.slot j k).map SockSlot.core

/-- The thread of a slot has a property. -/
def OfThread (s : Multiport) (P : SockThread → Prop) (slot : SockSlot) : Prop :=
  ∃ th ∈ slot.hThr.bind (s.threads[·]?), P th

instance (s : Multiport) {P : SockThread → Prop} [DecidablePred P] (slot : SockSlot) :
    Decidable (s.OfThread P slot) :=
  inferInstanceAs (Decidable (∃ th ∈ slot.hThr.bind (s.threads[·]?), P th))

/-- A thread that has just been created for a slot. -/
def Created (s : Multiport) (j k : ℕ) (v : SockSlot) (th : SockThread) : Prop :=
  v.hThr = some s.threads.length ∧ sharedProto? v.l4Proto = some th.proto ∧
    th = ⟨th.proto, j, k, .start, 0, false, false, 0, none, false⟩

/-- The slot of a flow of a session. -/
def flowSlot (s : Multiport) (j : ℕ) (flowId : UInt32) : Option SockSlot :=
  s.sessions[j]?.bind fun ss => (ss.findFlow flowId).bind (ss.slots[·]?)

/-- The slot of the flow that the next message of the pipe ends. -/
def errorSlot (s : Multiport) (j : ℕ) : Option SockSlot :=
  s.sessions[j]?.bind fun ss => ss.rPipe.head?.bind fun (code, flowId) =>
    if code = .ok then none else s.flowSlot j flowId

/-- The slot that a session is about to give back, or to close. -/
def closingSlot (s : Multiport) (j : ℕ) : Option SockSlot :=
  s.sessions[j]?.bind fun ss => match ss.phase with
    | .closing k | .collecting k => ss.slots[k]?
    | _ => none

end Multiport

/-! ## What the steps do -/

/-- The counter holds what is within its range. -/
theorem short_eq {n : ℤ} (h : -2 ^ 15 ≤ n) (h' : n < 2 ^ 15) : short n = n := by
  rw [short]
  omega

namespace Multiport

variable {e : Endian} {s s' : Multiport} {t : ℕ} {th th' : SockThread} {j k : ℕ}
  {ss : SockSession} {slot : SockSlot} {p : SharedProto} {i : UInt16}

/-! ### Slots -/

theorem slot_eq_some : s.slot j k = some slot ↔
    ∃ ss, s.sessions[j]? = some ss ∧ ss.slots[k]? = some slot := by
  rw [Multiport.slot, Option.bind_eq_some_iff]

/-- What becomes of a session without its slots changes no slot. -/
theorem slot_modifySession (f : SockSession → SockSession) (hf : ∀ ss, (f ss).slots = ss.slots)
    (j j' k : ℕ) : (s.modifySession j f).slot j' k = s.slot j' k := by
  rw [Multiport.slot, modifySession, Multiport.slot]
  -- Only the session `j` is changed, and this one keeps its slots.
  by_cases hj : j = j'
  · subst hj
    rw [List.getElem?_modify_eq]
    rcases s.sessions[j]? with _ | ss
    · rfl
    · exact congrArg (·[k]?) (hf ss)
  · rw [List.getElem?_modify_ne _ _ hj]

@[simp] theorem slot_setPhase (phase : SockPhase) (j' k : ℕ) :
    (s.setPhase j phase).slot j' k = s.slot j' k :=
  slot_modifySession (fun ss => { ss with phase := phase }) (fun _ => rfl) j j' k

@[simp] theorem slot_sendPipeMsg (code : PipeCode) (j k : ℕ) :
    (s.sendPipeMsg th code).slot j k = s.slot j k :=
  slot_modifySession
    (fun ss => { ss with rPipe := ss.rPipe ++ [(code, (s.paraThread th).flowId)] })
    (fun _ => rfl) th.session j k

@[simp] theorem slot_setPipe (rPipe : List (PipeCode × UInt32)) (j j' k : ℕ) :
    (s.modifySession j fun ss => { ss with rPipe := rPipe }).slot j' k = s.slot j' k :=
  slot_modifySession (fun ss => { ss with rPipe := rPipe }) (fun _ => rfl) j j' k

theorem flowSlot_eq_some {flowId : UInt32} (hss : s.sessions[j]? = some ss)
    (hfind : ss.findFlow flowId = some k) (hk : ss.slots[k]? = some slot) :
    s.flowSlot j flowId = some slot := by
  rw [flowSlot, hss, Option.bind_some, hfind, Option.bind_some, hk]

theorem errorSlot_eq_some {code : PipeCode} {flowId : UInt32} {rPipe : List (PipeCode × UInt32)}
    (hss : s.sessions[j]? = some ss) (hpipe : ss.rPipe = (code, flowId) :: rPipe)
    (hcode : code ≠ .ok) (hfind : ss.findFlow flowId = some k) (hk : ss.slots[k]? = some slot) :
    s.errorSlot j = some slot := by
  rw [errorSlot, hss, Option.bind_some, hpipe, List.head?_cons, Option.bind_some]
  exact (if_neg hcode).trans (flowSlot_eq_some hss hfind hk)

theorem slot_setSlot (h : (s.slot j k).isSome) (v : SockSlot) (j' k' : ℕ) :
    (s.setSlot j k v).slot j' k' = if j' = j ∧ k' = k then some v else s.slot j' k' := by
  obtain ⟨slot, hslot⟩ := Option.isSome_iff_exists.1 h
  obtain ⟨ss, hss, hk⟩ := slot_eq_some.1 hslot
  obtain ⟨hlt, -⟩ := List.getElem?_eq_some_iff.1 hk
  rw [Multiport.slot, setSlot, modifySession, Multiport.slot]
  by_cases hj : j' = j
  · subst hj
    rw [List.getElem?_modify_eq, hss]
    by_cases hk' : k' = k
    · subst hk'
      rw [if_pos ⟨rfl, rfl⟩]
      exact List.getElem?_set_self hlt
    · rw [if_neg fun h => hk' h.2]
      exact List.getElem?_set_ne (Ne.symm hk')
  · rw [List.getElem?_modify_ne _ _ (Ne.symm hj), if_neg fun h => hj h.1]

/-- The slots of a new session have no threads. -/
theorem slot_connect (s : Multiport) (j k : ℕ) :
    s.connect.slot j k = s.slot j k ∨ s.slot j k = none ∧
      ∀ v, s.connect.slot j k = some v → v.hThr = none := by
  rcases Nat.lt_or_ge j s.sessions.length with hlt | hge
  · left
    rw [Multiport.slot, connect, List.getElem?_append_left hlt]
    rfl
  · right
    refine ⟨by rw [Multiport.slot, List.getElem?_eq_none hge]; rfl, fun v hv => ?_⟩
    obtain ⟨ss, hss, hk⟩ := slot_eq_some.1 hv
    have hstart : ss = .start := by
      rw [connect, List.getElem?_append_right hge] at hss
      exact List.mem_singleton.1 (List.mem_of_getElem? hss)
    rw [hstart] at hk
    rw [List.eq_of_mem_replicate (List.mem_of_getElem? hk)]
    rfl

theorem SameSlots.exists_slot (h : SameSlots s s') {slot : SockSlot}
    (hslot : s.slot j k = some slot) : ∃ slot', s'.slot j k = some slot' ∧
      slot'.l4Proto = slot.l4Proto ∧ slot'.indexPort = slot.indexPort ∧
      slot'.hThr = slot.hThr := by
  have hmap := h j k
  rw [hslot, Option.map_some, Option.map_eq_some_iff] at hmap
  obtain ⟨slot', hslot', hcore⟩ := hmap
  simp only [SockSlot.core, Prod.mk.injEq] at hcore
  exact ⟨slot', hslot', hcore⟩

theorem SameSlots.symm (h : SameSlots s s') : SameSlots s' s := fun j k => (h j k).symm

theorem SameSlots.indexPort_eq (h : SameSlots s s') (th : SockThread) :
    s'.indexPort th = s.indexPort th := by
  rw [indexPort, indexPort, paraThread, paraThread]
  rcases hslot : s.slot th.session th.slot with _ | slot
  · have hmap := h th.session th.slot
    rw [hslot, Option.map_none, Option.map_eq_none_iff] at hmap
    rw [hmap]
  · obtain ⟨slot', hslot', -, hindex, -⟩ := h.exists_slot hslot
    rw [hslot']
    exact hindex

theorem sameSlots_of_eq (h : ∀ j k, s'.slot j k = s.slot j k) : SameSlots s s' :=
  fun j k => by rw [h]

theorem sameSlots_setSlot {slot v : SockSlot} (hslot : s.slot j k = some slot)
    (hv : v.core = slot.core) : SameSlots s (s.setSlot j k v) := by
  intro j' k'
  rw [slot_setSlot (by rw [hslot]; rfl)]
  split_ifs with h
  · rw [h.1, h.2, hslot, Option.map_some, Option.map_some, hv]
  · rfl

theorem indexPort_setSlot (hslot : (s.slot j k).isSome) (v : SockSlot)
    (hne : ¬(th.session = j ∧ th.slot = k)) : (s.setSlot j k v).indexPort th = s.indexPort th := by
  rw [indexPort, indexPort, paraThread, paraThread, slot_setSlot hslot, if_neg hne]

/-! ### Threads -/

theorem getElem?_setThread (ht : s.threads[t]? = some th) (th' : SockThread) (t₁ : ℕ) :
    (s.setThread t th').threads[t₁]? = if t₁ = t then some th' else s.threads[t₁]? := by
  obtain ⟨hlt, -⟩ := List.getElem?_eq_some_iff.1 ht
  split_ifs with htt
  · rw [htt]
    exact List.getElem?_set_self hlt
  · exact List.getElem?_set_ne (Ne.symm htt)

theorem shared_setShared (v : SharedSocket) (p' : SharedProto) (i' : UInt16) :
    (s.setShared p i v).shared p' i' = if p' = p ∧ i' = i then v else s.shared p' i' := by
  rw [setShared]
  by_cases hp : p' = p
  · subst hp
    by_cases hi : i' = i
    · subst hi
      simp
    · simp [hi]
  · simp [hp]

/-- An entry that has been locked is otherwise as it was. -/
theorem shared_lockEntry (s : Multiport) (t : ℕ) (th : SockThread) (p : SharedProto) (i : UInt16) :
    ((s.lockEntry t th).shared p i).socket = (s.shared p i).socket ∧
      ((s.lockEntry t th).shared p i).inUse = (s.shared p i).inUse := by
  rw [Multiport.lockEntry, shared_setShared]
  split_ifs with hpi
  · rw [hpi.1, hpi.2]
    exact ⟨rfl, rfl⟩
  · exact ⟨rfl, rfl⟩

theorem entry_lockEntry (s : Multiport) (t : ℕ) (th : SockThread) :
    (s.lockEntry t th).entry th = { s.entry th with mutexSharedSockets := some t } :=
  (shared_setShared _ _ _).trans (if_pos ⟨rfl, rfl⟩)

theorem lock_eq_some (h : s.lock t th = some s') : th.pc = .start ∧
    (s.indexPort th = 0 ∧ s' = s.setThread t { th with pc := .opening } ∨
      s.indexPort th ≠ 0 ∧ (s.entry th).mutexSharedSockets = none ∧
        s' = (s.lockEntry t th).setThread t
          { th with
            pc := .opening
            sock := (s.entry th).socket
            socketAlreadyOpen := 0 < (s.entry th).socket
            port := (s.files (s.entry th).socket).getD 0 }) := by
  rw [lock] at h
  split_ifs at h with hpc hi hmutex
  · cases h
    exact ⟨not_not.1 hpc, .inl ⟨hi, rfl⟩⟩
  · cases h
    exact ⟨not_not.1 hpc, .inr ⟨hi, Option.not_isSome_iff_eq_none.1 hmutex, rfl⟩⟩

theorem openSock_eq_some {sock : ℕ} {port : Option UInt16}
    (h : s.openSock t th e sock port = some s') :
    th.pc = .opening ∧ th.socketAlreadyOpen = false ∧ s.files sock = none ∧
    (port = none ∧ s' = ((s.sendPipeMsg th .err1).setFile sock (some 0)).setThread t
        { th with pc := .asleep, sock := sock, port := 0 } ∨
      (∃ p, port = some p ∧ s.indexPort th = 0 ∧ p ≠ 0 ∧
        s' = ((s.setSlot th.session th.slot
          { s.paraThread th with indexPort := p }).setFile sock (some p)).setThread t
            { th with pc := .relocking, sock := sock, port := p }) ∨
      ∃ p, port = some p ∧ s.indexPort th ≠ 0 ∧ p = ntohs e (s.indexPort th) ∧
        s' = ((s.sendPipeMsg th .ok).setFile sock (some p)).setThread t
          { th with pc := th.proto.waits, sock := sock, port := p }) := by
  unfold openSock at h
  split at h
  · cases h
  · next hguard =>
    simp only [not_or, not_not, Bool.not_eq_true, Option.isSome_eq_false_iff,
      Option.isNone_iff_eq_none] at hguard
    obtain ⟨hpc, hopen, hfile⟩ := hguard
    refine ⟨hpc, hopen, hfile, ?_⟩
    rcases port with _ | p
    · cases h
      exact .inl ⟨rfl, rfl⟩
    · dsimp only at h
      split_ifs at h with hi hp hp'
      · cases h
        exact .inr (.inl ⟨p, rfl, hi, hp, rfl⟩)
      · cases h
        exact .inr (.inr ⟨p, rfl, hi, hp', rfl⟩)

theorem join_eq_some (h : s.join t th = some s') :
    th.pc = .opening ∧ th.socketAlreadyOpen = true ∧
      s' = (s.sendPipeMsg th .ok).setThread t { th with pc := th.proto.waits } := by
  rw [join] at h
  split_ifs at h with hguard
  cases h
  exact ⟨hguard.1, hguard.2, rfl⟩

theorem relock_eq_some (h : s.relock t th = some s') :
    th.pc = .relocking ∧ (s.entry th).mutexSharedSockets = none ∧
      s' = ((s.lockEntry t th).sendPipeMsg th .ok).setThread t
        { th with pc := th.proto.waits } := by
  rw [relock] at h
  split_ifs at h with hguard
  simp only [not_or, not_not, Option.not_isSome_iff_eq_none] at hguard
  cases h
  exact ⟨hguard.1, hguard.2, rfl⟩

theorem accept_eq_some {newSock : ℕ} (h : s.accept t th newSock = some s') :
    th.pc = .accepting ∧ th.cancelled = false ∧ s.files newSock = none ∧
      s' = (s.takeSocket t th newSock).setFile newSock (some th.port) := by
  rw [accept] at h
  split_ifs at h with hguard
  simp only [not_or, not_not, Bool.not_eq_true, Option.isSome_eq_false_iff,
    Option.isNone_iff_eq_none] at hguard
  cases h
  exact ⟨hguard.1, hguard.2.1, hguard.2.2, rfl⟩

theorem count_eq_some (h : s.count t th = some s') :
    th.pc = .counting ∧ s' = s.takeSocket t th th.sock := by
  rw [count] at h
  split_ifs at h with hpc
  cases h
  exact ⟨hpc, rfl⟩

/-- After it has taken its socket, a thread only falls asleep, and stops once it is cancelled. -/
theorem threadStep_parks {a : ThreadAction} (ha : a = .recvError ∨ a = .recvEnd ∨ a = .stop)
    (h : s.threadStep e t th a = some s') : ∃ u pc, (u = s ∨ u = s.sendPipeMsg th .errSock) ∧
      (pc = .asleep ∧ th.pc = .receiving ∨
        pc = .terminated ∧ th.cancelled = true ∧ th.pc.waiting = true) ∧
      s' = u.setThread t { th with pc := pc } := by
  rcases ha with rfl | rfl | rfl
  · rw [threadStep, recvError] at h
    split_ifs at h with hguard
    cases h
    exact ⟨_, .asleep, .inr rfl, .inl ⟨rfl, hguard.1⟩, rfl⟩
  · rw [threadStep, recvEnd] at h
    split_ifs at h with hguard
    cases h
    exact ⟨s, .asleep, .inl rfl, .inl ⟨rfl, hguard.1⟩, rfl⟩
  · rw [threadStep, stop] at h
    split_ifs at h with hguard
    cases h
    exact ⟨s, .terminated, .inl rfl, .inr ⟨rfl, hguard⟩, rfl⟩

/-! ### Sessions -/

theorem ofThread_iff {P : SockThread → Prop} {slot : SockSlot} : s.OfThread P slot ↔
    ∃ t th, slot.hThr = some t ∧ s.threads[t]? = some th ∧ P th := by
  constructor
  · rintro ⟨th, hth, hP⟩
    obtain ⟨t, ht, hth⟩ := Option.bind_eq_some_iff.1 hth
    exact ⟨t, th, ht, hth, hP⟩
  · rintro ⟨t, th, ht, hth, hP⟩
    exact ⟨th, Option.bind_eq_some_iff.2 ⟨t, ht, hth⟩, hP⟩

theorem modifyThread_some (ht : s.threads[t]? = some th) (f : SockThread → SockThread) :
    s.modifyThread (some t) f = s.setThread t (f th) := by
  have : Inhabited SockThread := ⟨th⟩
  rw [modifyThread, List.modify_eq_set, ht]
  rfl

theorem modifyThread_eq (s : Multiport) (hThr : Option ℕ) (f : SockThread → SockThread) :
    s.modifyThread hThr f = s ∨ ∃ t th, hThr = some t ∧ s.threads[t]? = some th ∧
      s.modifyThread hThr f = s.setThread t (f th) := by
  rcases hThr with _ | t
  · exact .inl rfl
  · rcases ht : s.threads[t]? with _ | th
    · refine .inl ?_
      rw [modifyThread, List.modify_eq_self (List.getElem?_eq_none_iff.1 ht)]
    · exact .inr ⟨t, th, rfl, ht, modifyThread_some ht f⟩

/-- A request fills a slot. With a protocol that has no shared sockets there is no new thread. -/
theorem sendFlow_eq_some {l4Proto : UInt8} {ptrPort : UInt16} {flowId : UInt32}
    (h : s.sendFlow j ss l4Proto ptrPort flowId = some s') :
    ∃ k slot v new, ss.findFlow noFlow = some k ∧ ss.slots[k]? = some slot ∧
      s' = { s.setSlot j k v with threads := s.threads ++ new.toList } ∧
      (∀ th ∈ new, s.Created j k v th) ∧
      (new = none → sharedProto? v.l4Proto = none ∧ ∀ t, v.hThr = some t → slot.hThr = some t) := by
  rw [sendFlow] at h
  split at h
  · cases h
  · obtain ⟨k, hk, h⟩ := Option.bind_eq_some_iff.1 h
    obtain ⟨slot, hslot, h⟩ := Option.map_eq_some_iff.1 h
    rcases hp : sharedProto? l4Proto with _ | p
    · rw [hp] at h
      refine ⟨k, slot, ⟨flowId, l4Proto, ptrPort, slot.socketClose,
        if l4Proto = l4ProtoICMP then none else slot.hThr⟩, none, hk, hslot, ?_, nofun,
        fun _ => ⟨hp, fun t hthr => ?_⟩⟩
      · rw [← h, Option.toList_none, List.append_nil]
        rfl
      · dsimp only at hthr
        split_ifs at hthr
        exact hthr
    · rw [hp] at h
      refine ⟨k, slot, _, some _, hk, hslot, h.symm, fun th hth => ?_, nofun⟩
      cases hth
      exact ⟨rfl, hp, rfl⟩

theorem closed_eq_some {flowId : UInt32} (h : s.closed j ss flowId = some s') :
    (∃ k slot, ss.findFlow flowId = some k ∧ ss.slots[k]? = some slot ∧
      s' = (s.terminateThread slot.hThr).setPhase j (.closing k)) ∨ s' = s := by
  rw [closed] at h
  split at h
  · cases h
  · split at h
    · next k hk =>
      obtain ⟨slot, hslot, rfl⟩ := Option.map_eq_some_iff.1 h
      exact .inl ⟨k, slot, hk, hslot, rfl⟩
    · cases h
      exact .inr rfl

theorem release_eq_some {p : SharedProto} {i : UInt16} (h : s.release p i = some s') :
    (s.shared p i).mutexSharedSockets = none ∧
    (short ((s.shared p i).inUse - 1) = 0 ∧
        s' = (s.setFile (s.shared p i).socket none).setShared p i
          { s.shared p i with socket := 0, inUse := 0 } ∨
      short ((s.shared p i).inUse - 1) ≠ 0 ∧
        s' = s.setShared p i { s.shared p i with inUse := short ((s.shared p i).inUse - 1) }) := by
  unfold release at h
  dsimp only at h
  split_ifs at h with hmutex hzero
  · cases h
    exact ⟨Option.not_isSome_iff_eq_none.1 hmutex, .inl ⟨hzero, rfl⟩⟩
  · cases h
    exact ⟨Option.not_isSome_iff_eq_none.1 hmutex, .inr ⟨hzero, rfl⟩⟩

theorem giveBack_eq_some (h : s.giveBack j ss = some s') :
    ∃ k slot, ss.phase = .closing k ∧ ss.slots[k]? = some slot ∧
      ((∃ p u, sharedProto? slot.l4Proto = some p ∧ s.release p slot.indexPort = some u ∧
          s' = u.freeFlow j k
            { slot with socketClose := if p = .udp then 0 else slot.socketClose }) ∨
        sharedProto? slot.l4Proto = none ∧ s' = s.freeFlow j k slot) := by
  rw [giveBack] at h
  split at h
  · next k hphase =>
    obtain ⟨slot, hslot, h⟩ := Option.bind_eq_some_iff.1 h
    refine ⟨k, slot, hphase, hslot, ?_⟩
    split at h
    · next p hp =>
      obtain ⟨u, hu, rfl⟩ := Option.map_eq_some_iff.1 h
      exact .inl ⟨p, u, hp, hu, rfl⟩
    · next hp =>
      cases h
      exact .inr ⟨hp, rfl⟩
  · cases h

theorem pipeParser_eq_some (h : s.pipeParser j ss = some s') :
    ∃ code flowId rPipe u, ss.rPipe = (code, flowId) :: rPipe ∧
      u = s.modifySession j (fun ss => { ss with rPipe := rPipe }) ∧
      (s' = u ∨ ∃ k slot, code ≠ .ok ∧ ss.findFlow flowId = some k ∧ ss.slots[k]? = some slot ∧
        s' = ((u.terminateThread slot.hThr).setSlot j k
          { slot with flowId := noFlow }).endThread slot.hThr) := by
  rw [pipeParser] at h
  split at h
  · cases h
  · split at h
    · cases h
    · next code flowId rPipe hpipe =>
      refine ⟨code, flowId, rPipe, _, hpipe, rfl, ?_⟩
      dsimp only at h
      split at h
      · cases h
        exact .inl rfl
      · next hcode =>
        split at h
        · next k hk =>
          obtain ⟨slot, hslot, rfl⟩ := Option.map_eq_some_iff.1 h
          exact .inr ⟨k, slot, hcode, hk, hslot, rfl⟩
        · cases h
          exact .inl rfl

theorem leave_eq_some (h : s.leave j ss = some s') : s' = s.setPhase j (.collecting 0) := by
  rw [leave] at h
  split_ifs at h
  exact (Option.some.inj h).symm

theorem collect_eq_some (h : s.collect j ss = some s') :
    ∃ i slot, ss.phase = .collecting i ∧ ss.slots[i]? = some slot ∧
      s' = (s.setFile slot.socketClose none).setPhase j (.sweeping i) := by
  rw [collect] at h
  split at h
  · next i hphase =>
    obtain ⟨slot, hslot, rfl⟩ := Option.map_eq_some_iff.1 h
    exact ⟨i, slot, hphase, hslot, rfl⟩
  · cases h

theorem sweep_eq_some (h : s.sweep j ss = some s') : ∃ phase, s' = s.setPhase j phase ∨
    ∃ p i, (s.shared p i).mutexSharedSockets = none ∧ (s.shared p i).inUse = 0 ∧
      0 < (s.shared p i).socket ∧
      s' = ((s.setFile (s.shared p i).socket none).setShared p i
        { s.shared p i with socket := 0 }).setPhase j phase := by
  rw [sweep] at h
  split at h
  · next i hphase =>
    refine ⟨.collecting (i + 1), ?_⟩
    obtain ⟨slot, hslot, h⟩ := Option.bind_eq_some_iff.1 h
    split at h
    · next p hp =>
      dsimp only at h
      split_ifs at h with hmutex hzero
      · cases h
        exact .inr ⟨p, slot.indexPort, Option.not_isSome_iff_eq_none.1 hmutex, hzero.1, hzero.2,
          rfl⟩
      · cases h
        exact .inl rfl
    · cases h
      exact .inl rfl
  · cases h

/-! ### Threads that have a slot -/

/-- Two threads that are to take their sockets have different slots. -/
theorem Given.ne {t' : ℕ} (h : s.Given t th) (h' : s.Given t' th') (hne : t' ≠ t) :
    ¬(th'.session = th.session ∧ th'.slot = th.slot) := by
  obtain ⟨-, slot, hslot, hthr, -⟩ := h
  obtain ⟨-, slot', hslot', hthr', -⟩ := h'
  rintro ⟨hsession, hk⟩
  -- A slot has one thread only.
  rw [hsession, hk, hslot] at hslot'
  cases hslot'
  exact hne (Option.some.inj (hthr'.symm.trans hthr))

/-- The slot of a thread is what its `paraThread` is. -/
theorem Given.paraThread_eq (h : s.Given t th) :
    s.slot th.session th.slot = some (s.paraThread th) ∧ (s.paraThread th).hThr = some t ∧
      sharedProto? (s.paraThread th).l4Proto = some th.proto := by
  obtain ⟨-, slot, hslot, hthr⟩ := h
  have hpara : s.paraThread th = slot := by rw [paraThread, hslot]; rfl
  rw [hpara]
  exact ⟨hslot, hthr⟩

/-- A slot whose thread is not on its way is not that of a thread that is. -/
theorem Given.ne_slot (h : s.Given t th) (ht : s.threads[t]? = some th) (hpc : th.pc.inFlight)
    (hslot : s.slot j k = some slot) (hflight : ¬s.OfThread (·.pc.inFlight) slot) :
    ¬(th.session = j ∧ th.slot = k) := by
  rintro ⟨rfl, rfl⟩
  obtain ⟨-, slot', hslot', hthr, -⟩ := h
  rw [hslot] at hslot'
  cases hslot'
  exact hflight (ofThread_iff.2 ⟨t, th, hthr, ht, hpc⟩)

/-- A new session does not change the entries of the flows there are. -/
theorem Given.indexPort_connect (h : s.Given t th) : s.connect.indexPort th = s.indexPort th := by
  rcases slot_connect s th.session th.slot with heq | ⟨hnone, -⟩
  · rw [indexPort, indexPort, paraThread, paraThread, heq]
  · exact absurd (hnone.symm.trans h.paraThread_eq.1) nofun

theorem AllGiven.congr (h : s.AllGiven) (hthreads : s'.threads = s.threads)
    (hslots : SameSlots s s') : s'.AllGiven := by
  intro t th ht hpc
  rw [hthreads] at ht
  obtain ⟨htook, slot, hslot, hthr, hproto⟩ := h t th ht hpc
  obtain ⟨slot', hslot', hproto', -, hthr'⟩ := hslots.exists_slot hslot
  exact ⟨htook, slot', hslot', hthr'.trans hthr, by rw [hproto', hproto]⟩

theorem AllGiven.setThread (h : s.AllGiven) (ht : s.threads[t]? = some th)
    (hgiven : th'.proto = th.proto ∧ th'.session = th.session ∧ th'.slot = th.slot)
    (htook : th'.pc.inFlight → th.pc.inFlight ∧ th'.took = th.took) :
    (s.setThread t th').AllGiven := by
  obtain ⟨hproto, hsession, hslot⟩ := hgiven
  intro t₁ th₁ ht₁ hpc
  rw [getElem?_setThread ht] at ht₁
  split_ifs at ht₁ with htt
  · cases ht₁
    obtain ⟨hflight, htook⟩ := htook hpc
    obtain ⟨hnone, slot, hs, hthr, hp⟩ := h t th ht hflight
    exact ⟨htook.trans hnone, slot, by rw [hsession, hslot]; exact hs, by rw [hthr, htt],
      by rw [hp, hproto]⟩
  · exact h t₁ th₁ ht₁ hpc

/-- The index of a slot is not what makes it that of a thread. -/
theorem AllGiven.setIndex (h : s.AllGiven) (hslot : s.slot j k = some slot) (port : UInt16) :
    (s.setSlot j k { slot with indexPort := port }).AllGiven := by
  have hsome : (s.slot j k).isSome := by rw [hslot]; rfl
  intro t th ht hpc
  obtain ⟨hnone, slot₁, hslot₁, hthr₁, hproto₁⟩ := h t th ht hpc
  by_cases heq : th.session = j ∧ th.slot = k
  · -- The slot has its thread still.
    rw [heq.1, heq.2, hslot] at hslot₁
    cases hslot₁
    exact ⟨hnone, _, (slot_setSlot hsome _ _ _).trans (if_pos heq), hthr₁, hproto₁⟩
  · exact ⟨hnone, slot₁, ((slot_setSlot hsome _ _ _).trans (if_neg heq)).trans hslot₁, hthr₁,
      hproto₁⟩

theorem getElem?_threads_append {new : Option SockThread}
    (ht : (s.threads ++ new.toList)[t]? = some th) :
    s.threads[t]? = some th ∨ t = s.threads.length ∧ th ∈ new := by
  rcases Nat.lt_or_ge t s.threads.length with hlt | hge
  · exact .inl ((List.getElem?_append_left hlt).symm.trans ht)
  · rw [List.getElem?_append_right hge] at ht
    rcases new with _ | th'
    · cases ht
    · obtain ⟨hzero, heq⟩ := List.getElem?_eq_some_iff.1 ht
      have hlen : t - s.threads.length < 1 := hzero
      obtain rfl : t = s.threads.length := by omega
      simp only [Nat.sub_self] at heq
      exact .inr ⟨rfl, congrArg some heq⟩

/-- A slot gets a flow, perhaps with a new thread. -/
theorem AllGiven.fill (h : s.AllGiven) {v : SockSlot} (hslot : s.slot j k = some slot)
    (hflight : ¬s.OfThread (·.pc.inFlight) slot) {new : Option SockThread}
    (hnew : ∀ th ∈ new, s.Created j k v th) :
    AllGiven { s.setSlot j k v with threads := s.threads ++ new.toList } := by
  have hsome : (s.slot j k).isSome := by rw [hslot]; rfl
  intro t th ht hpc
  rcases getElem?_threads_append ht with ht | ⟨rfl, hmem⟩
  · -- The slot that is filled is not that of a thread on its way.
    have hne := (h t th ht hpc).ne_slot ht hpc hslot hflight
    obtain ⟨hnone, slot', hslot', hthr, hproto⟩ := h t th ht hpc
    exact ⟨hnone, slot', ((slot_setSlot hsome _ _ _).trans (if_neg hne)).trans hslot', hthr,
      hproto⟩
  · obtain ⟨hthr, hproto, heq⟩ := hnew th hmem
    rw [heq]
    exact ⟨rfl, v, (slot_setSlot hsome _ _ _).trans (if_pos ⟨rfl, rfl⟩), hthr, hproto⟩

theorem AllGiven.connect (h : s.AllGiven) : s.connect.AllGiven := by
  intro t th ht hpc
  obtain ⟨hnone, slot, hslot, hth⟩ := h t th ht hpc
  rcases slot_connect s th.session th.slot with heq | ⟨hnone', -⟩
  · exact ⟨hnone, slot, heq.trans hslot, hth⟩
  · exact absurd (hnone'.symm.trans hslot) nofun

/-! ### The start -/

/-- The standard descriptors are open. -/
def stdFiles (fd : ℕ) : Option UInt16 := if fd < 3 then some 0 else none

theorem init_stdFiles (e : Endian) : (multiport e).init (.start stdFiles) :=
  ⟨stdFiles, 3, fun _ hfd => if_neg (Nat.not_lt.2 hfd), rfl⟩

end Multiport

end Ditg
