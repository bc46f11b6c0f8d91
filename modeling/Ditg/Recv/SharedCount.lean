import Ditg.Library.Handles
import Ditg.Recv.SharedSteps

/-!
# What the entries of shared sockets count

The thread of a flow counts the flow in the entry it takes its socket from, and the handlers of
the session give the socket back when the flow is closed. The handlers of errors do not.

* `SharedOk`: every entry that is not locked counts the live flows that have taken their socket
  from it, has a socket if there are any, and they all are bound to the same port;
* `shared_counted`: this is so as long as every socket that has been taken is given back, and
  none is that has not been taken (`Balanced`).
-/

namespace Ditg

open Bytes Handles

/-! ## Statements -/

/-- A flow has taken its socket from an entry, and its handler is not done with it. -/
def SockThread.uses (th : SockThread) (p : SharedProto) (i : UInt16) : Prop :=
  th.proto = p ∧ th.took = some i ∧ th.ended = false

instance (th : SockThread) (p : SharedProto) (i : UInt16) : Decidable (th.uses p i) :=
  inferInstanceAs (Decidable (_ ∧ _))

/-- It has taken its socket from some entry. -/
def SockThread.counted (th : SockThread) : Bool := th.took.isSome && !th.ended

namespace Multiport

variable (s : Multiport)

/-- The live flows that have taken their socket from an entry. -/
def users (p : SharedProto) (i : UInt16) : ℕ := s.threads.countP (·.uses p i)

/-- What the entries are for. -/
structure SharedOk : Prop where
  inUse_eq : ∀ p i, (s.shared p i).mutexSharedSockets = none → (s.shared p i).inUse = s.users p i
  socket_iff : ∀ p i, (s.shared p i).mutexSharedSockets = none →
    (0 < (s.shared p i).socket ↔ 0 < (s.shared p i).inUse)
  port_eq : ∀ p i, (s.shared p i).mutexSharedSockets = none → ∀ th ∈ s.threads,
    ∀ th' ∈ s.threads, th.uses p i → th'.uses p i → th.port = th'.port

/-- A descriptor is not that of the socket of a live flow. -/
def Unused (fd : ℕ) : Prop := fd ≠ 0 → ∀ th ∈ s.threads, th.ended = false → th.sock ≠ fd

/-- A step takes and gives back sockets as it should:
    * a request does not get the slot of a thread that is to take its socket;
    * an error does not end a flow that has taken its socket, and the socket of a flow is given
      back if the flow has taken it;
    * `socketClose` is not the socket of a live flow;
    * a thread finds no socket in the entry of a port that the system has chosen, and does not
      get the descriptor 0 for its own;
    * a flow that is counted has not ended, and there is room for it in the counter. -/
def Balanced : MultiportAction → Prop
  | .session j (.sendFlow _ _ _) => ∀ slot ∈ s.flowSlot j noFlow, ¬s.OfThread (·.pc.inFlight) slot
  | .session j .pipe => ∀ slot ∈ s.errorSlot j, ¬s.OfThread (·.counted) slot
  | .session j .giveBack => ∀ slot ∈ s.closingSlot j,
    ((sharedProto? slot.l4Proto).isSome ↔ s.OfThread (·.counted) slot) ∧
      (sharedProto? slot.l4Proto ≠ some .udp → s.Unused slot.socketClose)
  | .session j .collect => ∀ slot ∈ s.closingSlot j, s.Unused slot.socketClose
  | .thread _ (.openSock sock _) => sock ≠ 0
  | .thread t .relock => ∀ th ∈ s.threads[t]?, (s.entry th).socket = 0
  | .thread t (.accept _) | .thread t .count =>
    ∀ th ∈ s.threads[t]?, th.ended = false ∧ (s.entry th).inUse < 2 ^ 15 - 1
  | _ => True

instance (fd : ℕ) : Decidable (s.Unused fd) :=
  inferInstanceAs (Decidable (fd ≠ 0 → ∀ th ∈ s.threads, th.ended = false → th.sock ≠ fd))

instance : ∀ a, Decidable (s.Balanced a) := fun a => by
  unfold Balanced
  split <;> infer_instance

end Multiport

/-! ## The invariant -/

/-- A thread of a live flow has a socket that is not in an entry yet. -/
def SockThread.owns (th : SockThread) : Prop :=
  th.ended = false ∧ th.socketAlreadyOpen = false ∧
    (th.pc = .relocking ∨ th.pc = .accepting ∨ th.pc = .counting)

instance (th : SockThread) : Decidable th.owns := inferInstanceAs (Decidable (_ ∧ _))

/-- That socket, or 0. -/
def SockThread.held (th : SockThread) : ℕ := if th.owns then th.sock else 0

/-- A thread has a socket, of its own or of an entry. -/
def SockThread.active (th : SockThread) : Prop :=
  th.owns ∨ th.pc.inFlight ∧ th.socketAlreadyOpen ∨ th.took.isSome

theorem SockThread.owns.inFlight {th : SockThread} (h : th.owns) : th.pc.inFlight := by
  obtain ⟨-, -, hpc | hpc | hpc⟩ := h <;> rw [hpc] <;> rfl

/-- What has a socket: an entry, or a thread. -/
inductive SockHolder
  | entry (p : SharedProto) (i : UInt16)
  | thread (t : ℕ)
  deriving DecidableEq

namespace Multiport

/-- The sockets of all holders, or 0. -/
def held (s : Multiport) : SockHolder → ℕ
  | .entry p i => (s.shared p i).socket
  | .thread t => (s.threads[t]?.map SockThread.held).getD 0

/-- What holds of the thread of a live flow, wherever it is. -/
structure ThreadOk (s : Multiport) (t : ℕ) (th : SockThread) : Prop where
  /-- It has not found a socket in an entry it has not locked. -/
  not_open : th.pc.inFlight → th.socketAlreadyOpen → th.locks (s.indexPort th)
  locked : th.locks (s.indexPort th) → (s.entry th).mutexSharedSockets = some t ∧
    (th.socketAlreadyOpen ↔ (s.entry th).socket ≠ 0)
  joined : th.pc.inFlight → th.socketAlreadyOpen → th.sock = (s.entry th).socket
  took : ∀ i, th.took = some i → th.sock = (s.shared th.proto i).socket
  active : th.active → th.sock ≠ 0 ∧ s.files th.sock = some th.port

/-- The thread of a slot has been given this slot, and takes its socket from its entry. -/
structure SlotOk (j k : ℕ) (slot : SockSlot) (th : SockThread) : Prop where
  session_eq : th.session = j
  slot_eq : th.slot = k
  took : ∀ p i, sharedProto? slot.l4Proto = some p → th.took = some i →
    th.proto = p ∧ slot.indexPort = i

/-- The entries count the flows that use them, whether they are locked or not, and no two
    entries and threads have the same socket. -/
structure CountInv (s : Multiport) : Prop where
  inUse_eq : ∀ p i, (s.shared p i).inUse = s.users p i
  inUse_lt : ∀ p i, (s.shared p i).inUse < 2 ^ 15
  socket_iff : ∀ p i, (s.shared p i).socket ≠ 0 ↔ 0 < s.users p i
  exclusive : Exclusive s.held
  given : s.AllGiven
  slots : ∀ j k slot t, s.slot j k = some slot → slot.hThr = some t →
    ∃ th, s.threads[t]? = some th ∧ SlotOk j k slot th
  thread : ∀ t th, s.threads[t]? = some th → th.ended = false → s.ThreadOk t th

section Invariant

variable {e : Endian} {s s' : Multiport} {t : ℕ} {th th' : SockThread} {j k : ℕ}
  {p : SharedProto} {i : UInt16}

/-! ### Holders and users -/

theorem held_setShared (v : SharedSocket) :
    (s.setShared p i v).held = Function.update s.held (.entry p i) v.socket := by
  ext d
  cases d with
  | entry p' i' =>
    by_cases hp : p' = p
    · subst hp
      by_cases hi : i' = i
      · subst hi
        simp [held, setShared]
      · have hne : SockHolder.entry p' i' ≠ .entry p' i := by simp [hi]
        rw [Function.update_of_ne hne]
        simp [held, setShared, hi]
    · have hne : SockHolder.entry p' i' ≠ .entry p i := by simp [hp]
      rw [Function.update_of_ne hne]
      simp [held, setShared, hp]
  | thread t =>
    rw [Function.update_of_ne (show SockHolder.thread t ≠ .entry p i by simp)]
    rfl

theorem held_setThread (ht : s.threads[t]? = some th) (th' : SockThread) :
    (s.setThread t th').held = Function.update s.held (.thread t) th'.held := by
  obtain ⟨hlt, -⟩ := List.getElem?_eq_some_iff.1 ht
  ext d
  cases d with
  | entry p i =>
    rw [Function.update_of_ne (show SockHolder.entry p i ≠ .thread t by simp)]
    rfl
  | thread t' =>
    by_cases htt : t' = t
    · subst htt
      rw [Function.update_self, held, setThread, List.getElem?_set_self hlt]
      rfl
    · have hne : SockHolder.thread t' ≠ .thread t := by simp [htt]
      rw [Function.update_of_ne hne, held, setThread, List.getElem?_set_ne (Ne.symm htt)]
      rfl

theorem users_setThread (ht : s.threads[t]? = some th) (th' : SockThread) (p : SharedProto)
    (i : UInt16) : (s.setThread t th').users p i + (if th.uses p i then 1 else 0) =
      s.users p i + if th'.uses p i then 1 else 0 :=
  SlotTable.countP_set (fun th : SockThread => th.uses p i) th' ht

theorem users_pos (ht : s.threads[t]? = some th) (h : th.uses p i) : 0 < s.users p i :=
  List.countP_pos_iff.2 ⟨th, List.mem_of_getElem? ht, decide_eq_true h⟩

/-- The socket of a thread that has one of its own. -/
theorem held_thread (ht : s.threads[t]? = some th) : s.held (.thread t) = th.held := by
  rw [held, ht]
  rfl

/-! ### Threads -/

/-- What is enough for a step of others to leave a thread as it is. -/
theorem ThreadOk.frame (h : s.ThreadOk t th)
    (hindex : th.pc.inFlight → s'.indexPort th = s.indexPort th)
    (hentry : ∀ p i, (s.shared p i).mutexSharedSockets = some t → s'.shared p i = s.shared p i)
    (hsocket : ∀ i, th.took = some i →
      (s'.shared th.proto i).socket = (s.shared th.proto i).socket)
    (hfiles : th.active → s.files th.sock = some th.port → s'.files th.sock = some th.port) :
    s'.ThreadOk t th := by
  have hlocks (hlocks : th.locks (s'.indexPort th)) : th.locks (s.indexPort th) := by
    rwa [← hindex hlocks.inFlight]
  -- An entry that the thread has locked is not changed by others.
  have hsame (hl : th.locks (s.indexPort th)) : s'.entry th = s.entry th := by
    rw [entry, hindex hl.inFlight]
    exact hentry _ _ (h.locked hl).1
  refine ⟨fun hpc hopen => ?_, fun hl => ?_, fun hpc hopen => ?_, fun i hi => ?_, fun hact => ?_⟩
  · rw [hindex hpc]
    exact h.not_open hpc hopen
  · rw [hsame (hlocks hl)]
    exact h.locked (hlocks hl)
  · rw [hsame (h.not_open hpc hopen)]
    exact h.joined hpc hopen
  · rw [hsocket i hi]
    exact h.took i hi
  · obtain ⟨hsock, hfile⟩ := h.active hact
    exact ⟨hsock, hfiles hact hfile⟩

/-- The invariant does not depend on anything else. -/
theorem CountInv.congr (h : s.CountInv) (hshared : s'.shared = s.shared)
    (hfiles : s'.files = s.files) (hthreads : s'.threads = s.threads) (hslots : SameSlots s s') :
    s'.CountInv := by
  have hheld : s'.held = s.held := by
    ext d
    cases d with
    | entry p i => rw [held, hshared]; rfl
    | thread t => rw [held, hthreads]; rfl
  refine ⟨fun p i => ?_, fun p i => ?_, fun p i => ?_, ?_, h.given.congr hthreads hslots,
    fun j k slot t hslot hthr => ?_, fun t th ht hlive => ?_⟩
  · rw [hshared, users, hthreads]
    exact h.inUse_eq p i
  · rw [hshared]
    exact h.inUse_lt p i
  · rw [hshared, users, hthreads]
    exact h.socket_iff p i
  · rw [hheld]
    exact h.exclusive
  · obtain ⟨slot', hslot', hproto', hindex', hthr'⟩ := hslots.symm.exists_slot hslot
    obtain ⟨th, ht, hok⟩ := h.slots j k slot' t hslot' (hthr'.trans hthr)
    refine ⟨th, by rw [hthreads, ht], hok.session_eq, hok.slot_eq, ?_⟩
    rw [← hproto', ← hindex']
    exact hok.took
  · rw [hthreads] at ht
    exact (h.thread t th ht hlive).frame (fun _ => hslots.indexPort_eq th)
      (fun p i _ => by rw [hshared]) (fun i _ => by rw [hshared])
      fun _ hfile => by rw [hfiles, hfile]

/-! ### Steps of one thread -/

/-- A thread changes nothing but itself, and is counted as before. -/
theorem CountInv.setThread (h : s.CountInv) (ht : s.threads[t]? = some th)
    (hgiven : th'.proto = th.proto ∧ th'.session = th.session ∧ th'.slot = th.slot)
    (htook : th'.took = th.took) (husers : ∀ p i, th'.uses p i ↔ th.uses p i)
    (hflight : th'.pc.inFlight → th.pc.inFlight)
    (hheld : Exclusive (Function.update s.held (.thread t) th'.held))
    (hok : th'.ended = false → s.ThreadOk t th') : (s.setThread t th').CountInv := by
  have husers (p : SharedProto) (i : UInt16) : (s.setThread t th').users p i = s.users p i := by
    have hset := users_setThread ht th' p i
    simp only [husers] at hset
    omega
  refine ⟨fun p i => ?_, h.inUse_lt, fun p i => ?_, ?_,
    h.given.setThread ht hgiven fun hpc => ⟨hflight hpc, htook⟩,
    fun j k slot t₁ hs hthr => ?_, fun t₁ th₁ ht₁ hlive => ?_⟩
  · rw [husers]
    exact h.inUse_eq p i
  · rw [husers]
    exact h.socket_iff p i
  · rwa [held_setThread ht]
  · -- The slot that has the thread.
    obtain ⟨th₁, ht₁, hslotok⟩ := h.slots j k slot t₁ hs hthr
    obtain ⟨hproto, hsession, hslot⟩ := hgiven
    by_cases htt : t₁ = t
    · subst htt
      obtain rfl : th₁ = th := Option.some.inj (ht₁.symm.trans ht)
      refine ⟨th', by rw [getElem?_setThread ht, if_pos rfl], ?_, ?_, ?_⟩
      · rw [hsession, hslotok.session_eq]
      · rw [hslot, hslotok.slot_eq]
      · rw [htook, hproto]
        exact hslotok.took
    · exact ⟨th₁, by rw [getElem?_setThread ht, if_neg htt, ht₁], hslotok⟩
  · rw [getElem?_setThread ht] at ht₁
    split_ifs at ht₁ with htt
    · cases ht₁
      have hok' := hok hlive
      rw [htt]
      exact ⟨hok'.1, hok'.2, hok'.3, hok'.4, hok'.5⟩
    · have hok' := h.thread t₁ th₁ ht₁ hlive
      exact ⟨hok'.1, hok'.2, hok'.3, hok'.4, hok'.5⟩

/-- A thread that is not on its way has no socket of its own. -/
theorem held_eq_zero (hpc : th.pc.inFlight = false) : th.held = 0 :=
  if_neg fun howns => by simp [howns.inFlight] at hpc

/-- A thread is cancelled. -/
theorem CountInv.terminateThread (h : s.CountInv) (hThr : Option ℕ) :
    (s.terminateThread hThr).CountInv := by
  obtain heq | ⟨t, th, rfl, ht, heq⟩ :=
    s.modifyThread_eq hThr fun th => { th with cancelled := true }
  · rwa [Multiport.terminateThread, heq]
  · rw [Multiport.terminateThread, heq]
    refine h.setThread ht ⟨rfl, rfl, rfl⟩ rfl (fun _ _ => Iff.rfl) id ?_ fun hlive => ?_
    · have hheld : ({ th with cancelled := true } : SockThread).held = s.held (.thread t) :=
        (held_thread ht).symm
      rw [hheld, Function.update_eq_self]
      exact h.exclusive
    · have hok := h.thread t th ht hlive
      exact ⟨hok.1, hok.2, hok.3, hok.4, hok.5⟩

/-- A handler is done with a thread whose flow has not been counted. -/
theorem CountInv.endThread (h : s.CountInv) {hThr : Option ℕ}
    (hcounted : ∀ t th, hThr = some t → s.threads[t]? = some th → th.counted = false) :
    (s.endThread hThr).CountInv := by
  obtain heq | ⟨t, th, rfl, ht, heq⟩ := s.modifyThread_eq hThr fun th => { th with ended := true }
  · rwa [Multiport.endThread, heq]
  · rw [Multiport.endThread, heq]
    refine h.setThread ht ⟨rfl, rfl, rfl⟩ rfl (fun p i => ⟨nofun, fun huses => ?_⟩) id ?_ nofun
    · have hth := hcounted t th rfl ht
      rw [SockThread.counted, huses.2.1, huses.2.2] at hth
      exact absurd hth Bool.noConfusion
    · have hheld : ({ th with ended := true } : SockThread).held = 0 := if_neg nofun
      rw [hheld]
      exact h.exclusive.drop _

/-- A thread falls asleep or stops. -/
theorem CountInv.park (h : s.CountInv) (ht : s.threads[t]? = some th) {pc : SockPc}
    (hpc : pc.inFlight = false) : (s.setThread t { th with pc := pc }).CountInv := by
  refine h.setThread ht ⟨rfl, rfl, rfl⟩ rfl (fun _ _ => Iff.rfl)
    (fun hflight => absurd hflight (by simp [hpc])) ?_ fun hlive => ?_
  · rw [held_eq_zero hpc]
    exact h.exclusive.drop _
  · have hok := h.thread t th ht hlive
    refine ⟨fun hflight => absurd hflight (by simp [hpc]),
      fun hlocks => absurd hlocks.inFlight (by simp [hpc]),
      fun hflight => absurd hflight (by simp [hpc]), hok.took, fun hact => hok.active ?_⟩
    rcases hact with howns | ⟨hflight, -⟩ | htook
    · exact absurd howns.inFlight (by simp [hpc])
    · exact absurd hflight (by simp [hpc])
    · exact .inr (.inr htook)

/-! ### Descriptors -/

/-- A descriptor that is not an open socket of a live flow is opened or closed. -/
theorem CountInv.setFile (h : s.CountInv) {fd : ℕ} (file : Option UInt16)
    (hne : ∀ (t : ℕ) (th : SockThread), s.threads[t]? = some th → th.ended = false → th.active →
      s.files th.sock = some th.port → th.sock ≠ fd) : (s.setFile fd file).CountInv where
  inUse_eq := h.inUse_eq
  inUse_lt := h.inUse_lt
  socket_iff := h.socket_iff
  exclusive := h.exclusive
  given := h.given
  slots := h.slots
  thread t th ht hlive :=
    (h.thread t th ht hlive).frame (fun _ => rfl) (fun _ _ _ => rfl) (fun _ _ => rfl)
      fun hact hfile => (Function.update_of_ne (hne t th ht hlive hact hfile) ..).trans hfile

/-- A descriptor that was not open is opened. -/
theorem CountInv.openFile (h : s.CountInv) {fd : ℕ} (hfd : s.files fd = none) (port : UInt16) :
    (s.setFile fd (some port)).CountInv := by
  refine h.setFile _ fun t th _ _ _ hfile => ?_
  -- The socket of the thread was open before.
  rintro rfl
  rw [hfd] at hfile
  cases hfile

/-- A descriptor that no live flow has for its socket is closed. -/
theorem CountInv.closeFile (h : s.CountInv) {fd : ℕ} (hfd : s.Unused fd) :
    (s.setFile fd none).CountInv := by
  refine h.setFile _ fun t th ht hlive hact _ => ?_
  rintro rfl
  exact hfd ((h.thread t th ht hlive).active hact).1 th (List.mem_of_getElem? ht) hlive rfl

/-- A thread has a socket of some holder. -/
theorem ThreadOk.exists_held (h : s.ThreadOk t th) (ht : s.threads[t]? = some th)
    (hact : th.active) : ∃ d, s.held d = th.sock ∧ (d = .thread t ∨
      (∃ i, th.took = some i ∧ d = .entry th.proto i) ∨
        (s.entry th).mutexSharedSockets = some t ∧ d = .entry th.proto (s.indexPort th)) := by
  rcases hact with howns | ⟨hpc, hopen⟩ | htook
  · exact ⟨.thread t, (held_thread ht).trans (if_pos howns), .inl rfl⟩
  · exact ⟨.entry th.proto (s.indexPort th), (h.joined hpc hopen).symm,
      .inr (.inr ⟨(h.locked (h.not_open hpc hopen)).1, rfl⟩)⟩
  · obtain ⟨i, hi⟩ := Option.isSome_iff_exists.1 htook
    exact ⟨.entry th.proto i, (h.took i hi).symm, .inr (.inl ⟨i, hi, rfl⟩)⟩

/-- The socket of an entry is open, and bound to the port of its flows. -/
theorem CountInv.file_entry (h : s.CountInv) (hsocket : (s.shared p i).socket ≠ 0) :
    ∃ port, s.files (s.shared p i).socket = some port ∧
      ∀ th ∈ s.threads, th.uses p i → th.port = port := by
  have hfile {th : SockThread} (hmem : th ∈ s.threads) (huses : th.uses p i) :
      s.files (s.shared p i).socket = some th.port := by
    obtain ⟨rfl, htook, hlive⟩ := huses
    obtain ⟨t, ht⟩ := List.mem_iff_getElem?.1 hmem
    have hok := h.thread t th ht hlive
    rw [← hok.took i htook]
    exact (hok.active (.inr (.inr (by rw [htook]; rfl)))).2
  obtain ⟨th, hmem, huses⟩ := List.countP_pos_iff.1 ((h.socket_iff p i).1 hsocket)
  refine ⟨th.port, hfile hmem (of_decide_eq_true huses), fun th' hmem' huses' => ?_⟩
  exact Option.some.inj ((hfile hmem' huses').symm.trans (hfile hmem (of_decide_eq_true huses)))

/-- A new socket is not that of any holder. -/
theorem CountInv.fresh (h : s.CountInv) {fd : ℕ} (hfd : s.files fd = none) (hne : fd ≠ 0)
    (d : SockHolder) : s.held d ≠ fd := by
  rintro rfl
  -- The sockets of all holders are open.
  cases d with
  | entry p i =>
    obtain ⟨port, hport, -⟩ := h.file_entry hne
    exact absurd (hfd.symm.trans hport) nofun
  | thread t =>
    rcases ht : s.threads[t]? with _ | th
    · exact hne (by rw [held, ht]; rfl)
    · rw [held_thread ht, SockThread.held] at hne hfd
      split_ifs at hne hfd with howns
      · have hok := h.thread t th ht howns.1
        exact absurd (hfd.symm.trans (hok.active (.inl howns)).2) nofun
      · exact hne rfl

/-! ### Threads that are to take their socket -/

/-- An entry is locked. -/
theorem CountInv.lockEntry (h : s.CountInv) (hmutex : (s.entry th).mutexSharedSockets = none)
    (t : ℕ) : (s.lockEntry t th).CountInv := by
  refine ⟨fun p i => ?_, fun p i => ?_, fun p i => ?_, ?_, h.given, h.slots,
    fun t₁ th₁ ht₁ hlive => (h.thread t₁ th₁ ht₁ hlive).frame (fun _ => rfl) (fun p i hlock => ?_)
      (fun i _ => (shared_lockEntry s t th _ i).1) fun _ => id⟩
  · rw [(shared_lockEntry s t th p i).2]
    exact h.inUse_eq p i
  · rw [(shared_lockEntry s t th p i).2]
    exact h.inUse_lt p i
  · rw [(shared_lockEntry s t th p i).1]
    exact h.socket_iff p i
  · have hheld : (s.entry th).socket = s.held (.entry th.proto (s.indexPort th)) := rfl
    rw [Multiport.lockEntry, held_setShared, hheld, Function.update_eq_self]
    exact h.exclusive
  · -- It was not locked before, so that it is not the entry of another thread.
    rw [Multiport.lockEntry, shared_setShared, if_neg]
    rintro ⟨rfl, rfl⟩
    exact Option.some_ne_none _ (hlock.symm.trans hmutex)

/-- What is enough for a thread that has not taken its socket. -/
theorem threadOk_of_took (htook : th.took = none)
    (hlocked : th.locks (s.indexPort th) → (s.entry th).mutexSharedSockets = some t ∧
      (th.socketAlreadyOpen ↔ (s.entry th).socket ≠ 0))
    (hopen : th.socketAlreadyOpen → th.locks (s.indexPort th) ∧ th.sock = (s.entry th).socket ∧
      s.files th.sock = some th.port)
    (howned : th.owns → th.sock ≠ 0 ∧ s.files th.sock = some th.port) : s.ThreadOk t th := by
  refine ⟨fun _ ho => (hopen ho).1, hlocked, fun _ ho => (hopen ho).2.1,
    fun i hi => absurd (htook.symm.trans hi) nofun, fun hact => ?_⟩
  rcases hact with howns | ⟨-, ho⟩ | hsome
  · exact howned howns
  · obtain ⟨hlocks, hsock, hfile⟩ := hopen ho
    refine ⟨?_, hfile⟩
    rw [hsock]
    exact (hlocked hlocks).2.1 ho
  · rw [htook] at hsome
    cases hsome

/-- A thread that has not locked an entry has not found a socket in one. -/
theorem ThreadOk.not_alreadyOpen (h : s.ThreadOk t th) (hpc : th.pc.inFlight)
    (hlocks : ¬th.locks (s.indexPort th)) : th.socketAlreadyOpen = false := by
  rw [← Bool.not_eq_true]
  exact fun hopen => hlocks (h.not_open hpc hopen)

/-- The thread locks the entry of the port that has been asked for. -/
theorem CountInv.lock (h : s.CountInv) (ht : s.threads[t]? = some th)
    (hstep : s.lock t th = some s') : s'.CountInv := by
  obtain ⟨hpc, ⟨hi, rfl⟩ | ⟨hi, hmutex, rfl⟩⟩ := lock_eq_some hstep
  · -- No port has been asked for, and nothing is locked.
    refine h.setThread ht ⟨rfl, rfl, rfl⟩ rfl (fun _ _ => Iff.rfl) (fun _ => by rw [hpc]; rfl) ?_
      fun hlive => ?_
    · rw [SockThread.held, if_neg (by simp [SockThread.owns])]
      exact h.exclusive.drop _
    · have hflight : th.pc.inFlight := by rw [hpc]; rfl
      have hnone : ¬th.locks (s.indexPort th) := by simp [SockThread.locks, hpc]
      have hopen := (h.thread t th ht hlive).not_alreadyOpen hflight hnone
      refine threadOk_of_took (h.given t th ht hflight).1 (fun hlocks => ?_)
        (fun hopen' => absurd (hopen.symm.trans hopen') nofun) fun howns => ?_
      · have hi' : s.indexPort { th with pc := .opening } = 0 := hi
        simp [SockThread.locks, hi'] at hlocks
      · simp [SockThread.owns] at howns
  · refine (h.lockEntry hmutex t).setThread ht ⟨rfl, rfl, rfl⟩ rfl (fun _ _ => Iff.rfl)
      (fun _ => by rw [hpc]; rfl) ?_ fun hlive => ?_
    · rw [SockThread.held, if_neg (by simp [SockThread.owns])]
      exact (h.lockEntry hmutex t).exclusive.drop _
    · have hentry := entry_lockEntry s t th
      refine threadOk_of_took (h.given t th ht (by rw [hpc]; rfl)).1
        (fun _ => ⟨congrArg (·.mutexSharedSockets) hentry, ?_⟩)
        (fun hopen => ⟨.inl ⟨rfl, hi⟩, (congrArg (·.socket) hentry).symm, ?_⟩) fun howns => ?_
      · show decide (0 < (s.entry th).socket) = true ↔ ((s.lockEntry t th).entry th).socket ≠ 0
        rw [hentry, decide_eq_true_iff]
        exact Nat.pos_iff_ne_zero
      · obtain ⟨port, hport, -⟩ := h.file_entry (Nat.pos_iff_ne_zero.1 (of_decide_eq_true hopen))
        have hfile : s.files (s.entry th).socket = some port := hport
        show s.files (s.entry th).socket = some ((s.files (s.entry th).socket).getD 0)
        rw [hfile]
        rfl
      · simp [SockThread.owns] at howns

theorem CountInv.sendPipeMsg (h : s.CountInv) (th : SockThread) (code : PipeCode) :
    (s.sendPipeMsg th code).CountInv :=
  h.congr rfl rfl rfl (sameSlots_of_eq (slot_sendPipeMsg code))

/-- The thread tells that it uses the socket of the entry. -/
theorem CountInv.join (h : s.CountInv) (ht : s.threads[t]? = some th)
    (hstep : s.join t th = some s') : s'.CountInv := by
  obtain ⟨hpc, hopen, rfl⟩ := join_eq_some hstep
  have hflight : th.pc.inFlight := by rw [hpc]; rfl
  suffices h' : (s.setThread t { th with pc := th.proto.waits }).CountInv from
    h'.sendPipeMsg th .ok
  refine h.setThread ht ⟨rfl, rfl, rfl⟩ rfl (fun _ _ => Iff.rfl) (fun _ => hflight) ?_
    fun hlive => ?_
  · rw [SockThread.held, if_neg (by simp [SockThread.owns, hopen])]
    exact h.exclusive.drop _
  · have hok := h.thread t th ht hlive
    have hlocks := hok.not_open hflight hopen
    refine threadOk_of_took (h.given t th ht hflight).1 (fun _ => hok.locked hlocks)
      (fun _ => ⟨.inr (waits_cases th.proto), hok.joined hflight hopen, ?_⟩) fun howns => ?_
    · exact (hok.active (.inr (.inl ⟨hflight, hopen⟩))).2
    · simp [SockThread.owns, hopen] at howns

/-- The thread locks the entry of the port that the system has chosen, which has no socket. -/
theorem CountInv.relock (h : s.CountInv) (ht : s.threads[t]? = some th)
    (hsocket : (s.entry th).socket = 0) (hstep : s.relock t th = some s') : s'.CountInv := by
  obtain ⟨hpc, hmutex, rfl⟩ := relock_eq_some hstep
  have hflight : th.pc.inFlight := by rw [hpc]; rfl
  have howns : ({ th with pc := th.proto.waits } : SockThread).owns ↔ th.owns := by
    simp [SockThread.owns, waits_cases, hpc]
  suffices h' : ((s.lockEntry t th).setThread t { th with pc := th.proto.waits }).CountInv from
    h'.sendPipeMsg th .ok
  refine (h.lockEntry hmutex t).setThread ht ⟨rfl, rfl, rfl⟩ rfl (fun _ _ => Iff.rfl)
    (fun _ => hflight) ?_ fun hlive => ?_
  · have hheld : ({ th with pc := th.proto.waits } : SockThread).held =
        (s.lockEntry t th).held (.thread t) :=
      (if_congr howns rfl rfl).trans (held_thread ht).symm
    rw [hheld, Function.update_eq_self]
    exact (h.lockEntry hmutex t).exclusive
  · have hok := h.thread t th ht hlive
    have hopen := hok.not_alreadyOpen hflight (by simp [SockThread.locks, hpc])
    have hentry := entry_lockEntry s t th
    refine threadOk_of_took (h.given t th ht hflight).1
      (fun _ => ⟨congrArg (·.mutexSharedSockets) hentry, ?_⟩)
      (fun hopen' => absurd (hopen.symm.trans hopen') nofun) fun howns' => ?_
    · show th.socketAlreadyOpen = true ↔ ((s.lockEntry t th).entry th).socket ≠ 0
      rw [hentry, hopen]
      exact ⟨nofun, fun hne => absurd hsocket hne⟩
    · exact hok.active (.inl (howns.1 howns'))

/-- A thread gets a new socket. -/
theorem CountInv.fresh_held (h : s.CountInv) {fd : ℕ} (hfd : s.files fd = none) (hne : fd ≠ 0)
    (t : ℕ) (hsock : th.sock = fd) : Exclusive (Function.update s.held (.thread t) th.held) := by
  rw [SockThread.held]
  split_ifs
  · rw [hsock]
    exact h.exclusive.fresh (h.fresh hfd hne) _
  · exact h.exclusive.drop _

/-- The slot of a thread gets the index of the port that the system has chosen. -/
theorem CountInv.setIndex (h : s.CountInv) (ht : s.threads[t]? = some th)
    (hpc : th.pc = .relocking) (port : UInt16) : (s.setSlot th.session th.slot
      { s.paraThread th with indexPort := port }).CountInv := by
  have hflight : th.pc.inFlight := by rw [hpc]; rfl
  have hgiven := h.given t th ht hflight
  have hnone := hgiven.1
  obtain ⟨hslot, hthr, -⟩ := hgiven.paraThread_eq
  have hsome : (s.slot th.session th.slot).isSome := by rw [hslot]; rfl
  refine ⟨h.inUse_eq, h.inUse_lt, h.socket_iff, h.exclusive, h.given.setIndex hslot port,
    fun j k slot₁ t₁ hs hthr₁ => ?_, fun t₁ th₁ ht₁ hlive => ?_⟩
  · rw [slot_setSlot hsome] at hs
    split_ifs at hs with heq
    · cases hs
      obtain ⟨th₁, ht₁, hok⟩ := h.slots _ _ (s.paraThread th) t₁ hslot hthr₁
      obtain rfl : t = t₁ := Option.some.inj (hthr.symm.trans hthr₁)
      obtain rfl : th = th₁ := Option.some.inj (ht.symm.trans ht₁)
      exact ⟨th, ht, heq.1.symm, heq.2.symm,
        fun p i _ htook => absurd (hnone.symm.trans htook) nofun⟩
    · exact h.slots j k slot₁ t₁ hs hthr₁
  · have hok := h.thread t₁ th₁ ht₁ hlive
    by_cases htt : t₁ = t
    · -- It has not locked its entry yet.
      subst htt
      obtain rfl : th₁ = th := Option.some.inj (ht₁.symm.trans ht)
      have hopen := hok.not_alreadyOpen hflight (by simp [SockThread.locks, hpc])
      exact threadOk_of_took hnone (fun hlocks => by simp [SockThread.locks, hpc] at hlocks)
        (fun hopen' => absurd (hopen.symm.trans hopen') nofun)
        fun howns => hok.active (.inl howns)
    · exact hok.frame
        (fun hpc₁ => indexPort_setSlot hsome _ (hgiven.ne (h.given t₁ th₁ ht₁ hpc₁) htt))
        (fun _ _ _ => rfl) (fun _ _ => rfl) fun _ => id

/-- The thread opens a socket, and tells whether it is bound to a port. -/
theorem CountInv.openSock (h : s.CountInv) (ht : s.threads[t]? = some th) {sock : ℕ}
    {port : Option UInt16} (hsock : sock ≠ 0) (hstep : s.openSock t th e sock port = some s') :
    s'.CountInv := by
  obtain ⟨hpc, hopen, hfile, hport⟩ := openSock_eq_some hstep
  have hflight : th.pc.inFlight := by rw [hpc]; rfl
  have hnone := (h.given t th ht hflight).1
  -- It cannot be bound, or to a port that the system has chosen, or to the one asked for.
  obtain ⟨-, rfl⟩ | ⟨p, -, hi, hp, rfl⟩ | ⟨p, -, hi, -, rfl⟩ := hport
  · suffices h' : ((s.setFile sock (some 0)).setThread t
        { th with pc := .asleep, sock := sock, port := 0 }).CountInv from h'.sendPipeMsg th .err1
    refine (h.openFile hfile 0).setThread ht ⟨rfl, rfl, rfl⟩ rfl (fun _ _ => Iff.rfl)
      (fun _ => hflight) ?_ fun hlive => ?_
    · rw [held_eq_zero rfl]
      exact h.exclusive.drop _
    · refine threadOk_of_took hnone (fun hlocks => absurd hlocks.inFlight nofun)
        (fun hopen' => absurd (hopen.symm.trans hopen') nofun) fun howns => ?_
      exact absurd howns.inFlight nofun
  · suffices h' : ((s.setFile sock (some p)).setThread t
        { th with pc := .relocking, sock := sock, port := p }).CountInv from
      h'.setIndex (List.getElem?_set_self (List.getElem?_eq_some_iff.1 ht).1) rfl p
    refine (h.openFile hfile p).setThread ht ⟨rfl, rfl, rfl⟩ rfl (fun _ _ => Iff.rfl)
      (fun _ => hflight) (h.fresh_held hfile hsock t rfl) fun hlive => ?_
    refine threadOk_of_took hnone (fun hlocks => ?_)
      (fun hopen' => absurd (hopen.symm.trans hopen') nofun)
      fun _ => ⟨hsock, Function.update_self ..⟩
    simp [SockThread.locks] at hlocks
  · suffices h' : ((s.setFile sock (some p)).setThread t
        { th with pc := th.proto.waits, sock := sock, port := p }).CountInv from
      h'.sendPipeMsg th .ok
    refine (h.openFile hfile p).setThread ht ⟨rfl, rfl, rfl⟩ rfl (fun _ _ => Iff.rfl)
      (fun _ => hflight) (h.fresh_held hfile hsock t rfl) fun hlive => ?_
    exact threadOk_of_took hnone (fun _ => (h.thread t th ht hlive).locked (.inl ⟨hpc, hi⟩))
      (fun hopen' => absurd (hopen.symm.trans hopen') nofun)
      fun _ => ⟨hsock, Function.update_self ..⟩

/-! ### Flows that are counted -/

/-- A thread takes its socket from an entry, or its socket is given back: the entry is not that of
    a thread on its way, and keeps its socket as long as other flows use it. -/
theorem CountInv.setEntry (h : s.CountInv) (ht : s.threads[t]? = some th) {v : SharedSocket}
    {files : ℕ → Option UInt16} (hs' : s' =
      { (s.setShared p i v).setThread t th' with files := files })
    (hgiven : th'.proto = th.proto ∧ th'.session = th.session ∧ th'.slot = th.slot)
    (hflight : th'.pc.inFlight = false)
    (hmutex : ∀ t₁, (s.shared p i).mutexSharedSockets = some t₁ → t₁ = t)
    (husers : ∀ p' i', ¬(p' = p ∧ i' = i) → (th'.uses p' i' ↔ th.uses p' i'))
    (hentry : v.inUse = s'.users p i ∧ v.inUse < 2 ^ 15 ∧ (v.socket ≠ 0 ↔ 0 < s'.users p i))
    (hheld : Exclusive
      (Function.update (Function.update s.held (.entry p i) v.socket) (.thread t) th'.held))
    (hslot : ∀ j k slot, s.slot j k = some slot → SlotOk j k slot th → SlotOk j k slot th')
    (hok : th'.ended = false → s'.ThreadOk t th')
    (hother : ∀ t₁ th₁, t₁ ≠ t → s.threads[t₁]? = some th₁ → th₁.ended = false →
      (th₁.uses p i → v.socket = (s.shared p i).socket) ∧
      (th₁.active → s.files th₁.sock = some th₁.port → files th₁.sock = some th₁.port)) :
    s'.CountInv := by
  have hthread (t₁ : ℕ) : s'.threads[t₁]? = if t₁ = t then some th' else s.threads[t₁]? := by
    rw [hs']
    exact getElem?_setThread ht th' t₁
  have hshared (p' : SharedProto) (i' : UInt16) :
      s'.shared p' i' = if p' = p ∧ i' = i then v else s.shared p' i' := by
    rw [hs']
    exact shared_setShared v p' i'
  have husers' (p' : SharedProto) (i' : UInt16) (hne : ¬(p' = p ∧ i' = i)) :
      s'.users p' i' = s.users p' i' := by
    have hset := users_setThread ht th' p' i'
    have hsame : s'.users p' i' = (s.setThread t th').users p' i' := by rw [hs']; rfl
    simp only [husers p' i' hne] at hset
    omega
  have hgiven' : s'.AllGiven := by
    refine (h.given.setThread ht hgiven fun hpc => ?_).congr (by rw [hs']; rfl)
      (by rw [hs']; exact fun _ _ => rfl)
    rw [hflight] at hpc
    cases hpc
  have hslots (j k : ℕ) : s'.slot j k = s.slot j k := by rw [hs']; rfl
  -- All counts but that of the entry are as before, and so are the slots.
  obtain ⟨hinUse, hlt, hsocket⟩ := hentry
  refine ⟨fun p' i' => ?_, fun p' i' => ?_, fun p' i' => ?_, ?_, hgiven',
    fun j k slot t₁ hs hthr => ?_, fun t₁ th₁ ht₁ hlive => ?_⟩
  · rw [hshared]
    split_ifs with hpi
    · rw [hpi.1, hpi.2, hinUse]
    · rw [husers' p' i' hpi]
      exact h.inUse_eq p' i'
  · rw [hshared]
    split_ifs
    · exact hlt
    · exact h.inUse_lt p' i'
  · rw [hshared]
    split_ifs with hpi
    · rw [hpi.1, hpi.2, hsocket]
    · rw [husers' p' i' hpi]
      exact h.socket_iff p' i'
  · -- Only the entry and the thread hold something else than before.
    have heq : s'.held = Function.update (Function.update s.held (.entry p i) v.socket)
        (.thread t) th'.held := by
      rw [← held_setShared, ← held_setThread (show (s.setShared p i v).threads[t]? = _ from ht),
        hs']
      rfl
    rwa [heq]
  · rw [hslots] at hs
    obtain ⟨th₁, ht₁, hslotok⟩ := h.slots j k slot t₁ hs hthr
    rw [hthread]
    split_ifs with htt
    · subst htt
      obtain rfl : th₁ = th := Option.some.inj (ht₁.symm.trans ht)
      exact ⟨th', rfl, hslot j k slot hs hslotok⟩
    · exact ⟨th₁, ht₁, hslotok⟩
  · rw [hthread] at ht₁
    split_ifs at ht₁ with htt
    · cases ht₁
      rw [htt]
      exact hok hlive
    · -- Another thread does not see the change: it has not locked the entry.
      obtain ⟨hsame, hfiles⟩ := hother t₁ th₁ htt ht₁ hlive
      refine (h.thread t₁ th₁ ht₁ hlive).frame (fun _ => by rw [hs']; rfl) (fun p' i' hlock => ?_)
        (fun i' htook => ?_) fun hact hfile => by rw [hs']; exact hfiles hact hfile
      · rw [hshared, if_neg]
        rintro ⟨rfl, rfl⟩
        exact htt (hmutex t₁ hlock)
      · rw [hshared]
        split_ifs with hpi
        · rw [hsame ⟨hpi.1, hpi.2 ▸ htook, hlive⟩, hpi.1, hpi.2]
        · rfl

/-- The flow of a thread is counted. -/
theorem CountInv.takeSocket (h : s.CountInv) (ht : s.threads[t]? = some th)
    (hpc : th.pc = .accepting ∨ th.pc = .counting) (hlive : th.ended = false)
    (hroom : (s.entry th).inUse < 2 ^ 15 - 1) (socketClose : ℕ) :
    (s.takeSocket t th socketClose).CountInv := by
  have hflight : th.pc.inFlight := by rcases hpc with hpc | hpc <;> rw [hpc] <;> rfl
  have hgiven := h.given t th ht hflight
  obtain ⟨hslot, -, hproto⟩ := hgiven.paraThread_eq
  have hok := h.thread t th ht hlive
  obtain ⟨hmutex, hopen⟩ := hok.locked (.inr hpc)
  have hinUse := h.inUse_eq th.proto (s.indexPort th)
  -- The socket of the entry afterwards is that of the thread.
  have hth : th.sock = (if th.socketAlreadyOpen then (s.entry th).socket else th.sock) ∧
      th.sock ≠ 0 ∧ s.files th.sock = some th.port := by
    split_ifs with ho
    · exact ⟨hok.joined hflight ho, hok.active (.inr (.inl ⟨hflight, ho⟩))⟩
    · exact ⟨rfl, hok.active (.inl ⟨hlive, Bool.eq_false_iff.2 ho, .inr hpc⟩)⟩
  have hshort : short ((s.entry th).inUse + 1) = (s.entry th).inUse + 1 := by
    rw [short_eq]
    · rw [entry]
      omega
    · omega
  suffices h' : ((s.setShared th.proto (s.indexPort th)
      ⟨th.sock, (s.entry th).inUse + 1, none⟩).setThread t
        { th with pc := .receiving, took := some (s.indexPort th) }).CountInv by
    rw [Multiport.takeSocket, hshort, ← hth.1]
    exact h'.congr rfl rfl rfl (sameSlots_setSlot hslot rfl)
  have huses (p : SharedProto) (i : UInt16) : ¬th.uses p i :=
    fun huses => absurd (hgiven.1.symm.trans huses.2.1) nofun
  have hone : (s.setThread t { th with pc := .receiving, took := some (s.indexPort th) }).users
      th.proto (s.indexPort th) = s.users th.proto (s.indexPort th) + 1 := by
    have hset := users_setThread ht { th with pc := .receiving, took := some (s.indexPort th) }
      th.proto (s.indexPort th)
    rwa [if_neg (huses _ _), if_pos ⟨rfl, rfl, hlive⟩] at hset
  refine h.setEntry ht rfl ⟨rfl, rfl, rfl⟩ rfl
    (fun t₁ hlock => Option.some.inj (hlock.symm.trans hmutex)) (fun p i hpi => ?_)
    ⟨?_, ?_, ?_⟩ ?_ (fun j k slot hs hslotok => ?_) (fun _ => ?_) fun t₁ th₁ htt ht₁ hlive₁ => ?_
  · refine ⟨fun huses' => absurd ?_ hpi, fun huses' => absurd huses' (huses p i)⟩
    exact ⟨huses'.1.symm, (Option.some.inj huses'.2.1).symm⟩
  · show (s.entry th).inUse + 1 = ((s.setThread t _).users _ _ : ℕ)
    rw [hone, entry, hinUse]
    rfl
  · show (s.entry th).inUse + 1 < 2 ^ 15
    omega
  · show th.sock ≠ 0 ↔ 0 < (s.setThread t _).users _ _
    rw [hone]
    exact ⟨fun _ => Nat.succ_pos _, fun _ => hth.2.1⟩
  · -- The entry keeps its socket, or gets that of the thread.
    rw [held_eq_zero rfl]
    by_cases ho : th.socketAlreadyOpen
    · have hheld : th.sock = s.held (.entry th.proto (s.indexPort th)) := hok.joined hflight ho
      rw [hheld, Function.update_eq_self]
      exact h.exclusive.drop _
    · have hheld : th.sock = s.held (.thread t) := by
        rw [held_thread ht, SockThread.held, if_pos ⟨hlive, Bool.eq_false_iff.2 ho, .inr hpc⟩]
      rw [hheld, Function.update_comm (by simp)]
      exact h.exclusive.pass _ _
  · refine ⟨hslotok.session_eq, hslotok.slot_eq, fun p i hp htook => ?_⟩
    rw [← hslotok.session_eq, ← hslotok.slot_eq, hslot] at hs
    cases hs
    exact ⟨Option.some.inj (hproto.symm.trans hp), Option.some.inj htook⟩
  · refine ⟨nofun, fun hlocks => absurd hlocks.inFlight nofun, nofun, fun i hi => ?_,
      fun _ => hth.2⟩
    cases hi
    show th.sock = ((s.setShared _ _ _).shared _ _).socket
    rw [shared_setShared, if_pos ⟨rfl, rfl⟩]
  · -- The entry had no flows, if it had no socket.
    refine ⟨fun huses₁ => ?_, fun _ => id⟩
    have hne := (h.socket_iff _ _).2 (users_pos ht₁ huses₁)
    exact hok.joined hflight (hopen.2 hne)

/-- What becomes of an entry that is given back by one of its flows: only the last one closes its
    socket. -/
theorem CountInv.release_spec (h : s.CountInv) (huses : 0 < s.users p i)
    (hstep : s.release p i = some s') : (s.shared p i).mutexSharedSockets = none ∧
    ∃ v files, s' = { s.setShared p i v with files := files } ∧
      v.inUse = (s.shared p i).inUse - 1 ∧
      (s.users p i = 1 ∧ v.socket = 0 ∧
          files = Function.update s.files (s.shared p i).socket none ∨
        1 < s.users p i ∧ v.socket = (s.shared p i).socket ∧ files = s.files) := by
  have heq := h.inUse_eq p i
  have hlt := h.inUse_lt p i
  have hshort : short ((s.shared p i).inUse - 1) = (s.shared p i).inUse - 1 := by
    apply short_eq <;> omega
  obtain ⟨hmutex, ⟨hzero, rfl⟩ | ⟨hzero, rfl⟩⟩ := release_eq_some hstep
  · rw [hshort] at hzero
    exact ⟨hmutex, _, _, rfl, hzero.symm, .inl ⟨by omega, rfl, rfl⟩⟩
  · rw [hshort] at hzero
    exact ⟨hmutex, _, s.files, rfl, hshort, .inr ⟨by omega, rfl, rfl⟩⟩

/-- The socket of a flow is given back, and its handler is done with it. -/
theorem CountInv.giveBack (h : s.CountInv) (ht : s.threads[t]? = some th) (huses : th.uses p i)
    (hstep : s.release p i = some s') : (s'.setThread t { th with ended := true }).CountInv := by
  obtain ⟨hmutex, v, files, rfl, hinUse, hv⟩ := h.release_spec (users_pos ht huses) hstep
  have hflight : th.pc.inFlight = false := by
    rw [← Bool.not_eq_true]
    exact fun hpc => absurd ((h.given t th ht hpc).1.symm.trans huses.2.1) nofun
  -- There is one flow less.
  have hone : (s.setThread t { th with ended := true }).users p i + 1 = s.users p i := by
    have hset := users_setThread ht { th with ended := true } p i
    rwa [if_pos huses, if_neg fun huses' => absurd huses'.2.2 nofun] at hset
  have heq := h.inUse_eq p i
  have hlt := h.inUse_lt p i
  refine h.setEntry ht rfl ⟨rfl, rfl, rfl⟩ hflight
    (fun t₁ hlock => absurd (hmutex.symm.trans hlock) nofun) (fun p' i' hpi => ?_)
    ⟨?_, by omega, ?_⟩ ?_ (fun j k slot _ hslotok => ⟨hslotok.1, hslotok.2, hslotok.3⟩) nofun
    fun t₁ th₁ htt ht₁ hlive => ?_
  · refine ⟨fun huses' => absurd huses'.2.2 nofun, fun huses' => absurd ?_ hpi⟩
    exact ⟨huses'.1.symm.trans huses.1, Option.some.inj (huses'.2.1.symm.trans huses.2.1)⟩
  · show v.inUse = ((s.setThread t { th with ended := true }).users p i : ℕ)
    omega
  · show v.socket ≠ 0 ↔ 0 < (s.setThread t { th with ended := true }).users p i
    have hsocket := (h.socket_iff p i).2 (by omega)
    rcases hv with ⟨hlast, hv, -⟩ | ⟨hmore, hv, -⟩
    · rw [hv]
      omega
    · rw [hv]
      exact ⟨fun _ => by omega, fun _ => hsocket⟩
  · have hzero : ({ th with ended := true } : SockThread).held = 0 := if_neg nofun
    rw [hzero]
    rcases hv with ⟨-, hv, -⟩ | ⟨-, hv, -⟩
    · rw [hv]
      exact (h.exclusive.drop _).drop _
    · have hsame : v.socket = s.held (.entry p i) := hv
      rw [hsame, Function.update_eq_self]
      exact h.exclusive.drop _
  · -- The last flow of an entry is not that of another thread.
    have hlast (hone' : s.users p i = 1) : ¬th₁.uses p i := fun huses₁ => by
      have hmem : (s.setThread t { th with ended := true }).threads[t₁]? = some th₁ := by
        rw [getElem?_setThread ht, if_neg htt, ht₁]
      have hpos := users_pos hmem huses₁
      omega
    have hok := h.thread t₁ th₁ ht₁ hlive
    rcases hv with ⟨hone', -, rfl⟩ | ⟨-, hv, rfl⟩
    · -- The socket that is closed is that of no other holder.
      refine ⟨fun huses₁ => absurd huses₁ (hlast hone'), fun hact hfile => ?_⟩
      refine (Function.update_of_ne (fun hsock => ?_) ..).trans hfile
      obtain ⟨d, hd, hcases⟩ := hok.exists_held ht₁ hact
      have hne : s.held d ≠ 0 := by
        rw [hd]
        exact (hok.active hact).1
      obtain rfl := h.exclusive d (.entry p i) hne (hd.trans hsock)
      rcases hcases with hd | ⟨i', htook, hd⟩ | ⟨hlock, hd⟩
      · cases hd
      · cases hd
        exact hlast hone' ⟨rfl, htook, hlive⟩
      · cases hd
        exact absurd (hmutex.symm.trans hlock) nofun
    · exact ⟨fun _ => hv, fun _ => id⟩

/-! ### Steps of sessions -/

theorem CountInv.setPhase (h : s.CountInv) (j : ℕ) (phase : SockPhase) :
    (s.setPhase j phase).CountInv :=
  h.congr rfl rfl rfl (sameSlots_of_eq (slot_setPhase phase))

/-- A slot is freed, once its thread is done with. -/
theorem CountInv.freeFlow {slot slot' : SockSlot} (h : (s.endThread slot.hThr).CountInv)
    (hslot : s.slot j k = some slot') (hcore : slot.core = slot'.core)
    (hclose : 0 < slot.socketClose → (s.endThread slot.hThr).Unused slot.socketClose) :
    (s.freeFlow j k slot).CountInv := by
  rw [Multiport.freeFlow]
  split_ifs with hpos
  · have h' : (((s.setFile slot.socketClose none).setSlot j k
        { slot with flowId := noFlow }).endThread slot.hThr).CountInv :=
      (h.closeFile (hclose hpos)).congr rfl rfl rfl (sameSlots_setSlot hslot hcore)
    exact h'.setPhase j .idle
  · have h' : ((s.setSlot j k { slot with flowId := noFlow }).endThread slot.hThr).CountInv :=
      h.congr rfl rfl rfl (sameSlots_setSlot hslot hcore)
    exact h'.setPhase j .idle

/-- A thread that its handler is done with does not need its socket any more. -/
theorem Unused.endThread {fd : ℕ} (h : s.Unused fd) (hThr : Option ℕ) :
    (s.endThread hThr).Unused fd := by
  obtain heq | ⟨t, th, rfl, ht, heq⟩ := s.modifyThread_eq hThr fun th => { th with ended := true }
  · rwa [Multiport.endThread, heq]
  · rw [Multiport.endThread, heq]
    intro hfd th₁ hmem hlive
    obtain ⟨t₁, ht₁⟩ := List.mem_iff_getElem?.1 hmem
    rw [getElem?_setThread ht] at ht₁
    split_ifs at ht₁
    · cases ht₁
      cases hlive
    · exact h hfd th₁ (List.mem_of_getElem? ht₁) hlive

/-- The rest of the handler of the end of a flow. -/
theorem CountInv.closing (h : s.CountInv) {ss : SockSession} (hss : s.sessions[j]? = some ss)
    (hbalanced : s.Balanced (.session j .giveBack)) (hstep : s.giveBack j ss = some s') :
    s'.CountInv := by
  obtain ⟨k, slot, hphase, hk, hcases⟩ := giveBack_eq_some hstep
  have hslot : s.slot j k = some slot := slot_eq_some.2 ⟨ss, hss, hk⟩
  obtain ⟨hcounted, hunused⟩ := hbalanced slot (by
    rw [closingSlot, hss, Option.bind_some, hphase]
    exact hk)
  obtain ⟨p, u, hp, hu, rfl⟩ | ⟨hp, rfl⟩ := hcases
  · -- The flow of the slot has taken its socket from the entry of the slot.
    obtain ⟨t, th, hthr, ht, hc⟩ := ofThread_iff.1 (hcounted.1 (by rw [hp]; rfl))
    obtain ⟨th', ht', hok⟩ := h.slots j k slot t hslot hthr
    obtain rfl : th' = th := Option.some.inj (ht'.symm.trans ht)
    simp only [SockThread.counted, Bool.and_eq_true, Option.isSome_iff_exists,
      Bool.not_eq_true'] at hc
    obtain ⟨⟨i, htook⟩, hlive⟩ := hc
    obtain ⟨hproto, hindex⟩ := hok.took p i hp htook
    have huses : th'.uses p slot.indexPort := ⟨hproto, by rw [hindex, htook], hlive⟩
    obtain ⟨-, v, files, hs', -⟩ := h.release_spec (users_pos ht huses) hu
    have hend : u.endThread slot.hThr = u.setThread t { th' with ended := true } := by
      rw [hthr]
      exact modifyThread_some (by rw [hs']; exact ht) _
    have hslotu : u.slot j k = some slot := by rw [hs']; exact hslot
    -- The socket is given back before the slot is freed.
    refine CountInv.freeFlow ?_ hslotu rfl fun hpos => ?_
    · show (u.endThread slot.hThr).CountInv
      rw [hend]
      exact h.giveBack ht huses hu
    · -- On TCP `socketClose` is closed, which no other flow needs.
      have hudp : p ≠ .udp := fun heq => by simp [heq] at hpos
      have hsame : (if p = .udp then 0 else slot.socketClose) = slot.socketClose := if_neg hudp
      rw [hsame]
      have hunused' : s.Unused slot.socketClose :=
        hunused (by rw [hp]; exact fun heq => hudp (Option.some.inj heq))
      have hunusedu : u.Unused slot.socketClose := by rw [hs']; exact hunused'
      exact hunusedu.endThread _
  · refine CountInv.freeFlow (h.endThread fun t th hthr ht => ?_) hslot rfl
      fun _ => (hunused (by rw [hp]; nofun)).endThread _
    by_contra hc
    -- Without an entry no flow has been counted.
    have hnone := hcounted.2 (ofThread_iff.2 ⟨t, th, hthr, ht, Bool.eq_true_of_not_eq_false hc⟩)
    rw [hp] at hnone
    cases hnone

/-- A message of the pipe. -/
theorem CountInv.pipeParser (h : s.CountInv) {ss : SockSession} (hss : s.sessions[j]? = some ss)
    (hbalanced : s.Balanced (.session j .pipe)) (hstep : s.pipeParser j ss = some s') :
    s'.CountInv := by
  obtain ⟨code, flowId, rPipe, u, hpipe, rfl, hcases⟩ := pipeParser_eq_some hstep
  have hu : (s.modifySession j fun ss => { ss with rPipe := rPipe }).CountInv :=
    h.congr rfl rfl rfl (sameSlots_of_eq (slot_setPipe rPipe j))
  obtain rfl | ⟨k, slot, hcode, hfind, hk, rfl⟩ := hcases
  · exact hu
  · have hcounted := hbalanced slot (errorSlot_eq_some hss hpipe hcode hfind hk)
    have hslot := (slot_setPipe rPipe j j k).trans (slot_eq_some.2 ⟨ss, hss, hk⟩)
    refine CountInv.congr ((hu.terminateThread slot.hThr).endThread fun t th hthr ht => ?_)
      rfl rfl rfl (sameSlots_setSlot hslot rfl)
    -- That it has been cancelled does not matter for what it has taken.
    by_contra hc
    refine hcounted (ofThread_iff.2 ?_)
    obtain heq | ⟨t', th', hthr', ht', heq⟩ := modifyThread_eq
      (s.modifySession j fun ss => { ss with rPipe := rPipe }) slot.hThr
      fun th => { th with cancelled := true }
    · rw [Multiport.terminateThread, heq] at ht
      exact ⟨t, th, hthr, ht, Bool.eq_true_of_not_eq_false hc⟩
    · obtain rfl : t = t' := Option.some.inj (hthr.symm.trans hthr')
      rw [Multiport.terminateThread, heq, getElem?_setThread ht', if_pos rfl] at ht
      cases ht
      exact ⟨t, th', hthr, ht', Bool.eq_true_of_not_eq_false hc⟩

/-- A slot gets a flow, perhaps with a new thread. -/
theorem CountInv.fill (h : s.CountInv) {slot v : SockSlot} (hslot : s.slot j k = some slot)
    (hflight : ¬s.OfThread (·.pc.inFlight) slot) (new : Option SockThread)
    (hnew : ∀ th ∈ new, s.Created j k v th)
    (hv : ∀ t, v.hThr = some t → ∃ th, (s.threads ++ new.toList)[t]? = some th ∧
      SlotOk j k v th) :
    CountInv { s.setSlot j k v with threads := s.threads ++ new.toList } := by
  have hsome : (s.slot j k).isSome := by rw [hslot]; rfl
  have hold {t : ℕ} {th : SockThread} (ht : s.threads[t]? = some th) :
      (s.threads ++ new.toList)[t]? = some th :=
    (List.getElem?_append_left (List.getElem?_eq_some_iff.1 ht).1).trans ht
  have husers (p : SharedProto) (i : UInt16) :
      (s.threads ++ new.toList).countP (·.uses p i) = s.users p i := by
    -- A new thread has taken no socket yet.
    have hzero : new.toList.countP (·.uses p i) = 0 := by
      refine List.countP_eq_zero.2 fun th hth => ?_
      obtain ⟨-, -, heq⟩ := hnew th (Option.mem_toList.1 hth)
      rw [heq]
      simp [SockThread.uses]
    rw [List.countP_append, hzero]
    rfl
  have hheld : held { s.setSlot j k v with threads := s.threads ++ new.toList } = s.held := by
    ext d
    cases d with
    | entry p i => rfl
    | thread t =>
      rw [held, held]
      rcases ht : s.threads[t]? with _ | th
      · rcases ht' : (s.threads ++ new.toList)[t]? with _ | th
        · rfl
        · rcases getElem?_threads_append ht' with ht' | ⟨-, hmem⟩
          · exact absurd (ht.symm.trans ht') nofun
          · obtain ⟨-, -, heq⟩ := hnew th hmem
            have hzero : th.held = 0 := by
              rw [heq, SockThread.held, if_neg (by simp [SockThread.owns])]
            exact hzero
      · rw [hold ht]
  refine ⟨fun p i => ?_, h.inUse_lt, fun p i => ?_, ?_, h.given.fill hslot hflight hnew,
    fun j' k' slot' t hs hthr => ?_, fun t th ht hlive => ?_⟩
  · rw [users, husers]
    exact h.inUse_eq p i
  · rw [users, husers]
    exact h.socket_iff p i
  · rw [hheld]
    exact h.exclusive
  · have hs' := (slot_setSlot hsome v j' k').symm.trans hs
    split_ifs at hs' with hjk
    · cases hs'
      rw [hjk.1, hjk.2]
      exact hv t hthr
    · obtain ⟨th, ht, hok⟩ := h.slots j' k' slot' t hs' hthr
      exact ⟨th, hold ht, hok⟩
  · rcases getElem?_threads_append ht with ht | ⟨rfl, hmem⟩
    · exact (h.thread t th ht hlive).frame
        (fun hpc => indexPort_setSlot hsome v ((h.given t th ht hpc).ne_slot ht hpc hslot hflight))
        (fun _ _ _ => rfl) (fun _ _ => rfl) fun _ => id
    · obtain ⟨-, -, heq⟩ := hnew th hmem
      rw [heq]
      refine threadOk_of_took rfl (fun hlocks => ?_) nofun fun howns => ?_
      · simp [SockThread.locks] at hlocks
      · simp [SockThread.owns] at howns

/-- The request for a flow. -/
theorem CountInv.sendFlow (h : s.CountInv) {ss : SockSession} (hss : s.sessions[j]? = some ss)
    {l4Proto : UInt8} {ptrPort : UInt16} {flowId : UInt32}
    (hbalanced : s.Balanced (.session j (.sendFlow l4Proto ptrPort flowId)))
    (hstep : s.sendFlow j ss l4Proto ptrPort flowId = some s') : s'.CountInv := by
  obtain ⟨k, slot, v, new, hfind, hk, rfl, hnew, hnone⟩ := sendFlow_eq_some hstep
  have hslot : s.slot j k = some slot := slot_eq_some.2 ⟨ss, hss, hk⟩
  refine h.fill hslot (hbalanced slot (flowSlot_eq_some hss hfind hk)) new hnew fun t hthr => ?_
  rcases new with _ | th
  · -- The slot has the thread that it had before, but no shared socket.
    obtain ⟨hproto, hold⟩ := hnone rfl
    obtain ⟨th, ht, hok⟩ := h.slots j k slot t hslot (hold t hthr)
    exact ⟨th, by rw [Option.toList_none, List.append_nil, ht], hok.session_eq, hok.slot_eq,
      fun p i hp => absurd (hproto.symm.trans hp) nofun⟩
  · obtain ⟨hthr', -, heq⟩ := hnew th rfl
    obtain rfl : s.threads.length = t := Option.some.inj (hthr'.symm.trans hthr)
    refine ⟨th, List.getElem?_concat_length, ?_⟩
    rw [heq]
    exact ⟨rfl, rfl, nofun⟩

/-- A new session. -/
theorem CountInv.connect (h : s.CountInv) : s.connect.CountInv := by
  refine ⟨h.inUse_eq, h.inUse_lt, h.socket_iff, h.exclusive, h.given.connect,
    fun j k slot t hslot hthr => ?_, fun t th ht hlive => ?_⟩
  · rcases slot_connect s j k with heq | ⟨-, hfree⟩
    · exact h.slots j k slot t (heq.symm.trans hslot) hthr
    · exact absurd ((hfree slot hslot).symm.trans hthr) nofun
  · refine (h.thread t th ht hlive).frame (fun hpc => ?_) (fun _ _ _ => rfl) (fun _ _ => rfl)
      fun _ => id
    exact (h.given t th ht hpc).indexPort_connect

/-! ## Runs -/

theorem CountInv.threadStep (h : s.CountInv) (ht : s.threads[t]? = some th) {a : ThreadAction}
    (hbalanced : s.Balanced (.thread t a)) (hstep : s.threadStep e t th a = some s') :
    s'.CountInv := by
  have hpark (ha : a = .recvError ∨ a = .recvEnd ∨ a = .stop) : s'.CountInv := by
    obtain ⟨u, pc, hu, hcases, rfl⟩ := threadStep_parks ha hstep
    have hpc : pc.inFlight = false := by rcases hcases with ⟨rfl, -⟩ | ⟨rfl, -⟩ <;> rfl
    rcases hu with rfl | rfl
    · exact h.park ht hpc
    · exact (h.park ht hpc).sendPipeMsg th .errSock
  cases a with
  | lock => exact h.lock ht hstep
  | openSock sock port => exact h.openSock ht hbalanced hstep
  | join => exact h.join ht hstep
  | relock => exact h.relock ht (hbalanced th ht) hstep
  | accept newSock =>
    obtain ⟨hpc, -, hfile, rfl⟩ := accept_eq_some hstep
    obtain ⟨hlive, hroom⟩ := hbalanced th ht
    exact (h.takeSocket ht (.inl hpc) hlive hroom newSock).openFile hfile _
  | count =>
    obtain ⟨hpc, rfl⟩ := count_eq_some hstep
    obtain ⟨hlive, hroom⟩ := hbalanced th ht
    exact h.takeSocket ht (.inr hpc) hlive hroom th.sock
  | recvError => exact hpark (.inl rfl)
  | recvEnd => exact hpark (.inr (.inl rfl))
  | stop => exact hpark (.inr (.inr rfl))

theorem CountInv.sessionStep (h : s.CountInv) {ss : SockSession}
    (hss : s.sessions[j]? = some ss) {a : SessionAction} (hbalanced : s.Balanced (.session j a))
    (hstep : s.sessionStep j ss a = some s') : s'.CountInv := by
  cases a with
  | sendFlow l4Proto ptrPort flowId => exact h.sendFlow hss hbalanced hstep
  | closed flowId =>
    obtain ⟨k, slot, -, -, rfl⟩ | rfl := closed_eq_some hstep
    · exact (h.terminateThread slot.hThr).setPhase j (.closing k)
    · exact h
  | giveBack => exact h.closing hss hbalanced hstep
  | pipe => exact h.pipeParser hss hbalanced hstep
  | leave =>
    obtain rfl := leave_eq_some hstep
    exact h.setPhase j _
  | collect =>
    obtain ⟨i, slot, hphase, hslot, rfl⟩ := collect_eq_some hstep
    refine (h.closeFile (hbalanced slot ?_)).setPhase j _
    rw [closingSlot, hss, Option.bind_some, hphase]
    exact hslot
  | sweep =>
    obtain ⟨phase, rfl | ⟨p, i, hmutex, hzero, hpos, -⟩⟩ := sweep_eq_some hstep
    · exact h.setPhase j phase
    · -- An entry that is used by no flow has no socket.
      have hused := (h.socket_iff p i).1 (Nat.pos_iff_ne_zero.1 hpos)
      have heq := h.inUse_eq p i
      omega

theorem CountInv.step (h : s.CountInv) {a : MultiportAction} (hbalanced : s.Balanced a)
    (hstep : s.step e a = some s') : s'.CountInv := by
  cases a with
  | connect =>
    cases hstep
    exact h.connect
  | session j a =>
    obtain ⟨ss, hss, hstep⟩ := Option.bind_eq_some_iff.1 hstep
    exact h.sessionStep hss hbalanced hstep
  | thread t a =>
    obtain ⟨th, ht, hstep⟩ := Option.bind_eq_some_iff.1 hstep
    exact h.threadStep ht hbalanced hstep

theorem countInv_start (files : ℕ → Option UInt16) : (Multiport.start files).CountInv where
  inUse_eq _ _ := rfl
  inUse_lt _ _ := show (0 : ℤ) < 2 ^ 15 by decide
  socket_iff _ _ := ⟨fun h => absurd rfl h, fun h => absurd h (Nat.lt_irrefl 0)⟩
  exclusive d d' hd := by
    cases d with
    | entry p i => exact absurd rfl hd
    | thread t => exact absurd rfl hd
  given _ _ ht := absurd ht nofun
  slots _ _ _ _ hslot := absurd hslot nofun
  thread _ _ ht := absurd ht nofun

theorem CountInv.sharedOk (h : s.CountInv) : s.SharedOk where
  inUse_eq p i _ := h.inUse_eq p i
  socket_iff p i _ := by
    have hiff := h.socket_iff p i
    have heq := h.inUse_eq p i
    omega
  port_eq p i _ th hmem th' hmem' huses huses' := by
    obtain ⟨t, ht⟩ := List.mem_iff_getElem?.1 hmem
    obtain ⟨port, -, hport⟩ := h.file_entry ((h.socket_iff p i).2 (users_pos ht huses))
    rw [hport th hmem huses, hport th' hmem' huses']

end Invariant

/-- The entries of shared sockets, in runs whose steps take and give back sockets as they should:
    every entry that is not locked counts the live flows that have taken their socket from it,
    has a socket if there are any, and these are all bound to the same port. -/
theorem shared_counted (e : Endian) {s : Multiport}
    (h : (multiport e).ReachVia Multiport.Balanced s) : s.SharedOk := by
  have hinit (s : Multiport) (hs : (multiport e).init s) : s.CountInv := by
    obtain ⟨files, n, -, rfl⟩ := hs
    exact countInv_start files
  have hstep (s : Multiport) (a : MultiportAction) (s' : Multiport) (hs : s.CountInv)
      (hbalanced : s.Balanced a) (hstep : (multiport e).step s a = some s') : s'.CountInv :=
    hs.step hbalanced hstep
  exact (h.invariant hinit hstep).sharedOk

/-- Two flows share a socket, and one of them is closed. -/
def twoFlows : List MultiportAction :=
  [.connect, .session 0 (.sendFlow l4ProtoUDP 0x0F27 1), .thread 0 .lock,
    .thread 0 (.openSock 5 (some 9999)), .thread 0 .count, .session 0 .pipe,
    .session 0 (.sendFlow l4ProtoUDP 0x0F27 2), .thread 1 .lock, .thread 1 .join,
    .thread 1 .count, .session 0 .pipe, .session 0 (.closed 1), .thread 0 .stop,
    .session 0 .giveBack]

theorem shared_counted_two : ∃ s, (multiport .little).run (.start stdFiles) twoFlows = some s ∧
    s.sharedUdpSockets 0x0F27 = ⟨5, 1, none⟩ ∧ s.SharedOk := by
  have hrun : ((multiport .little).run (.start stdFiles) twoFlows).map
      (·.sharedUdpSockets 0x0F27) = some ⟨5, 1, none⟩ := by decide +kernel
  obtain ⟨s, hs, hentry⟩ := Option.map_eq_some_iff.1 hrun
  have hvia : (multiport .little).StepsVia Balanced (.start stdFiles) twoFlows := by decide +kernel
  exact ⟨s, hs, hentry, shared_counted .little (.run (.init (init_stdFiles .little)) hvia hs)⟩

/-- The connection of a flow fails. -/
def failedFlow : List MultiportAction :=
  [.connect, .session 0 (.sendFlow l4ProtoTCP 0x0F27 1), .thread 0 .lock,
    .thread 0 (.openSock 5 (some 9999)), .session 0 .pipe, .thread 0 (.accept 6),
    .thread 0 .recvError, .session 0 .pipe]

/-- The flow is over, and its entry counts it still. -/
theorem not_shared_counted : ¬∀ s, (multiport .little).Reachable s → s.SharedOk := by
  intro h
  have hrun : ((multiport .little).run (.start stdFiles) failedFlow).map
      (fun s => (s.sharedTcpSockets 0x0F27, s.users .tcp 0x0F27)) = some (⟨5, 1, none⟩, 0) := by
    decide +kernel
  obtain ⟨s, hs, heq⟩ := Option.map_eq_some_iff.1 hrun
  obtain ⟨hentry, husers⟩ := Prod.mk.inj heq
  have hentry' : s.shared .tcp 0x0F27 = ⟨5, 1, none⟩ := hentry
  have hok := (h s (.run (.init (init_stdFiles .little)) hs)).inUse_eq .tcp 0x0F27
  rw [hentry', husers] at hok
  exact absurd (hok rfl) (by decide)

end Multiport

end Ditg
