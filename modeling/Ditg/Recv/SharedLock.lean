import Ditg.Library.Forever
import Ditg.Recv.SharedSteps

/-!
# Who has locked the entries of shared sockets

The thread of a flow has the entry locked while it binds its socket, and, in `tcpSock`, while it
waits for a connection. A thread that is cancelled there, or cannot bind, does not unlock it, and
what `tcpSock` waits for is up to the sender: until it connects, whoever locks the entry waits.

* `shared_locks`: as long as the sockets for the ports that have been asked for can be bound, and
  no flow and no session ends before its threads have taken their sockets (`Unlocks`), entries
  are not locked by threads that have stopped; and if the threads go on and the senders connect
  (`GoOn`), every entry is unlocked again and again, so that no one waits for it for ever.
-/

namespace Ditg

open Bytes

/-! ## Statements -/

/-- How far a thread is from the end, counted down. -/
def SockPc.rank : SockPc → ℕ
  | .start => 5
  | .opening => 4
  | .relocking => 3
  | .accepting => 2
  | .counting => 1
  | .receiving | .asleep | .terminated => 0

namespace Multiport

/-- Who has locked an entry has not stopped, and has a next step. -/
def OwnersGoOn (e : Endian) (s : Multiport) : Prop :=
  ∀ p i t, (s.shared p i).mutexSharedSockets = some t →
    ∃ th, s.threads[t]? = some th ∧ th.pc ≠ .terminated ∧
      ∃ a, ((multiport e).step s (.thread t a)).isSome

/-- In a run that goes on for ever, no thread stays at `pc`. -/
def Leaves (ρ : ℕ → Multiport) (pc : SockPc) : Prop :=
  ∀ (n t : ℕ) (th : SockThread), (ρ n).threads[t]? = some th → th.pc = pc →
    ∃ m ≥ n, ∀ th' : SockThread, (ρ m).threads[t]? = some th' → th'.pc ≠ pc

/-- What the receiver waits for happens. -/
structure GoOn (ρ : ℕ → Multiport) : Prop where
  /-- Threads that do not wait are scheduled. -/
  opens : Leaves ρ .opening
  counts : Leaves ρ .counting
  /-- A sender connects to the thread that waits for it. -/
  connects : Leaves ρ .accepting

/-- The thread of a flow of TCP that has not accepted a connection. -/
def Accepting (th : SockThread) : Prop := th.proto = .tcp ∧ th.pc.inFlight

instance : DecidablePred Accepting := fun _ => inferInstanceAs (Decidable (_ ∧ _))

/-- A step does not keep an entry locked:
    * a request does not get the slot of a thread that is to take its socket;
    * a flow of TCP that is closed, or ended by an error, has accepted its connection;
    * no thread of a session that ends is to take its socket (it would go on with a `paraThread`
      that is gone);
    * a socket for a port that has been asked for can be bound. -/
def Unlocks (s : Multiport) : MultiportAction → Prop
  | .session j (.sendFlow _ _ _) => ∀ slot ∈ s.flowSlot j noFlow, ¬s.OfThread (·.pc.inFlight) slot
  | .session j (.closed flowId) => ∀ slot ∈ s.flowSlot j flowId, ¬s.OfThread Accepting slot
  | .session j .pipe => ∀ slot ∈ s.errorSlot j, ¬s.OfThread Accepting slot
  | .session j .leave => ∀ th ∈ s.threads, th.session = j → ¬th.pc.inFlight
  | .thread t (.openSock _ none) => ∀ th ∈ s.threads[t]?, s.indexPort th = 0
  | _ => True

instance (s : Multiport) : ∀ a, Decidable (s.Unlocks a)
  | .session j (.sendFlow _ _ _) =>
    inferInstanceAs (Decidable (∀ slot ∈ s.flowSlot j noFlow, ¬s.OfThread (·.pc.inFlight) slot))
  | .session j (.closed flowId) =>
    inferInstanceAs (Decidable (∀ slot ∈ s.flowSlot j flowId, ¬s.OfThread Accepting slot))
  | .session j .pipe =>
    inferInstanceAs (Decidable (∀ slot ∈ s.errorSlot j, ¬s.OfThread Accepting slot))
  | .session j .leave =>
    inferInstanceAs (Decidable (∀ th ∈ s.threads, th.session = j → ¬th.pc.inFlight))
  | .thread t (.openSock _ none) =>
    inferInstanceAs (Decidable (∀ th ∈ s.threads[t]?, s.indexPort th = 0))
  | .connect | .session _ .giveBack | .session _ .collect | .session _ .sweep
  | .thread _ (.openSock _ (some _)) | .thread _ .lock | .thread _ .join | .thread _ .relock
  | .thread _ (.accept _) | .thread _ .count | .thread _ .recvError | .thread _ .recvEnd
  | .thread _ .stop => instDecidableTrue

/-! ## The invariant -/

/-- An entry is locked by a thread that is to unlock it, and the threads of TCP that are to accept
    a connection have not been cancelled. -/
structure LockInv (s : Multiport) : Prop where
  given : s.AllGiven
  owner : ∀ p i t, (s.shared p i).mutexSharedSockets = some t →
    ∃ th, s.threads[t]? = some th ∧ th.proto = p ∧ s.indexPort th = i ∧ th.locks i
  thread : ∀ (t : ℕ) (th : SockThread), s.threads[t]? = some th →
    (th.pc = .accepting → th.proto = .tcp) ∧ (Accepting th → th.cancelled = false)
  files : ∃ n, ∀ fd, n ≤ fd → s.files fd = none

section Invariant

variable {e : Endian} {s s' : Multiport} {t : ℕ} {th th' : SockThread} {j k : ℕ}
  {ss : SockSession} {slot : SockSlot} {p : SharedProto} {i : UInt16}

/-- What a thread has locked is its own entry. -/
theorem LockInv.locks (h : s.LockInv) (ht : s.threads[t]? = some th)
    (hmutex : (s.shared p i).mutexSharedSockets = some t) :
    th.proto = p ∧ s.indexPort th = i ∧ th.locks i := by
  obtain ⟨th', ht', howner⟩ := h.owner p i t hmutex
  obtain rfl : th' = th := Option.some.inj (ht'.symm.trans ht)
  exact howner

/-- The invariant does not depend on anything else, and entries may be unlocked. -/
theorem LockInv.congr (h : s.LockInv) (hthreads : s'.threads = s.threads)
    (hmutex : ∀ p i, (s'.shared p i).mutexSharedSockets = (s.shared p i).mutexSharedSockets ∨
      (s'.shared p i).mutexSharedSockets = none)
    (hslots : SameSlots s s') (hfiles : ∃ n, ∀ fd, n ≤ fd → s'.files fd = none) :
    s'.LockInv := by
  refine ⟨h.given.congr hthreads hslots, fun p i t hlock => ?_, ?_, hfiles⟩
  · rcases hmutex p i with heq | hnone
    · obtain ⟨th, ht, hproto, hindex, hlocks⟩ := h.owner p i t (heq.symm.trans hlock)
      exact ⟨th, by rw [hthreads, ht], hproto, by rw [hslots.indexPort_eq, hindex], hlocks⟩
    · exact absurd (hnone.symm.trans hlock) nofun
  · rw [hthreads]
    exact h.thread

theorem LockInv.sendPipeMsg (h : s.LockInv) (th : SockThread) (code : PipeCode) :
    (s.sendPipeMsg th code).LockInv :=
  h.congr rfl (fun _ _ => .inl rfl) (sameSlots_of_eq (slot_sendPipeMsg code)) h.files

theorem LockInv.setPhase (h : s.LockInv) (j : ℕ) (phase : SockPhase) :
    (s.setPhase j phase).LockInv :=
  h.congr rfl (fun _ _ => .inl rfl) (sameSlots_of_eq (slot_setPhase phase)) h.files

/-- A descriptor is opened or closed. -/
theorem LockInv.setFile (h : s.LockInv) (fd : ℕ) (port : Option UInt16) :
    (s.setFile fd port).LockInv := by
  refine h.congr rfl (fun _ _ => .inl rfl) (fun _ _ => rfl) ?_
  obtain ⟨n, hn⟩ := h.files
  refine ⟨max n (fd + 1), fun fd' hfd' => ?_⟩
  have hne : fd' ≠ fd := by omega
  exact (Function.update_of_ne hne ..).trans (hn fd' (by omega))

/-! ### Steps of one thread -/

/-- A thread takes a step: of the entries, only its own is locked by it afterwards, and only if
    it is to unlock it. -/
theorem LockInv.modifyThread (h : s.LockInv) (ht : s.threads[t]? = some th)
    (hthreads : s'.threads = s.threads.set t th')
    (hgiven : th'.proto = th.proto ∧ th'.session = th.session ∧ th'.slot = th.slot)
    (htook : th'.pc.inFlight → th.pc.inFlight ∧ th'.took = th.took)
    (hok : (th'.pc = .accepting → th'.proto = .tcp) ∧ (Accepting th' → th'.cancelled = false))
    (hslots : SameSlots s s')
    (hmutex : ∀ p i t₁, (s'.shared p i).mutexSharedSockets = some t₁ →
      t₁ ≠ t ∧ (s.shared p i).mutexSharedSockets = some t₁ ∨
      t₁ = t ∧ th.proto = p ∧ s.indexPort th = i ∧ th'.locks i)
    (hfiles : ∃ n, ∀ fd, n ≤ fd → s'.files fd = none) : s'.LockInv := by
  have hset (t₁ : ℕ) : s'.threads[t₁]? = if t₁ = t then some th' else s.threads[t₁]? := by
    rw [hthreads]
    exact getElem?_setThread ht th' t₁
  refine ⟨(h.given.setThread ht hgiven htook).congr hthreads hslots, fun p i t₁ hlock => ?_,
    fun t₁ th₁ ht₁ => ?_, hfiles⟩
  · -- It was locked before by another thread, or it is locked by this one.
    obtain ⟨htt, hlock⟩ | ⟨rfl, hproto, hindex, hlocks⟩ := hmutex p i t₁ hlock
    · obtain ⟨th₁, ht₁, hproto, hindex, hlocks⟩ := h.owner p i t₁ hlock
      exact ⟨th₁, by rw [hset, if_neg htt, ht₁], hproto, by rw [hslots.indexPort_eq, hindex],
        hlocks⟩
    · refine ⟨th', by rw [hset, if_pos rfl], hgiven.1.trans hproto, ?_, hlocks⟩
      rw [hslots.indexPort_eq, ← hindex, indexPort, indexPort, paraThread, paraThread,
        hgiven.2.1, hgiven.2.2]
  · rw [hset] at ht₁
    split_ifs at ht₁
    · cases ht₁
      exact hok
    · exact h.thread t₁ th₁ ht₁

/-- A thread changes nothing but itself, and keeps the lock it has. -/
theorem LockInv.setThread (h : s.LockInv) (ht : s.threads[t]? = some th)
    (hgiven : th'.proto = th.proto ∧ th'.session = th.session ∧ th'.slot = th.slot)
    (htook : th'.pc.inFlight → th.pc.inFlight ∧ th'.took = th.took)
    (hok : (th'.pc = .accepting → th'.proto = .tcp) ∧ (Accepting th' → th'.cancelled = false))
    (hlocks : th.locks (s.indexPort th) → th'.locks (s.indexPort th)) :
    (s.setThread t th').LockInv := by
  refine h.modifyThread ht rfl hgiven htook hok (fun _ _ => rfl) (fun p i t₁ hlock => ?_) h.files
  by_cases htt : t₁ = t
  · subst htt
    obtain ⟨hproto, rfl, hl⟩ := h.locks ht hlock
    exact .inr ⟨rfl, hproto, rfl, hlocks hl⟩
  · exact .inl ⟨htt, hlock⟩

/-- A thread that has not locked anything locks its entry. -/
theorem LockInv.lockEntry (h : s.LockInv) (ht : s.threads[t]? = some th)
    (hgiven : th'.proto = th.proto ∧ th'.session = th.session ∧ th'.slot = th.slot)
    (htook : th'.pc.inFlight → th.pc.inFlight ∧ th'.took = th.took)
    (hok : (th'.pc = .accepting → th'.proto = .tcp) ∧ (Accepting th' → th'.cancelled = false))
    (hnone : ¬th.locks (s.indexPort th)) (hlocks : th'.locks (s.indexPort th)) :
    ((s.lockEntry t th).setThread t th').LockInv := by
  refine h.modifyThread ht rfl hgiven htook hok (fun _ _ => rfl) (fun p i t₁ hlock => ?_) h.files
  have hlock' : ((s.lockEntry t th).shared p i).mutexSharedSockets = some t₁ := hlock
  rw [Multiport.lockEntry, shared_setShared] at hlock'
  split_ifs at hlock' with hpi
  · exact .inr ⟨(Option.some.inj hlock').symm, hpi.1.symm, hpi.2.symm, hpi.2 ▸ hlocks⟩
  · refine .inl ⟨?_, hlock'⟩
    rintro rfl
    obtain ⟨-, rfl, hl⟩ := h.locks ht hlock'
    exact hnone hl

/-- The thread of a flow of TCP that is to take its socket has not been cancelled. -/
theorem LockInv.not_cancelled (h : s.LockInv) (ht : s.threads[t]? = some th)
    (hpc : th.pc.inFlight) (hproto : th.proto = .tcp) : th.cancelled = false :=
  (h.thread t th ht).2 ⟨hproto, hpc⟩

theorem tcp_of_waits (h : p.waits = .accepting) : p = .tcp := by
  cases p with
  | tcp => rfl
  | udp => cases h

theorem LockInv.lock (h : s.LockInv) (ht : s.threads[t]? = some th)
    (hstep : s.lock t th = some s') : s'.LockInv := by
  obtain ⟨hpc, hcases⟩ := lock_eq_some hstep
  have hflight : th.pc.inFlight := by rw [hpc]; rfl
  have hnone : ¬th.locks (s.indexPort th) := by simp [SockThread.locks, hpc]
  have hcancelled := h.not_cancelled ht hflight
  obtain ⟨-, rfl⟩ | ⟨hi, -, rfl⟩ := hcases
  · exact h.setThread ht ⟨rfl, rfl, rfl⟩ (fun _ => ⟨hflight, rfl⟩)
      ⟨nofun, fun hacc => hcancelled hacc.1⟩ fun hlocks => absurd hlocks hnone
  · exact h.lockEntry ht ⟨rfl, rfl, rfl⟩ (fun _ => ⟨hflight, rfl⟩)
      ⟨nofun, fun hacc => hcancelled hacc.1⟩ hnone (.inl ⟨rfl, hi⟩)

theorem LockInv.join (h : s.LockInv) (ht : s.threads[t]? = some th)
    (hstep : s.join t th = some s') : s'.LockInv := by
  obtain ⟨hpc, -, rfl⟩ := join_eq_some hstep
  have hflight : th.pc.inFlight := by rw [hpc]; rfl
  have hcancelled := h.not_cancelled ht hflight
  suffices h' : (s.setThread t { th with pc := th.proto.waits }).LockInv from
    h'.sendPipeMsg th .ok
  exact h.setThread ht ⟨rfl, rfl, rfl⟩ (fun _ => ⟨hflight, rfl⟩)
    ⟨tcp_of_waits, fun hacc => hcancelled hacc.1⟩
    fun _ => .inr (waits_cases th.proto)

theorem LockInv.relock (h : s.LockInv) (ht : s.threads[t]? = some th)
    (hstep : s.relock t th = some s') : s'.LockInv := by
  obtain ⟨hpc, -, rfl⟩ := relock_eq_some hstep
  have hflight : th.pc.inFlight := by rw [hpc]; rfl
  have hnone : ¬th.locks (s.indexPort th) := by simp [SockThread.locks, hpc]
  have hcancelled := h.not_cancelled ht hflight
  suffices h' : ((s.lockEntry t th).setThread t { th with pc := th.proto.waits }).LockInv from
    h'.sendPipeMsg th .ok
  exact h.lockEntry ht ⟨rfl, rfl, rfl⟩ (fun _ => ⟨hflight, rfl⟩)
    ⟨tcp_of_waits, fun hacc => hcancelled hacc.1⟩ hnone
    (.inr (waits_cases th.proto))

/-- The slot of a thread that has not locked anything gets the index of the port that the system
    has chosen. -/
theorem LockInv.setIndex (h : s.LockInv) (ht : s.threads[t]? = some th)
    (hpc : th.pc = .relocking) (port : UInt16) : (s.setSlot th.session th.slot
      { s.paraThread th with indexPort := port }).LockInv := by
  have hflight : th.pc.inFlight := by rw [hpc]; rfl
  have hgiven := h.given t th ht hflight
  obtain ⟨hslot, -⟩ := hgiven.paraThread_eq
  have hsome : (s.slot th.session th.slot).isSome := by rw [hslot]; rfl
  refine ⟨h.given.setIndex hslot port, fun p i t₁ hlock => ?_, h.thread, h.files⟩
  obtain ⟨th₁, ht₁, hproto, hindex, hlocks⟩ := h.owner p i t₁ hlock
  refine ⟨th₁, ht₁, hproto, ?_, hlocks⟩
  -- Who has locked an entry is not about to lock one, and has another slot.
  rw [indexPort_setSlot hsome _ (hgiven.ne (h.given t₁ th₁ ht₁ hlocks.inFlight) ?_), hindex]
  rintro rfl
  obtain rfl : th₁ = th := Option.some.inj (ht₁.symm.trans ht)
  simp [SockThread.locks, hpc] at hlocks

/-- The thread opens a socket, which can be bound if a port has been asked for. -/
theorem LockInv.openSock (h : s.LockInv) (ht : s.threads[t]? = some th) {sock : ℕ}
    {port : Option UInt16} (hbound : port = none → s.indexPort th = 0)
    (hstep : s.openSock t th e sock port = some s') : s'.LockInv := by
  obtain ⟨hpc, -, -, hport⟩ := openSock_eq_some hstep
  have hflight : th.pc.inFlight := by rw [hpc]; rfl
  have hcancelled := h.not_cancelled ht hflight
  -- A thread without a port that has been asked for has not locked anything.
  have hzero (hi : s.indexPort th = 0) : ¬th.locks (s.indexPort th) := by
    simp [SockThread.locks, hpc, hi]
  obtain ⟨hnone, rfl⟩ | ⟨p, -, hi, -, rfl⟩ | ⟨p, -, -, -, rfl⟩ := hport
  · suffices h' : (s.setThread t { th with pc := .asleep, sock := sock, port := 0 }).LockInv from
      (h'.setFile sock (some 0)).sendPipeMsg th .err1
    exact h.setThread ht ⟨rfl, rfl, rfl⟩ nofun ⟨nofun, fun hacc => absurd hacc.2 nofun⟩
      fun hlocks => absurd hlocks (hzero (hbound hnone))
  · suffices h' : (s.setThread t { th with pc := .relocking, sock := sock, port := p }).LockInv from
      (h'.setIndex (List.getElem?_set_self (List.getElem?_eq_some_iff.1 ht).1) rfl p).setFile
        sock (some p)
    exact h.setThread ht ⟨rfl, rfl, rfl⟩ (fun _ => ⟨hflight, rfl⟩)
      ⟨nofun, fun hacc => hcancelled hacc.1⟩ fun hlocks => absurd hlocks (hzero hi)
  · suffices h' : (s.setThread t
        { th with pc := th.proto.waits, sock := sock, port := p }).LockInv from
      (h'.setFile sock (some p)).sendPipeMsg th .ok
    exact h.setThread ht ⟨rfl, rfl, rfl⟩ (fun _ => ⟨hflight, rfl⟩)
      ⟨tcp_of_waits, fun hacc => hcancelled hacc.1⟩ fun _ => .inr (waits_cases th.proto)

/-- The entry that has been unlocked. -/
theorem mutex_takeSocket (s : Multiport) (t : ℕ) (th : SockThread) (socketClose : ℕ)
    (p : SharedProto) (i : UInt16) :
    ((s.takeSocket t th socketClose).shared p i).mutexSharedSockets =
      if p = th.proto ∧ i = s.indexPort th then none else (s.shared p i).mutexSharedSockets := by
  show ((s.setShared th.proto (s.indexPort th) _).shared p i).mutexSharedSockets = _
  rw [shared_setShared]
  split_ifs <;> rfl

theorem LockInv.takeSocket (h : s.LockInv) (ht : s.threads[t]? = some th)
    (hpc : th.pc.inFlight) (socketClose : ℕ) : (s.takeSocket t th socketClose).LockInv := by
  obtain ⟨hslot, -⟩ := (h.given t th ht hpc).paraThread_eq
  refine h.modifyThread ht rfl ⟨rfl, rfl, rfl⟩ nofun
    ⟨nofun, fun hacc => absurd hacc.2 nofun⟩ ?_ (fun p i t₁ hlock => ?_) h.files
  · exact sameSlots_setSlot hslot rfl
  · rw [mutex_takeSocket] at hlock
    split_ifs at hlock with hpi
    -- The thread has not locked any other entry.
    refine .inl ⟨?_, hlock⟩
    rintro rfl
    obtain ⟨hproto, hindex, -⟩ := h.locks ht hlock
    exact hpi ⟨hproto.symm, hindex.symm⟩

/-- A thread that has taken its socket falls asleep or stops: it has not locked anything. -/
theorem LockInv.park (h : s.LockInv) (ht : s.threads[t]? = some th) {pc : SockPc}
    (hpc : pc.inFlight = false) (hnone : ¬th.locks (s.indexPort th)) :
    (s.setThread t { th with pc := pc }).LockInv := by
  have hflight : ¬pc.inFlight := by simp [hpc]
  refine h.setThread ht ⟨rfl, rfl, rfl⟩ (fun hpc' => absurd hpc' hflight) ⟨?_, ?_⟩
    fun hlocks => absurd hlocks hnone
  · rintro rfl
    cases hpc
  · exact fun hacc => absurd hacc.2 hflight

/-! ### Steps of sessions -/

/-- A thread is cancelled that is not to accept a connection. -/
theorem LockInv.terminateThread (h : s.LockInv) {hThr : Option ℕ}
    (hacc : ∀ t th, hThr = some t → s.threads[t]? = some th → ¬Accepting th) :
    (s.terminateThread hThr).LockInv := by
  obtain heq | ⟨t, th, rfl, ht, heq⟩ :=
    s.modifyThread_eq hThr fun th => { th with cancelled := true }
  · rwa [Multiport.terminateThread, heq]
  · rw [Multiport.terminateThread, heq]
    exact h.setThread ht ⟨rfl, rfl, rfl⟩ (fun hpc => ⟨hpc, rfl⟩)
      ⟨(h.thread t th ht).1, fun hacc' => absurd hacc' (hacc t th rfl ht)⟩ id

theorem LockInv.endThread (h : s.LockInv) (hThr : Option ℕ) : (s.endThread hThr).LockInv := by
  obtain heq | ⟨t, th, rfl, ht, heq⟩ := s.modifyThread_eq hThr fun th => { th with ended := true }
  · rwa [Multiport.endThread, heq]
  · rw [Multiport.endThread, heq]
    exact h.setThread ht ⟨rfl, rfl, rfl⟩ (fun hpc => ⟨hpc, rfl⟩) (h.thread t th ht) id

/-- A slot is changed, but not for its thread. -/
theorem LockInv.setSlot (h : s.LockInv) {v : SockSlot} (hslot : s.slot j k = some slot)
    (hv : v.core = slot.core) : (s.setSlot j k v).LockInv :=
  h.congr rfl (fun _ _ => .inl rfl) (sameSlots_setSlot hslot hv) h.files

/-- An entry gets other contents, and is not locked by anyone else. -/
theorem LockInv.setShared (h : s.LockInv) {v : SharedSocket}
    (hv : v.mutexSharedSockets = (s.shared p i).mutexSharedSockets) :
    (s.setShared p i v).LockInv := by
  refine h.congr rfl (fun p' i' => .inl ?_) (fun _ _ => rfl) h.files
  rw [shared_setShared]
  split_ifs with hpi
  · rw [hv, hpi.1, hpi.2]
  · rfl

theorem LockInv.release (h : s.LockInv) (hstep : s.release p i = some s') : s'.LockInv := by
  obtain ⟨-, ⟨-, rfl⟩ | ⟨-, rfl⟩⟩ := release_eq_some hstep
  · exact (h.setFile _ none).setShared rfl
  · exact h.setShared rfl

theorem LockInv.freeFlow (h : s.LockInv) {slot' : SockSlot} (hslot : s.slot j k = some slot)
    (hcore : slot'.core = slot.core) : (s.freeFlow j k slot').LockInv := by
  rw [Multiport.freeFlow]
  split_ifs
  · refine (((h.setFile slot'.socketClose none).setSlot hslot ?_).endThread _).setPhase j .idle
    exact hcore
  · refine ((h.setSlot hslot ?_).endThread _).setPhase j .idle
    exact hcore

/-- The rest of the handler of the end of a flow. -/
theorem LockInv.giveBack (h : s.LockInv) (hss : s.sessions[j]? = some ss)
    (hstep : s.giveBack j ss = some s') : s'.LockInv := by
  obtain ⟨k, slot, -, hk, hcases⟩ := giveBack_eq_some hstep
  have hslot : s.slot j k = some slot := slot_eq_some.2 ⟨ss, hss, hk⟩
  obtain ⟨p, u, -, hu, rfl⟩ | ⟨-, rfl⟩ := hcases
  · have hslotu : u.slot j k = some slot := by
      obtain ⟨-, ⟨-, rfl⟩ | ⟨-, rfl⟩⟩ := release_eq_some hu <;> exact hslot
    exact (h.release hu).freeFlow hslotu rfl
  · exact h.freeFlow hslot rfl

/-- The message that is read ends no flow of TCP that is to accept a connection. -/
theorem LockInv.pipeParser (h : s.LockInv) (hss : s.sessions[j]? = some ss)
    (hunlocks : s.Unlocks (.session j .pipe)) (hstep : s.pipeParser j ss = some s') :
    s'.LockInv := by
  obtain ⟨code, flowId, rPipe, u, hpipe, rfl, hcases⟩ := pipeParser_eq_some hstep
  have hu : (s.modifySession j fun ss => { ss with rPipe := rPipe }).LockInv :=
    h.congr rfl (fun _ _ => .inl rfl) (sameSlots_of_eq (slot_setPipe rPipe j)) h.files
  obtain rfl | ⟨k, slot, hcode, hfind, hk, rfl⟩ := hcases
  · exact hu
  · have hacc := hunlocks slot (errorSlot_eq_some hss hpipe hcode hfind hk)
    have hslot := (slot_setPipe rPipe j j k).trans (slot_eq_some.2 ⟨ss, hss, hk⟩)
    have hcancel := hu.terminateThread fun t th hthr ht hth =>
      hacc (ofThread_iff.2 ⟨t, th, hthr, ht, hth⟩)
    refine (hcancel.setSlot hslot ?_).endThread slot.hThr
    rfl

/-- A slot gets a flow, perhaps with a new thread. -/
theorem LockInv.fill (h : s.LockInv) {v : SockSlot} (hslot : s.slot j k = some slot)
    (hflight : ¬s.OfThread (·.pc.inFlight) slot) (new : Option SockThread)
    (hnew : ∀ th ∈ new, s.Created j k v th) :
    LockInv { s.setSlot j k v with threads := s.threads ++ new.toList } := by
  have hsome : (s.slot j k).isSome := by rw [hslot]; rfl
  refine ⟨h.given.fill hslot hflight hnew, fun p i t hlock => ?_, fun t th ht => ?_, h.files⟩
  · obtain ⟨th, ht, hproto, hindex, hlocks⟩ := h.owner p i t hlock
    have hne := (h.given t th ht hlocks.inFlight).ne_slot ht hlocks.inFlight hslot hflight
    refine ⟨th, ?_, hproto, (indexPort_setSlot hsome v hne).trans hindex, hlocks⟩
    exact (List.getElem?_append_left (List.getElem?_eq_some_iff.1 ht).1).trans ht
  · rcases getElem?_threads_append ht with ht | ⟨-, hmem⟩
    · exact h.thread t th ht
    · obtain ⟨-, -, heq⟩ := hnew th hmem
      rw [heq]
      exact ⟨nofun, fun _ => rfl⟩

/-- The request for a flow. -/
theorem LockInv.sendFlow (h : s.LockInv) (hss : s.sessions[j]? = some ss) {l4Proto : UInt8}
    {ptrPort : UInt16} {flowId : UInt32}
    (hunlocks : s.Unlocks (.session j (.sendFlow l4Proto ptrPort flowId)))
    (hstep : s.sendFlow j ss l4Proto ptrPort flowId = some s') : s'.LockInv := by
  obtain ⟨k, slot, v, new, hfind, hk, rfl, hnew, -⟩ := sendFlow_eq_some hstep
  have hslot : s.slot j k = some slot := slot_eq_some.2 ⟨ss, hss, hk⟩
  exact h.fill hslot (hunlocks slot (flowSlot_eq_some hss hfind hk)) new hnew

/-- A new session. -/
theorem LockInv.connect (h : s.LockInv) : s.connect.LockInv := by
  refine ⟨h.given.connect, fun p i t hlock => ?_, h.thread, h.files⟩
  obtain ⟨th, ht, hproto, hindex, hlocks⟩ := h.owner p i t hlock
  exact ⟨th, ht, hproto, (h.given t th ht hlocks.inFlight).indexPort_connect.trans hindex, hlocks⟩

/-! ## Runs -/

theorem LockInv.threadStep (h : s.LockInv) (ht : s.threads[t]? = some th) {a : ThreadAction}
    (hunlocks : s.Unlocks (.thread t a)) (hstep : s.threadStep e t th a = some s') :
    s'.LockInv := by
  have hpark (ha : a = .recvError ∨ a = .recvEnd ∨ a = .stop) : s'.LockInv := by
    obtain ⟨u, pc, hu, hcases, rfl⟩ := threadStep_parks ha hstep
    have hpc : pc.inFlight = false := by rcases hcases with ⟨rfl, -⟩ | ⟨rfl, -⟩ <;> rfl
    have hnone : ¬th.locks (s.indexPort th) := by
      rintro (⟨hopening, -⟩ | haccepting | hcounting)
      · simp [hopening, SockPc.waiting] at hcases
      · -- A thread that is in `accept` has not been cancelled.
        have hcancelled := h.not_cancelled ht (by rw [haccepting]; rfl)
          ((h.thread t th ht).1 haccepting)
        simp [haccepting, hcancelled] at hcases
      · simp [hcounting, SockPc.waiting] at hcases
    rcases hu with rfl | rfl
    · exact h.park ht hpc hnone
    · exact (h.park ht hpc hnone).sendPipeMsg th .errSock
  cases a with
  | lock => exact h.lock ht hstep
  | openSock sock port =>
    refine h.openSock ht (fun hnone => ?_) hstep
    subst hnone
    exact hunlocks th ht
  | join => exact h.join ht hstep
  | relock => exact h.relock ht hstep
  | accept newSock =>
    obtain ⟨hpc, -, -, rfl⟩ := accept_eq_some hstep
    exact (h.takeSocket ht (by rw [hpc]; rfl) newSock).setFile newSock _
  | count =>
    obtain ⟨hpc, rfl⟩ := count_eq_some hstep
    exact h.takeSocket ht (by rw [hpc]; rfl) th.sock
  | recvError => exact hpark (.inl rfl)
  | recvEnd => exact hpark (.inr (.inl rfl))
  | stop => exact hpark (.inr (.inr rfl))

theorem LockInv.sessionStep (h : s.LockInv) (hss : s.sessions[j]? = some ss)
    {a : SessionAction} (hunlocks : s.Unlocks (.session j a))
    (hstep : s.sessionStep j ss a = some s') : s'.LockInv := by
  cases a with
  | sendFlow l4Proto ptrPort flowId => exact h.sendFlow hss hunlocks hstep
  | closed flowId =>
    obtain ⟨k, slot, hfind, hk, rfl⟩ | rfl := closed_eq_some hstep
    · have hacc := hunlocks slot (flowSlot_eq_some hss hfind hk)
      have hcancel := h.terminateThread fun t th hthr ht hth =>
        hacc (ofThread_iff.2 ⟨t, th, hthr, ht, hth⟩)
      exact hcancel.setPhase j (.closing k)
    · exact h
  | giveBack => exact h.giveBack hss hstep
  | pipe => exact h.pipeParser hss hunlocks hstep
  | leave =>
    obtain rfl := leave_eq_some hstep
    exact h.setPhase j _
  | collect =>
    obtain ⟨i, slot, -, -, rfl⟩ := collect_eq_some hstep
    exact (h.setFile _ none).setPhase j _
  | sweep =>
    obtain ⟨phase, rfl | ⟨p, i, -, -, -, rfl⟩⟩ := sweep_eq_some hstep
    · exact h.setPhase j phase
    · refine ((h.setFile _ none).setShared ?_).setPhase j phase
      rfl

theorem LockInv.step (h : s.LockInv) {a : MultiportAction} (hunlocks : s.Unlocks a)
    (hstep : s.step e a = some s') : s'.LockInv := by
  cases a with
  | connect =>
    cases hstep
    exact h.connect
  | session j a =>
    obtain ⟨ss, hss, hstep⟩ := Option.bind_eq_some_iff.1 hstep
    exact h.sessionStep hss hunlocks hstep
  | thread t a =>
    obtain ⟨th, ht, hstep⟩ := Option.bind_eq_some_iff.1 hstep
    exact h.threadStep ht hunlocks hstep

theorem lockInv_start {files : ℕ → Option UInt16} {n : ℕ}
    (hfiles : ∀ fd, n ≤ fd → files fd = none) : (Multiport.start files).LockInv where
  given _ _ ht := absurd ht nofun
  owner _ _ _ hlock := absurd hlock nofun
  thread _ _ ht := absurd ht nofun
  files := ⟨n, hfiles⟩

/-! ## Who has locked an entry goes on -/

theorem step_thread (ht : s.threads[t]? = some th) (a : ThreadAction) :
    (multiport e).step s (.thread t a) = s.threadStep e t th a := by
  show s.threads[t]?.bind _ = _
  rw [ht, Option.bind_some]

/-- Who has locked an entry can open its socket, accept a connection or count its flow. -/
theorem LockInv.ownersGoOn (h : s.LockInv) (e : Endian) : s.OwnersGoOn e := by
  intro p i t hmutex
  obtain ⟨th, ht, -, rfl, hlocks⟩ := h.owner p i t hmutex
  obtain ⟨n, hn⟩ := h.files
  refine ⟨th, ht, fun hpc => absurd hlocks.inFlight (by rw [hpc]; nofun), ?_⟩
  rcases hlocks with ⟨hpc, hi⟩ | hpc | hpc
  · by_cases hopen : th.socketAlreadyOpen
    · refine ⟨.join, ?_⟩
      rw [step_thread ht, Multiport.threadStep, Multiport.join, if_pos ⟨hpc, hopen⟩]
      rfl
    · refine ⟨.openSock n (some (ntohs e (s.indexPort th))), ?_⟩
      rw [step_thread ht, Multiport.threadStep, Multiport.openSock,
        if_neg (by simp [hpc, hopen, hn n le_rfl])]
      dsimp only
      rw [if_neg hi, if_pos rfl]
      rfl
  · have hcancelled := h.not_cancelled ht (by rw [hpc]; rfl) ((h.thread t th ht).1 hpc)
    refine ⟨.accept n, ?_⟩
    rw [step_thread ht, Multiport.threadStep, accept,
      if_neg (by simp [hpc, hcancelled, hn n le_rfl])]
    rfl
  · refine ⟨.count, ?_⟩
    rw [step_thread ht, Multiport.threadStep, count, if_pos hpc]
    rfl

/-! ### What the others do meanwhile -/

/-- No entry is locked or unlocked, and no thread goes on. -/
structure Quiet (s s' : Multiport) : Prop where
  mutex : ∀ p i, (s'.shared p i).mutexSharedSockets = (s.shared p i).mutexSharedSockets
  pc : ∀ (t : ℕ) (th : SockThread), s.threads[t]? = some th →
    ∃ th' : SockThread, s'.threads[t]? = some th' ∧ th'.pc = th.pc

theorem quiet_of_eq (hshared : s'.shared = s.shared) (hthreads : s'.threads = s.threads) :
    Quiet s s' :=
  ⟨fun _ _ => by rw [hshared], fun _ th ht => ⟨th, by rw [hthreads, ht], rfl⟩⟩

theorem Quiet.trans {s'' : Multiport} (h : Quiet s s') (h' : Quiet s' s'') : Quiet s s'' := by
  refine ⟨fun p i => (h'.mutex p i).trans (h.mutex p i), fun t th ht => ?_⟩
  obtain ⟨th', ht', hpc⟩ := h.pc t th ht
  obtain ⟨th'', ht'', hpc'⟩ := h'.pc t th' ht'
  exact ⟨th'', ht'', hpc'.trans hpc⟩

theorem quiet_modifyThread (hThr : Option ℕ) {f : SockThread → SockThread}
    (hf : ∀ th, (f th).pc = th.pc) : Quiet s (s.modifyThread hThr f) := by
  rcases s.modifyThread_eq hThr f with heq | ⟨t₀, th₀, rfl, ht₀, heq⟩
  · rw [heq]
    exact quiet_of_eq rfl rfl
  · rw [heq]
    refine ⟨fun _ _ => rfl, fun t th ht => ?_⟩
    rw [getElem?_setThread ht₀]
    split_ifs with htt
    · subst htt
      obtain rfl : th₀ = th := Option.some.inj (ht₀.symm.trans ht)
      exact ⟨_, rfl, hf th₀⟩
    · exact ⟨th, ht, rfl⟩

theorem quiet_terminateThread (hThr : Option ℕ) : Quiet s (s.terminateThread hThr) :=
  quiet_modifyThread hThr fun _ => rfl

theorem quiet_endThread (hThr : Option ℕ) : Quiet s (s.endThread hThr) :=
  quiet_modifyThread hThr fun _ => rfl

theorem quiet_modifySession (j : ℕ) (f : SockSession → SockSession) :
    Quiet s (s.modifySession j f) := quiet_of_eq rfl rfl

theorem quiet_setFile (fd : ℕ) (port : Option UInt16) : Quiet s (s.setFile fd port) :=
  quiet_of_eq rfl rfl

theorem quiet_setShared {v : SharedSocket}
    (hv : v.mutexSharedSockets = (s.shared p i).mutexSharedSockets) :
    Quiet s (s.setShared p i v) := by
  refine ⟨fun p' i' => ?_, fun t th ht => ⟨th, ht, rfl⟩⟩
  rw [shared_setShared]
  split_ifs with hpi
  · rw [hv, hpi.1, hpi.2]
  · rfl

theorem quiet_release (hstep : s.release p i = some s') : Quiet s s' := by
  obtain ⟨-, ⟨-, rfl⟩ | ⟨-, rfl⟩⟩ := release_eq_some hstep
  · refine (quiet_setFile (s.shared p i).socket none).trans (quiet_setShared ?_)
    rfl
  · exact quiet_setShared rfl

theorem quiet_freeFlow (j k : ℕ) (slot : SockSlot) : Quiet s (s.freeFlow j k slot) := by
  have hclosed : Quiet s (if 0 < slot.socketClose then s.setFile slot.socketClose none else s) := by
    split_ifs
    · exact quiet_setFile _ _
    · exact quiet_of_eq rfl rfl
  exact ((hclosed.trans (quiet_modifySession j _)).trans (quiet_endThread slot.hThr)).trans
    (quiet_modifySession j _)

/-- The handlers of the sessions neither lock nor unlock an entry, and no thread goes on. -/
theorem quiet_sessionStep {a : SessionAction} (hstep : s.sessionStep j ss a = some s') :
    Quiet s s' := by
  cases a with
  | sendFlow l4Proto ptrPort flowId =>
    obtain ⟨k, slot, v, new, -, -, rfl, -, -⟩ := sendFlow_eq_some hstep
    refine ⟨fun _ _ => rfl, fun t th ht => ⟨th, ?_, rfl⟩⟩
    exact (List.getElem?_append_left (List.getElem?_eq_some_iff.1 ht).1).trans ht
  | closed flowId =>
    obtain ⟨k, slot, -, -, rfl⟩ | rfl := closed_eq_some hstep
    · exact (quiet_terminateThread slot.hThr).trans (quiet_modifySession j _)
    · exact quiet_of_eq rfl rfl
  | giveBack =>
    obtain ⟨k, slot, -, -, ⟨p, u, -, hu, rfl⟩ | ⟨-, rfl⟩⟩ := giveBack_eq_some hstep
    · exact (quiet_release hu).trans (quiet_freeFlow j k _)
    · exact quiet_freeFlow j k _
  | pipe =>
    obtain ⟨code, flowId, rPipe, u, -, rfl, rfl | ⟨k, slot, -, -, -, rfl⟩⟩ :=
      pipeParser_eq_some hstep
    · exact quiet_modifySession j _
    · exact (((quiet_modifySession j _).trans (quiet_terminateThread slot.hThr)).trans
        (quiet_modifySession j _)).trans (quiet_endThread slot.hThr)
  | leave =>
    obtain rfl := leave_eq_some hstep
    exact quiet_modifySession j _
  | collect =>
    obtain ⟨i, slot, -, -, rfl⟩ := collect_eq_some hstep
    exact (quiet_setFile _ _).trans (quiet_modifySession j _)
  | sweep =>
    obtain ⟨phase, rfl | ⟨p, i, -, -, -, rfl⟩⟩ := sweep_eq_some hstep
    · exact quiet_modifySession j _
    · refine ((quiet_setFile (s.shared p i).socket none).trans (quiet_setShared ?_)).trans
        (quiet_modifySession j _)
      rfl

/-! ### The steps of threads -/

/-- An entry that is locked is unlocked, or stays so for the same thread. -/
def KeepsOwners (s s' : Multiport) : Prop :=
  ∀ p i t, (s.shared p i).mutexSharedSockets = some t →
    (s'.shared p i).mutexSharedSockets = none ∨ (s'.shared p i).mutexSharedSockets = some t

theorem keepsOwners_lockEntry (hnone : (s.entry th).mutexSharedSockets = none) (t : ℕ) :
    KeepsOwners s (s.lockEntry t th) := by
  intro p i t₁ hmutex
  rw [Multiport.lockEntry, shared_setShared]
  split_ifs with hpi
  · rw [hpi.1, hpi.2] at hmutex
    exact (Option.some_ne_none t₁ (hmutex.symm.trans hnone)).elim
  · exact .inr hmutex

/-- A step of a thread is one of this thread alone, and brings it on. -/
theorem threadStep_spec {a : ThreadAction} (hstep : s.threadStep e t th a = some s') :
    KeepsOwners s s' ∧
      ∃ th', s'.threads = s.threads.set t th' ∧ th'.pc.rank ≤ th.pc.rank := by
  have hsame : KeepsOwners s s := fun _ _ _ hmutex => .inr hmutex
  have hrank (pc' : SockPc) {pc : SockPc} (hpc : th.pc = pc) (h : pc'.rank ≤ pc.rank) :
      pc'.rank ≤ th.pc.rank := hpc ▸ h
  have hwaits : th.proto.waits.rank ≤ 2 := by cases th.proto <;> decide
  have htakes (socketClose : ℕ) : KeepsOwners s (s.takeSocket t th socketClose) := by
    intro p i t₁ hmutex
    rw [mutex_takeSocket]
    split_ifs
    · exact .inl rfl
    · exact .inr hmutex
  have hparks (ha : a = .recvError ∨ a = .recvEnd ∨ a = .stop) : KeepsOwners s s' ∧
      ∃ th', s'.threads = s.threads.set t th' ∧ th'.pc.rank ≤ th.pc.rank := by
    obtain ⟨u, pc, hu, hcases, rfl⟩ := threadStep_parks ha hstep
    have hpc : pc.rank = 0 := by rcases hcases with ⟨rfl, -⟩ | ⟨rfl, -⟩ <;> rfl
    rcases hu with rfl | rfl
    · exact ⟨hsame, _, rfl, hpc.trans_le (Nat.zero_le _)⟩
    · exact ⟨hsame, _, rfl, hpc.trans_le (Nat.zero_le _)⟩
  cases a with
  | lock =>
    obtain ⟨hpc, ⟨-, rfl⟩ | ⟨-, hnone, rfl⟩⟩ := lock_eq_some hstep
    · exact ⟨hsame, _, rfl, hrank .opening hpc (by decide)⟩
    · exact ⟨keepsOwners_lockEntry hnone t, _, rfl, hrank .opening hpc (by decide)⟩
  | openSock sock port =>
    obtain ⟨hpc, -, -, ⟨-, rfl⟩ | ⟨p, -, -, -, rfl⟩ | ⟨p, -, -, -, rfl⟩⟩ := openSock_eq_some hstep
    · exact ⟨hsame, _, rfl, hrank .asleep hpc (by decide)⟩
    · exact ⟨hsame, _, rfl, hrank .relocking hpc (by decide)⟩
    · exact ⟨hsame, _, rfl, hwaits.trans (by rw [hpc]; decide)⟩
  | join =>
    obtain ⟨hpc, -, rfl⟩ := join_eq_some hstep
    exact ⟨hsame, _, rfl, hwaits.trans (by rw [hpc]; decide)⟩
  | relock =>
    obtain ⟨hpc, hnone, rfl⟩ := relock_eq_some hstep
    exact ⟨keepsOwners_lockEntry hnone t, _, rfl, hwaits.trans (by rw [hpc]; decide)⟩
  | accept newSock =>
    obtain ⟨-, -, -, rfl⟩ := accept_eq_some hstep
    exact ⟨htakes newSock, _, rfl, Nat.zero_le _⟩
  | count =>
    obtain ⟨-, rfl⟩ := count_eq_some hstep
    exact ⟨htakes th.sock, _, rfl, Nat.zero_le _⟩
  | recvError => exact hparks (.inl rfl)
  | recvEnd => exact hparks (.inr (.inl rfl))
  | stop => exact hparks (.inr (.inr rfl))

/-- How far a thread of the receiver is. -/
def rank (s : Multiport) (t : ℕ) : ℕ := (s.threads[t]?.map (·.pc.rank)).getD 0

theorem rank_eq (ht : s.threads[t]? = some th) : s.rank t = th.pc.rank := by
  rw [rank, ht, Option.map_some, Option.getD_some]

/-- A step keeps the thread that has locked an entry, or unlocks it, and threads only go on. -/
theorem step_owner {a : MultiportAction} (hstep : s.step e a = some s')
    (hmutex : (s.shared p i).mutexSharedSockets = some t) (ht : s.threads[t]? = some th) :
    (s'.shared p i).mutexSharedSockets = none ∨
      (s'.shared p i).mutexSharedSockets = some t ∧ s'.rank t ≤ s.rank t := by
  have hquiet (h : Quiet s s') : (s'.shared p i).mutexSharedSockets = none ∨
      (s'.shared p i).mutexSharedSockets = some t ∧ s'.rank t ≤ s.rank t := by
    obtain ⟨th', ht', hpc⟩ := h.pc t th ht
    exact .inr ⟨(h.mutex p i).trans hmutex, by rw [rank_eq ht, rank_eq ht', hpc]⟩
  cases a with
  | connect =>
    cases hstep
    exact hquiet (quiet_of_eq rfl rfl)
  | session j a =>
    obtain ⟨ss, -, hstep⟩ := Option.bind_eq_some_iff.1 hstep
    exact hquiet (quiet_sessionStep hstep)
  | thread t₁ a =>
    obtain ⟨th₁, ht₁, hstep⟩ := Option.bind_eq_some_iff.1 hstep
    obtain ⟨hkeeps, th', hthreads, hrank⟩ := threadStep_spec hstep
    refine (hkeeps p i t hmutex).imp_right fun hmutex' => ⟨hmutex', ?_⟩
    have hset := getElem?_setThread ht₁ th' t
    by_cases htt : t = t₁
    · subst htt
      rw [if_pos rfl] at hset
      rw [rank_eq ht₁, rank_eq ((congrArg (·[t]?) hthreads).trans hset)]
      exact hrank
    · rw [if_neg htt] at hset
      rw [rank_eq ht, rank_eq ((congrArg (·[t]?) hthreads).trans (hset.trans ht))]

/-- Where a thread is that has locked an entry. -/
theorem LockInv.leaves (h : s.LockInv) (hmutex : (s.shared p i).mutexSharedSockets = some t) :
    ∃ th, s.threads[t]? = some th ∧ th.pc ∈ [.opening, .accepting, .counting] := by
  obtain ⟨th, ht, -, -, hlocks⟩ := h.owner p i t hmutex
  refine ⟨th, ht, ?_⟩
  rcases hlocks with ⟨hpc, -⟩ | hpc | hpc <;> rw [hpc] <;> decide

theorem eq_of_rank_eq {pc pc' : SockPc} (h : pc ∈ [.opening, .accepting, .counting])
    (h' : pc' ∈ [.opening, .accepting, .counting]) (hrank : pc'.rank = pc.rank) : pc' = pc := by
  simp only [List.mem_cons, List.not_mem_nil, or_false] at h h'
  rcases h with rfl | rfl | rfl <;> rcases h' with rfl | rfl | rfl <;>
    first | rfl | exact absurd hrank (by decide)

theorem GoOn.leaves {ρ : ℕ → Multiport} (h : GoOn ρ) {pc : SockPc}
    (hpc : pc ∈ [.opening, .accepting, .counting]) : Leaves ρ pc := by
  simp only [List.mem_cons, List.not_mem_nil, or_false] at hpc
  rcases hpc with rfl | rfl | rfl
  · exact h.opens
  · exact h.connects
  · exact h.counts

end Invariant

/-! ## Runs that go on for ever -/

theorem lockInv_of_reachVia {e : Endian} {s : Multiport} (h : (multiport e).ReachVia Unlocks s) :
    s.LockInv := by
  have hinit (s : Multiport) (hs : (multiport e).init s) : s.LockInv := by
    obtain ⟨files, n, hfiles, rfl⟩ := hs
    exact lockInv_start hfiles
  have hstep (s : Multiport) (a : MultiportAction) (s' : Multiport) (hs : s.LockInv)
      (hunlocks : s.Unlocks a) (hstep : (multiport e).step s a = some s') : s'.LockInv :=
    hs.step hunlocks hstep
  exact h.invariant hinit hstep

/-- An entry that a thread has locked is unlocked. -/
theorem exists_unlocked {e : Endian} {ρ : ℕ → Multiport} (h : (multiport e).Forever Unlocks ρ)
    (hgoOn : GoOn ρ) {n t : ℕ} {p : SharedProto} {i : UInt16}
    (hmutex : ((ρ n).shared p i).mutexSharedSockets = some t) :
    ∃ m ≥ n, ((ρ m).shared p i).mutexSharedSockets = none := by
  refine h.leadsTo (fun s => (s.shared p i).mutexSharedSockets = some t)
    (fun s => (s.shared p i).mutexSharedSockets = none) (fun s => s.rank t)
    (fun s a s' hs hmutex _ hstep => ?_) (fun n hmutex => ?_) hmutex
  · obtain ⟨th, ht, -⟩ := (lockInv_of_reachVia hs).leaves hmutex
    exact step_owner hstep hmutex ht
  · -- The thread goes on, and is not where it has been if it still has the lock.
    obtain ⟨th, ht, hpc⟩ := (lockInv_of_reachVia (h.reachVia n)).leaves hmutex
    obtain ⟨m, hm, hleaves⟩ := hgoOn.leaves hpc n t th ht rfl
    refine ⟨m, hm, ?_⟩
    rintro ⟨hmutex', hrank⟩
    obtain ⟨th', ht', hpc'⟩ := (lockInv_of_reachVia (h.reachVia m)).leaves hmutex'
    rw [rank_eq ht, rank_eq ht'] at hrank
    exact hleaves th' ht' (eq_of_rank_eq hpc hpc' hrank)

/-- The entries of shared sockets, in runs in which the sockets for the ports that have been asked
    for can be bound and no flow of TCP and no session ends before its threads have taken their
    sockets: they are not locked by threads that have stopped, and whoever has locked one can go
    on. If threads go on and senders connect, every entry is unlocked again and again, so that no
    lock waits for ever. -/
theorem shared_locks (e : Endian) :
    (∀ s, (multiport e).ReachVia Unlocks s → s.OwnersGoOn e) ∧
      ∀ ρ, (multiport e).Forever Unlocks ρ → GoOn ρ →
        ∀ n p i, ∃ m ≥ n, ((ρ m).shared p i).mutexSharedSockets = none := by
  refine ⟨fun s hs => (lockInv_of_reachVia hs).ownersGoOn e, fun ρ hρ hgoOn n p i => ?_⟩
  rcases hmutex : ((ρ n).shared p i).mutexSharedSockets with _ | t
  · exact ⟨n, le_rfl, hmutex⟩
  · exact exists_unlocked hρ hgoOn hmutex

/-- A run that ends with all threads in `recv`, asleep or terminated. -/
theorem goOn_trace {e : Endian} {s s' : Multiport} {as : List MultiportAction}
    (hrun : (multiport e).run s as = some s') (hs : ∀ th ∈ s'.threads, th.pc.rank = 0) :
    GoOn ((multiport e).trace s as) := by
  have hleaves {pc : SockPc} (hpc : pc.rank ≠ 0) : Leaves ((multiport e).trace s as) pc := by
    refine fun n t th _ _ => ⟨max n as.length, le_max_left .., fun th' ht' => ?_⟩
    rw [Transition.trace_of_le hrun (le_max_right ..)] at ht'
    rintro rfl
    exact hpc (hs th' (List.mem_of_getElem? ht'))
  exact ⟨hleaves (by decide), hleaves (by decide), hleaves (by decide)⟩

/-- Two flows of TCP to a port, in two sessions: the thread of the first one waits for a
    connection with the entry locked, which the second one waits for; a sender connects to each,
    and the flows are closed. -/
def acceptedTwice : List MultiportAction :=
  [.connect, .session 0 (.sendFlow l4ProtoTCP 0x0F27 1), .thread 0 .lock,
    .thread 0 (.openSock 5 (some 9999)), .connect, .session 1 (.sendFlow l4ProtoTCP 0x0F27 1),
    .session 0 .pipe, .thread 0 (.accept 6), .thread 1 .lock, .thread 1 .join,
    .thread 1 (.accept 7), .session 0 (.closed 1), .thread 0 .stop, .session 0 .giveBack,
    .session 0 .leave]

/-- The entry is locked, by the first thread and then by the second one, and is unlocked after
    both. -/
theorem shared_locks_accepted : ∃ ρ, (multiport .little).Forever Unlocks ρ ∧ GoOn ρ ∧
    ((ρ 7).sharedTcpSockets 0x0F27).mutexSharedSockets = some 0 ∧
    ((ρ 9).sharedTcpSockets 0x0F27).mutexSharedSockets = some 1 ∧ (ρ 9).OwnersGoOn .little ∧
    ∃ m ≥ 9, ((ρ m).sharedTcpSockets 0x0F27).mutexSharedSockets = none := by
  have hrun : ((multiport .little).run (.start stdFiles) acceptedTwice).any
      (fun s => s.threads.all (·.pc.rank = 0)) := by decide +kernel
  obtain ⟨s, hs, hranks⟩ := (Option.any_eq_true _ _).1 hrun
  have hvia : (multiport .little).StepsVia Unlocks (.start stdFiles) acceptedTwice := by
    decide +kernel
  have hforever := Transition.forever_trace (init_stdFiles .little) hvia hs
  have hgoOn := goOn_trace hs fun th hth => of_decide_eq_true (List.all_eq_true.1 hranks th hth)
  refine ⟨_, hforever, hgoOn, ?_, ?_, (shared_locks .little).1 _ (hforever.reachVia 9),
    (shared_locks .little).2 _ hforever hgoOn 9 .tcp 0x0F27⟩
  · decide +kernel
  · decide +kernel

/-- A flow of TCP is closed while its thread waits for a connection. -/
def closedAccepting : List MultiportAction :=
  [.connect, .session 0 (.sendFlow l4ProtoTCP 0x0F27 1), .thread 0 .lock,
    .thread 0 (.openSock 5 (some 9999)), .session 0 .pipe, .session 0 (.closed 1),
    .thread 0 .stop]

/-- The thread has stopped, and its entry stays locked. -/
theorem not_shared_locks : ¬∀ s, (multiport .little).Reachable s →
    ∀ p i t, (s.shared p i).mutexSharedSockets = some t →
      ∃ th, s.threads[t]? = some th ∧ th.pc ≠ .terminated := by
  intro h
  have hrun : ((multiport .little).run (.start stdFiles) closedAccepting).map
      (fun s => ((s.sharedTcpSockets 0x0F27).mutexSharedSockets, s.threads[0]?.map (·.pc))) =
        some (some 0, some .terminated) := by decide +kernel
  obtain ⟨s, hs, heq⟩ := Option.map_eq_some_iff.1 hrun
  obtain ⟨hmutex, hpc⟩ := Prod.mk.inj heq
  obtain ⟨th, ht, hne⟩ := h s (.run (.init (init_stdFiles .little)) hs) .tcp 0x0F27 0 hmutex
  rw [ht, Option.map_some] at hpc
  exact hne (Option.some.inj hpc)

end Multiport

end Ditg
