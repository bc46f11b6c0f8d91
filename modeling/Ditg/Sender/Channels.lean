import Mathlib.Data.List.FinRange
import Ditg.Library.Transition
import Ditg.Signaling.Session

/-!
# The signalling channels of the sender

The flows of a sender share its signalling connections: a flow that has to signal to an
address for which there is a channel joins it, and it is the last flow of a channel that
releases it. A channel counts its flows; a slot of the table of channels is used again
once it has been released.

* `identifySignalManager`, `isChannelClosable`: how a flow gets its channel, and how it
  leaves it;
* `channels_counted`: when not in passive mode, a channel is open as long as there are
  flows on it, and it is released once, by the last of them.

Where the channel of a flow goes to is the subject of `Ditg.Sender.Destination`.
-/

namespace Ditg

/-! ## The model -/

/-- The options of the sender that matter for its channels. -/
structure SendOptions where
  passiveMode : Bool
  multiFlows : Bool
  namelogReceiver : Bool
  logServer : Bool
  deriving DecidableEq

/-- A slot of the table `signalChannels`. The connections of the sender are numbered, as
    a descriptor may be used again; that of a free slot (-1) is `none`. -/
structure SignalChannel where
  socket : Option ℕ
  flows : ℤ
  /-- The ends of the pipe are open. -/
  pipe : Bool
  DestAddr : SockAddr
  errorLog : Bool
  /-- A thread has been created. -/
  handle : Bool
  deriving DecidableEq

/-- The channels, with the variables they depend on. -/
structure Channels where
  signalChannels : Fin maxNumThread → SignalChannel
  okToNewSignalingChan : Bool
  /-- The address that is the name in `globalSigAddr`, if there is one. -/
  globalSigAddr : Option SockAddr
  /-- Where the connections go to, in the order they have been set up. -/
  peers : List SockAddr
  /-- The sockets of the channels that have been released. -/
  released : List (Option ℕ)

/-- What comes of setting up a connection. -/
structure SetUp where
  /-- The address of the host that connects, in passive mode. -/
  peer : SockAddr
  /-- The request to log could be sent. -/
  sent : Bool
  /-- The answer to it. -/
  type : UInt8
  /-- There is a pipe. -/
  pipe : Bool

/-- What a flow gets: the result of the function, the channel, the changed arguments of the
    flow, and the channels. -/
structure Identified where
  rit : ℕ
  chanId : Fin maxNumThread
  DestHost : SockAddr
  dstAddrSpecify : Bool
  channels : Channels

/-- `ARE_INET_ADDR_EQUAL`. -/
def areInetAddrEqual (a b : SockAddr) : Bool :=
  match a.addr, b.addr with
  | .inet a, .inet b => a = b
  | .inet6 a, .inet6 b => a = b
  | _, _ => false

/-- A slot that has not been used. -/
def SignalChannel.closed : SignalChannel where
  socket := none
  flows := 0
  pipe := false
  DestAddr := ⟨.ofBytes 0 0 0 0, 0, 0⟩
  errorLog := false
  handle := false

/-- The channels at the start. -/
def Channels.start : Channels where
  signalChannels _ := .closed
  okToNewSignalingChan := true
  globalSigAddr := none
  peers := []
  released := []

namespace Channels

variable (o : SendOptions) (s : Channels)

/-- The slot `chanId` with a new value. -/
def setChannel (chanId : Fin maxNumThread) (ch : SignalChannel) : Channels :=
  { s with signalChannels := Function.update s.signalChannels chanId ch }

/-- A flow more on the channel. -/
def join (chanId : Fin maxNumThread) : Channels :=
  s.setChannel chanId
    { s.signalChannels chanId with flows := (s.signalChannels chanId).flows + 1 }

instance : NeZero maxNumThread := ⟨by decide⟩

/-- The first open channel to an address; the function also counts the flow. -/
def checkDestHostIP (DestHost : SockAddr) : Option (Fin maxNumThread) :=
  (List.finRange maxNumThread).find? fun i => (s.signalChannels i).socket.isSome &&
    areInetAddrEqual DestHost (s.signalChannels i).DestAddr

/-- The first free slot. -/
def freeSlot : Option (Fin maxNumThread) :=
  (List.finRange maxNumThread).find? fun i => (s.signalChannels i).socket.isNone

/-- In passive mode, a flow that gets an old channel takes over its address. The name has
    no port. -/
def oldChannel (chanId : Fin maxNumThread) (DestHost : SockAddr) (dstAddrSpecify : Bool) :
    Option Identified :=
  if o.passiveMode ∧ o.multiFlows then
    s.globalSigAddr.map fun addr => ⟨0, chanId, { addr with port := 0 }, true, s⟩
  else some ⟨0, chanId, DestHost, dstAddrSpecify, s⟩

/-- The connection (`createTransportChan`): the sender connects, or, in passive mode, gets
    the address of the host that does. -/
def createTransportChan (DestHost : SockAddr) (dstAddrSpecify : Bool) (setUp : SetUp) :
    SockAddr × SockAddr × Bool :=
  if o.passiveMode then
    (setUp.peer, if dstAddrSpecify then DestHost else { setUp.peer with port := DestHost.port },
      true)
  else (DestHost, DestHost, dstAddrSpecify)

/-- A new channel, if the request to log can be sent and there is a pipe. (Without a free
    slot, the loop that looks for one leaves the table.) -/
def newChannel (DestHost : SockAddr) (dstAddrSpecify : Bool) (setUp : SetUp) :
    Option Identified := do
  let (peer, DestHost, dstAddrSpecify) := createTransportChan o DestHost dstAddrSpecify setUp
  let logs := o.namelogReceiver || o.logServer
  guard (logs → setUp.sent)
  let chanId ← s.freeSlot
  guard setUp.pipe
  let ch := s.signalChannels chanId
  let errorLog := ch.errorLog || (logs && setUp.type = tspErrMsg4)
  let s := s.setChannel chanId
    { socket := some s.peers.length
      flows := 1
      pipe := true
      DestAddr := DestHost
      errorLog := errorLog
      handle := ch.handle || !errorLog }
  let s := { s with peers := s.peers ++ [peer] }
  if o.passiveMode ∧ o.multiFlows then
    return ⟨1, chanId, DestHost, dstAddrSpecify,
      { s with
        okToNewSignalingChan := false
        globalSigAddr := some { DestHost with port := 0 } }⟩
  else return ⟨1, chanId, DestHost, dstAddrSpecify, s⟩

/-- A flow gets its channel, if the function succeeds. It always runs under the mutex. -/
def identifySignalManager (DestHost : SockAddr) (dstAddrSpecify : Bool) (setUp : SetUp) :
    Option Identified :=
  match s.checkDestHostIP DestHost with
  | some chanId => (s.join chanId).oldChannel o chanId DestHost dstAddrSpecify
  | none =>
    if s.okToNewSignalingChan then s.newChannel o DestHost dstAddrSpecify setUp
    else if o.passiveMode ∧ o.multiFlows then
      -- Whatever channel there is now in the slot.
      (s.join 0).oldChannel o 0 DestHost dstAddrSpecify
    else none

/-- A flow leaves its channel, under the mutex. The last one releases it: a `TSP_RELEASE`,
    and the socket and the pipe are closed. -/
def isChannelClosable (id : Fin maxNumThread) : Bool × Channels :=
  let ch := { s.signalChannels id with flows := (s.signalChannels id).flows - 1 }
  if ch.flows = 0 then
    (true, { s.setChannel id { ch with socket := none, errorLog := false, pipe := false } with
      released := s.released ++ [ch.socket] })
  else (false, s.setChannel id ch)

end Channels

/-! ## Flows and their channels -/

/-- A flow that has got a channel. -/
structure Registration where
  /-- Where the flow has to signal. -/
  SigDestHost : SockAddr
  chanId : Fin maxNumThread
  /-- The connection of the channel, when the flow got it. -/
  socket : Option ℕ
  finished : Bool
  deriving DecidableEq

/-- The channels and the flows that have got one. -/
structure ChannelFlows where
  channels : Channels
  flows : List Registration

/-- What flows do: one gets a channel, or one that has a channel leaves it, once. -/
inductive ChannelAction
  | identify (SigDestHost : SockAddr) (dstAddrSpecify : Bool) (setUp : SetUp)
  | close (flow : ℕ)

/-- The flows on a channel: they have got it and have not finished. -/
def ChannelFlows.live (s : ChannelFlows) (chanId : Fin maxNumThread) : ℕ :=
  s.flows.countP fun f => f.chanId = chanId ∧ f.finished = false

/-- A flow with what it has got. -/
def ChannelFlows.register (s : ChannelFlows) (SigDestHost : SockAddr) (r : Identified) :
    ChannelFlows where
  channels := r.channels
  flows := s.flows ++ [⟨SigDestHost, r.chanId, (r.channels.signalChannels r.chanId).socket, false⟩]

/-- A flow leaves its channel. -/
def ChannelFlows.finish (s : ChannelFlows) (k : ℕ) (f : Registration) : ChannelFlows :=
  ⟨(s.channels.isChannelClosable f.chanId).2, s.flows.set k { f with finished := true }⟩

/-- The flows in the order in which they enter the mutex. -/
def channelSystem (o : SendOptions) : Transition ChannelFlows ChannelAction where
  init s := s = ⟨.start, []⟩
  step s
    | .identify SigDestHost dstAddrSpecify setUp =>
      (s.channels.identifySignalManager o SigDestHost dstAddrSpecify setUp).map
        (s.register SigDestHost)
    | .close flow => do
      let f ← s.flows[flow]?
      guard !f.finished
      return s.finish flow f

/-! ## What a call does -/

section Calls

variable {o : SendOptions} {s : Channels} {DestHost : SockAddr}

theorem areInetAddrEqual_iff {a b : SockAddr} : areInetAddrEqual a b ↔ a.addr = b.addr := by
  rw [areInetAddrEqual]
  split
  · rename_i h₁ h₂
    rw [h₁, h₂, decide_eq_true_iff, InetAddr.inet.injEq]
  · rename_i h₁ h₂
    rw [h₁, h₂, decide_eq_true_iff, InetAddr.inet6.injEq]
  · rename_i h₁ h₂
    refine ⟨fun h => absurd h Bool.false_ne_true, fun heq => ?_⟩
    rcases ha : a.addr with s_addr | sin6_addr
    · exact absurd (heq ▸ ha) (h₁ _ _ ha)
    · exact absurd (heq ▸ ha) (h₂ _ _ ha)

@[simp] theorem setChannel_same (c : Fin maxNumThread) (ch : SignalChannel) :
    (s.setChannel c ch).signalChannels c = ch :=
  Function.update_self ..

theorem setChannel_of_ne {c c' : Fin maxNumThread} (ch : SignalChannel) (h : c' ≠ c) :
    (s.setChannel c ch).signalChannels c' = s.signalChannels c' :=
  Function.update_of_ne h ..

/-- A flow more on a channel changes no socket. -/
@[simp] theorem socket_join (c c' : Fin maxNumThread) :
    ((s.join c).signalChannels c').socket = (s.signalChannels c').socket := by
  by_cases h : c' = c
  · rw [h, Channels.join, setChannel_same]
  · rw [Channels.join, setChannel_of_ne _ h]

theorem flows_join (c c' : Fin maxNumThread) : ((s.join c).signalChannels c').flows =
    (s.signalChannels c').flows + if c' = c then 1 else 0 := by
  by_cases h : c' = c
  · rw [h, Channels.join, setChannel_same, if_pos rfl]
  · rw [Channels.join, setChannel_of_ne _ h, if_neg h, add_zero]

theorem DestAddr_join (c c' : Fin maxNumThread) :
    ((s.join c).signalChannels c').DestAddr = (s.signalChannels c').DestAddr := by
  by_cases h : c' = c
  · rw [h, Channels.join, setChannel_same]
  · rw [Channels.join, setChannel_of_ne _ h]

theorem pipe_join (c c' : Fin maxNumThread) :
    ((s.join c).signalChannels c').pipe = (s.signalChannels c').pipe := by
  by_cases h : c' = c
  · rw [h, Channels.join, setChannel_same]
  · rw [Channels.join, setChannel_of_ne _ h]

theorem checkDestHostIP_some {c : Fin maxNumThread} (h : s.checkDestHostIP DestHost = some c) :
    (s.signalChannels c).socket.isSome ∧
      DestHost.addr = (s.signalChannels c).DestAddr.addr := by
  have := List.find?_some h
  rw [Bool.and_eq_true, areInetAddrEqual_iff] at this
  exact this

theorem checkDestHostIP_none (h : s.checkDestHostIP DestHost = none) (c : Fin maxNumThread)
    (hc : (s.signalChannels c).socket.isSome) :
    DestHost.addr ≠ (s.signalChannels c).DestAddr.addr := by
  have := List.find?_eq_none.1 h c (List.mem_finRange c)
  rw [Bool.and_eq_true, areInetAddrEqual_iff] at this
  exact fun heq => this ⟨hc, heq⟩

theorem freeSlot_some {c : Fin maxNumThread} (h : s.freeSlot = some c) :
    (s.signalChannels c).socket = none :=
  Option.isNone_iff_eq_none.1
    (List.find?_some (p := fun i => (s.signalChannels i).socket.isNone) h)

/-- The three ways in which a call succeeds. -/
inductive Identifies (o : SendOptions) (s : Channels) (DestHost : SockAddr) (r : Identified) :
    Prop
  /-- There is an open channel to the address. -/
  | joined (hcheck : s.checkDestHostIP DestHost = some r.chanId)
      (hchannels : r.channels = s.join r.chanId)
  /-- A channel is opened in a free slot. -/
  | opened (ch : SignalChannel) (peer : SockAddr)
      (hcheck : s.checkDestHostIP DestHost = none) (hok : s.okToNewSignalingChan)
      (hslot : s.freeSlot = some r.chanId) (hsocket : ch.socket = some s.peers.length)
      (hflows : ch.flows = 1) (hpipe : ch.pipe)
      (hpeer : o.passiveMode = false → ch.DestAddr = DestHost ∧ peer = DestHost)
      (hchannels : r.channels.signalChannels = (s.setChannel r.chanId ch).signalChannels)
      (hpeers : r.channels.peers = s.peers ++ [peer])
      (hreleased : r.channels.released = s.released)
      (hok' : r.channels.okToNewSignalingChan = !(o.passiveMode && o.multiFlows))
  /-- In passive mode, the flow gets the first slot. -/
  | first (hpassive : o.passiveMode) (hcheck : s.checkDestHostIP DestHost = none)
      (hok : s.okToNewSignalingChan = false) (hchanId : r.chanId = 0)
      (hchannels : r.channels = s.join 0)

theorem oldChannel_eq {c : Fin maxNumThread} {spec : Bool} {r : Identified}
    (h : s.oldChannel o c DestHost spec = some r) : r.chanId = c ∧ r.channels = s := by
  rw [Channels.oldChannel] at h
  split_ifs at h
  · obtain ⟨addr, -, rfl⟩ := Option.map_eq_some_iff.1 h
    exact ⟨rfl, rfl⟩
  · cases h
    exact ⟨rfl, rfl⟩

/-- A new channel is opened in a free slot, with the flow on it. -/
theorem newChannel_opened {spec : Bool} {setUp : SetUp} {r : Identified}
    (hcheck : s.checkDestHostIP DestHost = none) (hok : s.okToNewSignalingChan)
    (h : s.newChannel o DestHost spec setUp = some r) : Identifies o s DestHost r := by
  simp only [Channels.newChannel, bind, Option.bind_eq_some_iff] at h
  obtain ⟨-, -, c, hslot, -, -, h⟩ := h
  have hpeer : o.passiveMode = false →
      (Channels.createTransportChan o DestHost spec setUp).2.1 = DestHost ∧
        (Channels.createTransportChan o DestHost spec setUp).1 = DestHost := by
    intro hpassive
    rw [Channels.createTransportChan, if_neg (by simp [hpassive])]
    exact ⟨rfl, rfl⟩
  split_ifs at h with hmode
  · cases h
    exact .opened _ _ hcheck hok hslot rfl rfl rfl hpeer rfl rfl rfl (by simp [hmode])
  · cases h
    refine .opened _ _ hcheck hok hslot rfl rfl rfl hpeer rfl rfl rfl ?_
    rw [← Bool.and_eq_true, Bool.not_eq_true] at hmode
    rw [hmode]
    exact hok

/-- A call that succeeds does so in one of three ways. -/
theorem identifySignalManager_cases {spec : Bool} {setUp : SetUp} {r : Identified}
    (h : s.identifySignalManager o DestHost spec setUp = some r) : Identifies o s DestHost r := by
  rw [Channels.identifySignalManager] at h
  rcases hcheck : s.checkDestHostIP DestHost with _ | c
  · rw [hcheck] at h
    simp only at h
    split_ifs at h with hok hmode
    · exact newChannel_opened hcheck hok h
    · obtain ⟨hc, hchannels⟩ := oldChannel_eq h
      exact .first hmode.1 hcheck (Bool.not_eq_true _ ▸ hok) hc hchannels
  · rw [hcheck] at h
    obtain ⟨rfl, hchannels⟩ := oldChannel_eq h
    exact .joined hcheck hchannels

end Calls

/-! ## Channels count their flows -/

section Counted

variable {o : SendOptions} {s s' : ChannelFlows}

/-- The open channels have the flows that have got them and have not finished; those that
    are not open any more have been released, once. -/
structure Counted (s : ChannelFlows) : Prop where
  flows_eq : ∀ c, (s.channels.signalChannels c).socket.isSome →
    (s.channels.signalChannels c).flows = s.live c
  live_pos : ∀ c, (s.channels.signalChannels c).socket.isSome → 0 < s.live c
  pipe_open : ∀ c, (s.channels.signalChannels c).socket.isSome →
    (s.channels.signalChannels c).pipe
  /-- An unfinished flow has the connection of its channel. -/
  socket_eq : ∀ f ∈ s.flows, f.finished = false → f.socket.isSome ∧
    (s.channels.signalChannels f.chanId).socket = f.socket
  socket_lt : ∀ c n, (s.channels.signalChannels c).socket = some n → n < s.channels.peers.length
  socket_inj : ∀ c c' n, (s.channels.signalChannels c).socket = some n →
    (s.channels.signalChannels c').socket = some n → c = c'
  released_eq : ∀ n, s.channels.released.count (some n) =
    if n < s.channels.peers.length ∧ ∀ c, (s.channels.signalChannels c).socket ≠ some n then 1
    else 0

/-- A flow is on its channel until it finishes. -/
theorem live_pos_of_mem {f : Registration} (hf : f ∈ s.flows) (hfin : f.finished = false) :
    0 < s.live f.chanId :=
  List.countP_pos_iff.2 ⟨f, hf, by simp [hfin]⟩

theorem exists_of_live_pos {c : Fin maxNumThread} (h : 0 < s.live c) :
    ∃ f ∈ s.flows, f.finished = false ∧ f.chanId = c := by
  obtain ⟨f, hf, hlive⟩ := List.countP_pos_iff.1 h
  obtain ⟨hc, hfin⟩ := of_decide_eq_true hlive
  exact ⟨f, hf, hfin, hc⟩

/-- There is no flow on a channel that is not open. -/
theorem Counted.live_closed (h : Counted s) {c : Fin maxNumThread}
    (hc : (s.channels.signalChannels c).socket = none) : s.live c = 0 := by
  by_contra hne
  obtain ⟨f, hf, hfin, rfl⟩ := exists_of_live_pos (Nat.pos_of_ne_zero hne)
  obtain ⟨hsome, heq⟩ := h.socket_eq f hf hfin
  rw [← heq, hc] at hsome
  exact absurd hsome Bool.false_ne_true

theorem live_register {dest : SockAddr} {r : Identified} (c : Fin maxNumThread) :
    (s.register dest r).live c = s.live c + if c = r.chanId then 1 else 0 := by
  rw [ChannelFlows.live, ChannelFlows.register, List.countP_append, List.countP_singleton]
  simp only [eq_comm (a := r.chanId), and_true, decide_eq_true_eq]
  rfl

/-- A flow that finishes is the only one that leaves its channel. -/
theorem live_finish {k : ℕ} {f : Registration} {channels : Channels} (hk : s.flows[k]? = some f)
    (hfin : f.finished = false) (c : Fin maxNumThread) :
    ChannelFlows.live ⟨channels, s.flows.set k { f with finished := true }⟩ c +
      (if c = f.chanId then 1 else 0) = s.live c := by
  obtain ⟨hlt, rfl⟩ := List.getElem?_eq_some_iff.1 hk
  have hpos : c = s.flows[k].chanId → 0 < s.live c := by
    rintro rfl
    exact live_pos_of_mem (List.getElem_mem hlt) hfin
  rw [ChannelFlows.live, List.countP_set hlt]
  simp only [hfin, Bool.true_eq_false, and_false, decide_false, Bool.false_eq_true, if_false,
    and_true, decide_eq_true_eq, eq_comm (a := s.flows[k].chanId), add_zero]
  split_ifs with h
  · exact Nat.sub_add_cancel (hpos h)
  · rfl

/-- A flow joins an open channel. -/
theorem Counted.join (h : Counted s) {dest : SockAddr} {r : Identified}
    (hopen : (s.channels.signalChannels r.chanId).socket.isSome)
    (hr : r.channels = s.channels.join r.chanId) : Counted (s.register dest r) := by
  have hch : (s.register dest r).channels = s.channels.join r.chanId := hr
  have hsocket (c : Fin maxNumThread) : ((s.register dest r).channels.signalChannels c).socket =
      (s.channels.signalChannels c).socket := by rw [hch, socket_join]
  refine ⟨fun c hc => ?_, fun c hc => ?_, fun c hc => ?_, fun f hf hfin => ?_, fun c n hc => ?_,
    fun c c' n hc hc' => ?_, fun n => ?_⟩
  · rw [hsocket] at hc
    rw [hch, flows_join, live_register, h.flows_eq c hc]
    split_ifs <;> rfl
  · rw [hsocket] at hc
    rw [live_register]
    exact Nat.add_pos_left (h.live_pos c hc) _
  · rw [hsocket] at hc
    rw [hch, pipe_join]
    exact h.pipe_open c hc
  · rw [hsocket]
    rcases List.mem_append.1 hf with hf | hf
    · exact h.socket_eq f hf hfin
    · -- The new flow.
      obtain rfl := List.mem_singleton.1 hf
      have heq := (hsocket r.chanId).symm
      exact ⟨heq ▸ hopen, heq⟩
  · rw [hsocket] at hc
    exact hch ▸ h.socket_lt c n hc
  · rw [hsocket] at hc hc'
    exact h.socket_inj c c' n hc hc'
  · simp only [hsocket]
    exact hch ▸ h.released_eq n

/-- When one channel changes, a connection that it has neither before nor afterwards stays one of
    a channel, or of none. -/
theorem unconnected_congr {u u' : Channels} {d : Fin maxNumThread} {n : ℕ}
    (hother : ∀ c, c ≠ d → u'.signalChannels c = u.signalChannels c)
    (hd : (u.signalChannels d).socket ≠ some n) (hd' : (u'.signalChannels d).socket ≠ some n) :
    (∀ c, (u'.signalChannels c).socket ≠ some n) ↔
      ∀ c, (u.signalChannels c).socket ≠ some n := by
  refine forall_congr' fun c => ?_
  by_cases hcd : c = d
  · subst hcd
    exact iff_of_true hd' hd
  · rw [hother c hcd]

/-- A flow opens a channel in a free slot. -/
theorem Counted.open (h : Counted s) {dest peer : SockAddr} {r : Identified} {ch : SignalChannel}
    (hfree : (s.channels.signalChannels r.chanId).socket = none)
    (hsocket : ch.socket = some s.channels.peers.length) (hflows : ch.flows = 1) (hpipe : ch.pipe)
    (hchannels : r.channels.signalChannels = (s.channels.setChannel r.chanId ch).signalChannels)
    (hpeers : r.channels.peers = s.channels.peers ++ [peer])
    (hreleased : r.channels.released = s.channels.released) : Counted (s.register dest r) := by
  have hsame : (s.register dest r).channels.signalChannels r.chanId = ch :=
    (congrFun hchannels _).trans (setChannel_same ..)
  have hother {c : Fin maxNumThread} (hc : c ≠ r.chanId) :
      (s.register dest r).channels.signalChannels c = s.channels.signalChannels c :=
    (congrFun hchannels c).trans (setChannel_of_ne ch hc)
  have hlen : (s.register dest r).channels.peers.length = s.channels.peers.length + 1 :=
    (congrArg List.length hpeers).trans List.length_append
  have hnew (c : Fin maxNumThread) : (s.channels.signalChannels c).socket ≠
      some s.channels.peers.length := fun hc => Nat.lt_irrefl _ (h.socket_lt c _ hc)
  refine ⟨fun c hc => ?_, fun c hc => ?_, fun c hc => ?_, fun f hf hfin => ?_, fun c n hc => ?_,
    fun c c' n hc hc' => ?_, fun n => ?_⟩
  · rw [live_register]
    by_cases hcr : c = r.chanId
    · rw [hcr, hsame, hflows, if_pos rfl, h.live_closed hfree]
      rfl
    · rw [hother hcr] at hc ⊢
      rw [if_neg hcr, h.flows_eq c hc, add_zero]
  · rw [live_register]
    by_cases hcr : c = r.chanId
    · rw [if_pos hcr]
      exact Nat.succ_pos _
    · rw [hother hcr] at hc
      exact Nat.add_pos_left (h.live_pos c hc) _
  · by_cases hcr : c = r.chanId
    · rw [hcr, hsame]
      exact hpipe
    · rw [hother hcr] at hc ⊢
      exact h.pipe_open c hc
  · rcases List.mem_append.1 hf with hf | hf
    · -- No flow is on the free slot.
      have hne : f.chanId ≠ r.chanId := by
        intro heq
        have hpos := live_pos_of_mem hf hfin
        rw [heq, h.live_closed hfree] at hpos
        exact Nat.lt_irrefl 0 hpos
      rw [hother hne]
      exact h.socket_eq f hf hfin
    · obtain rfl := List.mem_singleton.1 hf
      have heq : (r.channels.signalChannels r.chanId).socket = some s.channels.peers.length :=
        (congrArg SignalChannel.socket hsame).trans hsocket
      exact ⟨Option.isSome_iff_exists.2 ⟨_, heq⟩, rfl⟩
  · rw [hlen]
    by_cases hcr : c = r.chanId
    · rw [hcr, hsame, hsocket] at hc
      cases hc
      exact Nat.lt_succ_self _
    · rw [hother hcr] at hc
      exact Nat.lt_succ_of_lt (h.socket_lt c n hc)
  · by_cases hcr : c = r.chanId
    · by_cases hcr' : c' = r.chanId
      · exact hcr.trans hcr'.symm
      · rw [hcr, hsame, hsocket] at hc
        rw [hother hcr', ← hc] at hc'
        exact absurd hc' (hnew c')
    · by_cases hcr' : c' = r.chanId
      · rw [hcr', hsame, hsocket] at hc'
        rw [hother hcr, ← hc'] at hc
        exact absurd hc (hnew c)
      · rw [hother hcr] at hc
        rw [hother hcr'] at hc'
        exact h.socket_inj c c' n hc hc'
  · have hold : (s.register dest r).channels.released = s.channels.released := hreleased
    rw [hold, hlen, h.released_eq]
    by_cases hn : n = s.channels.peers.length
    · rw [if_neg fun hlt => (Nat.lt_irrefl _ (hn ▸ hlt.1)), if_neg]
      exact fun hlt => hlt.2 r.chanId (by rw [hsame, hsocket, hn])
    · have hiff := unconnected_congr (n := n) (fun c hcr => hother hcr)
        (by rw [hfree]; exact nofun)
        (by rw [hsame, hsocket]; exact fun heq => hn (Option.some.inj heq).symm)
      simp only [hiff, Nat.lt_succ_iff_lt_or_eq, hn, or_false]

theorem mem_finish {k : ℕ} {f g : Registration} (hg : g ∈ (s.finish k f).flows)
    (hfin : g.finished = false) : g ∈ s.flows := by
  rcases List.mem_or_eq_of_mem_set hg with hg | rfl
  · exact hg
  · exact absurd hfin Bool.noConfusion

/-- The last flow of a channel releases it. -/
theorem finish_last (k : ℕ) {f : Registration}
    (h : (s.channels.signalChannels f.chanId).flows = 1) : (s.finish k f).channels =
      { s.channels.setChannel f.chanId { s.channels.signalChannels f.chanId with
          flows := (s.channels.signalChannels f.chanId).flows - 1, socket := none,
          errorLog := false, pipe := false } with
        released := s.channels.released ++ [(s.channels.signalChannels f.chanId).socket] } := by
  rw [ChannelFlows.finish, Channels.isChannelClosable]
  exact congrArg Prod.snd (if_pos (sub_eq_zero.2 h))

theorem finish_of_ne (k : ℕ) {f : Registration}
    (h : (s.channels.signalChannels f.chanId).flows ≠ 1) : (s.finish k f).channels =
      s.channels.setChannel f.chanId { s.channels.signalChannels f.chanId with
        flows := (s.channels.signalChannels f.chanId).flows - 1 } := by
  rw [ChannelFlows.finish, Channels.isChannelClosable]
  exact congrArg Prod.snd (if_neg fun h0 => h (sub_eq_zero.1 h0))

/-- A flow that is not the last one leaves its channel. -/
theorem Counted.leave (h : Counted s) {k : ℕ} {f : Registration} (hk : s.flows[k]? = some f)
    (hfin : f.finished = false) (hlast : (s.channels.signalChannels f.chanId).flows ≠ 1) :
    Counted (s.finish k f) := by
  have hchannels := finish_of_ne k hlast
  -- Only the number of its flows changes.
  have hfield {α : Type} (field : SignalChannel → α)
      (hf : ∀ ch flows, field { ch with flows := flows } = field ch) (c : Fin maxNumThread) :
      field ((s.finish k f).channels.signalChannels c) = field (s.channels.signalChannels c) := by
    by_cases hc : c = f.chanId
    · rw [hc, hchannels, setChannel_same, hf]
    · rw [hchannels, setChannel_of_ne _ hc]
  have hsocket := hfield SignalChannel.socket fun _ _ => rfl
  have hflows (c : Fin maxNumThread) : ((s.finish k f).channels.signalChannels c).flows =
      (s.channels.signalChannels c).flows - if c = f.chanId then 1 else 0 := by
    by_cases hc : c = f.chanId
    · rw [hc, hchannels, setChannel_same, if_pos rfl]
    · rw [hchannels, setChannel_of_ne _ hc, if_neg hc, sub_zero]
  have hlive (c : Fin maxNumThread) :
      (s.finish k f).live c + (if c = f.chanId then 1 else 0) = s.live c := live_finish hk hfin c
  refine ⟨fun c hc => ?_, fun c hc => ?_, fun c hc => ?_, fun g hg hgfin => ?_, fun c n hc => ?_,
    fun c c' n hc hc' => ?_, fun n => ?_⟩
  · rw [hsocket] at hc
    have := hlive c
    rw [hflows, h.flows_eq c hc]
    split_ifs at this ⊢ <;> omega
  · rw [hsocket] at hc
    have := hlive c
    have := h.flows_eq c hc
    have := h.live_pos c hc
    by_cases hcf : c = f.chanId
    · subst hcf
      rw [if_pos rfl] at *
      omega
    · rw [if_neg hcf] at *
      omega
  · rw [hsocket] at hc
    rw [hfield SignalChannel.pipe fun _ _ => rfl]
    exact h.pipe_open c hc
  · rw [hsocket]
    exact h.socket_eq g (mem_finish hg hgfin) hgfin
  · rw [hsocket] at hc
    exact hchannels ▸ h.socket_lt c n hc
  · rw [hsocket] at hc hc'
    exact h.socket_inj c c' n hc hc'
  · simp only [hsocket]
    exact hchannels ▸ h.released_eq n

/-- The last flow releases its channel. -/
theorem Counted.release (h : Counted s) {k : ℕ} {f : Registration} (hk : s.flows[k]? = some f)
    (hfin : f.finished = false) (hlast : (s.channels.signalChannels f.chanId).flows = 1) :
    Counted (s.finish k f) := by
  obtain ⟨hsome, hsock⟩ := h.socket_eq f (List.mem_of_getElem? hk) hfin
  obtain ⟨m, hm⟩ := Option.isSome_iff_exists.1 hsome
  rw [hm] at hsock
  have hchannels := finish_last k hlast
  have hsame : ((s.finish k f).channels.signalChannels f.chanId).socket = none := by
    rw [hchannels]
    exact congrArg SignalChannel.socket (setChannel_same ..)
  have hother {c : Fin maxNumThread} (hc : c ≠ f.chanId) :
      (s.finish k f).channels.signalChannels c = s.channels.signalChannels c := by
    rw [hchannels]
    exact setChannel_of_ne _ hc
  have hne {c : Fin maxNumThread}
      (hc : ((s.finish k f).channels.signalChannels c).socket.isSome) : c ≠ f.chanId := by
    rintro rfl
    rw [hsame] at hc
    exact absurd hc Bool.false_ne_true
  have hlive (c : Fin maxNumThread) :
      (s.finish k f).live c + (if c = f.chanId then 1 else 0) = s.live c := live_finish hk hfin c
  have hlive_other {c : Fin maxNumThread} (hc : c ≠ f.chanId) :
      (s.finish k f).live c = s.live c := by
    rw [← hlive c, if_neg hc, add_zero]
  have hpeers : (s.finish k f).channels.peers = s.channels.peers := by
    rw [hchannels]
    rfl
  have hreleased : (s.finish k f).channels.released = s.channels.released ++ [some m] := by
    rw [hchannels, ← hsock]
  refine ⟨fun c hc => ?_, fun c hc => ?_, fun c hc => ?_, fun g hg hgfin => ?_, fun c n hc => ?_,
    fun c c' n hc hc' => ?_, fun n => ?_⟩
  · have hcf := hne hc
    rw [hother hcf] at hc ⊢
    rw [hlive_other hcf, h.flows_eq c hc]
  · have hcf := hne hc
    rw [hother hcf] at hc
    rw [hlive_other hcf]
    exact h.live_pos c hc
  · have hcf := hne hc
    rw [hother hcf] at hc ⊢
    exact h.pipe_open c hc
  · -- No other flow is on the channel.
    have hgf : g.chanId ≠ f.chanId := by
      intro heq
      have hpos : 0 < (s.finish k f).live g.chanId := live_pos_of_mem hg hgfin
      have := hlive f.chanId
      have := h.flows_eq f.chanId (hsock ▸ rfl)
      rw [heq] at hpos
      rw [if_pos rfl] at *
      omega
    rw [hother hgf]
    exact h.socket_eq g (mem_finish hg hgfin) hgfin
  · have hcf := hne (Option.isSome_iff_exists.2 ⟨n, hc⟩)
    rw [hother hcf] at hc
    exact hpeers ▸ h.socket_lt c n hc
  · have hcf := hne (Option.isSome_iff_exists.2 ⟨n, hc⟩)
    have hcf' := hne (Option.isSome_iff_exists.2 ⟨n, hc'⟩)
    rw [hother hcf] at hc
    rw [hother hcf'] at hc'
    exact h.socket_inj c c' n hc hc'
  · rw [hreleased, List.count_append, h.released_eq, hpeers]
    by_cases hn : n = m
    · -- Its connection is released for the first time.
      subst hn
      rw [if_neg fun hno => hno.2 f.chanId hsock, List.count_singleton_self, if_pos]
      refine ⟨h.socket_lt _ _ hsock, fun c hc => ?_⟩
      have hcf := hne (Option.isSome_iff_exists.2 ⟨n, hc⟩)
      rw [hother hcf] at hc
      exact hcf (h.socket_inj c f.chanId n hc hsock)
    · have hiff := unconnected_congr (n := n) (fun c hcf => hother hcf)
        (by rw [hsock]; exact fun heq => hn (Option.some.inj heq).symm) (by rw [hsame]; exact nofun)
      have hcount : List.count (some n) [some m] = 0 :=
        List.count_eq_zero.2 fun hmem => hn (Option.some.inj (List.mem_singleton.1 hmem))
      rw [hcount, add_zero]
      simp only [hiff]

theorem Counted.finish (h : Counted s) {k : ℕ} {f : Registration} (hk : s.flows[k]? = some f)
    (hfin : f.finished = false) : Counted (s.finish k f) := by
  by_cases hlast : (s.channels.signalChannels f.chanId).flows = 1
  · exact h.release hk hfin hlast
  · exact h.leave hk hfin hlast

theorem counted_start : Counted ⟨.start, []⟩ := by
  refine ⟨fun c hc => absurd hc Bool.false_ne_true, fun c hc => absurd hc Bool.false_ne_true,
    fun c hc => absurd hc Bool.false_ne_true, fun f hf => absurd hf List.not_mem_nil,
    nofun, nofun, fun n => ?_⟩
  exact (if_neg fun h => Nat.not_lt_zero n h.1).symm

/-- A flow that gets a channel gets an open one, unless it is the first slot, in passive
    mode. -/
theorem Counted.register (h : Counted s) {dest : SockAddr} {r : Identified}
    (hr : Identifies o s.channels dest r)
    (hfirst : o.passiveMode → s.channels.checkDestHostIP dest = none →
      s.channels.okToNewSignalingChan = false → (s.channels.signalChannels 0).socket.isSome) :
    Counted (s.register dest r) := by
  cases hr with
  | joined hcheck hchannels => exact h.join (checkDestHostIP_some hcheck).1 hchannels
  | opened ch peer _ _ hslot hsocket hflows hpipe _ hchannels hpeers hreleased =>
    exact h.open (freeSlot_some hslot) hsocket hflows hpipe hchannels hpeers hreleased
  | first hpassive hcheck hok hchanId hchannels =>
    exact h.join (hchanId ▸ hfirst hpassive hcheck hok) (hchanId ▸ hchannels)

/-- The steps of the system. -/
theorem channelSystem_step_cases {a : ChannelAction} (h : (channelSystem o).step s a = some s') :
    (∃ dest spec setUp r, a = .identify dest spec setUp ∧
      s.channels.identifySignalManager o dest spec setUp = some r ∧ s' = s.register dest r) ∨
    ∃ k f, a = .close k ∧ s.flows[k]? = some f ∧ f.finished = false ∧ s' = s.finish k f := by
  cases a with
  | identify dest spec setUp =>
    obtain ⟨r, hr, rfl⟩ := Option.map_eq_some_iff.1 h
    exact .inl ⟨dest, spec, setUp, r, rfl, hr, rfl⟩
  | close k =>
    obtain ⟨f, hk, h⟩ := Option.bind_eq_some_iff.1 h
    cases hfin : f.finished with
    | true =>
      rw [hfin] at h
      exact absurd h (by nofun)
    | false =>
      rw [hfin] at h
      cases h
      exact .inr ⟨k, f, rfl, hk, hfin, rfl⟩

/-- When not in passive mode, there are no two open channels to an address. -/
def Apart (s : ChannelFlows) : Prop :=
  ∀ c c', (s.channels.signalChannels c).socket.isSome →
    (s.channels.signalChannels c').socket.isSome →
    (s.channels.signalChannels c).DestAddr.addr = (s.channels.signalChannels c').DestAddr.addr →
    c = c'

/-- A channel that is open after a flow has left was open before, to the same address. -/
theorem finish_channel {k : ℕ} {f : Registration} {c : Fin maxNumThread}
    (hc : ((s.finish k f).channels.signalChannels c).socket.isSome) :
    (s.channels.signalChannels c).socket.isSome ∧
      ((s.finish k f).channels.signalChannels c).socket = (s.channels.signalChannels c).socket ∧
      ((s.finish k f).channels.signalChannels c).DestAddr =
        (s.channels.signalChannels c).DestAddr := by
  by_cases hlast : (s.channels.signalChannels f.chanId).flows = 1
  · have hchannels := congrFun (congrArg Channels.signalChannels (finish_last k hlast)) c
    simp only [hchannels] at hc ⊢
    by_cases hcf : c = f.chanId
    · rw [hcf, setChannel_same] at hc
      exact absurd hc Bool.false_ne_true
    · rw [setChannel_of_ne _ hcf] at hc ⊢
      exact ⟨hc, rfl, rfl⟩
  · rw [finish_of_ne k hlast] at hc ⊢
    by_cases hcf : c = f.chanId
    · rw [hcf, setChannel_same] at hc ⊢
      exact ⟨hc, rfl, rfl⟩
    · rw [setChannel_of_ne _ hcf] at hc ⊢
      exact ⟨hc, rfl, rfl⟩

theorem Apart.finish (h : Apart s) (k : ℕ) (f : Registration) : Apart (s.finish k f) := by
  intro c c' hc hc' heq
  obtain ⟨hc, -, haddr⟩ := finish_channel hc
  obtain ⟨hc', -, haddr'⟩ := finish_channel hc'
  rw [haddr, haddr'] at heq
  exact h c c' hc hc' heq

theorem Apart.register (h : Apart s) (hpassive : o.passiveMode = false) {dest : SockAddr}
    {r : Identified} (hr : Identifies o s.channels dest r) : Apart (s.register dest r) := by
  cases hr with
  | joined _ hchannels =>
    intro c c' hc hc' heq
    simp only [ChannelFlows.register, hchannels, socket_join, DestAddr_join] at hc hc' heq
    exact h c c' hc hc' heq
  | opened ch peer hcheck _ _ hsocket _ _ hpeer hchannels =>
    intro c c' hc hc' heq
    simp only [ChannelFlows.register, hchannels] at hc hc' heq
    -- The address of the new channel has not been found.
    have hnew {c : Fin maxNumThread} (hc : (s.channels.signalChannels c).socket.isSome) :
        (s.channels.signalChannels c).DestAddr.addr ≠ ch.DestAddr.addr :=
      fun heq => checkDestHostIP_none hcheck c hc ((hpeer hpassive).1 ▸ heq.symm)
    by_cases hcr : c = r.chanId
    · by_cases hcr' : c' = r.chanId
      · exact hcr.trans hcr'.symm
      · rw [hcr, setChannel_same, setChannel_of_ne _ hcr'] at heq
        rw [setChannel_of_ne _ hcr'] at hc'
        exact absurd heq.symm (hnew hc')
    · rw [setChannel_of_ne _ hcr] at hc heq
      by_cases hcr' : c' = r.chanId
      · rw [hcr', setChannel_same] at heq
        exact absurd heq (hnew hc)
      · rw [setChannel_of_ne _ hcr'] at hc' heq
        exact h c c' hc hc' heq
  | first hpassive' => exact absurd (hpassive ▸ hpassive') Bool.false_ne_true

/-- When not in passive mode, both hold in every reachable state. -/
theorem counted_apart (hpassive : o.passiveMode = false) (h : (channelSystem o).Reachable s) :
    Counted s ∧ Apart s := by
  have hinit : ∀ s, (channelSystem o).init s → Counted s ∧ Apart s := by
    rintro s rfl
    exact ⟨counted_start, fun c _ hc => absurd hc Bool.false_ne_true⟩
  have hstep : ∀ s a s', Counted s ∧ Apart s → True → (channelSystem o).step s a = some s' →
      Counted s' ∧ Apart s' := by
    rintro s a s' ⟨hcount, hapart⟩ - hstep
    obtain ⟨dest, spec, setUp, r, -, hr, rfl⟩ | ⟨k, f, -, hk, hfin, rfl⟩ :=
      channelSystem_step_cases hstep
    · have hr := identifySignalManager_cases hr
      exact ⟨hcount.register hr fun hpassive' => absurd (hpassive ▸ hpassive') Bool.false_ne_true,
        hapart.register hpassive hr⟩
    · exact ⟨hcount.finish hk hfin, hapart.finish k f⟩
  have hinv := h.invariant hinit hstep
  exact hinv

/-- When not in passive mode, in every reachable state: an open channel counts the flows that
    have got it and have not finished, at least one; the channel of such a flow is open, still
    with the connection the flow has got; no two open channels are to an address; and a
    connection has been released, once, if and only if all flows that have got it have
    finished. -/
theorem channels_counted (hpassive : o.passiveMode = false) (h : (channelSystem o).Reachable s) :
    (∀ c, (s.channels.signalChannels c).socket.isSome →
      (s.channels.signalChannels c).flows = s.live c ∧ 1 ≤ (s.channels.signalChannels c).flows) ∧
    (∀ f ∈ s.flows, f.finished = false → f.socket.isSome ∧
      (s.channels.signalChannels f.chanId).socket = f.socket) ∧
    (∀ c c', c ≠ c' → (s.channels.signalChannels c).socket.isSome →
      (s.channels.signalChannels c').socket.isSome →
      ¬areInetAddrEqual (s.channels.signalChannels c).DestAddr
        (s.channels.signalChannels c').DestAddr) ∧
    ∀ n < s.channels.peers.length, s.channels.released.count (some n) =
      if ∃ f ∈ s.flows, f.socket = some n ∧ f.finished = false then 0 else 1 := by
  obtain ⟨hcount, hapart⟩ := counted_apart hpassive h
  refine ⟨fun c hc => ?_, hcount.socket_eq, fun c c' hne hc hc' heq => ?_, fun n hn => ?_⟩
  · rw [hcount.flows_eq c hc]
    exact ⟨rfl, Int.ofNat_le.2 (hcount.live_pos c hc)⟩
  · exact hne (hapart c c' hc hc' (areInetAddrEqual_iff.1 heq))
  · rw [hcount.released_eq]
    by_cases hex : ∃ f ∈ s.flows, f.socket = some n ∧ f.finished = false
    · rw [if_pos hex, if_neg]
      obtain ⟨f, hf, hsock, hfin⟩ := hex
      exact fun hno => hno.2 f.chanId ((hcount.socket_eq f hf hfin).2.trans hsock)
    · rw [if_neg hex, if_pos]
      refine ⟨hn, fun c hc => hex ?_⟩
      obtain ⟨f, hf, hfin, rfl⟩ :=
        exists_of_live_pos (hcount.live_pos c (Option.isSome_iff_exists.2 ⟨n, hc⟩))
      exact ⟨f, hf, (hcount.socket_eq f hf hfin).2.symm.trans hc, hfin⟩

end Counted

/-- The connection of a flow to 10.0.0.1, its first and only one. -/
def someSetUp : SetUp := ⟨⟨.ofBytes 10 0 0 1, 0, 0⟩, true, 0, true⟩

/-- Three flows to two addresses, of which one leaves. -/
theorem channels_counted_three :
    ∃ s, (channelSystem ⟨false, true, false, false⟩).run ⟨.start, []⟩
        [.identify ⟨.ofBytes 10 0 0 1, 9000, 0⟩ true someSetUp,
          .identify ⟨.ofBytes 10 0 0 2, 9000, 0⟩ true someSetUp,
          .identify ⟨.ofBytes 10 0 0 1, 9000, 0⟩ true someSetUp,
          .close 1] = some s ∧
      ∀ n < s.channels.peers.length, s.channels.released.count (some n) =
        if ∃ f ∈ s.flows, f.socket = some n ∧ f.finished = false then 0 else 1 := by
  obtain ⟨s, hs⟩ := Option.isSome_iff_exists.1
    (show ((channelSystem ⟨false, true, false, false⟩).run ⟨.start, []⟩
        [.identify ⟨.ofBytes 10 0 0 1, 9000, 0⟩ true someSetUp,
          .identify ⟨.ofBytes 10 0 0 2, 9000, 0⟩ true someSetUp,
          .identify ⟨.ofBytes 10 0 0 1, 9000, 0⟩ true someSetUp,
          .close 1]).isSome by decide +kernel)
  exact ⟨s, hs, (channels_counted rfl (Transition.Reachable.run (.init rfl) hs)).2.2.2⟩

end Ditg
