import Ditg.Sender.Channels

/-!
# Where the channel of a flow goes to

A flow of a script may have a signalling destination of its own, an address and a port. A
channel is looked for by its address only, so that a flow may get a channel to another
port; in passive mode, it may get one that has been released.

* `ownChannel_iff`: which calls give a flow a channel to its own destination;
* `channels_directed`: in runs with such calls only, the channel of a flow stays open and
  goes there, until the flow leaves it.
-/

namespace Ditg

/-- A connection goes to a destination, or, in passive mode, it is the one that has been
    accepted. -/
def GoesTo (o : SendOptions) (peers : List SockAddr) (n : ℕ) (dest : SockAddr) : Prop :=
  if o.passiveMode then n = 0 ∧ peers.length = 1
  else ∃ peer, peers[n]? = some peer ∧ peer.addr = dest.addr ∧ peer.port = dest.port

/-- A channel is open, and its connection goes to a destination. -/
def OwnChannel (o : SendOptions) (s : Channels) (chanId : Fin maxNumThread) (dest : SockAddr) :
    Prop :=
  ∃ n, (s.signalChannels chanId).socket = some n ∧ GoesTo o s.peers n dest

/-- An open channel to the address is one to the port as well; in passive mode, there is no
    connection yet, or it has not been released. -/
def Directed (o : SendOptions) (s : Channels) (dest : SockAddr) : Prop :=
  if o.passiveMode then s.okToNewSignalingChan ∨ (s.signalChannels 0).socket.isSome
  else ∀ c, (s.signalChannels c).socket.isSome →
    dest.addr = (s.signalChannels c).DestAddr.addr → dest.port = (s.signalChannels c).DestAddr.port

instance (o : SendOptions) (s : Channels) (dest : SockAddr) : Decidable (Directed o s dest) :=
  inferInstanceAs (Decidable (if o.passiveMode then _ else ∀ _, _))

section Connected

variable {o : SendOptions} {s s' : ChannelFlows}

/-- When not in passive mode, an open channel is connected to its address. -/
def Connected (s : ChannelFlows) : Prop :=
  ∀ c n, (s.channels.signalChannels c).socket = some n →
    s.channels.peers[n]? = some (s.channels.signalChannels c).DestAddr

theorem finish_peers (k : ℕ) (f : Registration) :
    (s.finish k f).channels.peers = s.channels.peers := by
  by_cases hlast : (s.channels.signalChannels f.chanId).flows = 1
  · rw [finish_last k hlast]
    rfl
  · rw [finish_of_ne k hlast]
    rfl

theorem finish_okToNew (k : ℕ) (f : Registration) :
    (s.finish k f).channels.okToNewSignalingChan = s.channels.okToNewSignalingChan := by
  by_cases hlast : (s.channels.signalChannels f.chanId).flows = 1
  · rw [finish_last k hlast]
    rfl
  · rw [finish_of_ne k hlast]
    rfl

theorem Connected.finish (h : Connected s) (k : ℕ) (f : Registration) :
    Connected (s.finish k f) := by
  intro c n hc
  obtain ⟨-, hsocket, haddr⟩ := finish_channel (Option.isSome_iff_exists.2 ⟨n, hc⟩)
  rw [finish_peers, haddr]
  exact h c n (hsocket.symm.trans hc)

theorem Connected.register (h : Connected s) (hpassive : o.passiveMode = false) {dest : SockAddr}
    {r : Identified} (hr : Identifies o s.channels dest r) : Connected (s.register dest r) := by
  intro c n hc
  cases hr with
  | joined _ hchannels =>
    simp only [ChannelFlows.register, hchannels, socket_join, DestAddr_join] at hc ⊢
    exact h c n hc
  | opened ch peer _ _ _ hsocket _ _ hpeer hchannels hpeers =>
    simp only [ChannelFlows.register, hchannels, hpeers] at hc ⊢
    by_cases hcr : c = r.chanId
    · rw [hcr, setChannel_same, hsocket] at hc
      cases hc
      rw [hcr, setChannel_same, List.getElem?_concat_length, (hpeer hpassive).1, (hpeer hpassive).2]
    · rw [setChannel_of_ne _ hcr] at hc ⊢
      have hlt : n < s.channels.peers.length := (List.getElem?_eq_some_iff.1 (h c n hc)).1
      rw [List.getElem?_append_left hlt]
      exact h c n hc
  | first hpassive' => exact absurd (hpassive ▸ hpassive') Bool.false_ne_true

/-- In passive mode, there is one connection, for the channel in the first slot. -/
structure OneConnection (s : ChannelFlows) : Prop where
  length_peers : s.channels.peers.length = if s.channels.okToNewSignalingChan then 0 else 1
  open_first : ∀ c n, (s.channels.signalChannels c).socket = some n →
    c = 0 ∧ n = 0 ∧ s.channels.okToNewSignalingChan = false

/-- Of free slots, the first one is found. -/
theorem freeSlot_eq_zero {s : Channels} {c : Fin maxNumThread} (h : s.freeSlot = some c)
    (h0 : (s.signalChannels 0).socket = none) : c = 0 := by
  have hfind {n : ℕ} [NeZero n] {p : Fin n → Bool} (hp : p 0) :
      (List.finRange n).find? p = some 0 := by
    obtain ⟨m, rfl⟩ := Nat.exists_eq_succ_of_ne_zero (NeZero.ne n)
    rw [List.finRange_succ]
    exact List.find?_cons_of_pos hp
  rw [Channels.freeSlot, hfind (by rw [h0]; rfl)] at h
  exact (Option.some.inj h).symm

theorem OneConnection.finish (h : OneConnection s) (k : ℕ) (f : Registration) :
    OneConnection (s.finish k f) := by
  refine ⟨by rw [finish_peers, finish_okToNew, h.length_peers], fun c n hc => ?_⟩
  obtain ⟨-, hsocket, -⟩ := finish_channel (Option.isSome_iff_exists.2 ⟨n, hc⟩)
  rw [finish_okToNew]
  exact h.open_first c n (hsocket.symm.trans hc)

theorem OneConnection.register (h : OneConnection s) (hpassive : o.passiveMode)
    (hmulti : o.multiFlows) {dest : SockAddr} {r : Identified}
    (hr : Identifies o s.channels dest r) : OneConnection (s.register dest r) := by
  have hjoin {c : Fin maxNumThread} (hchannels : r.channels = s.channels.join c) :
      OneConnection (s.register dest r) := by
    refine ⟨?_, fun c' n hc => ?_⟩
    · simp only [ChannelFlows.register, hchannels]
      exact h.length_peers
    · simp only [ChannelFlows.register, hchannels, socket_join] at hc ⊢
      exact h.open_first c' n hc
  cases hr with
  | joined _ hchannels => exact hjoin hchannels
  | opened ch peer _ hok hslot hsocket _ _ _ hchannels hpeers _ hok' =>
    -- The first connection, as there is none yet.
    rw [hpassive, hmulti] at hok'
    have hlen : s.channels.peers.length = 0 := h.length_peers.trans (if_pos hok)
    have hnone (c : Fin maxNumThread) : (s.channels.signalChannels c).socket = none := by
      rcases hc : (s.channels.signalChannels c).socket with _ | n
      · rfl
      · exact absurd (hok.symm.trans (h.open_first c n hc).2.2) Bool.noConfusion
    refine ⟨?_, fun c n hc => ?_⟩
    · simp only [ChannelFlows.register, hpeers, hok', List.length_append, hlen]
      rfl
    · simp only [ChannelFlows.register, hchannels] at hc ⊢
      by_cases hcr : c = r.chanId
      · rw [hcr, setChannel_same, hsocket, hlen] at hc
        exact ⟨hcr.trans (freeSlot_eq_zero hslot (hnone 0)), (Option.some.inj hc).symm, hok'⟩
      · rw [setChannel_of_ne _ hcr, hnone] at hc
        cases hc
  | first _ _ _ _ hchannels => exact hjoin hchannels

end Connected

/-! ## Which calls give a flow its own channel -/

section OwnChannel

variable {o : SendOptions} {s : ChannelFlows} {dest : SockAddr} {r : Identified}

/-- When not in passive mode: if an open channel to the address is one to the port. -/
theorem ownChannel_iff_of_connected (hpassive : o.passiveMode = false) (hconn : Connected s)
    (hapart : Apart s) (hr : Identifies o s.channels dest r) :
    OwnChannel o r.channels r.chanId dest ↔ Directed o s.channels dest := by
  simp only [OwnChannel, GoesTo, Directed, hpassive, Bool.false_eq_true, if_false]
  cases hr with
  | joined hcheck hchannels =>
    obtain ⟨hsome, haddr⟩ := checkDestHostIP_some hcheck
    obtain ⟨n, hn⟩ := Option.isSome_iff_exists.1 hsome
    rw [hchannels]
    constructor
    · rintro ⟨m, hm, peer, hpeer, -, hport⟩ c hc heq
      obtain rfl : c = r.chanId := hapart c r.chanId hc hsome (heq.symm.trans haddr)
      rw [socket_join] at hm
      have hdest := (hconn _ m hm).symm.trans hpeer
      rw [Option.some.inj hdest, hport]
    · intro hport
      refine ⟨n, (socket_join ..).trans hn, _, hconn _ n hn, haddr.symm, ?_⟩
      exact (hport r.chanId hsome haddr).symm
  | opened ch peer hcheck hok hslot hsocket _ _ hpeer hchannels hpeers =>
    obtain ⟨-, hpeer⟩ := hpeer hpassive
    refine ⟨fun _ c hc heq => absurd heq (checkDestHostIP_none hcheck c hc), fun _ => ?_⟩
    refine ⟨s.channels.peers.length, ?_, peer, ?_, by rw [hpeer], by rw [hpeer]⟩
    · rw [hchannels, setChannel_same, hsocket]
    · rw [hpeers, List.getElem?_concat_length]
  | first hpassive' => exact absurd (hpassive ▸ hpassive') Bool.false_ne_true

/-- In passive mode: if there is no connection yet, or it has not been released. -/
theorem ownChannel_iff_of_oneConnection (hpassive : o.passiveMode) (hone : OneConnection s)
    (hr : Identifies o s.channels dest r) :
    OwnChannel o r.channels r.chanId dest ↔ Directed o s.channels dest := by
  simp only [OwnChannel, GoesTo, Directed, hpassive, if_true]
  have hjoin (hok : s.channels.okToNewSignalingChan = false)
      (hchannels : r.channels = s.channels.join 0) (hchanId : r.chanId = 0) :
      (∃ n, (r.channels.signalChannels r.chanId).socket = some n ∧
        n = 0 ∧ r.channels.peers.length = 1) ↔
      s.channels.okToNewSignalingChan ∨ (s.channels.signalChannels 0).socket.isSome := by
    rw [hchanId, hchannels, socket_join, hok]
    constructor
    · rintro ⟨n, hn, -⟩
      exact .inr (Option.isSome_iff_exists.2 ⟨n, hn⟩)
    · rintro (h | h)
      · exact absurd h Bool.false_ne_true
      · obtain ⟨n, hn⟩ := Option.isSome_iff_exists.1 h
        have hlen := hone.length_peers
        rw [hok] at hlen
        exact ⟨n, hn, (hone.open_first 0 n hn).2.1, hlen⟩
  cases hr with
  | joined hcheck hchannels =>
    obtain ⟨n, hn⟩ := Option.isSome_iff_exists.1 (checkDestHostIP_some hcheck).1
    obtain ⟨hc, -, hok⟩ := hone.open_first _ n hn
    exact hjoin hok (hc ▸ hchannels) hc
  | opened ch peer _ hok hslot hsocket _ _ _ hchannels hpeers =>
    have hlen : s.channels.peers.length = 0 := hone.length_peers.trans (if_pos hok)
    refine ⟨fun _ => .inl hok, fun _ => ⟨0, ?_, rfl, ?_⟩⟩
    · rw [hchannels, setChannel_same, hsocket, hlen]
    · rw [hpeers, List.length_append, hlen]
      rfl
  | first _ _ hok hchanId hchannels => exact hjoin hok hchannels hchanId

/-- A call gives a flow a channel to its own destination if there is none to another port of
    the address, or, in passive mode, none that has been released. -/
def DirectedStep (o : SendOptions) (s : ChannelFlows) : ChannelAction → Prop
  | .identify dest _ _ => Directed o s.channels dest
  | .close _ => True

instance (o : SendOptions) (s : ChannelFlows) : ∀ a, Decidable (DirectedStep o s a)
  | .identify dest _ _ => inferInstanceAs (Decidable (Directed o s.channels dest))
  | .close _ => inferInstanceAs (Decidable True)

/-- What holds of the connections in both modes. -/
def Destined (o : SendOptions) (s : ChannelFlows) : Prop :=
  if o.passiveMode then OneConnection s else Apart s ∧ Connected s

theorem Destined.start : Destined o ⟨.start, []⟩ := by
  rw [Destined]
  split_ifs
  · exact ⟨rfl, nofun⟩
  · exact ⟨fun c _ hc => absurd hc Bool.false_ne_true, nofun⟩

theorem Destined.step (hmulti : o.multiFlows) {s' : ChannelFlows} {a : ChannelAction}
    (h : Destined o s) (hstep : (channelSystem o).step s a = some s') : Destined o s' := by
  rw [Destined] at h ⊢
  obtain ⟨dest, spec, setUp, r, -, hr, rfl⟩ | ⟨k, f, -, -, -, rfl⟩ :=
    channelSystem_step_cases hstep
  · have hr := identifySignalManager_cases hr
    split_ifs at h ⊢ with hpassive
    · exact h.register hpassive hmulti hr
    · rw [Bool.not_eq_true] at hpassive
      exact ⟨h.1.register hpassive hr, h.2.register hpassive hr⟩
  · split_ifs at h ⊢
    · exact h.finish k f
    · exact ⟨h.1.finish k f, h.2.finish k f⟩

theorem Destined.own_iff (h : Destined o s) (hr : Identifies o s.channels dest r) :
    OwnChannel o r.channels r.chanId dest ↔ Directed o s.channels dest := by
  rw [Destined] at h
  split_ifs at h with hpassive
  · exact ownChannel_iff_of_oneConnection hpassive h hr
  · exact ownChannel_iff_of_connected (Bool.not_eq_true _ ▸ hpassive) h.2 h.1 hr

/-- The connection of every flow goes to its destination. -/
def AllDirected (o : SendOptions) (s : ChannelFlows) : Prop :=
  ∀ f ∈ s.flows, ∀ n, f.socket = some n → GoesTo o s.channels.peers n f.SigDestHost

/-- The connections there are go where they went. -/
theorem GoesTo.register (h : Destined o s)
    (hr : Identifies o s.channels dest r) {n : ℕ} {dest' : SockAddr}
    (hgo : GoesTo o s.channels.peers n dest') : GoesTo o r.channels.peers n dest' := by
  cases hr with
  | joined _ hchannels => exact hchannels ▸ hgo
  | opened ch peer _ hok _ _ _ _ _ _ hpeers =>
    rw [GoesTo] at hgo ⊢
    rw [Destined] at h
    split_ifs at h hgo ⊢ with hpassive
    · -- In passive mode, there is none to be kept.
      have hlen := h.length_peers
      rw [hgo.2, if_pos hok] at hlen
      exact absurd hlen Nat.one_ne_zero
    · obtain ⟨peer', hpeer', hdest⟩ := hgo
      refine ⟨peer', ?_, hdest⟩
      rw [hpeers, List.getElem?_append_left (List.getElem?_eq_some_iff.1 hpeer').1]
      exact hpeer'
  | first _ _ _ _ hchannels => exact hchannels ▸ hgo

/-- In runs with such calls only, the channel of a flow that has not finished is open and
    goes to its own destination. -/
theorem channels_directed (hmulti : o.multiFlows)
    (h : (channelSystem o).ReachVia (DirectedStep o) s) :
    ∀ f ∈ s.flows, f.finished = false → OwnChannel o s.channels f.chanId f.SigDestHost := by
  have hinit : ∀ s, (channelSystem o).init s → Destined o s ∧ Counted s ∧ AllDirected o s := by
    rintro s rfl
    exact ⟨.start, counted_start, nofun⟩
  have hstep : ∀ s a s', Destined o s ∧ Counted s ∧ AllDirected o s → DirectedStep o s a →
      (channelSystem o).step s a = some s' → Destined o s' ∧ Counted s' ∧ AllDirected o s' := by
    rintro s a s' ⟨hdest, hcount, hall⟩ hdir hstep
    refine ⟨hdest.step hmulti hstep, ?_⟩
    obtain ⟨dest, spec, setUp, r, rfl, hr, rfl⟩ | ⟨k, f, rfl, hk, hfin, rfl⟩ :=
      channelSystem_step_cases hstep
    · have hr := identifySignalManager_cases hr
      refine ⟨hcount.register hr fun hpassive _ hok => ?_, fun f hf n hn => ?_⟩
      · -- The first slot is open, as the call is directed.
        have hdir : Directed o s.channels dest := hdir
        rw [Directed, if_pos hpassive, hok] at hdir
        exact hdir.resolve_left Bool.false_ne_true
      · rcases List.mem_append.1 hf with hf | hf
        · exact (hall f hf n hn).register hdest hr
        · obtain rfl := List.mem_singleton.1 hf
          obtain ⟨m, hm, hgo⟩ := (hdest.own_iff hr).2 hdir
          obtain rfl : m = n := Option.some.inj (hm.symm.trans hn)
          exact hgo
    · refine ⟨hcount.finish hk hfin, fun g hg n hn => ?_⟩
      rw [finish_peers]
      rcases List.mem_or_eq_of_mem_set hg with hg | rfl
      · exact hall g hg n hn
      · exact hall f (List.mem_of_getElem? hk) n hn
  have hinv := h.invariant hinit hstep
  obtain ⟨-, hcount, hall⟩ := hinv
  intro f hf hfin
  obtain ⟨hsome, hsocket⟩ := hcount.socket_eq f hf hfin
  obtain ⟨n, hn⟩ := Option.isSome_iff_exists.1 hsome
  exact ⟨n, hsocket.trans hn, hall f hf n hn⟩

/-- In a script, in every reachable state, a call that succeeds gives a flow an open channel
    to its own destination if and only if an open channel to the address is one to the port
    as well, or, in passive mode, there is no connection yet or it has not been released; and
    in runs with such calls only, the flow keeps this channel until it finishes. -/
theorem ownChannel_iff (hmulti : o.multiFlows) :
    (∀ s, (channelSystem o).Reachable s → ∀ dest spec setUp r,
      s.channels.identifySignalManager o dest spec setUp = some r →
        (OwnChannel o r.channels r.chanId dest ↔ Directed o s.channels dest)) ∧
    ∀ s, (channelSystem o).ReachVia (DirectedStep o) s → ∀ f ∈ s.flows, f.finished = false →
      OwnChannel o s.channels f.chanId f.SigDestHost := by
  refine ⟨fun s h dest spec setUp r hr => ?_, fun s h => channels_directed hmulti h⟩
  have hdest : Destined o s := by
    refine h.invariant ?_ fun s a s' hs _ hstep => hs.step hmulti hstep
    rintro s rfl
    exact .start
  exact hdest.own_iff (identifySignalManager_cases hr)

end OwnChannel

/-- A destination at 10.0.0.1. -/
def someDest (port : UInt16) : SockAddr := ⟨.ofBytes 10 0 0 1, port, 0⟩

/-- A script in active mode. -/
def scriptOptions : SendOptions := ⟨false, true, false, false⟩

/-- The call of a flow to `someDest port`. -/
def someCall (port : UInt16) : ChannelAction := .identify (someDest port) true someSetUp

/-- Flows to one address and port share a channel, also when the first of them has finished; one to
    another port would not get its own. -/
theorem ownChannel_iff_shared : ∃ s, (channelSystem scriptOptions).run ⟨.start, []⟩
    [someCall 9000, someCall 9000, .close 0, someCall 9000] = some s ∧
      s.channels.peers = [someDest 9000] ∧
      s.flows.map (fun f => (f.chanId, f.finished)) = [(0, true), (0, false), (0, false)] ∧
      (∀ f ∈ s.flows, f.finished = false →
        OwnChannel scriptOptions s.channels f.chanId f.SigDestHost) ∧
      ∀ r, s.channels.identifySignalManager scriptOptions (someDest 9001) true someSetUp = some r →
        ¬OwnChannel scriptOptions r.channels r.chanId (someDest 9001) := by
  have hvia : (channelSystem scriptOptions).StepsVia (DirectedStep scriptOptions) ⟨.start, []⟩
      [someCall 9000, someCall 9000, .close 0, someCall 9000] := by decide +kernel
  obtain ⟨s, hs, h⟩ := Option.any_eq_true _ _ |>.1
    (show ((channelSystem scriptOptions).run ⟨.start, []⟩
      [someCall 9000, someCall 9000, .close 0, someCall 9000]).any (fun s =>
        s.channels.peers = [someDest 9000] ∧
        s.flows.map (fun f => (f.chanId, f.finished)) = [(0, true), (0, false), (0, false)] ∧
        ¬Directed scriptOptions s.channels (someDest 9001)) by decide +kernel)
  obtain ⟨hpeers, hflows, hother⟩ := of_decide_eq_true h
  have hreach := Transition.ReachVia.run (.init rfl) hvia hs
  obtain ⟨hown, hkeep⟩ := ownChannel_iff (o := scriptOptions) rfl
  refine ⟨s, hs, hpeers, hflows, hkeep s hreach, fun r hr => ?_⟩
  rw [hown s hreach.reachable _ _ _ r hr]
  exact hother

/-- What a flow finds after a run: its slot, with the socket, and the connections. -/
def foundAfter (o : SendOptions) (as : List ChannelAction) (dest : SockAddr) :
    Option (Fin maxNumThread × Option ℕ × List SockAddr) := do
  let s ← (channelSystem o).run ⟨.start, []⟩ as
  let r ← s.channels.identifySignalManager o dest true someSetUp
  return (r.chanId, (r.channels.signalChannels r.chanId).socket, r.channels.peers)

theorem exists_of_foundAfter {o : SendOptions} {as : List ChannelAction} {dest : SockAddr}
    {c : Fin maxNumThread} {socket : Option ℕ} {peers : List SockAddr}
    (h : foundAfter o as dest = some (c, socket, peers)) :
    ∃ s r, (channelSystem o).Reachable s ∧
      s.channels.identifySignalManager o dest true someSetUp = some r ∧
      (r.channels.signalChannels r.chanId).socket = socket ∧ r.channels.peers = peers := by
  obtain ⟨s, hs, h⟩ := Option.bind_eq_some_iff.1 h
  obtain ⟨r, hr, h⟩ := Option.bind_eq_some_iff.1 h
  cases h
  exact ⟨s, r, Transition.Reachable.run (.init rfl) hs, hr, rfl, rfl⟩

/-- Of two flows to an address, the second one gets the channel to the port of the first one;
    in passive mode, a flow that comes after the connection has been released gets no open
    channel. -/
theorem not_ownChannel :
    (¬∀ s, (channelSystem ⟨false, true, false, false⟩).Reachable s → ∀ dest spec setUp r,
      s.channels.identifySignalManager ⟨false, true, false, false⟩ dest spec setUp = some r →
        OwnChannel ⟨false, true, false, false⟩ r.channels r.chanId dest) ∧
    ¬∀ s, (channelSystem ⟨true, true, false, false⟩).Reachable s → ∀ dest spec setUp r,
      s.channels.identifySignalManager ⟨true, true, false, false⟩ dest spec setUp = some r →
        OwnChannel ⟨true, true, false, false⟩ r.channels r.chanId dest := by
  constructor
  · intro h
    obtain ⟨s, r, hs, hr, hsocket, hpeers⟩ := exists_of_foundAfter
      (show foundAfter ⟨false, true, false, false⟩ [.identify (someDest 9000) true someSetUp]
        (someDest 9001) = some (0, some 0, [someDest 9000]) by decide +kernel)
    obtain ⟨n, hn, peer, hpeer, -, hport⟩ := h s hs _ _ _ _ hr
    obtain rfl : 0 = n := Option.some.inj (hsocket.symm.trans hn)
    rw [hpeers] at hpeer
    cases hpeer
    exact absurd hport (by decide)
  · intro h
    obtain ⟨s, r, hs, hr, hsocket, -⟩ := exists_of_foundAfter
      (show foundAfter ⟨true, true, false, false⟩
        [.identify (someDest 9000) false someSetUp, .close 0] (someDest 9000) =
          some (0, none, [someSetUp.peer]) by decide +kernel)
    obtain ⟨n, hn, -⟩ := h s hs _ _ _ _ hr
    exact absurd (hsocket.symm.trans hn) (by nofun)

end Ditg
