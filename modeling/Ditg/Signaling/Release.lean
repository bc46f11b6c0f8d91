import Mathlib.Data.List.Perm.Subperm
import Ditg.Recv.PassivePort
import Ditg.Signaling.Steps

/-!
# The flows of a signalling connection and the release of its channel

What holds of a connection in every state it gets to, whatever the order in which its flows
get the channel, are sent, and leave it.

* `acks_own`: the receiver acknowledges a flow that has asked, once, and the flow is started
  once, unless in passive mode it is another flow that is acknowledged;
* `released_once`: a flow leaves the channel once, and when the last one has left it, none is
  being sent, as long as the sender is not told of an error while it sends the flow;
* `finished_at_release`: without errors, at the release every flow has been acknowledged, and
  so has its end, it has no slot, and its parser has been told, or is the next to be.
-/

namespace Ditg

open Bytes FlowLife

/-! ## Counting messages -/

/-- A reply of a type about a flow. -/
def Reply.tells (type : UInt8) (flowId : UInt32) : Reply → Bool
  | ack _ => false
  | ackFlow typeMessage flowId' _ => typeMessage = type ∧ flowId' = flowId

namespace Link

variable (s : Link)

/-- The requests for a flow that the receiver has read. -/
def requested (flowId : UInt32) : ℕ :=
  (s.manager.sent.take s.recvRead).countP fun m => m.about = some (.sendFlow, flowId)

/-- The replies of a type about a flow. -/
def replied (type : UInt8) (flowId : UInt32) : ℕ :=
  s.session.sent.countP (·.tells type flowId)

end Link

section Replies

variable {e₁ e₂ : Endian}

/-- A reply without a flow is about none. -/
theorem about_ack (type : UInt8) : (Reply.ack type).about e₁ e₂ = none := by
  have hnone : recvFlowId e₁ [] = .error .blocked := rfl
  rw [Reply.about, Reply.msg?, Reply.bytes, recvReply_cons, recvReplyType, hnone]
  split_ifs <;> rfl

/-- A reply with a flow that has no port, and the flow that is read of it. -/
theorem about_flowId {type : UInt8} {m : UInt32 → ReplyMsg}
    (hread : ∀ input, recvReplyType e₁ type input =
      (recvFlowId e₁ input).map fun (flowId, input) => (m flowId, input))
    (htype : type ≠ tspAckSendFlow) (f : UInt32) (port : UInt16) :
    (Reply.ackFlow type f port).about e₁ e₂ = (m f).about := by
  have hport : (Reply.ackFlow type f port).bytes e₂ = (Reply.ackFlow type f 0).bytes e₂ := by
    rw [Reply.bytes, Reply.bytes, if_neg htype, if_neg htype]
  have hreply := @recvReply_flowId e₂ e₁ m type hread htype f []
  rw [List.append_nil] at hreply
  rw [Reply.about, Reply.msg?, hport, hreply]
  rfl

/-- What a reply with a flow is about. -/
theorem about_ackFlow (type : UInt8) (f : UInt32) (port : UInt16) :
    (Reply.ackFlow type f port).about e₁ e₂ =
      if type = tspAckSendFlow then some (.ackSendFlow, f)
      else if type = tspAckClosedFlow then some (.ackClosedFlow, f)
      else if type = tspErrMsg2 ∨ type = tspErrMsg3 then some (.errStart, f)
      else if type = tspErrMsg5 then some (.errSock, f)
      else none := by
  split_ifs with hack hclosed hstart hsock
  · rw [hack]
    exact Link.about_reply e₁ e₂ (.ackSendFlow f port)
  · exact about_flowId (m := .ackClosedFlow) (by rw [hclosed]; exact fun _ => rfl) hack f port
  · obtain h | h := hstart
    · exact about_flowId (m := .errMsg2) (by rw [h]; exact fun _ => rfl) hack f port
    · exact about_flowId (m := .errMsg3) (by rw [h]; exact fun _ => rfl) hack f port
  · exact about_flowId (m := .errMsg5) (by rw [hsock]; exact fun _ => rfl) hack f port
  · obtain ⟨h₂, h₃⟩ := not_or.1 hstart
    rw [Reply.about, Reply.msg?, Reply.bytes, List.append_assoc, List.singleton_append,
      recvReply_cons, recvReplyType, if_neg hclosed, if_neg hack, if_neg h₂, if_neg h₃,
      if_neg hsock]
    split_ifs
    · -- A message that is only its type is about no flow, even if there is more to read.
      rcases hbytes : store32 e₂ (htonl e₂ f) ++ _ with _ | ⟨b, bs⟩ <;> rfl
    · rfl

/-- The acknowledgements of a flow and of its end. -/
theorem about_eq_iff_tells (reply : Reply) (f : UInt32) :
    (reply.about e₁ e₂ = some (.ackSendFlow, f) ↔ reply.tells tspAckSendFlow f) ∧
      (reply.about e₁ e₂ = some (.ackClosedFlow, f) ↔ reply.tells tspAckClosedFlow f) := by
  cases reply with
  | ack type =>
    rw [about_ack]
    exact ⟨⟨nofun, fun h => absurd h Bool.false_ne_true⟩,
      ⟨nofun, fun h => absurd h Bool.false_ne_true⟩⟩
  | ackFlow type g port =>
    have hne : tspAckClosedFlow ≠ tspAckSendFlow := by decide
    rw [about_ackFlow, Reply.tells, Reply.tells]
    split_ifs with hack hclosed
    · simp [hack, hne.symm]
    · simp [hclosed, hne]
    · simp [hack, hclosed]
    · simp [hack, hclosed]
    · simp [hack, hclosed]

end Replies

/-! ## The life of a flow, by its messages -/

namespace Link

variable {e₁ e₂ : Endian} {o : RecvOptions} {s s' : Link} {a : LinkAction}

theorem got_sendFlow (f : UInt32) : (s.life e₁ e₂ f).got .sendFlow = s.requested f := by
  simp only [life, gotCount, tally_sm_eq_zero (show Kind.sendFlow ∉ _ by decide),
    tally_ft_eq_zero (show Kind.sendFlow ∉ _ by decide),
    tally_reply_eq_zero (show Kind.sendFlow ∉ _ by decide), Nat.add_zero, Nat.zero_add]
  rfl

theorem sent_ackSendFlow (f : UInt32) :
    (s.life e₁ e₂ f).sent .ackSendFlow = s.replied tspAckSendFlow f := by
  simp only [life, sentCount, tally_sm_eq_zero (show Kind.ackSendFlow ∉ _ by decide),
    tally_msg_eq_zero (show Kind.ackSendFlow ∉ _ by decide),
    tally_ft_eq_zero (show Kind.ackSendFlow ∉ _ by decide), Nat.zero_add]
  exact List.countP_congr fun reply _ => by
    rw [decide_eq_true_iff, (about_eq_iff_tells reply f).1]

theorem sent_ackClosedFlow (f : UInt32) :
    (s.life e₁ e₂ f).sent .ackClosedFlow = s.replied tspAckClosedFlow f := by
  simp only [life, sentCount, tally_sm_eq_zero (show Kind.ackClosedFlow ∉ _ by decide),
    tally_msg_eq_zero (show Kind.ackClosedFlow ∉ _ by decide),
    tally_ft_eq_zero (show Kind.ackClosedFlow ∉ _ by decide), Nat.zero_add]
  exact List.countP_congr fun reply _ => by
    rw [decide_eq_true_iff, (about_eq_iff_tells reply f).2]

theorem sent_endFlow_pos {f : UInt32} (h : (.endFlow, f) ∈ s.smPipe) :
    0 < (s.life e₁ e₂ f).sent .endFlow := by
  have hsm : 0 < tally smAbout s.smPipe (.endFlow, f) := tally_pos h rfl
  simp only [life, sentCount]
  omega

/-! ## The receiver acknowledges the flow that has asked -/

/-- In runs in which, in passive mode, the flow that asks gets the slot whose position is
    acknowledged: every acknowledgement of a flow is for a request of this flow that has been
    read and not been acknowledged, and the thread of the flow has been created once at most,
    and only after its request. -/
theorem acks_own (h : (link e₁ e₂ o).ReachVia (fun s a => s.AcksOwn o a) s) (flowId : UInt32) :
    s.replied tspAckSendFlow flowId ≤ s.requested flowId ∧
      s.manager.flowSenders.count flowId ≤ s.requested flowId ∧ s.requested flowId ≤ 1 := by
  obtain ⟨-, -, hlives⟩ := life_reachVia (P := fun _ _ => True) (fun _ _ h => h)
    (fun _ _ _ _ _ _ => trivial) trivial h
  have hcausal := causal_of_reachVia (hlives flowId)
  have hack := hcausal.ackSendFlow_le_sendFlow
  have hstarted : (s.life e₁ e₂ flowId).started ≤ (s.life e₁ e₂ flowId).got .sendFlow :=
    calc (s.life e₁ e₂ flowId).started = (s.life e₁ e₂ flowId).got .ackSendFlow :=
          hcausal.started_eq
      _ ≤ (s.life e₁ e₂ flowId).sent .ackSendFlow := hcausal.got_le _
      _ ≤ (s.life e₁ e₂ flowId).got .sendFlow := hack
  have hone : (s.life e₁ e₂ flowId).got .sendFlow ≤ 1 :=
    (hcausal.got_le _).trans hcausal.sendFlow_le_one
  rw [got_sendFlow] at hack hstarted hone
  rw [sent_ackSendFlow] at hack
  exact ⟨hack, hstarted, hone⟩

end Link

/-- A connection whose channel has been opened by the flow 1. -/
def someLink : Link :=
  .start 1 (fun _ => some { someFlow with l4Proto := l4ProtoTCP }) 0 someFlow.DestHost
    (.start 0 0 [])

theorem init_someLink (e₁ e₂ : Endian) (o : RecvOptions) : (link e₁ e₂ o).init someLink :=
  ⟨1, _, 0, someFlow.DestHost, .start 0 0 [], by decide, rfl⟩

/-- In passive mode, two flows that ask in the order of their ids. -/
def inOrder : List LinkAction :=
  [.register 2, .newFlow 1, .newFlow 2, .smPipe, .recvSock, .smPipe, .recvSock, .smSock, .smSock]

theorem acks_own_two : ∃ s, (link .big .little passiveOptions).run someLink inOrder = some s ∧
    s.manager.flowSenders = [1, 2] ∧ s.manager.flowSenders.count 2 ≤ s.requested 2 := by
  have hrun : ((link .big .little passiveOptions).run someLink inOrder).map
      (·.manager.flowSenders) = some [1, 2] := by decide +kernel
  obtain ⟨s, hs, hsenders⟩ := Option.map_eq_some_iff.1 hrun
  have hvia : (link .big .little passiveOptions).StepsVia
      (fun s a => s.AcksOwn passiveOptions a) someLink inOrder := by decide +kernel
  have hreach := Transition.ReachVia.run (.init (init_someLink _ _ _)) hvia hs
  exact ⟨s, hs, hsenders, (Link.acks_own hreach 2).2.1⟩

/-- In passive mode, the receiver acknowledges the flow 1 when it has read the request for the
    flow 2, and not the one for the flow 1. -/
theorem not_acks_own : ¬∀ s, (link .big .little passiveOptions).Reachable s → ∀ flowId,
    s.replied tspAckSendFlow flowId ≤ s.requested flowId := by
  intro h
  have hrun : ((link .big .little passiveOptions).run someLink
      [.register 2, .newFlow 2, .smPipe, .recvSock]).map (fun s =>
        (s.replied tspAckSendFlow 1, s.requested 1)) = some (1, 0) := by decide +kernel
  obtain ⟨s, hs, heq⟩ := Option.map_eq_some_iff.1 hrun
  have hle := h s (Transition.Reachable.run (.init (init_someLink _ _ _)) hs) 1
  obtain ⟨hreplied, hrequested⟩ := Prod.mk.inj heq
  rw [hreplied, hrequested] at hle
  exact absurd hle (by decide)

/-! ## The channel counts its flows -/

namespace Link

variable {e₁ e₂ : Endian} {o : RecvOptions} {s s' : Link} {a : LinkAction}

/-- The channel counts the flows that have got it and have not left it; it is closed with the
    last one, and a release is sent. -/
structure ChannelInv (s : Link) : Prop where
  flows_eq : s.manager.channel.flows = s.registered.length - s.lowered.length
  socket_iff : s.manager.channel.socket = none ↔ s.manager.exited
  pipe_eq : s.manager.channel.pipe = !s.manager.exited
  lengths_eq : s.manager.exited → s.registered.length = s.lowered.length
  release : .release ∈ s.manager.sent → s.manager.exited
  pending : ∀ f code, s.pending = some (f, code) → s.lowered.getLast? = some f

theorem ChannelInv.joins (h : ChannelInv s) {f : UInt32} (hjoins : s.Joins o s' f)
    (hopen : s.manager.channel.socket.isSome) : ChannelInv s' := by
  have hexited : ¬s.manager.exited := by
    rw [← h.socket_iff]
    exact Option.isSome_iff_ne_none.1 hopen
  rw [hjoins.eq]
  refine { h with flows_eq := ?_, lengths_eq := fun hs => absurd hs hexited }
  have hflows := h.flows_eq
  simp only [List.length_append, List.length_singleton]
  omega

theorem ChannelInv.leaves (h : ChannelInv s) {f : UInt32} (hleaves : s.Leaves s' f) :
    ChannelInv s' := by
  have hexited : s.manager.exited = false := by
    rw [← Bool.not_eq_true]
    exact fun hs => hleaves.not_busy (.inl hs)
  have hlast : s'.lowered.getLast? = some f := by rw [hleaves.lowered, List.getLast?_concat]
  have hlength : s'.lowered.length = s.lowered.length + 1 := by
    rw [hleaves.lowered, List.length_append, List.length_singleton]
  have hpending (g : UInt32) (code : FpCode) (hg : s'.pending = some (g, code)) :
      s'.lowered.getLast? = some g := by
    obtain hnone | ⟨code', hsome⟩ := hleaves.pending
    · rw [hnone] at hg
      cases hg
    · rw [hsome] at hg
      cases hg
      exact hlast
  have hflows := h.flows_eq
  have hchannel := hleaves.channel
  have hexited' := hleaves.exited
  rw [SignalChannel.leave] at hchannel hexited'
  split_ifs at hchannel hexited' with hzero
  · -- The last flow.
    refine ⟨?_, ?_, ?_, fun _ => ?_, fun _ => hexited', hpending⟩
    · rw [hchannel, hleaves.registered, hlength]
      push_cast
      omega
    · rw [hchannel]
      exact iff_of_true rfl hexited'
    · rw [hchannel, hexited']
      rfl
    · rw [hleaves.registered, hlength]
      omega
  · -- Other flows are still on the channel.
    refine ⟨?_, ?_, ?_, fun hs => ?_, fun hmem => ?_, hpending⟩
    · rw [hchannel, hleaves.registered, hlength]
      push_cast
      omega
    · rw [hchannel, hexited', ← hexited]
      exact h.socket_iff
    · rw [hchannel, hexited', ← hexited]
      exact h.pipe_eq
    · rw [hexited'] at hs
      exact absurd hs Bool.false_ne_true
    · refine (hleaves.release hmem).resolve_left fun hmem => ?_
      exact absurd (hexited ▸ h.release hmem) Bool.false_ne_true

theorem ChannelInv.keeps (h : ChannelInv s) (hkeeps : s.Keeps s') : ChannelInv s' := by
  refine ⟨?_, ?_, ?_, ?_, ?_, ?_⟩
  · rw [hkeeps.channel, hkeeps.registered, hkeeps.lowered]
    exact h.flows_eq
  · rw [hkeeps.channel, hkeeps.exited]
    exact h.socket_iff
  · rw [hkeeps.channel, hkeeps.exited]
    exact h.pipe_eq
  · rw [hkeeps.exited, hkeeps.registered, hkeeps.lowered]
    exact h.lengths_eq
  · rw [hkeeps.exited]
    exact fun hmem => h.release (hkeeps.release hmem)
  · intro f code hf
    rw [hkeeps.lowered]
    obtain hnone | hsame := hkeeps.pending
    · rw [hnone] at hf
      cases hf
    · exact h.pending f code (hsame ▸ hf)

/-- A flow gets the channel when it is open. -/
def JoinsOpen (s : Link) : LinkAction → Prop
  | .register _ => s.manager.channel.socket.isSome
  | _ => True

theorem channelInv_of_reachVia {C : Link → LinkAction → Prop}
    (hopen : ∀ s a, C s a → o.passiveMode → s.JoinsOpen a) (h : (link e₁ e₂ o).ReachVia C s) :
    ChannelInv s := by
  refine h.invariant ?_ fun s a s' hs hC hstep => ?_
  · rintro s ⟨opener, flows, socket, DestAddr, session, -, rfl⟩
    exact ⟨rfl, ⟨nofun, fun h => absurd h Bool.false_ne_true⟩, rfl,
      fun h => absurd h Bool.false_ne_true, fun h => absurd h List.not_mem_nil, nofun⟩
  · obtain ⟨f, rfl, hjoins⟩ | ⟨f, hleaves⟩ | hkeeps := step_channel hstep
    · exact hs.joins hjoins (hjoins.isOpen.elim id fun hpassive => hopen s _ hC hpassive)
    · exact hs.leaves hleaves
    · exact hs.keeps hkeeps

/-! ## A flow leaves the channel once -/

/-- The sender reads of an error of a flow when the thread that sends the flow has told its
    end: an error of its connection, and, in passive mode, one of a flow that could not be
    started, which has to be the first answer to the end. -/
def EndsFirst (e₁ e₂ : Endian) (o : RecvOptions) (s : Link) : LinkAction → Prop
  | .smSock => ∀ m ∈ s.reply? e₁ e₂,
    match m with
    | .errMsg5 f => (.endFlow, f) ∈ s.smPipe
    | .errMsg2 f | .errMsg3 f => o.passiveMode →
      (.endFlow, f) ∈ s.smPipe ∧ s.replied tspAckClosedFlow f = 0
    | _ => True
  | _ => True

instance : ∀ a, Decidable (s.JoinsOpen a)
  | .register _ => inferInstanceAs (Decidable (s.manager.channel.socket.isSome = true))
  | .newFlow _ | .sndAck _ | .endFlow _ | .errFlow _ | .smPipe | .smSock | .finish | .thread _ _
  | .recvSock | .recvPipe | .timeout => instDecidableTrue

instance : ∀ a, Decidable (s.EndsFirst e₁ e₂ o a)
  | .smSock => by
    have (m : ReplyMsg) : Decidable (match m with
      | .errMsg5 f => (.endFlow, f) ∈ s.smPipe
      | .errMsg2 f | .errMsg3 f => o.passiveMode →
        (.endFlow, f) ∈ s.smPipe ∧ s.replied tspAckClosedFlow f = 0
      | _ => True) := by
      cases m <;> dsimp only <;> infer_instance
    exact inferInstanceAs (Decidable (∀ m ∈ s.reply? e₁ e₂, _))
  | .register _ | .newFlow _ | .sndAck _ | .endFlow _ | .errFlow _ | .smPipe | .finish
  | .thread _ _ | .recvSock | .recvPipe | .timeout => instDecidableTrue

/-- A step after which no flow leaves the channel twice, or while it is sent. -/
structure EndsOnce (e₁ e₂ : Endian) (o : RecvOptions) (s : Link) (a : LinkAction) : Prop where
  acksOwn : s.AcksOwn o a
  joinsOpen : s.JoinsOpen a
  endsFirst : s.EndsFirst e₁ e₂ o a

instance (a : LinkAction) : Decidable (s.EndsOnce e₁ e₂ o a) :=
  decidable_of_iff (s.AcksOwn o a ∧ s.JoinsOpen a ∧ s.EndsFirst e₁ e₂ o a)
    ⟨fun ⟨h₁, h₂, h₃⟩ => ⟨h₁, h₂, h₃⟩, fun ⟨h₁, h₂, h₃⟩ => ⟨h₁, h₂, h₃⟩⟩

/-- An error of a flow is told by a reply. -/
theorem event_eq_get {f : UInt32} {k : Kind} (hk : k = .errStart ∨ k = .errSock)
    (h : s.event e₁ e₂ a = some (f, .get k)) :
    a = .smSock ∧ ∃ m, s.reply? e₁ e₂ = some m ∧ m.about = some (k, f) := by
  have hgets {b : Option (Kind × UInt32)} (h : gets b = some (f, .get k)) : b = some (k, f) := by
    obtain ⟨⟨k', g⟩, hb, heq⟩ := Option.map_eq_some_iff.1 h
    cases heq
    exact hb
  cases a with
  | register g | newFlow g | endFlow g | errFlow g => cases h
  | sndAck g | finish | timeout => cases h
  | thread code g => cases code <;> cases h
  | smSock =>
    obtain ⟨m, hm, habout⟩ := Option.bind_eq_some_iff.1 (hgets h)
    exact ⟨rfl, m, hm, habout⟩
  | smPipe =>
    obtain ⟨⟨code, g⟩, -, habout⟩ := Option.bind_eq_some_iff.1 (hgets h)
    exfalso
    obtain rfl | rfl := hk <;> cases code <;> cases habout
  | recvSock =>
    obtain ⟨m, -, habout⟩ := Option.bind_eq_some_iff.1 (hgets h)
    exfalso
    obtain rfl | rfl := hk <;> cases m <;> cases habout
  | recvPipe =>
    obtain ⟨⟨code, g⟩, -, habout⟩ := Option.map_eq_some_iff.1 (hgets h)
    exfalso
    obtain rfl | rfl := hk <;> cases code <;> cases habout

/-- The errors that the sender reads of are no news for the flow. -/
theorem EndsFirst.calm (h : s.EndsFirst e₁ e₂ o a) {f : UInt32} {ev : FlowEvent}
    (hev : s.event e₁ e₂ a = some (f, ev)) : (s.life e₁ e₂ f).Calm o.passiveMode ev := by
  by_cases hstart : ev = .get .errStart
  · subst hstart
    obtain ⟨rfl, m, hm, habout⟩ := event_eq_get (.inl rfl) hev
    have hends := h m hm
    intro hpassive
    obtain ⟨hmem, hclosed⟩ : (.endFlow, f) ∈ s.smPipe ∧ s.replied tspAckClosedFlow f = 0 := by
      cases m with
      | errMsg2 g | errMsg3 g =>
        cases habout
        exact hends hpassive
      | _ => cases habout
    exact ⟨sent_endFlow_pos hmem, (sent_ackClosedFlow f).trans hclosed⟩
  · by_cases hsock : ev = .get .errSock
    · subst hsock
      obtain ⟨rfl, m, hm, habout⟩ := event_eq_get (.inr rfl) hev
      have hends := h m hm
      cases m with
      | errMsg5 g =>
        cases habout
        exact sent_endFlow_pos hends
      | _ => cases habout
    · exact calm_of_ne hstart hsock

/-- When the channel has been released, every flow that has got it has left it. -/
theorem lowered_of_exited (h : ChannelInv s) (hle : ∀ f, s.lowered.count f ≤ s.registered.count f)
    (hexited : s.manager.exited) (f : UInt32) : s.lowered.count f = s.registered.count f := by
  have hsubperm : s.lowered.Subperm s.registered :=
    List.subperm_ext_iff.2 fun f _ => hle f
  exact (hsubperm.perm_of_length_le (h.lengths_eq hexited).le).count_eq f

/-- What has happened to every flow of a connection. -/
structure Quiet (e₁ e₂ : Endian) (o : RecvOptions) (s : Link) : Prop where
  causal : ∀ f, (s.life e₁ e₂ f).Causal o.passiveMode
  quiet : ∀ f, (s.life e₁ e₂ f).Quiet o.passiveMode
  fresh : ∀ f, f ∉ s.registered → s.life e₁ e₂ f = fresh

/-- A flow that has left the channel has got it, and is not being sent. -/
theorem Quiet.lowered (h : s.Quiet e₁ e₂ o) (f : UInt32) :
    s.lowered.count f + s.running.count f ≤ 1 ∧ s.lowered.count f ≤ s.registered.count f :=
  ⟨lowered_add_running_le (h.causal f) (h.quiet f), lowered_le_registered (h.causal f) (h.quiet f)⟩

/-- When the channel has been released, no flow is being sent, and every flow that has got the
    channel has asked for a request. -/
theorem Quiet.released (h : s.Quiet e₁ e₂ o) (hchannel : ChannelInv s)
    (hexited : s.manager.exited) :
    s.running = [] ∧ ∀ f ∈ s.registered, s.lowered.count f = 1 ∧ (.newFlow, f) ∈ s.smPipe := by
  have hlowered (f : UInt32) : s.lowered.count f = s.registered.count f :=
    lowered_of_exited hchannel (fun f => (h.lowered f).2) hexited f
  have hone (f : UInt32) (hf : f ∈ s.registered) : s.lowered.count f = 1 := by
    have hpos : 0 < s.registered.count f := List.count_pos_iff.2 hf
    have hle := (h.lowered f).1
    have heq := hlowered f
    omega
  refine ⟨List.eq_nil_iff_forall_not_mem.2 fun f hmem => ?_, fun f hf => ⟨hone f hf, ?_⟩⟩
  · have hpos : 0 < s.running.count f := List.count_pos_iff.2 hmem
    by_cases hf : f ∈ s.registered
    · have hle := (h.lowered f).1
      have heq := hone f hf
      omega
    · have hzero : s.running.count f = 0 := congrArg FlowLife.running (h.fresh f hf)
      omega
  · by_contra hnot
    have hasked := (h.causal f).newFlow_of_lowered
      (show 0 < s.lowered.count f by rw [hone f hf]; exact Nat.one_pos)
    rw [sent_newFlow_eq_zero hnot] at hasked
    exact Nat.lt_irrefl 0 hasked

/-- Then nothing more is put into the pipe of the channel. -/
theorem Quiet.late (h : s.Quiet e₁ e₂ o) (hchannel : ChannelInv s) (hlate : s.late = false)
    (hstep : s.step e₁ e₂ o a = some s') : s'.late = false := by
  rw [← Bool.not_eq_true]
  intro hlate'
  obtain hlate' | ⟨hpipe, f, hf⟩ := late_of_step hstep hlate'
  · exact absurd (hlate.symm.trans hlate') Bool.false_ne_true
  · have hexited : s.manager.exited := by
      have := hchannel.pipe_eq
      rw [hpipe] at this
      simpa using this.symm
    obtain ⟨hrunning, hasked⟩ := h.released hchannel hexited
    obtain hf | ⟨hf, hnot⟩ := hf
    · rw [hrunning] at hf
      exact absurd hf List.not_mem_nil
    · exact hnot (hasked f hf).2

/-- The condition on a run makes the lives of all flows calm. -/
theorem quiet_of_reachVia (h : (link e₁ e₂ o).ReachVia (EndsOnce e₁ e₂ o) s) :
    s.Quiet e₁ e₂ o := by
  obtain ⟨-, -, hlives⟩ := life_reachVia (P := FlowLife.Calm o.passiveMode)
    (fun s a h => h.acksOwn) (fun s a f ev h hev => h.endsFirst.calm hev) trivial h
  exact ⟨fun f => causal_of_reachVia (hlives f), fun f => FlowLife.quiet_of_reachVia (hlives f),
    fun f hf => eq_fresh_of_reachVia (hlives f) (List.count_eq_zero.2 hf)⟩

/-- In runs in which the receiver acknowledges the flows that ask, flows get the channel when it
    is open, and the sender reads of an error of a flow when the thread that sends it has told
    its end: a flow leaves the channel once at most; when the channel has been released, no
    thread sends a flow; and nothing is ever put into the pipe of a released channel. -/
theorem released_once (h : (link e₁ e₂ o).ReachVia (EndsOnce e₁ e₂ o) s) :
    (∀ flowId, s.lowered.count flowId ≤ 1) ∧
      (.release ∈ s.manager.sent ∨ s.manager.channel.socket = none → s.running = []) ∧
      s.late = false := by
  have hquiet := quiet_of_reachVia h
  have hchannel := channelInv_of_reachVia (fun s a h _ => h.joinsOpen) h
  refine ⟨fun f => ?_, fun hreleased => ?_, ?_⟩
  · exact (Nat.le_add_right ..).trans (hquiet.lowered f).1
  · refine (hquiet.released hchannel ?_).1
    exact hreleased.elim hchannel.release hchannel.socket_iff.1
  · -- Nothing has been late before the last step.
    induction h with
    | init hinit =>
      obtain ⟨opener, flows, socket, DestAddr, session, -, rfl⟩ := hinit
      rfl
    | step h _ hstep ih =>
      have hquiet := quiet_of_reachVia h
      have hchannel := channelInv_of_reachVia (fun s a h _ => h.joinsOpen) h
      exact hquiet.late hchannel (ih hquiet hchannel) hstep

end Link

/-- A flow that is sent to its end. -/
def sentToEnd : List LinkAction :=
  [.newFlow 1, .smPipe, .recvSock, .thread .ok 1, .recvPipe, .smSock, .endFlow 1]

/-- A flow whose connection fails when it has been sent. -/
theorem released_once_one : ∃ s, (link .big .little (someOptions false)).run someLink
      (sentToEnd ++ [.thread .errSock 1, .recvPipe, .smSock]) = some s ∧
    s.manager.channel.socket = none ∧ s.running = [] := by
  have hrun : ((link .big .little (someOptions false)).run someLink
      (sentToEnd ++ [.thread .errSock 1, .recvPipe, .smSock])).map
        (·.manager.channel.socket) = some none := by decide +kernel
  obtain ⟨s, hs, hsocket⟩ := Option.map_eq_some_iff.1 hrun
  have hvia : (link .big .little (someOptions false)).StepsVia
      (Link.EndsOnce .big .little (someOptions false)) someLink
      (sentToEnd ++ [.thread .errSock 1, .recvPipe, .smSock]) := by decide +kernel
  have hreach := Transition.ReachVia.run (.init (init_someLink _ _ _)) hvia hs
  exact ⟨s, hs, hsocket, (Link.released_once hreach).2.1 (.inr hsocket)⟩

/-- When the connection of a flow fails while it is sent, the channel is released, and the end
    of the flow is put into a pipe that is closed. -/
theorem not_released_once : ¬∀ s, (link .big .little (someOptions false)).Reachable s →
    (.release ∈ s.manager.sent → s.running = []) ∧ s.late = false := by
  intro h
  have hrun : ((link .big .little (someOptions false)).run someLink
      [.newFlow 1, .smPipe, .recvSock, .thread .ok 1, .recvPipe, .smSock, .thread .errSock 1,
        .recvPipe, .smSock, .endFlow 1]).map (·.late) = some true := by decide +kernel
  obtain ⟨s, hs, hlate⟩ := Option.map_eq_some_iff.1 hrun
  have hnot := (h s (Transition.Reachable.run (.init (init_someLink _ _ _)) hs)).2
  exact absurd (hnot.symm.trans hlate) Bool.false_ne_true

/-! ## What has happened at the release -/

namespace Link

variable {e₁ e₂ : Endian} {o : RecvOptions} {s : Link} {a : LinkAction}

/-- No thread of a flow tells an error. -/
def NoError : LinkAction → Prop
  | .errFlow _ | .thread .err1 _ | .thread .err2 _ | .thread .errSock _ => False
  | _ => True

instance : DecidablePred NoError
  | .errFlow _ | .thread .err1 _ | .thread .err2 _ | .thread .errSock _ => instDecidableFalse
  | .register _ | .newFlow _ | .sndAck _ | .endFlow _ | .smPipe | .smSock | .finish
  | .thread .ok _ | .recvSock | .recvPipe | .timeout => instDecidableTrue

theorem noError_event (ha : NoError a) {f : UInt32} {ev : FlowEvent}
    (hev : s.event e₁ e₂ a = some (f, ev)) : FlowLife.NoError ev := by
  have hgets {b : Option (Kind × UInt32)} (h : gets b = some (f, ev)) : FlowLife.NoError ev := by
    obtain ⟨⟨k, g⟩, -, heq⟩ := Option.map_eq_some_iff.1 h
    cases heq
    exact trivial
  cases a with
  | errFlow g => exact ha.elim
  | register g | newFlow g | endFlow g =>
    cases hev
    exact trivial
  | thread code g =>
    cases code with
    | ok =>
      cases hev
      exact trivial
    | err1 | err2 | errSock => exact ha.elim
  | smPipe => exact hgets hev
  | smSock => exact hgets hev
  | recvSock => exact hgets hev
  | recvPipe => exact hgets hev
  | sndAck g | finish | timeout => cases hev

/-- When not in passive mode, the receiver acknowledges the flow that has asked. -/
theorem acksOwn_of_active (hpassive : o.passiveMode = false) : s.AcksOwn o a := by
  cases a with
  | recvSock =>
    intro m _
    cases m with
    | sendFlow flow f => exact fun hp => absurd (hpassive.symm.trans hp) Bool.false_ne_true
    | _ => exact trivial
  | _ => exact trivial

theorem quiet_of_noError (hpassive : o.passiveMode = false)
    (h : (link e₁ e₂ o).ReachVia (fun _ a => NoError a) s) :
    s.Quiet e₁ e₂ o ∧ ∀ f, (s.life e₁ e₂ f).Flawless := by
  obtain ⟨-, -, hlives⟩ := life_reachVia (P := fun _ ev => FlowLife.NoError ev)
    (fun s a _ => acksOwn_of_active hpassive) (fun s a f ev ha hev => noError_event ha hev)
    trivial h
  have hcausal (f : UInt32) := causal_of_reachVia (hlives f)
  have hflawless (f : UInt32) := flawless_of_reachVia (hlives f)
  exact ⟨⟨hcausal, fun f => (hflawless f).quiet (hcausal f),
    fun f hf => eq_fresh_of_reachVia (hlives f) (List.count_eq_zero.2 hf)⟩, hflawless⟩

/-- Not in passive mode, in runs without errors, when the receiver is about to read the release
    of the channel: no slot is in use; every flow that has got the channel has been acknowledged
    once, and so has its end; and its parser has been told the end once, but for the flow that
    has left the channel as the last one, whose parser may be the next to be told. -/
theorem finished_at_release (hpassive : o.passiveMode = false)
    (h : (link e₁ e₂ o).ReachVia (fun _ a => NoError a) s)
    (hread : s.manager.sent[s.recvRead]? = some .release) :
    (∀ flowId ∈ s.session.flowIdNum, flowId = noFlow) ∧ ∀ flowId ∈ s.registered,
      s.replied tspAckSendFlow flowId = 1 ∧ s.replied tspAckClosedFlow flowId = 1 ∧
      (s.manager.parserPipes.count (flowId, .fpEnd) = 1 ∨
        s.lowered.getLast? = some flowId ∧ s.pending = some (flowId, .fpEnd) ∧
          s.manager.parserPipes.count (flowId, .fpEnd) = 0) := by
  obtain ⟨hquiet, hflawless⟩ := quiet_of_noError hpassive h
  have hchannel := channelInv_of_reachVia
    (fun s a _ hp => absurd (hpassive.symm.trans hp) Bool.false_ne_true) h
  have hexited := hchannel.release (List.mem_of_getElem? hread)
  have hlowered := (hquiet.released hchannel hexited).2
  have hfinished (f : UInt32) (hf : f ∈ s.registered) :=
    finished_of_lowered (hquiet.causal f) (hflawless f)
      (show 0 < s.lowered.count f by rw [(hlowered f hf).1]; exact Nat.one_pos)
  refine ⟨fun f hf => ?_, fun f hf => ?_⟩
  · by_contra hne
    have hpos : 0 < (s.life e₁ e₂ f).slots := by
      rw [life, slotsOf, if_neg hne]
      exact List.count_pos_iff.2 hf
    -- A flow that is finished has no slot, nor has one that never had the channel.
    have hzero : (s.life e₁ e₂ f).slots = 0 := by
      by_cases hmem : f ∈ s.registered
      · exact (hfinished f hmem).2.2.2.2.1
      · rw [hquiet.fresh f hmem]
        rfl
    omega
  · obtain ⟨hack, -, hclosed, -, -, hend⟩ := hfinished f hf
    rw [sent_ackSendFlow] at hack
    rw [sent_ackClosedFlow] at hclosed
    have hend : s.manager.parserPipes.count (f, .fpEnd) +
        (if s.pending = some (f, .fpEnd) then 1 else 0) = 1 := hend
    refine ⟨hack, hclosed, ?_⟩
    -- Its parser has been told, or is the next to be told.
    split_ifs at hend with hpending
    · exact .inr ⟨hchannel.pending f _ hpending, hpending, Nat.succ.inj hend⟩
    · exact .inl hend

end Link

/-- A flow that is sent to its end, and the end of which is acknowledged. -/
def acknowledged : List LinkAction := sentToEnd ++ [.smPipe, .recvSock, .smSock]

/-- When its parser has been told as well, the receiver reads the release. -/
theorem finished_at_release_one : ∃ s, (link .big .little (someOptions false)).run someLink
      (acknowledged ++ [.finish]) = some s ∧ (∀ flowId ∈ s.session.flowIdNum, flowId = noFlow) ∧
    s.replied tspAckSendFlow 1 = 1 ∧ s.manager.parserPipes = [(1, .fpEnd)] := by
  have hrun : ((link .big .little (someOptions false)).run someLink
      (acknowledged ++ [.finish])).map (fun s => (s.manager.sent[s.recvRead]?, s.registered,
        s.manager.parserPipes)) = some (some .release, [1], [(1, .fpEnd)]) := by decide +kernel
  obtain ⟨s, hs, heq⟩ := Option.map_eq_some_iff.1 hrun
  obtain ⟨hread, heq⟩ := Prod.mk.inj heq
  obtain ⟨hregistered, hparser⟩ := Prod.mk.inj heq
  have hvia : (link .big .little (someOptions false)).StepsVia
      (fun _ a => Link.NoError a) someLink (acknowledged ++ [.finish]) := by decide +kernel
  have hreach := Transition.ReachVia.run (.init (init_someLink _ _ _)) hvia hs
  obtain ⟨hslots, hflows⟩ := Link.finished_at_release rfl hreach hread
  exact ⟨s, hs, hslots, (hflows 1 (hregistered ▸ List.mem_singleton_self 1)).1, hparser⟩

/-- The receiver may read the release before the parser of the flow has been told. -/
theorem not_finished_at_release : ¬∀ s,
    (link .big .little (someOptions false)).ReachVia (fun _ a => Link.NoError a) s →
    s.manager.sent[s.recvRead]? = some .release → ∀ flowId ∈ s.registered,
      s.manager.parserPipes.count (flowId, .fpEnd) = 1 := by
  intro h
  have hrun : ((link .big .little (someOptions false)).run someLink acknowledged).map (fun s =>
      (s.manager.sent[s.recvRead]?, s.registered, s.manager.parserPipes)) =
        some (some .release, [1], []) := by decide +kernel
  obtain ⟨s, hs, heq⟩ := Option.map_eq_some_iff.1 hrun
  obtain ⟨hread, heq⟩ := Prod.mk.inj heq
  obtain ⟨hregistered, hparser⟩ := Prod.mk.inj heq
  have hvia : (link .big .little (someOptions false)).StepsVia
      (fun _ a => Link.NoError a) someLink acknowledged := by decide +kernel
  have hreach := Transition.ReachVia.run (.init (init_someLink _ _ _)) hvia hs
  have hcount := h s hreach hread 1 (hregistered ▸ List.mem_singleton_self 1)
  rw [hparser] at hcount
  exact absurd hcount (by decide)

end Ditg
