import Mathlib.Tactic.Common
import Ditg.Library.Transition

/-!
# The life of a flow

What happens to one flow on its signalling channel, from its registration to the moment it
leaves the channel, by counting the messages about it: how many have been sent, and how many
have been got by whom they are for. Messages about other flows do not matter, and neither
does the order of those about this one.

The threads that send them are the parser and the sender of the flow, the thread of the flow
at the receiver, and the two threads of the connection, one at each side, which forward what
comes in at one end.

* `FlowLife.Causal`: what is got has been sent, and what is sent has its cause;
* `FlowLife.Quiet`: the sender is told of no error while it sends the flow;
* `lowered_add_running_le`: then a flow leaves its channel once at most, and no thread sends
  it after that;
* `finished_of_lowered`: without errors, it has then been acknowledged, it has no slot, and
  its parser has been told.
-/

namespace Ditg

/-- The messages about a flow: those in the pipe of its channel, those of the sender to the
    receiver, those in the pipe of the receiver's thread, and those of the receiver to the
    sender. `errStart` are the two errors of a flow that could not be started. -/
inductive Kind
  | newFlow
  | endFlow
  | errFlow
  | sendFlow
  | closedFlow
  | closedErr
  | ftOk
  | ftErr
  | ftErrSock
  | ackSendFlow
  | ackClosedFlow
  | errStart
  | errSock
  deriving DecidableEq, Repr

/-- What has happened to a flow. -/
@[ext] structure FlowLife where
  /-- How often the flow has got the channel. -/
  registered : ℕ
  /-- The slots it has at the receiver. -/
  slots : ℕ
  /-- The threads that have been created to send it, and those that still do. -/
  started : ℕ
  running : ℕ
  /-- How often it has left the channel. -/
  lowered : ℕ
  /-- How often its parser has been told, or is about to be told, that it has ended. -/
  fpEnd : ℕ
  sent : Kind → ℕ
  got : Kind → ℕ

/-- The events of its life: its registration, what its threads do, and a message that is
    got by one of the two threads of the connection. -/
inductive FlowEvent
  | register
  | ask
  | endSender
  | failSender
  | threadOk
  | threadErr
  | threadErrSock
  | get (k : Kind)
  deriving DecidableEq, Repr

namespace FlowLife

variable (passiveMode : Bool) (l : FlowLife)

/-- A message is sent. -/
def put (k : Kind) : FlowLife := { l with sent := fun j => l.sent j + if j = k then 1 else 0 }

/-- A message is got. -/
def take (k : Kind) : FlowLife := { l with got := fun j => l.got j + if j = k then 1 else 0 }

/-- An event is possible. -/
def Can : FlowEvent → Prop
  | .register => l.registered = 0
  | .ask => 0 < l.registered ∧ l.sent .newFlow = 0
  | .endSender | .failSender => 0 < l.running
  | .threadOk => passiveMode = false ∧ 0 < l.slots ∧ l.sent .ftOk = 0 ∧ l.sent .ftErr = 0
  | .threadErr => 0 < l.slots ∧ l.sent .ftOk = 0 ∧ l.sent .ftErr = 0 ∧ l.sent .ftErrSock = 0
  | .threadErrSock => 0 < l.slots ∧ l.sent .ftErr = 0 ∧ l.sent .ftErrSock = 0
  | .get k => l.got k < l.sent k

/-- What a message does, when it is got. -/
def handle : Kind → FlowLife
  | .newFlow => l.put .sendFlow
  | .endFlow => l.put .closedFlow
  | .errFlow => { l.put .closedErr with lowered := l.lowered + 1 }
  | .sendFlow =>
    let l := { l with slots := l.slots + 1 }
    if passiveMode then l.put .ackSendFlow else l
  | .closedFlow =>
    if 0 < l.slots then { l.put .ackClosedFlow with slots := l.slots - 1 } else l
  | .closedErr => { l with slots := l.slots - 1 }
  | .ftOk => if 0 < l.slots then l.put .ackSendFlow else l
  | .ftErr => { l.put .errStart with slots := l.slots - 1 }
  | .ftErrSock => if 0 < l.slots then { l.put .errSock with slots := l.slots - 1 } else l
  | .ackSendFlow => { l with started := l.started + 1, running := l.running + 1 }
  | .ackClosedFlow => { l with lowered := l.lowered + 1, fpEnd := l.fpEnd + 1 }
  | .errStart | .errSock => { l with lowered := l.lowered + 1 }

/-- The flow after an event. -/
def next : FlowEvent → FlowLife
  | .register => { l with registered := l.registered + 1 }
  | .ask => l.put .newFlow
  | .endSender => { l.put .endFlow with running := l.running - 1 }
  | .failSender => { l.put .errFlow with running := l.running - 1 }
  | .threadOk => l.put .ftOk
  | .threadErr => l.put .ftErr
  | .threadErrSock => l.put .ftErrSock
  | .get k => (l.take k).handle passiveMode k

/-- A flow that has not been registered. -/
def fresh : FlowLife where
  registered := 0
  slots := 0
  started := 0
  running := 0
  lowered := 0
  fpEnd := 0
  sent _ := 0
  got _ := 0

instance (ev : FlowEvent) : Decidable (l.Can passiveMode ev) := by
  cases ev <;> dsimp only [Can] <;> infer_instance

end FlowLife

/-- The lives of a flow. -/
def flowLife (passiveMode : Bool) : Transition FlowLife FlowEvent where
  init l := l = .fresh
  step l ev := if l.Can passiveMode ev then some (l.next passiveMode ev) else none

namespace FlowLife

variable (passiveMode : Bool) (l : FlowLife)

theorem flowLife_step_iff {ev : FlowEvent} {l' : FlowLife} :
    (flowLife passiveMode).step l ev = some l' ↔
      l.Can passiveMode ev ∧ l.next passiveMode ev = l' := by
  simp only [flowLife, Option.ite_none_right_eq_some, Option.some.injEq]

/-- The message that is sent with an event. -/
def sends : FlowEvent → Option Kind
  | .register => none
  | .ask => some .newFlow
  | .endSender => some .endFlow
  | .failSender => some .errFlow
  | .threadOk => some .ftOk
  | .threadErr => some .ftErr
  | .threadErrSock => some .ftErrSock
  | .get .newFlow => some .sendFlow
  | .get .endFlow => some .closedFlow
  | .get .errFlow => some .closedErr
  | .get .sendFlow => if passiveMode then some .ackSendFlow else none
  | .get .closedFlow => if 0 < l.slots then some .ackClosedFlow else none
  | .get .ftOk => if 0 < l.slots then some .ackSendFlow else none
  | .get .ftErr => some .errStart
  | .get .ftErrSock => if 0 < l.slots then some .errSock else none
  | .get _ => none

variable {passiveMode l} in
/-- Nothing else is sent. -/
theorem sent_next (ev : FlowEvent) (j : Kind) : (l.next passiveMode ev).sent j =
    l.sent j + if l.sends passiveMode ev = some j then 1 else 0 := by
  cases ev with
  | get k =>
    by_cases hslot : 0 < l.slots <;> cases passiveMode <;> cases k <;>
      simp [next, handle, take, put, sends, hslot, eq_comm]
  | _ => simp [next, put, sends, eq_comm]

variable {passiveMode l} in
theorem registered_next (ev : FlowEvent) : (l.next passiveMode ev).registered =
    l.registered + if ev = .register then 1 else 0 := by
  cases ev with
  | get k =>
    by_cases hslot : 0 < l.slots <;> cases passiveMode <;> cases k <;>
      simp [next, handle, take, put, hslot]
  | _ => simp [next, put]

variable {passiveMode l} in
/-- Nothing is got but a message that is. -/
theorem got_next_of_ne {ev : FlowEvent} {j : Kind} (h : ev ≠ .get j) :
    (l.next passiveMode ev).got j = l.got j := by
  cases ev with
  | get k =>
    have hjk : j ≠ k := fun hjk => h (by rw [hjk])
    have htake : (l.take k).got j = l.got j := by simp [take, hjk]
    rw [← htake]
    by_cases hslot : 0 < (l.take k).slots <;> cases passiveMode <;> cases k <;>
      simp [next, handle, put, hslot]
  | _ => rfl

/-! ## Causes -/

/-- What is got has been sent, and what is sent has its cause. -/
structure Causal : Prop where
  registered_le_one : l.registered ≤ 1
  newFlow_le : l.sent .newFlow ≤ l.registered
  got_le : ∀ k, l.got k ≤ l.sent k
  sendFlow_le : l.sent .sendFlow ≤ l.got .newFlow
  closedFlow_le : l.sent .closedFlow ≤ l.got .endFlow
  started_eq : l.started = l.got .ackSendFlow
  /-- The threads that send the flow run, or have come to their end, or have failed. -/
  running_eq : l.running + l.sent .endFlow + l.sent .errFlow = l.started
  /-- The slot of the flow is freed once, with one answer. -/
  slots_le : l.slots + l.sent .ackClosedFlow + l.sent .errSock ≤ l.got .sendFlow
  ackClosedFlow_le : l.sent .ackClosedFlow ≤ l.got .closedFlow
  ok_of_passive : passiveMode → l.sent .ftOk = 0
  thread_le : l.sent .ftOk + l.sent .ftErr ≤ l.got .sendFlow
  errors_le : l.sent .ftErr + l.sent .ftErrSock ≤ l.got .sendFlow
  ackSendFlow_le : l.sent .ackSendFlow ≤ if passiveMode then l.got .sendFlow else l.got .ftOk
  errStart_le : l.sent .errStart ≤ l.got .ftErr
  slots_of_errStart : 0 < l.sent .errStart → l.slots = 0
  errSock_le : l.sent .errSock ≤ l.got .ftErrSock
  lowered_eq : l.lowered =
    l.got .ackClosedFlow + l.got .errStart + l.got .errSock + l.got .errFlow
  fpEnd_eq : l.fpEnd = l.got .ackClosedFlow

variable {passiveMode l}

theorem causal_fresh : fresh.Causal passiveMode where
  registered_le_one := Nat.zero_le 1
  newFlow_le := Nat.le_refl 0
  got_le _ := Nat.le_refl 0
  sendFlow_le := Nat.le_refl 0
  closedFlow_le := Nat.le_refl 0
  started_eq := rfl
  running_eq := rfl
  slots_le := Nat.le_refl 0
  ackClosedFlow_le := Nat.le_refl 0
  ok_of_passive _ := rfl
  thread_le := Nat.le_refl 0
  errors_le := Nat.le_refl 0
  ackSendFlow_le := Nat.zero_le _
  errStart_le := Nat.le_refl 0
  slots_of_errStart := fun _ => rfl
  errSock_le := Nat.le_refl 0
  lowered_eq := rfl
  fpEnd_eq := rfl

theorem got_le_put (h : ∀ k, l.got k ≤ l.sent k) (j : Kind) :
    ∀ k, (l.put j).got k ≤ (l.put j).sent k :=
  fun k => Nat.le_trans (h k) (Nat.le_add_right ..)

theorem got_le_take (h : ∀ k, l.got k ≤ l.sent k) {j : Kind} (hj : l.got j < l.sent j) :
    ∀ k, (l.take j).got k ≤ (l.take j).sent k := by
  intro k
  simp only [take]
  split_ifs with hkj
  · subst hkj
    exact hj
  · exact h k

namespace Causal

/-- The request of a flow is got once at most. -/
theorem sendFlow_le_one (h : l.Causal passiveMode) : l.sent .sendFlow ≤ 1 :=
  calc l.sent .sendFlow ≤ l.got .newFlow := h.sendFlow_le
    _ ≤ l.sent .newFlow := h.got_le _
    _ ≤ l.registered := h.newFlow_le
    _ ≤ 1 := h.registered_le_one

/-- A flow is acknowledged at most as often as its request has been got. -/
theorem ackSendFlow_le_sendFlow (h : l.Causal passiveMode) :
    l.sent .ackSendFlow ≤ l.got .sendFlow := by
  have hack := h.ackSendFlow_le
  split_ifs at hack
  · exact hack
  · have hok := h.got_le .ftOk
    have hthread := h.thread_le
    omega

/-- What the threads of a flow do. -/
theorem next_thread (h : l.Causal passiveMode) {ev : FlowEvent} (hev : ∀ k, ev ≠ .get k)
    (hcan : l.Can passiveMode ev) : (l.next passiveMode ev).Causal passiveMode := by
  cases ev with
  | register =>
    have hcan : l.registered = 0 := hcan
    have hnew := h.newFlow_le
    exact { h with
      registered_le_one := show l.registered + 1 ≤ 1 by omega
      newFlow_le := show l.sent .newFlow ≤ l.registered + 1 by omega }
  | ask =>
    obtain ⟨hreg, hnew⟩ : 0 < l.registered ∧ l.sent .newFlow = 0 := hcan
    exact { h with
      newFlow_le := show l.sent .newFlow + 1 ≤ l.registered by omega
      got_le := got_le_put h.got_le .newFlow }
  | endSender =>
    have hcan : 0 < l.running := hcan
    have hrun := h.running_eq
    exact { h with
      got_le := got_le_put h.got_le .endFlow
      running_eq := show l.running - 1 + (l.sent .endFlow + 1) + l.sent .errFlow =
        l.started by omega }
  | failSender =>
    have hcan : 0 < l.running := hcan
    have hrun := h.running_eq
    exact { h with
      got_le := got_le_put h.got_le .errFlow
      running_eq := show l.running - 1 + l.sent .endFlow + (l.sent .errFlow + 1) =
        l.started by omega }
  | threadOk =>
    obtain ⟨hactive, hslot, hok, herr⟩ : passiveMode = false ∧ 0 < l.slots ∧
      l.sent .ftOk = 0 ∧ l.sent .ftErr = 0 := hcan
    have hle := h.slots_le
    exact { h with
      got_le := got_le_put h.got_le .ftOk
      ok_of_passive := fun hpassive => absurd (hactive.symm.trans hpassive) Bool.false_ne_true
      thread_le := show l.sent .ftOk + 1 + l.sent .ftErr ≤ l.got .sendFlow by omega }
  | threadErr =>
    obtain ⟨hslot, hok, herr, hsock⟩ : 0 < l.slots ∧ l.sent .ftOk = 0 ∧ l.sent .ftErr = 0 ∧
      l.sent .ftErrSock = 0 := hcan
    have hle := h.slots_le
    exact { h with
      got_le := got_le_put h.got_le .ftErr
      thread_le := show l.sent .ftOk + (l.sent .ftErr + 1) ≤ l.got .sendFlow by omega
      errors_le := show l.sent .ftErr + 1 + l.sent .ftErrSock ≤ l.got .sendFlow by omega }
  | threadErrSock =>
    obtain ⟨hslot, herr, hsock⟩ : 0 < l.slots ∧ l.sent .ftErr = 0 ∧ l.sent .ftErrSock = 0 := hcan
    have hle := h.slots_le
    exact { h with
      got_le := got_le_put h.got_le .ftErrSock
      errors_le := show l.sent .ftErr + (l.sent .ftErrSock + 1) ≤ l.got .sendFlow by omega }
  | get k => exact absurd rfl (hev k)

/-- What the sender does with a message that it has got. -/
theorem next_sender (h : l.Causal passiveMode) {k : Kind} (hcan : l.got k < l.sent k)
    (hk : k ∈ [.newFlow, .endFlow, .errFlow, .ackSendFlow, .ackClosedFlow, .errStart, .errSock]) :
    ((l.take k).handle passiveMode k).Causal passiveMode := by
  have hgot := got_le_take h.got_le hcan
  have hlowered := h.lowered_eq
  cases k with
  | newFlow =>
    exact { h with
      got_le := got_le_put hgot .sendFlow
      sendFlow_le := Nat.succ_le_succ h.sendFlow_le }
  | endFlow =>
    exact { h with
      got_le := got_le_put hgot .closedFlow
      closedFlow_le := Nat.succ_le_succ h.closedFlow_le }
  | errFlow =>
    exact { h with
      got_le := got_le_put hgot .closedErr
      lowered_eq := congrArg (· + 1) hlowered }
  | ackSendFlow =>
    have hrun := h.running_eq
    exact { h with
      got_le := hgot
      started_eq := congrArg (· + 1) h.started_eq
      running_eq := show l.running + 1 + l.sent .endFlow + l.sent .errFlow =
        l.started + 1 by omega }
  | ackClosedFlow =>
    exact { h with
      got_le := hgot
      lowered_eq := show l.lowered + 1 =
        l.got .ackClosedFlow + 1 + l.got .errStart + l.got .errSock + l.got .errFlow by omega
      fpEnd_eq := congrArg (· + 1) h.fpEnd_eq }
  | errStart =>
    exact { h with
      got_le := hgot
      lowered_eq := show l.lowered + 1 =
        l.got .ackClosedFlow + (l.got .errStart + 1) + l.got .errSock + l.got .errFlow by omega }
  | errSock =>
    exact { h with
      got_le := hgot
      lowered_eq := show l.lowered + 1 =
        l.got .ackClosedFlow + l.got .errStart + (l.got .errSock + 1) + l.got .errFlow by omega }
  | _ => exact absurd hk (by decide)

/-- The receiver gets the request of the flow, and acknowledges it in passive mode. -/
theorem next_request (h : l.Causal passiveMode) (hcan : l.got .sendFlow < l.sent .sendFlow) :
    ((l.take .sendFlow).handle passiveMode .sendFlow).Causal passiveMode := by
  have hgot := got_le_take h.got_le hcan
  have hslots := h.slots_le
  have hack := h.ackSendFlow_le
  have hone := h.sendFlow_le_one
  have hthread := h.thread_le
  have herrors := h.errors_le
  have hstart := h.errStart_le
  have hftErr := h.got_le .ftErr
  have hslots' : l.slots + 1 + l.sent .ackClosedFlow + l.sent .errSock ≤ l.got .sendFlow + 1 := by
    omega
  -- The request is the only one, so that no thread has told an error before.
  have herr : 0 < l.sent .errStart → l.slots + 1 = 0 := fun hpos => by omega
  simp only [handle]
  split_ifs at hack ⊢ with hpassive
  · exact { h with
      got_le := got_le_put hgot .ackSendFlow
      slots_le := hslots'
      thread_le := Nat.le_succ_of_le hthread
      errors_le := Nat.le_succ_of_le herrors
      ackSendFlow_le := by
        rw [if_pos hpassive]
        exact Nat.succ_le_succ hack
      slots_of_errStart := herr }
  · exact { h with
      got_le := hgot
      slots_le := hslots'
      thread_le := Nat.le_succ_of_le hthread
      errors_le := Nat.le_succ_of_le herrors
      ackSendFlow_le := by
        rw [if_neg hpassive]
        exact hack
      slots_of_errStart := herr }

/-- The receiver is told that the flow has ended, and acknowledges that, if it is live. -/
theorem next_closed (h : l.Causal passiveMode) {k : Kind} (hcan : l.got k < l.sent k)
    (hk : k ∈ [.closedFlow, .closedErr]) :
    ((l.take k).handle passiveMode k).Causal passiveMode := by
  have hgot := got_le_take h.got_le hcan
  have hslots := h.slots_le
  cases k with
  | closedFlow =>
    have hclosed := h.ackClosedFlow_le
    have herr := h.slots_of_errStart
    simp only [handle]
    split_ifs with hslot
    · have hslot : 0 < l.slots := hslot
      exact { h with
        got_le := got_le_put hgot .ackClosedFlow
        slots_le := show l.slots - 1 + (l.sent .ackClosedFlow + 1) + l.sent .errSock ≤
          l.got .sendFlow by omega
        ackClosedFlow_le := Nat.succ_le_succ hclosed
        slots_of_errStart := fun hpos => show l.slots - 1 = 0 by rw [herr hpos] }
    · exact { h with
        got_le := hgot
        ackClosedFlow_le := Nat.le_succ_of_le hclosed }
  | closedErr =>
    have herr := h.slots_of_errStart
    exact { h with
      got_le := hgot
      slots_le := show l.slots - 1 + l.sent .ackClosedFlow + l.sent .errSock ≤
        l.got .sendFlow by omega
      slots_of_errStart := fun hpos => show l.slots - 1 = 0 by rw [herr hpos] }
  | _ => exact absurd hk (by decide)

/-- The receiver is told by the thread of the flow that it is ready, or of an error. -/
theorem next_pipe (h : l.Causal passiveMode) {k : Kind} (hcan : l.got k < l.sent k)
    (hk : k ∈ [.ftOk, .ftErr, .ftErrSock]) :
    ((l.take k).handle passiveMode k).Causal passiveMode := by
  have hgot := got_le_take h.got_le hcan
  have hslots := h.slots_le
  have hack := h.ackSendFlow_le
  cases k with
  | ftOk =>
    -- In passive mode no thread tells that it is ready.
    have hactive : ¬passiveMode := fun hpassive =>
      absurd (h.ok_of_passive hpassive ▸ hcan) (Nat.not_lt_zero _)
    rw [if_neg hactive] at hack
    simp only [handle]
    split_ifs with hslot
    · exact { h with
        got_le := got_le_put hgot .ackSendFlow
        ackSendFlow_le := by
          rw [if_neg hactive]
          exact Nat.succ_le_succ hack }
    · exact { h with
        got_le := hgot
        ackSendFlow_le := by
          rw [if_neg hactive]
          exact Nat.le_succ_of_le hack }
  | ftErr =>
    have hone := h.sendFlow_le_one
    -- There has been one request, so that the flow has one slot at most.
    have hsend := h.got_le .sendFlow
    exact { h with
      got_le := got_le_put hgot .errStart
      slots_le := show l.slots - 1 + l.sent .ackClosedFlow + l.sent .errSock ≤
        l.got .sendFlow by omega
      errStart_le := Nat.succ_le_succ h.errStart_le
      slots_of_errStart := fun _ => show l.slots - 1 = 0 by omega }
  | ftErrSock =>
    have herr := h.slots_of_errStart
    simp only [handle]
    split_ifs with hslot
    · have hslot : 0 < l.slots := hslot
      exact { h with
        got_le := got_le_put hgot .errSock
        slots_le := show l.slots - 1 + l.sent .ackClosedFlow + (l.sent .errSock + 1) ≤
          l.got .sendFlow by omega
        errSock_le := Nat.succ_le_succ h.errSock_le
        slots_of_errStart := fun hpos => show l.slots - 1 = 0 by rw [herr hpos] }
    · exact { h with
        got_le := hgot
        errSock_le := Nat.le_succ_of_le h.errSock_le }
  | _ => exact absurd hk (by decide)

/-- What the receiver does with a message that it has got. -/
theorem next_receiver (h : l.Causal passiveMode) {k : Kind} (hcan : l.got k < l.sent k)
    (hk : k ∈ [.sendFlow, .closedFlow, .closedErr, .ftOk, .ftErr, .ftErrSock]) :
    ((l.take k).handle passiveMode k).Causal passiveMode := by
  cases k with
  | sendFlow => exact h.next_request hcan
  | closedFlow | closedErr => exact h.next_closed hcan (by decide)
  | ftOk | ftErr | ftErrSock => exact h.next_pipe hcan (by decide)
  | _ => exact absurd hk (by decide)

/-- What happens to a flow has its cause. -/
theorem next (h : l.Causal passiveMode) {ev : FlowEvent} (hcan : l.Can passiveMode ev) :
    (l.next passiveMode ev).Causal passiveMode := by
  by_cases hev : ∃ k, ev = .get k
  · obtain ⟨k, rfl⟩ := hev
    by_cases hk : k ∈ [.newFlow, .endFlow, .errFlow, .ackSendFlow, .ackClosedFlow, .errStart,
      .errSock]
    · exact h.next_sender hcan hk
    · exact h.next_receiver hcan (by cases k <;> simp_all)
  · exact h.next_thread (fun k hk => hev ⟨k, hk⟩) hcan

end Causal

theorem causal_of_reachVia {P : FlowLife → FlowEvent → Prop}
    (h : (flowLife passiveMode).ReachVia P l) : l.Causal passiveMode := by
  refine h.invariant (fun l hl => hl ▸ causal_fresh) fun l ev l' hl _ hstep => ?_
  obtain ⟨hcan, rfl⟩ := (flowLife_step_iff passiveMode l).1 hstep
  exact hl.next hcan

/-- Nothing happens to a flow that has not been registered. -/
theorem eq_fresh_of_reachVia {P : FlowLife → FlowEvent → Prop}
    (h : (flowLife passiveMode).ReachVia P l) (hl : l.registered = 0) : l = fresh := by
  have hstep (l : FlowLife) (ev : FlowEvent) (l' : FlowLife) (hl : l.registered = 0 → l = fresh)
      (_ : P l ev) (hstep : (flowLife passiveMode).step l ev = some l') :
      l'.registered = 0 → l' = fresh := by
    intro hl'
    obtain ⟨hcan, rfl⟩ := (flowLife_step_iff passiveMode l).1 hstep
    rw [registered_next, Nat.add_eq_zero_iff] at hl'
    rw [hl hl'.1] at hcan
    cases ev with
    | register => exact absurd hl'.2 (by simp)
    | _ => exact absurd hcan (by simp [Can, fresh])
  have hinit (l : FlowLife) (hl : l = fresh) : l.registered = 0 → l = fresh := fun _ => hl
  have hinv := h.invariant hinit hstep
  exact hinv hl

/-! ## A flow leaves its channel once -/

/-- An error is told the sender when the thread that sends the flow has come to its end. In
    passive mode this is so for the errors of a flow that could not be started as well, which
    are told even if the end of the flow has been acknowledged. -/
def Calm (passiveMode : Bool) (l : FlowLife) : FlowEvent → Prop
  | .get .errStart => passiveMode → 0 < l.sent .endFlow ∧ l.sent .ackClosedFlow = 0
  | .get .errSock => 0 < l.sent .endFlow
  | _ => True

/-- The errors that have been told were no news. -/
structure Quiet (passiveMode : Bool) (l : FlowLife) : Prop where
  errStart : passiveMode → 0 < l.got .errStart →
    0 < l.sent .endFlow ∧ l.sent .ackClosedFlow = 0
  errSock : 0 < l.got .errSock → 0 < l.sent .endFlow

theorem quiet_fresh : fresh.Quiet passiveMode :=
  ⟨fun _ h => absurd h (Nat.lt_irrefl 0), fun h => absurd h (Nat.lt_irrefl 0)⟩

theorem sent_le_next (ev : FlowEvent) (j : Kind) : l.sent j ≤ (l.next passiveMode ev).sent j :=
  (sent_next ev j).symm ▸ Nat.le_add_right ..

/-- The end of a flow without a slot is not acknowledged. -/
theorem sent_ackClosedFlow_next (h : l.slots = 0) (ev : FlowEvent) :
    (l.next passiveMode ev).sent .ackClosedFlow = l.sent .ackClosedFlow := by
  have hsends : l.sends passiveMode ev ≠ some .ackClosedFlow := by
    cases ev with
    | get k => cases k <;> simp [sends, h]
    | _ => simp [sends]
  rw [sent_next, if_neg hsends, Nat.add_zero]

/-- After an error of a flow that could not be started, its end is not acknowledged. -/
theorem Quiet.next (h : l.Quiet passiveMode) (hl : l.Causal passiveMode) {ev : FlowEvent}
    (hcan : l.Can passiveMode ev) (hcalm : l.Calm passiveMode ev) :
    (l.next passiveMode ev).Quiet passiveMode where
  errStart hpassive hpos := by
    have hpos' : 0 < l.sent .errStart ∧ 0 < l.sent .endFlow ∧ l.sent .ackClosedFlow = 0 := by
      by_cases hev : ev = .get .errStart
      · subst hev
        exact ⟨Nat.zero_lt_of_lt hcan, hcalm hpassive⟩
      · rw [got_next_of_ne hev] at hpos
        exact ⟨Nat.lt_of_lt_of_le hpos (hl.got_le _), h.errStart hpassive hpos⟩
    obtain ⟨herr, hend, hclosed⟩ := hpos'
    refine ⟨Nat.lt_of_lt_of_le hend (sent_le_next ev _), ?_⟩
    rw [sent_ackClosedFlow_next (hl.slots_of_errStart herr), hclosed]
  errSock hpos := by
    have hend : 0 < l.sent .endFlow := by
      by_cases hev : ev = .get .errSock
      · subst hev
        exact hcalm
      · rw [got_next_of_ne hev] at hpos
        exact h.errSock hpos
    exact Nat.lt_of_lt_of_le hend (sent_le_next ev _)

theorem quiet_of_reachVia (h : (flowLife passiveMode).ReachVia (Calm passiveMode) l) :
    l.Quiet passiveMode := by
  have hinit (l : FlowLife) (hl : l = fresh) : l.Causal passiveMode ∧ l.Quiet passiveMode :=
    hl ▸ ⟨causal_fresh, quiet_fresh⟩
  have hstep (l : FlowLife) (ev : FlowEvent) (l' : FlowLife)
      (hl : l.Causal passiveMode ∧ l.Quiet passiveMode) (hcalm : l.Calm passiveMode ev)
      (hstep : (flowLife passiveMode).step l ev = some l') :
      l'.Causal passiveMode ∧ l'.Quiet passiveMode := by
    obtain ⟨hcan, rfl⟩ := (flowLife_step_iff passiveMode l).1 hstep
    exact ⟨hl.1.next hcan, hl.2.next hl.1 hcan hcalm⟩
  exact (h.invariant hinit hstep).2

/-- A flow is started once at most. -/
theorem Causal.started_le_one (h : l.Causal passiveMode) : l.started ≤ 1 :=
  calc l.started = l.got .ackSendFlow := h.started_eq
    _ ≤ l.sent .ackSendFlow := h.got_le _
    _ ≤ l.got .sendFlow := h.ackSendFlow_le_sendFlow
    _ ≤ l.sent .sendFlow := h.got_le _
    _ ≤ 1 := h.sendFlow_le_one

/-- What the receiver acknowledges has come to its end. -/
theorem Causal.ackClosedFlow_le_endFlow (h : l.Causal passiveMode) :
    l.sent .ackClosedFlow ≤ l.sent .endFlow :=
  calc l.sent .ackClosedFlow ≤ l.got .closedFlow := h.ackClosedFlow_le
    _ ≤ l.sent .closedFlow := h.got_le _
    _ ≤ l.got .endFlow := h.closedFlow_le
    _ ≤ l.sent .endFlow := h.got_le _

/-- When not in passive mode, a flow that could not be started is not started. -/
theorem Causal.not_started_of_errStart (h : l.Causal passiveMode) (hactive : ¬passiveMode)
    (herr : 0 < l.got .errStart) : l.started = 0 := by
  have hack := h.ackSendFlow_le
  rw [if_neg hactive] at hack
  have hone := h.sendFlow_le_one
  have hrequest := h.got_le .sendFlow
  have hthread := h.thread_le
  have herr₁ := h.got_le .errStart
  have herr₂ := h.errStart_le
  have herr₃ := h.got_le .ftErr
  have hok := h.got_le .ftOk
  have hstart := h.got_le .ackSendFlow
  have hstarted := h.started_eq
  omega

/-- A flow that has left its channel is not being sent, and it has not left it twice. -/
theorem lowered_add_running_le (h : l.Causal passiveMode) (hquiet : l.Quiet passiveMode) :
    l.lowered + l.running ≤ 1 := by
  have hlowered := h.lowered_eq
  have hstarted := h.started_le_one
  have hrunning := h.running_eq
  have hclosed := h.got_le .ackClosedFlow
  have herrStart := h.got_le .errStart
  have herrSock := h.got_le .errSock
  have herrFlow := h.got_le .errFlow
  have hend := h.ackClosedFlow_le_endFlow
  have hslots := h.slots_le
  have hone := h.sendFlow_le_one
  have hrequest := h.got_le .sendFlow
  -- The two kinds of errors exclude each other.
  have herrors : l.sent .errStart + l.sent .errSock ≤ 1 := by
    have := h.errStart_le
    have := h.got_le .ftErr
    have := h.errSock_le
    have := h.got_le .ftErrSock
    have := h.errors_le
    omega
  have hsock := hquiet.errSock
  by_cases hpassive : passiveMode
  · have hstart := hquiet.errStart hpassive
    omega
  · -- A flow that could not be started has nothing to end.
    have hstart := h.not_started_of_errStart hpassive
    omega

/-- A flow that has left its channel has been asked for. -/
theorem Causal.newFlow_of_lowered (h : l.Causal passiveMode) (hl : 0 < l.lowered) :
    0 < l.sent .newFlow := by
  have hrequest : 0 < l.got .sendFlow := by
    have := h.lowered_eq
    have := h.got_le .ackClosedFlow
    have := h.got_le .errStart
    have := h.got_le .errSock
    have := h.got_le .errFlow
    have := h.running_eq
    have := h.started_eq
    have := h.ackClosedFlow_le_endFlow
    have := h.got_le .ackSendFlow
    have := h.ackSendFlow_le_sendFlow
    have := h.errStart_le
    have := h.errSock_le
    have := h.got_le .ftErr
    have := h.got_le .ftErrSock
    have := h.errors_le
    omega
  calc 0 < l.got .sendFlow := hrequest
    _ ≤ l.sent .sendFlow := h.got_le _
    _ ≤ l.got .newFlow := h.sendFlow_le
    _ ≤ l.sent .newFlow := h.got_le _

/-- A flow that has left its channel has got it. -/
theorem lowered_le_registered (h : l.Causal passiveMode) (hquiet : l.Quiet passiveMode) :
    l.lowered ≤ l.registered := by
  have hone := lowered_add_running_le h hquiet
  have hasked := h.newFlow_of_lowered
  have hregistered := h.newFlow_le
  omega

/-- An event other than an error that is told. -/
theorem calm_of_ne {ev : FlowEvent} (hstart : ev ≠ .get .errStart) (hsock : ev ≠ .get .errSock) :
    l.Calm passiveMode ev := by
  cases ev with
  | get k =>
    cases k with
    | errStart => exact absurd rfl hstart
    | errSock => exact absurd rfl hsock
    | _ => exact trivial
  | _ => exact trivial

/-! ## Without errors -/

/-- No thread of the flow tells an error. -/
def NoError : FlowEvent → Prop
  | .failSender | .threadErr | .threadErrSock => False
  | _ => True

/-- No error has been told. -/
structure Flawless (l : FlowLife) : Prop where
  errFlow : l.sent .errFlow = 0
  ftErr : l.sent .ftErr = 0
  ftErrSock : l.sent .ftErrSock = 0

theorem flawless_fresh : fresh.Flawless := ⟨rfl, rfl, rfl⟩

theorem Flawless.next (h : l.Flawless) {ev : FlowEvent} (hev : NoError ev) :
    (l.next passiveMode ev).Flawless := by
  have hsends : l.sends passiveMode ev ≠ some .errFlow ∧ l.sends passiveMode ev ≠ some .ftErr ∧
      l.sends passiveMode ev ≠ some .ftErrSock := by
    cases ev with
    | failSender => exact hev.elim
    | threadErr => exact hev.elim
    | threadErrSock => exact hev.elim
    | get k => cases k <;> simp [sends]
    | _ => simp [sends]
  obtain ⟨herrFlow, hftErr, hftErrSock⟩ := hsends
  constructor
  · rw [sent_next, if_neg herrFlow, h.errFlow]
  · rw [sent_next, if_neg hftErr, h.ftErr]
  · rw [sent_next, if_neg hftErrSock, h.ftErrSock]

theorem flawless_of_reachVia
    (h : (flowLife passiveMode).ReachVia (fun _ ev => NoError ev) l) : l.Flawless := by
  refine h.invariant (fun l hl => hl ▸ flawless_fresh) fun l ev l' hl hev hstep => ?_
  obtain ⟨-, rfl⟩ := (flowLife_step_iff passiveMode l).1 hstep
  exact hl.next hev

/-- Of errors that have not been told, none is news. -/
theorem Flawless.quiet (h : l.Flawless) (hl : l.Causal passiveMode) : l.Quiet passiveMode where
  errStart _ hpos := by
    have := hl.got_le .errStart
    have := hl.errStart_le
    have := hl.got_le .ftErr
    have := h.ftErr
    omega
  errSock hpos := by
    have := hl.got_le .errSock
    have := hl.errSock_le
    have := hl.got_le .ftErrSock
    have := h.ftErrSock
    omega

/-- A flow that has left its channel without errors has been acknowledged, and so has its end;
    it has no slot, and its parser has been told. -/
theorem finished_of_lowered (h : l.Causal passiveMode) (hflawless : l.Flawless)
    (hl : 0 < l.lowered) :
    l.sent .ackSendFlow = 1 ∧ l.got .ackSendFlow = 1 ∧ l.sent .ackClosedFlow = 1 ∧
      l.got .ackClosedFlow = 1 ∧ l.slots = 0 ∧ l.fpEnd = 1 := by
  have hlowered : l.lowered = l.got .ackClosedFlow := by
    have := h.lowered_eq
    have := h.got_le .errStart
    have := h.errStart_le
    have := h.got_le .ftErr
    have := hflawless.ftErr
    have := h.got_le .errSock
    have := h.errSock_le
    have := h.got_le .ftErrSock
    have := hflawless.ftErrSock
    have := h.got_le .errFlow
    have := hflawless.errFlow
    omega
  have hend := h.ackClosedFlow_le_endFlow
  have hclosed := h.got_le .ackClosedFlow
  have hrunning := h.running_eq
  have hstarted := h.started_eq
  have hone := h.sendFlow_le_one
  have hrequest := h.got_le .sendFlow
  have hslots := h.slots_le
  have hack := h.got_le .ackSendFlow
  have hack' := h.ackSendFlow_le_sendFlow
  have hfpEnd := h.fpEnd_eq
  omega

end FlowLife

end Ditg
