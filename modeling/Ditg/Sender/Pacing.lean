import Ditg.Common.Info

/-!
# The times at which packets are sent

A sender waits after every packet for its inter-departure time (`waitLoop`). The time
that has passed since the last reading of the clock is a credit of the flow
(`Ticker.count`), from which the wait is paid; what is left is the credit for the next
packet, so that a late packet is made up for. In the builds with `BURSTY`, the default,
the loop over the packets has an inner loop over those of an On period, and the credit is
cleared at the start of every turn of it.

* `waitLoop_eq`: the loop ends at the first reading of the clock at which the packet is
  due, and what is left is the credit;
* `meanRateKept_of_not_BURSTY`: without `BURSTY` the mean rate is kept;
* `meanRateKept_iff`: with `BURSTY` it is kept if there is nothing to make up for.
-/

namespace Ditg

/-! ## The model -/

/-- A time of the system. -/
structure Timeval where
  tv_sec : ℤ
  tv_usec : ℤ
  deriving DecidableEq, Repr

/-- A time in milliseconds. -/
def Timeval.ms (t : Timeval) : ℚ := t.tv_sec * 1000 + t.tv_usec / 1000

/-- `struct TTicker`. -/
structure TTicker where
  count : ℚ
  lastTime : Timeval
  deriving DecidableEq, Repr

/-- `thisTime` is what the clock says. -/
def updateTicker (thisTime : Timeval) (Ticker : TTicker) : TTicker where
  count := Ticker.count +
    (((thisTime.tv_sec - Ticker.lastTime.tv_sec : ℤ) : ℚ) * 1000 +
      ((thisTime.tv_usec - Ticker.lastTime.tv_usec : ℤ) : ℚ) / 1000)
  lastTime := thisTime

/-- `MAX_POLL`. -/
def maxPoll : ℚ := 1

/-- How long the wait loop sleeps, or waits in `select`. -/
def timeout (pollingMode : Bool) (wait : ℚ) : Timeval :=
  if pollingMode = false then
    { tv_sec := (CDouble.trunc wait).tdiv 1000
      tv_usec := (CDouble.trunc (wait * 1000)).tmod 1000000 }
  else if wait ≤ maxPoll then { tv_sec := 0, tv_usec := 0 }
  else
    { tv_sec := (CDouble.trunc (wait - maxPoll)).tdiv 1000
      tv_usec := (CDouble.trunc ((wait - maxPoll) * 1000)).tmod 1000000 }

/-- The loop that waits for `wait` milliseconds, with the readings of the clock that its
    calls of `updateTicker` get: the ticker in the end and the timeouts. There is no
    result if the loop goes on after the last one of the readings. -/
def waitLoop (pollingMode : Bool) (Ticker : TTicker) (wait : ℚ) (clock : List Timeval) :
    Option (TTicker × List Timeval) :=
  if wait ≤ Ticker.count then
    some ({ Ticker with count := Ticker.count - wait }, [{ tv_sec := 0, tv_usec := 0 }])
  else
    match clock with
    | [] => none
    | thisTime :: clock =>
      (waitLoop pollingMode (updateTicker thisTime { Ticker with count := 0 })
        (wait - Ticker.count) clock).map fun r =>
          (r.1, timeout pollingMode (wait - Ticker.count) :: r.2)

/-- What `flowSender` knows of its flow when it starts to send, and whether it has been
    built with `BURSTY`. -/
structure SenderFlow where
  BURSTY : Bool
  bursty : Bool
  mean_adjustment : ℤ
  pollingMode : Bool
  end_time : Timeval
  numPacket : UInt32
  byteToSend : UInt64

/-- The variables of the loop over the packets. -/
structure Sending where
  Ticker : TTicker
  OnDuration : ℚ
  seqNum : UInt32
  byteSent : UInt64
  deriving DecidableEq

/-- What happens to a packet: the result of `send`, the inter-departure time, and the
    readings of the clock during the wait and, with `BURSTY`, before and after it. Behind
    the last packet of an On period of a bursty flow, `onPeriod` is the next one. -/
structure SentPacket where
  sockchk : ℤ
  wait : ℚ
  clock : List Timeval
  StartOnTime : Timeval
  FinishOnTime : Timeval
  onPeriod : ℚ

/-- The ticker at the start of a turn. -/
def SenderFlow.startTurn (f : SenderFlow) (Ticker : TTicker) : TTicker :=
  if f.BURSTY then { Ticker with count := 0 } else Ticker

/-- A turn of the (inner) loop: a packet is sent, and its inter-departure time waited for. -/
def sendPacket (f : SenderFlow) (s : Sending) (p : SentPacket) : Option Sending :=
  match p.clock with
  | [] => none
  | thisTime :: clock =>
    let Ticker := updateTicker thisTime (f.startTurn s.Ticker)
    let Ticker := if f.mean_adjustment = 0 then { Ticker with count := 0 } else Ticker
    (waitLoop f.pollingMode Ticker p.wait clock).map fun r =>
      { Ticker := r.1
        seqNum := s.seqNum + 1
        byteSent := s.byteSent + UInt64.ofInt p.sockchk
        OnDuration :=
          if f.BURSTY then
            s.OnDuration -
              (((p.FinishOnTime.tv_sec - p.StartOnTime.tv_sec : ℤ) : ℚ) * 1000 +
                ((p.FinishOnTime.tv_usec - p.StartOnTime.tv_usec : ℤ) : ℚ) / 1000)
          else s.OnDuration }

/-- The test of the outer loop. -/
def SenderFlow.goesOn (f : SenderFlow) (s : Sending) : Bool :=
  (s.Ticker.lastTime.tv_sec < f.end_time.tv_sec ∨
      (s.Ticker.lastTime.tv_sec = f.end_time.tv_sec ∧
        s.Ticker.lastTime.tv_usec < f.end_time.tv_usec)) ∧
    s.seqNum - 1 < f.numPacket ∧ s.byteSent < f.byteToSend

/-- The test of the inner loop. -/
def SenderFlow.goesOnPeriod (f : SenderFlow) (s : Sending) : Bool :=
  0 < s.OnDuration ∧ f.goesOn s

/-- What follows a packet, unless it was the last one. -/
def SenderFlow.next (f : SenderFlow) (p : SentPacket) (s : Sending) : Option Sending :=
  if f.BURSTY ∧ f.goesOnPeriod s then some s
  else if f.goesOn s then
    some (if f.BURSTY ∧ f.bursty then { s with OnDuration := p.onPeriod } else s)
  else none

/-- The states after the packets that a flow has sent, one after the other. There is no
    result if the flow ends before it has sent all of them, or waits still. -/
def sendPackets (f : SenderFlow) : Option Sending → List SentPacket → Option (List Sending)
  | _, [] => some []
  | none, _ :: _ => none
  | some s, p :: ps =>
    (sendPacket f s p).bind fun s' => (sendPackets f (f.next p s') ps).map (s' :: ·)

/-- The state in which a flow starts, the clock for its ticker being read as `start`. -/
def Sending.start (start : Timeval) (OnDuration : ℚ) : Sending where
  Ticker := { count := 0, lastTime := start }
  OnDuration := OnDuration
  seqNum := 1
  byteSent := 0

/-! ## The wait -/

theorem updateTicker_eq (thisTime : Timeval) (Ticker : TTicker) :
    updateTicker thisTime Ticker =
      { count := Ticker.count + (thisTime.ms - Ticker.lastTime.ms), lastTime := thisTime } := by
  simp only [updateTicker, Timeval.ms, TTicker.mk.injEq, and_true]
  push_cast
  ring

/-- The packet is due when credit and time are enough for the wait. -/
def Due (Ticker : TTicker) (wait : ℚ) (thisTime : Timeval) : Bool :=
  wait ≤ Ticker.count + (thisTime.ms - Ticker.lastTime.ms)

theorem due_updateTicker (Ticker : TTicker) (wait : ℚ) (thisTime : Timeval) :
    Due (updateTicker thisTime Ticker) wait = Due Ticker wait := by
  funext t
  rw [Due, Due, updateTicker_eq, decide_eq_decide]
  constructor <;> intro h <;> linarith

/-- Paying from the credit makes the wait shorter. -/
theorem due_pay (Ticker : TTicker) (wait : ℚ) :
    Due { Ticker with count := 0 } (wait - Ticker.count) = Due Ticker wait := by
  funext t
  rw [Due, Due, decide_eq_decide]
  constructor <;> intro h <;> linarith

/-- The loop ends at the first reading at which the packet is due. What is left of credit
    and time is the credit. -/
theorem waitLoop_eq (pollingMode : Bool) (Ticker : TTicker) (wait : ℚ) (clock : List Timeval) :
    (waitLoop pollingMode Ticker wait clock).map Prod.fst =
      ((Ticker.lastTime :: clock).find? (Due Ticker wait)).map fun t =>
        { count := Ticker.count + (t.ms - Ticker.lastTime.ms) - wait, lastTime := t } := by
  induction clock generalizing Ticker wait with
  | nil =>
    rw [waitLoop, List.find?_cons]
    by_cases h : wait ≤ Ticker.count
    · simp [Due, h]
    · simp [Due, h]
  | cons thisTime clock ih =>
    rw [waitLoop, List.find?_cons]
    by_cases h : wait ≤ Ticker.count
    · simp [Due, h]
    · have hnot : Due Ticker wait Ticker.lastTime = false := by simpa [Due] using h
      rw [if_neg h, hnot, Option.map_map]
      change (waitLoop pollingMode _ _ clock).map Prod.fst = _
      -- The turn pays from the credit, so that the packet is due as before.
      rw [ih, due_updateTicker, due_pay]
      congr 1
      funext t
      rw [updateTicker_eq, TTicker.mk.injEq]
      exact ⟨by ring, rfl⟩

section Turn

variable {f : SenderFlow} {s s' : Sending} {p : SentPacket}

/-- In a turn time and the credit at its start become the wait and the credit left. -/
theorem sendPacket_spec (hf : f.mean_adjustment ≠ 0) (h : sendPacket f s p = some s') :
    p.clock.find? (Due (f.startTurn s.Ticker) p.wait) = some s'.Ticker.lastTime ∧
      (f.startTurn s.Ticker).count + (s'.Ticker.lastTime.ms - s.Ticker.lastTime.ms) =
        p.wait + s'.Ticker.count ∧ 0 ≤ s'.Ticker.count := by
  have hlast : (f.startTurn s.Ticker).lastTime = s.Ticker.lastTime := by
    rw [SenderFlow.startTurn]
    split_ifs <;> rfl
  rw [sendPacket] at h
  rcases hclock : p.clock with _ | ⟨thisTime, clock⟩
  · rw [hclock] at h
    cases h
  · rw [hclock] at h
    simp only [if_neg hf] at h
    obtain ⟨r, hr, rfl⟩ := Option.map_eq_some_iff.1 h
    have hwait := waitLoop_eq f.pollingMode (updateTicker thisTime (f.startTurn s.Ticker)) p.wait
      clock
    rw [hr, Option.map_some] at hwait
    obtain ⟨t, ht, hrt⟩ := Option.map_eq_some_iff.1 hwait.symm
    rw [due_updateTicker, updateTicker_eq] at ht
    rw [updateTicker_eq] at hrt
    -- What is left is not negative, as the packet is due.
    have henough := List.find?_some ht
    rw [Due, decide_eq_true_eq] at henough
    refine ⟨?_, ?_, ?_⟩
    · rw [ht, ← hrt]
    · rw [← hlast, ← hrt]
      ring
    · rw [← hrt]
      linarith

end Turn

/-! ## The mean rate -/

/-- What the states of a run say about a mean rate that is kept. -/
structure MeanRateKept (f : SenderFlow) (start : Timeval) (ps : List SentPacket)
    (states : List Sending) : Prop where
  /-- Time is the sum of the inter-departure times and the credit. -/
  elapsed : ∀ k s, states[k]? = some s → s.Ticker.lastTime.ms - start.ms =
    ((ps.take (k + 1)).map SentPacket.wait).sum + s.Ticker.count
  /-- The next wait starts from the credit. -/
  credit : ∀ k s, states[k]? = some s → k + 1 < states.length →
    (f.startTurn s.Ticker).count = s.Ticker.count

/-- Every packet but the last one ends its wait at the very time at which the next one is
    to be sent, `wait` milliseconds after the one before. -/
def Punctual (last : Timeval) : List SentPacket → Prop
  | [] => True
  | [_] => True
  | p :: q :: ps => ∃ t, p.clock.find? (fun t => p.wait ≤ t.ms - last.ms) = some t ∧
      t.ms - last.ms = p.wait ∧ Punctual t (q :: ps)

theorem forall_getElem?_cons {α : Type} {P : ℕ → α → Prop} {x : α} {l : List α} :
    (∀ k y, (x :: l)[k]? = some y → P k y) ↔ P 0 x ∧ ∀ k y, l[k]? = some y → P (k + 1) y := by
  constructor
  · intro h
    exact ⟨h 0 x rfl, fun k y hy => h (k + 1) y hy⟩
  · rintro ⟨h₀, h⟩ (_ | k) y hy
    · exact Option.some_injective _ hy ▸ h₀
    · exact h k y hy

section Run

variable {f : SenderFlow}

/-- The states behind the first packet of a run. -/
theorem sendPackets_cons {s : Sending} {p : SentPacket} {ps : List SentPacket}
    {states : List Sending}
    (h : sendPackets f (some s) (p :: ps) = some states) :
    ∃ s' states', sendPacket f s p = some s' ∧ sendPackets f (f.next p s') ps = some states' ∧
      states = s' :: states' := by
  rw [sendPackets, Option.bind_eq_some_iff] at h
  obtain ⟨s', hs', h⟩ := h
  obtain ⟨states', h', rfl⟩ := Option.map_eq_some_iff.1 h
  exact ⟨s', states', hs', h', rfl⟩

/-- As many states as packets. -/
theorem length_sendPackets {s : Option Sending} {ps : List SentPacket} {states : List Sending}
    (h : sendPackets f s ps = some states) : states.length = ps.length := by
  induction ps generalizing s states with
  | nil =>
    rw [sendPackets] at h
    exact Option.some_injective _ h ▸ rfl
  | cons p ps ih =>
    rcases s with _ | s
    · cases h
    · obtain ⟨s', states', -, h', rfl⟩ := sendPackets_cons h
      rw [List.length_cons, List.length_cons, ih h']

/-- Between two packets the ticker does not change. -/
theorem next_ticker {p : SentPacket} {s s' : Sending} (h : f.next p s = some s') :
    s'.Ticker = s.Ticker := by
  rw [SenderFlow.next] at h
  split_ifs at h <;> cases h <;> rfl

/-- The next state is known if there is another packet. -/
theorem exists_next {s : Option Sending} {p : SentPacket} {ps : List SentPacket}
    {states : List Sending}
    (h : sendPackets f s (p :: ps) = some states) : ∃ s', s = some s' := by
  rcases s with _ | s
  · cases h
  · exact ⟨s, rfl⟩

/-- Time is the sum of the inter-departure times and the credit, as long as every turn
    starts with the credit of the one before. -/
theorem elapsed_of_credit (hf : f.mean_adjustment ≠ 0) {start : Timeval} {s : Sending} {w : ℚ}
    (hs : s.Ticker.lastTime.ms - start.ms = w + (f.startTurn s.Ticker).count) {ps : List SentPacket}
    {states : List Sending} (h : sendPackets f (some s) ps = some states)
    (hcredit : ∀ k s', states[k]? = some s' → k + 1 < states.length →
      (f.startTurn s'.Ticker).count = s'.Ticker.count) :
    ∀ k s', states[k]? = some s' → s'.Ticker.lastTime.ms - start.ms =
      w + ((ps.take (k + 1)).map SentPacket.wait).sum + s'.Ticker.count := by
  induction ps generalizing s w states with
  | nil =>
    rw [sendPackets] at h
    obtain rfl := Option.some_injective _ h
    intro k s' hk
    cases hk
  | cons p ps ih =>
    obtain ⟨s', states', hp, hrest, rfl⟩ := sendPackets_cons h
    obtain ⟨-, hcount, -⟩ := sendPacket_spec hf hp
    have helapsed : s'.Ticker.lastTime.ms - start.ms = w + p.wait + s'.Ticker.count := by linarith
    rw [forall_getElem?_cons] at hcredit ⊢
    refine ⟨?_, fun k r hr => ?_⟩
    · rw [List.take_succ_cons, List.take_zero, List.map_singleton, List.sum_singleton]
      exact helapsed
    · rcases ps with _ | ⟨q, ps⟩
      · rw [List.length_eq_zero_iff.1 (length_sendPackets hrest)] at hr
        cases hr
      · obtain ⟨s'', hnext⟩ := exists_next hrest
        rw [hnext] at hrest
        have hlen : 0 + 1 < (s' :: states').length := by
          rw [List.length_cons, length_sendPackets hrest, List.length_cons]
          omega
        have hs'' : s''.Ticker.lastTime.ms - start.ms =
            w + p.wait + (f.startTurn s''.Ticker).count := by
          rw [next_ticker hnext, hcredit.1 hlen]
          exact helapsed
        have hr := ih hs'' hrest (fun k r hr hk => hcredit.2 k r hr (by simpa using hk)) k r hr
        rw [List.take_succ_cons, List.map_cons, List.sum_cons]
        linarith

/-- With `BURSTY` the turns start with the credit of the one before if there is none. -/
theorem credit_iff_punctual (hB : f.BURSTY = true) (hf : f.mean_adjustment ≠ 0) {s : Sending}
    {ps : List SentPacket} {states : List Sending} (h : sendPackets f (some s) ps = some states) :
    (∀ k s', states[k]? = some s' → k + 1 < states.length →
      (f.startTurn s'.Ticker).count = s'.Ticker.count) ↔ Punctual s.Ticker.lastTime ps := by
  have hzero : ∀ Ticker, (f.startTurn Ticker).count = 0 := by
    intro Ticker
    rw [SenderFlow.startTurn, if_pos hB]
  induction ps generalizing s states with
  | nil =>
    rw [sendPackets] at h
    obtain rfl := Option.some_injective _ h
    simp [Punctual]
  | cons p ps ih =>
    obtain ⟨s', states', hp, hrest, rfl⟩ := sendPackets_cons h
    have hlen := length_sendPackets hrest
    rw [forall_getElem?_cons]
    rcases ps with _ | ⟨q, ps⟩
    · -- The last packet may leave a credit.
      obtain rfl := List.length_eq_zero_iff.1 hlen
      simp [Punctual]
    · obtain ⟨s'', hnext⟩ := exists_next hrest
      rw [hnext] at hrest
      have ih := ih hrest
      obtain ⟨hfind, hcount, -⟩ := sendPacket_spec hf hp
      have hdue : Due (f.startTurn s.Ticker) p.wait =
          fun t => decide (p.wait ≤ t.ms - s.Ticker.lastTime.ms) := by
        funext t
        rw [Due, hzero, zero_add, SenderFlow.startTurn, if_pos hB]
      rw [hdue] at hfind
      rw [hzero, zero_add] at hcount
      rw [next_ticker hnext] at ih
      rw [Punctual, hfind, hzero]
      simp only [List.length_cons, Nat.add_lt_add_iff_right, Option.some.injEq]
      constructor
      · -- A credit that is not thrown away is 0, so that the packet was in time.
        rintro ⟨hcredit, hall⟩
        have hnone := hcredit (by rw [hlen, List.length_cons]; omega)
        exact ⟨_, rfl, by linarith, ih.1 hall⟩
      · rintro ⟨t, rfl, hwait, hall⟩
        exact ⟨fun _ => by linarith, ih.2 hall⟩

variable {start : Timeval} {OnDuration : ℚ} {ps : List SentPacket} {states : List Sending}
  (h : sendPackets f (some (Sending.start start OnDuration)) ps = some states)

include h

theorem meanRateKept_iff_credit (hf : f.mean_adjustment ≠ 0) :
    MeanRateKept f start ps states ↔ ∀ k s, states[k]? = some s → k + 1 < states.length →
      (f.startTurn s.Ticker).count = s.Ticker.count := by
  refine ⟨fun hkept => hkept.credit, fun hcredit => ⟨fun k s hk => ?_, hcredit⟩⟩
  have hzero : (f.startTurn (Sending.start start OnDuration).Ticker).count = 0 := by
    rw [SenderFlow.startTurn]
    split_ifs <;> rfl
  have hs : (Sending.start start OnDuration).Ticker.lastTime.ms - start.ms =
      0 + (f.startTurn (Sending.start start OnDuration).Ticker).count := by
    rw [hzero]
    exact (sub_self _).trans (add_zero 0).symm
  rw [elapsed_of_credit hf hs h hcredit k s hk, zero_add]

/-- Without `BURSTY` the mean rate is kept, whatever the clock says. -/
theorem meanRateKept_of_not_BURSTY (hB : f.BURSTY = false) (hf : f.mean_adjustment ≠ 0) :
    MeanRateKept f start ps states := by
  refine (meanRateKept_iff_credit h hf).2 fun k s _ _ => ?_
  rw [SenderFlow.startTurn, hB, if_neg Bool.false_ne_true]

/-- With `BURSTY` it is kept exactly if no packet but the last one is late. -/
theorem meanRateKept_iff (hB : f.BURSTY = true) (hf : f.mean_adjustment ≠ 0) :
    MeanRateKept f start ps states ↔ Punctual start ps :=
  (meanRateKept_iff_credit h hf).trans (credit_iff_punctual hB hf h)

end Run

/-! ## A late packet -/

/-- A flow of the default build with the default options that may send ten seconds. -/
def defaultFlow : SenderFlow where
  BURSTY := true
  bursty := false
  mean_adjustment := 1
  pollingMode := false
  end_time := ⟨10, 0⟩
  numPacket := 0xFFFFFFFF
  byteToSend := 0xFFFFFFFFFFFFFFFF

/-- Two packets, one every millisecond. The wait of the first one ends after two. -/
def latePackets : List SentPacket :=
  [{ sockchk := 512, wait := 1, clock := [⟨0, 100⟩, ⟨0, 2000⟩], StartOnTime := ⟨0, 0⟩,
      FinishOnTime := ⟨0, 2000⟩, onPeriod := 0 },
    { sockchk := 512, wait := 1, clock := [⟨0, 2100⟩, ⟨0, 3000⟩], StartOnTime := ⟨0, 2000⟩,
      FinishOnTime := ⟨0, 3000⟩, onPeriod := 0 }]

/-- The states after them. -/
def lateStates : List Sending :=
  [{ Ticker := { count := 1, lastTime := ⟨0, 2000⟩ }, OnDuration := 9998, seqNum := 2,
      byteSent := 512 },
    { Ticker := { count := 0, lastTime := ⟨0, 3000⟩ }, OnDuration := 9997, seqNum := 3,
      byteSent := 1024 }]

theorem meanRateKept_iff_late :
    sendPackets defaultFlow (some (Sending.start ⟨0, 0⟩ 10000)) latePackets = some lateStates ∧
      (MeanRateKept defaultFlow ⟨0, 0⟩ latePackets lateStates ↔ Punctual ⟨0, 0⟩ latePackets) := by
  have h : sendPackets defaultFlow (some (Sending.start ⟨0, 0⟩ 10000)) latePackets =
      some lateStates := by decide +kernel
  exact ⟨h, meanRateKept_iff h rfl (by decide)⟩

/-- The second packet is as late as the first one: three milliseconds have passed when its
    wait ends, not two. -/
theorem late_notKept :
    sendPackets defaultFlow (some (Sending.start ⟨0, 0⟩ 10000)) latePackets = some lateStates ∧
      ¬ MeanRateKept defaultFlow ⟨0, 0⟩ latePackets lateStates := by
  refine ⟨by decide +kernel, fun h => ?_⟩
  have helapsed := h.elapsed 1 _ rfl
  revert helapsed
  decide +kernel

end Ditg
