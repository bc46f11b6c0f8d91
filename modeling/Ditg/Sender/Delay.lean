import Ditg.Sender.Limits
import Ditg.Sender.WaitLoop

/-!
# The start of a flow

A flow with a delay (`-d`, or the first time of a `-Ft` file) starts at the time the signaling is
over (`RifTime`) plus the delay. Its sender sleeps for what is left until then, reads the clock,
and sleeps again if the time has not come. What is left is computed by `timeval_subtract`, whose
result is also one of its operands.

* `timevalSubtract_spec`: the difference of two times, wherever it is stored;
* `delayLoop_sleeps`, `delayLoop_left`: what the loop sleeps for, and where it ends;
* `delayed_start`: both of them, for every delay and every clock.
-/

namespace Ditg

/-! ## The model -/

section Subtract

variable {V : Type} [DecidableEq V]

/-- `timeval_subtract`, of two of the variables `vars`. The operands are passed by value, the
    result by its address. -/
def timevalSubtract (vars : V → Timeval) (result a b : V) : (V → Timeval) × ℤ :=
  let x := vars a
  let y := vars b
  let y :=
    if x.tv_usec < y.tv_usec then
      let nsec := (y.tv_usec - x.tv_usec).tdiv 1000000 + 1
      { tv_usec := y.tv_usec - 1000000 * nsec, tv_sec := y.tv_sec + nsec : Timeval }
    else y
  let y :=
    if x.tv_usec - y.tv_usec > 1000000 then
      let nsec := (y.tv_usec - x.tv_usec).tdiv 1000000
      { tv_usec := y.tv_usec + 1000000 * nsec, tv_sec := y.tv_sec - nsec : Timeval }
    else y
  (Function.update vars result
    { tv_sec := x.tv_sec - y.tv_sec, tv_usec := x.tv_usec - y.tv_usec },
    if x.tv_sec < y.tv_sec then 1 else 0)

end Subtract

/-- The variables that the delay loop passes to `timeval_subtract`. -/
inductive DelayVar
  | ThisTime
  | FlowStartTime
  deriving DecidableEq

/-- `flows[id].FlowStartTime`. It is computed like `end_time`, the seconds in the same expression
    as the microseconds before they are reduced. -/
def flowStartTime (RifTime : Timeval) (Delay : UInt64) : Timeval :=
  let tv_usec := RifTime.tv_usec + ((Delay % 1000) * 1000).toNat
  { tv_sec := RifTime.tv_sec + (Delay / 1000).toNat + tv_usec.tdiv 1000000
    tv_usec := tv_usec.tmod 1000000 }

/-- The loop, with the times that its readings of the clock get: what it sleeps for, and the
    reading with which it is left. There is none if it goes on after the last one. -/
def delayLoop (vars : DelayVar → Timeval) : List Timeval → List Timeval × Option Timeval
  | [] => ([], none)
  | reading :: clock =>
    let r := timevalSubtract (Function.update vars .ThisTime reading) .ThisTime .FlowStartTime
      .ThisTime
    if r.2 = 0 then
      let slept := delayLoop r.1 clock
      (r.1 .ThisTime :: slept.1, slept.2)
    else ([], some reading)

/-- What happens before a flow starts. -/
structure DelayedStart where
  FlowStartTime : Timeval
  sleeps : List Timeval
  left : Option Timeval

/-- The block of `flowSender` for a flow with a delay. `uninitialised` is what `ThisTime` holds
    before the first reading. -/
def delayedStart (Delay : UInt64) (RifTime uninitialised : Timeval) (clock : List Timeval) :
    Option DelayedStart :=
  if Delay = 0 then none
  else
    let FlowStartTime := flowStartTime RifTime Delay
    let slept := delayLoop
      (fun | .ThisTime => uninitialised | .FlowStartTime => FlowStartTime) clock
    some { FlowStartTime, sleeps := slept.1, left := slept.2 }

/-! ## Differences -/

/-- A time in microseconds. -/
def Timeval.us (t : Timeval) : ℤ := t.tv_sec * 1000000 + t.tv_usec

/-- Microseconds that are not a second. Unlike a time of the system, a difference may be
    negative. -/
structure Timeval.Carried (t : Timeval) : Prop where
  nonneg : 0 ≤ t.tv_usec
  lt : t.tv_usec < 1000000

/-- The first of two times is that with fewer microseconds. -/
theorem Timeval.us_lt_us_iff {a b : Timeval} (ha : a.Carried) (hb : b.Carried) :
    a.us < b.us ↔ a.Before b := by
  obtain ⟨ha, ha'⟩ := ha
  obtain ⟨hb, hb'⟩ := hb
  rw [Timeval.us, Timeval.us, Timeval.Before]
  omega

/-- The difference of two times. -/
structure IsDiff (a b d : Timeval) : Prop where
  carried : d.Carried
  us_eq : d.us = a.us - b.us

/-- What is left at `reading` until `start`. -/
structure IsRest (start reading d : Timeval) : Prop extends IsDiff start reading d where
  nonneg : 0 ≤ d.us

section Subtract

variable {V : Type} [DecidableEq V] {vars : V → Timeval} {a b : V} (result : V)

/-- At most one second is borrowed, in the first of the two steps. -/
theorem timevalSubtract_eq (ha : (vars a).Carried) (hb : (vars b).Carried) :
    timevalSubtract vars result a b =
      if (vars a).tv_usec < (vars b).tv_usec then
        (Function.update vars result
          { tv_sec := (vars a).tv_sec - ((vars b).tv_sec + 1)
            tv_usec := (vars a).tv_usec - ((vars b).tv_usec - 1000000) },
          if (vars a).tv_sec < (vars b).tv_sec + 1 then 1 else 0)
      else
        (Function.update vars result
          { tv_sec := (vars a).tv_sec - (vars b).tv_sec
            tv_usec := (vars a).tv_usec - (vars b).tv_usec },
          if (vars a).tv_sec < (vars b).tv_sec then 1 else 0) := by
  obtain ⟨ha, ha'⟩ := ha
  obtain ⟨hb, hb'⟩ := hb
  rw [timevalSubtract]
  by_cases h : (vars a).tv_usec < (vars b).tv_usec
  · have hdiv : ((vars b).tv_usec - (vars a).tv_usec).tdiv 1000000 = 0 :=
      Int.tdiv_eq_zero_of_lt (by omega) (by omega)
    have hone : ¬(vars a).tv_usec - ((vars b).tv_usec - 1000000 * (0 + 1)) > 1000000 := by omega
    simp only [if_pos h, hdiv, if_neg hone]
    rfl
  · have hnot : ¬(vars a).tv_usec - (vars b).tv_usec > 1000000 := by omega
    simp only [if_neg h, if_neg hnot]

theorem isDiff_timevalSubtract (ha : (vars a).Carried) (hb : (vars b).Carried) :
    IsDiff (vars a) (vars b) ((timevalSubtract vars result a b).1 result) := by
  rw [timevalSubtract_eq result ha hb]
  obtain ⟨ha, ha'⟩ := ha
  obtain ⟨hb, hb'⟩ := hb
  by_cases h : (vars a).tv_usec < (vars b).tv_usec
  · simp only [if_pos h, Function.update_self]
    refine ⟨⟨by dsimp only; omega, by dsimp only; omega⟩, ?_⟩
    simp only [Timeval.us]
    ring
  · simp only [if_neg h, Function.update_self]
    refine ⟨⟨by dsimp only; omega, by dsimp only; omega⟩, ?_⟩
    simp only [Timeval.us]
    ring

/-- The result is compared after the borrow. -/
theorem timevalSubtract_snd (ha : (vars a).Carried) (hb : (vars b).Carried) :
    (timevalSubtract vars result a b).2 = if (vars a).us < (vars b).us then 1 else 0 := by
  rw [timevalSubtract_eq result ha hb]
  obtain ⟨ha, ha'⟩ := ha
  obtain ⟨hb, hb'⟩ := hb
  simp only [Timeval.us]
  split_ifs <;> first | rfl | omega

/-- No other variable changes. -/
theorem timevalSubtract_of_ne {v : V} (h : v ≠ result) :
    (timevalSubtract vars result a b).1 v = vars v := by
  rw [timevalSubtract]
  exact Function.update_of_ne h _ _

end Subtract

/-! ## The loop -/

/-- Milliseconds in microseconds. -/
theorem flowStartTime_us (RifTime : Timeval) (Delay : UInt64) :
    (flowStartTime RifTime Delay).us = RifTime.us + Delay.toNat * 1000 := by
  have hmod : ((Delay % 1000) * 1000).toNat = Delay.toNat % 1000 * 1000 := by
    have h : (Delay % 1000).toNat < 1000 := by
      rw [UInt64.toNat_mod]
      exact Nat.mod_lt _ (by decide)
    rw [UInt64.toNat_mul, Nat.mod_eq_of_lt (lt_of_lt_of_le (Nat.mul_lt_mul_of_pos_right h
      (by decide)) (by decide)), UInt64.toNat_mod]
    rfl
  have hdiv : (Delay / 1000).toNat = Delay.toNat / 1000 := UInt64.toNat_div _ _
  have hsplit := Int.mul_tdiv_add_tmod
    (RifTime.tv_usec + ((Delay.toNat % 1000 * 1000 : ℕ) : ℤ)) 1000000
  simp only [Timeval.us, flowStartTime, hmod, hdiv] at hsplit ⊢
  omega

theorem carried_flowStartTime {RifTime : Timeval} (h : RifTime.Carried) (Delay : UInt64) :
    (flowStartTime RifTime Delay).Carried := by
  have hnonneg : 0 ≤ RifTime.tv_usec + (((Delay % 1000) * 1000).toNat : ℤ) :=
    add_nonneg h.nonneg (Int.natCast_nonneg _)
  exact ⟨Int.tmod_nonneg _ hnonneg, Int.tmod_lt_of_pos _ (by decide)⟩

section Loop

variable {vars : DelayVar → Timeval} {reading : Timeval} (clock : List Timeval)

/-- The flow does not start at the reading yet. -/
def waitsAt (start reading : Timeval) : Bool := reading.us ≤ start.us

/-- One turn. The difference is stored in `ThisTime`, which the next reading overwrites. -/
theorem delayLoop_cons (hs : (vars .FlowStartTime).Carried) (hr : reading.Carried) :
    ∃ vars' : DelayVar → Timeval, vars' .FlowStartTime = vars .FlowStartTime ∧
      IsDiff (vars .FlowStartTime) reading (vars' .ThisTime) ∧
      delayLoop vars (reading :: clock) =
        if waitsAt (vars .FlowStartTime) reading then
          (vars' .ThisTime :: (delayLoop vars' clock).1, (delayLoop vars' clock).2)
        else ([], some reading) := by
  have hthis : Function.update vars .ThisTime reading .ThisTime = reading :=
    Function.update_self ..
  have hstart : Function.update vars .ThisTime reading .FlowStartTime = vars .FlowStartTime :=
    Function.update_of_ne (by decide) _ _
  rw [← hthis] at hr
  rw [← hstart] at hs
  refine ⟨(timevalSubtract (Function.update vars .ThisTime reading) .ThisTime .FlowStartTime
    .ThisTime).1, ?_, ?_, ?_⟩
  · rw [timevalSubtract_of_ne _ (by decide), hstart]
  · have hdiff := isDiff_timevalSubtract .ThisTime hs hr
    rwa [hstart, hthis] at hdiff
  · have hsnd := timevalSubtract_snd .ThisTime hs hr
    rw [hstart, hthis] at hsnd
    rw [delayLoop, hsnd]
    by_cases h : (vars .FlowStartTime).us < reading.us
    · have hwaits : waitsAt (vars .FlowStartTime) reading = false := by simp [waitsAt, h]
      rw [if_pos h, hwaits]
      rfl
    · have hwaits : waitsAt (vars .FlowStartTime) reading = true := by simpa [waitsAt] using h
      rw [if_neg h, hwaits]
      rfl

/-- The loop sleeps at every reading that is not after the start, for what is left. -/
theorem delayLoop_sleeps (hs : (vars .FlowStartTime).Carried) (hclock : ∀ t ∈ clock, t.Carried) :
    List.Forall₂ (IsRest (vars .FlowStartTime))
      (clock.takeWhile (waitsAt (vars .FlowStartTime))) (delayLoop vars clock).1 := by
  induction clock generalizing vars with
  | nil => exact List.Forall₂.nil
  | cons reading clock ih =>
    rw [List.forall_mem_cons] at hclock
    obtain ⟨vars', hstart, hdiff, hturn⟩ := delayLoop_cons clock hs hclock.1
    rw [hturn, List.takeWhile_cons]
    by_cases h : waitsAt (vars .FlowStartTime) reading = true
    · rw [if_pos h, if_pos h]
      have ih := ih (hstart ▸ hs) hclock.2
      rw [hstart] at ih
      rw [waitsAt, decide_eq_true_eq] at h
      have hrest : IsRest (vars .FlowStartTime) reading (vars' .ThisTime) :=
        { hdiff with nonneg := by rw [hdiff.us_eq]; omega }
      exact List.Forall₂.cons hrest ih
    · rw [if_neg h, if_neg h]
      exact List.Forall₂.nil

/-- It is left with the first reading after the start. -/
theorem delayLoop_left (hs : (vars .FlowStartTime).Carried) (hclock : ∀ t ∈ clock, t.Carried) :
    (delayLoop vars clock).2 = clock.find? (fun t => !waitsAt (vars .FlowStartTime) t) := by
  induction clock generalizing vars with
  | nil => rfl
  | cons reading clock ih =>
    rw [List.forall_mem_cons] at hclock
    obtain ⟨vars', hstart, -, hturn⟩ := delayLoop_cons clock hs hclock.1
    rw [hturn, List.find?_cons]
    by_cases h : waitsAt (vars .FlowStartTime) reading = true
    · rw [if_pos h, ih (hstart ▸ hs) hclock.2, hstart, h]
      rfl
    · rw [if_neg h, Bool.eq_false_iff.2 h]
      rfl

/-- A delay that is not 0. -/
theorem delayedStart_of_pos {Delay : UInt64} (h : 0 < Delay) (RifTime uninitialised : Timeval) :
    ∃ vars : DelayVar → Timeval, vars .FlowStartTime = flowStartTime RifTime Delay ∧
      delayedStart Delay RifTime uninitialised clock = some
        { FlowStartTime := flowStartTime RifTime Delay
          sleeps := (delayLoop vars clock).1
          left := (delayLoop vars clock).2 } := by
  refine ⟨fun | .ThisTime => uninitialised | .FlowStartTime => flowStartTime RifTime Delay, rfl, ?_⟩
  have hne : Delay ≠ 0 := UInt64.pos_iff_ne_zero.1 h
  rw [delayedStart, if_neg hne]

end Loop

/-! ## The start -/

/-- The result may be one of the operands. The clock may even go back: every sleep is what is left
    at its own reading. -/
theorem delayed_start :
    (∀ (V : Type) [DecidableEq V] (vars : V → Timeval) (result a b : V),
      (vars a).Carried → (vars b).Carried →
        ((timevalSubtract vars result a b).1 result).Carried ∧
        ((timevalSubtract vars result a b).1 result).us = (vars a).us - (vars b).us ∧
        (∀ v ≠ result, (timevalSubtract vars result a b).1 v = vars v) ∧
        ((timevalSubtract vars result a b).2 = 1 ↔ (vars a).Before (vars b))) ∧
    ∀ (Delay : UInt64) (RifTime uninitialised : Timeval) (clock : List Timeval),
      0 < Delay → RifTime.Carried → (∀ t ∈ clock, t.Carried) →
        ∃ d, delayedStart Delay RifTime uninitialised clock = some d ∧
          d.FlowStartTime.Carried ∧
          d.FlowStartTime.us = RifTime.us + Delay.toNat * 1000 ∧
          List.Forall₂ (IsRest d.FlowStartTime) (clock.takeWhile (waitsAt d.FlowStartTime))
            d.sleeps ∧
          d.left = clock.find? (fun t => !waitsAt d.FlowStartTime t) ∧
          ∀ t ∈ d.left, d.FlowStartTime.Before t := by
  refine ⟨fun V _ vars result a b ha hb => ?_,
    fun Delay RifTime uninitialised clock h hrif hclock => ?_⟩
  · have hdiff := isDiff_timevalSubtract result ha hb
    refine ⟨hdiff.carried, hdiff.us_eq, fun v hv => timevalSubtract_of_ne result hv, ?_⟩
    rw [timevalSubtract_snd result ha hb, ← Timeval.us_lt_us_iff ha hb]
    split_ifs with hlt <;> simp [hlt]
  · obtain ⟨vars, hvars, hstart⟩ := delayedStart_of_pos clock h RifTime uninitialised
    have hs : (vars .FlowStartTime).Carried := hvars ▸ carried_flowStartTime hrif Delay
    have hsleeps := delayLoop_sleeps clock hs hclock
    have hleft := delayLoop_left clock hs hclock
    rw [hvars] at hs hsleeps hleft
    refine ⟨_, hstart, hs, flowStartTime_us RifTime Delay, hsleeps, hleft, fun t ht => ?_⟩
    have hfound := hleft.symm.trans ht
    have hnot := List.find?_some hfound
    rw [waitsAt, Bool.not_eq_true', decide_eq_false_iff_not, not_le] at hnot
    exact (Timeval.us_lt_us_iff hs (hclock t (List.mem_of_find?_eq_some hfound))).1 hnot

/-- A delay of 1.5 s. When the clock says exactly the start, the sender sleeps for no time. -/
theorem delayed_start_half :
    ((timevalSubtract (fun v : Bool => if v then ⟨12, 200000⟩ else ⟨11, 700000⟩)
      false true false).1 false).us = 500000 ∧
    ∃ d, delayedStart 1500 ⟨10, 700000⟩ .zero [⟨11, 700000⟩, ⟨12, 200000⟩, ⟨12, 200001⟩] =
        some d ∧ d.sleeps = [⟨0, 500000⟩, ⟨0, 0⟩] ∧
      ∀ t ∈ d.left, d.FlowStartTime.Before t := by
  refine ⟨?_, ?_⟩
  · exact (delayed_start.1 Bool _ false true false ⟨by decide, by decide⟩
      ⟨by decide, by decide⟩).2.1
  · obtain ⟨d, hd, -, -, -, -, hleft⟩ := delayed_start.2 1500 ⟨10, 700000⟩ .zero
      [⟨11, 700000⟩, ⟨12, 200000⟩, ⟨12, 200001⟩] (by decide) ⟨by decide, by decide⟩
      (by simp only [List.forall_mem_cons, List.not_mem_nil, false_imp_iff, implies_true, and_true]
          exact ⟨⟨by decide, by decide⟩, ⟨by decide, by decide⟩, ⟨by decide, by decide⟩⟩)
    refine ⟨d, hd, ?_, hleft⟩
    have hsleeps := congrArg (Option.map DelayedStart.sleeps) hd
    exact (Option.some.inj (hsleeps.symm.trans (by decide +kernel)))

end Ditg
