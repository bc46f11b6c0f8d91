import Ditg.Sender.Pacing

/-!
# The timeouts of the wait

In every turn of its wait loop the sender asks for a timeout, built from what is left of the wait
by casts: `(long) wait / 1000` is the integer part of the wait divided by 1000, and
`(long) (wait * 1000) % 1000000` the integer part of its microseconds without the seconds. With
`-poll` the loop asks for `MAX_POLL` less, and for no time at all in the end.

* `castTimeout_ms`: together they are what is left of the wait, cut at microseconds;
* `waitLoop_accounted`: the loop ends when the credit and the advances of the clock are enough
  for the wait, what is too much is the next credit, and no timeout is longer than what is left.
-/

namespace Ditg

/-! ## A timeout -/

/-- Microseconds that are not a second, of a time that is not negative. -/
structure Timeval.Normalised (t : Timeval) : Prop where
  tv_sec_nonneg : 0 ≤ t.tv_sec
  tv_usec_nonneg : 0 ≤ t.tv_usec
  tv_usec_lt : t.tv_usec < 1000000

/-- No time. -/
def Timeval.zero : Timeval := { tv_sec := 0, tv_usec := 0 }

theorem Timeval.normalised_zero : Timeval.zero.Normalised := ⟨le_rfl, le_rfl, by decide⟩

theorem Timeval.ms_zero : Timeval.zero.ms = 0 := by
  simp [Timeval.zero, Timeval.ms]

theorem trunc_of_nonneg {x : ℚ} (h : 0 ≤ x) : CDouble.trunc x = ⌊x⌋ := if_neg (not_lt.2 h)

/-- The timeout that the casts make of a time. -/
def castTimeout (wait : ℚ) : Timeval where
  tv_sec := (CDouble.trunc wait).tdiv 1000
  tv_usec := (CDouble.trunc (wait * 1000)).tmod 1000000

section Cast

variable {wait : ℚ} (h : 0 ≤ wait)
include h

theorem normalised_castTimeout : (castTimeout wait).Normalised := by
  have hw := Int.floor_nonneg.2 h
  have hu := Int.floor_nonneg.2 (show 0 ≤ wait * 1000 by linarith)
  rw [castTimeout, trunc_of_nonneg h, trunc_of_nonneg (by linarith)]
  refine ⟨Int.tdiv_nonneg hw (by decide), Int.tmod_nonneg _ hu, ?_⟩
  exact Int.tmod_lt_of_pos _ (by decide)

/-- The seconds are those of the microseconds, as either cast cuts downwards. -/
theorem castTimeout_ms : (castTimeout wait).ms = (⌊wait * 1000⌋ : ℚ) / 1000 := by
  have hw := Int.floor_nonneg.2 h
  have hu := Int.floor_nonneg.2 (show 0 ≤ wait * 1000 by linarith)
  have hsec : ⌊wait⌋ / 1000 = ⌊wait * 1000⌋ / 1000000 := by
    have hfloor : ⌊wait * 1000⌋ / 1000 = ⌊wait⌋ :=
      mod_cast Int.mul_cast_floor_div_cancel_of_pos (show (0 : ℤ) < 1000 by decide) wait
    rw [← hfloor, Int.ediv_ediv_of_nonneg (by decide)]
    rfl
  rw [castTimeout, trunc_of_nonneg h, trunc_of_nonneg (by linarith), Timeval.ms,
    Int.tdiv_eq_ediv_of_nonneg hw, Int.tmod_eq_emod_of_nonneg hu, hsec]
  have hsplit := Int.mul_ediv_add_emod ⌊wait * 1000⌋ 1000000
  have hsplit : ((⌊wait * 1000⌋ : ℤ) : ℚ) = 1000000 * (⌊wait * 1000⌋ / 1000000 : ℤ) +
      (⌊wait * 1000⌋ % 1000000 : ℤ) := by
    exact_mod_cast hsplit.symm
  rw [hsplit]
  ring

/-- It is no longer than the time. -/
theorem castTimeout_ms_le : (castTimeout wait).ms ≤ wait := by
  rw [castTimeout_ms h]
  have := Int.floor_le (wait * 1000)
  linarith

end Cast

theorem timeout_of_polling {wait : ℚ} (h : wait ≤ maxPoll) : timeout true wait = .zero := by
  simp [timeout, h, Timeval.zero]

/-- With or without `-poll`, the loop asks for a time that is normalised and no longer than what
    is left of the wait. -/
theorem timeout_spec (pollingMode : Bool) {wait : ℚ} (h : 0 ≤ wait) :
    (timeout pollingMode wait).Normalised ∧ (timeout pollingMode wait).ms ≤ wait := by
  cases pollingMode with
  | false => exact ⟨normalised_castTimeout h, castTimeout_ms_le h⟩
  | true =>
    by_cases hpoll : wait ≤ maxPoll
    · rw [timeout_of_polling hpoll, Timeval.ms_zero]
      exact ⟨Timeval.normalised_zero, h⟩
    · have hcast : timeout true wait = castTimeout (wait - maxPoll) := by
        simp [timeout, hpoll, castTimeout]
      have hle : 0 ≤ wait - maxPoll := sub_nonneg.2 (not_le.1 hpoll).le
      have hms := castTimeout_ms_le hle
      have hmax : (0 : ℚ) ≤ maxPoll := by norm_num [maxPoll]
      rw [hcast]
      exact ⟨normalised_castTimeout hle, by linarith⟩

/-! ## All timeouts of a wait -/

/-- The advances of the clock that `updateTicker` sees. -/
def advances (lastTime : Timeval) : List Timeval → List ℚ
  | [] => []
  | thisTime :: clock => (thisTime.ms - lastTime.ms) :: advances thisTime clock

/-- The time accounted for after `k` advances: the credit and the advances. -/
def accounted (Ticker : TTicker) (clock : List Timeval) (k : ℕ) : ℚ :=
  Ticker.count + ((advances Ticker.lastTime clock).take k).sum

/-- The timeouts the loop asks for, up to its end or the last reading of the clock. -/
def waitTimeouts (pollingMode : Bool) (Ticker : TTicker) (wait : ℚ) (clock : List Timeval) :
    List Timeval :=
  if wait ≤ Ticker.count then [.zero]
  else
    timeout pollingMode (wait - Ticker.count) ::
      match clock with
      | [] => []
      | thisTime :: clock =>
        waitTimeouts pollingMode (updateTicker thisTime { Ticker with count := 0 })
          (wait - Ticker.count) clock

section WaitLoop

variable {Ticker : TTicker} {wait : ℚ} {clock : List Timeval}

theorem accounted_zero : accounted Ticker clock 0 = Ticker.count := by
  simp [accounted]

/-- A turn pays from the credit, and the next advance becomes the credit. -/
theorem accounted_succ (thisTime : Timeval) (k : ℕ) :
    accounted Ticker (thisTime :: clock) (k + 1) =
      Ticker.count + accounted (updateTicker thisTime { Ticker with count := 0 }) clock k := by
  rw [updateTicker_eq]
  simp only [accounted, advances, List.take_succ_cons, List.sum_cons]
  ring

variable (pollingMode : Bool)

/-- The loop that ends has asked for these timeouts. -/
theorem waitLoop_timeouts {out : TTicker × List Timeval}
    (h : waitLoop pollingMode Ticker wait clock = some out) :
    out.2 = waitTimeouts pollingMode Ticker wait clock := by
  induction clock generalizing Ticker wait out with
  | nil =>
    rw [waitLoop] at h
    rw [waitTimeouts]
    split_ifs at h ⊢
    cases h
    rfl
  | cons thisTime clock ih =>
    rw [waitLoop] at h
    rw [waitTimeouts]
    split_ifs at h ⊢
    · cases h
      rfl
    · obtain ⟨r, hr, rfl⟩ := Option.map_eq_some_iff.1 h
      exact congrArg (_ :: ·) (ih hr)

/-- What the loop is to ask for when `left` is left of the wait. -/
structure TimeoutFits (pollingMode : Bool) (left : ℚ) (t : Timeval) : Prop where
  normalised : t.Normalised
  ms_le : t.ms ≤ max 0 left
  eq_zero : pollingMode = true → left ≤ maxPoll → t = .zero

theorem timeoutFits_zero (left : ℚ) :
    TimeoutFits pollingMode left .zero :=
  ⟨Timeval.normalised_zero, Timeval.ms_zero.trans_le (le_max_left ..), fun _ _ => rfl⟩

theorem timeoutFits_timeout {left : ℚ} (h : 0 ≤ left) :
    TimeoutFits pollingMode left (timeout pollingMode left) := by
  obtain ⟨hnorm, hms⟩ := timeout_spec pollingMode h
  refine ⟨hnorm, hms.trans (le_max_right ..), ?_⟩
  rintro rfl
  exact timeout_of_polling

/-- Every timeout fits what is left of the wait when it is asked for. -/
theorem waitTimeouts_fit {i : ℕ} {t : Timeval}
    (h : (waitTimeouts pollingMode Ticker wait clock)[i]? = some t) :
    TimeoutFits pollingMode (wait - accounted Ticker clock i) t := by
  induction clock generalizing Ticker wait i with
  | nil =>
    rw [waitTimeouts] at h
    split_ifs at h with hdue
    · obtain ⟨rfl, rfl⟩ : i = 0 ∧ _ = t := by simpa [List.getElem?_singleton] using h
      exact timeoutFits_zero ..
    · obtain ⟨rfl, rfl⟩ : i = 0 ∧ _ = t := by simpa [List.getElem?_singleton] using h
      rw [accounted_zero]
      exact timeoutFits_timeout _ (by linarith)
  | cons thisTime clock ih =>
    rw [waitTimeouts] at h
    split_ifs at h with hdue
    · obtain ⟨rfl, rfl⟩ : i = 0 ∧ _ = t := by simpa [List.getElem?_singleton] using h
      exact timeoutFits_zero ..
    · cases i with
      | zero =>
        obtain rfl := Option.some.inj h
        rw [accounted_zero]
        exact timeoutFits_timeout _ (by linarith)
      | succ i =>
        -- From here on the wait is shorter by the credit that has been paid.
        rw [accounted_succ, ← sub_sub]
        exact ih h

/-- The loop ends at the first advance with which the credit and the advances are enough for the
    wait, and what is too much is the credit it leaves. -/
theorem waitLoop_first {k : ℕ} (hk : k ≤ clock.length) (henough : wait ≤ accounted Ticker clock k)
    (hfirst : ∀ j < k, accounted Ticker clock j < wait) :
    ∃ r, waitLoop pollingMode Ticker wait clock = some r ∧
      r.1.count = accounted Ticker clock k - wait ∧
      some r.1.lastTime = (Ticker.lastTime :: clock)[k]? ∧ r.2.length = k + 1 := by
  induction k generalizing Ticker wait clock with
  | zero =>
    rw [accounted_zero] at henough ⊢
    rw [waitLoop.eq_def, if_pos henough]
    exact ⟨_, rfl, rfl, rfl, rfl⟩
  | succ k ih =>
    obtain ⟨thisTime, clock, rfl⟩ := List.exists_cons_of_length_pos (Nat.zero_lt_of_lt hk)
    have hzero := hfirst 0 k.succ_pos
    rw [accounted_zero] at hzero
    rw [accounted_succ] at henough ⊢
    obtain ⟨r, hr, hcount, hlast, hlen⟩ :=
      @ih (updateTicker thisTime { Ticker with count := 0 }) (wait - Ticker.count) clock
        (Nat.le_of_succ_le_succ hk) (by linarith) fun j hj => by
          have hj := hfirst (j + 1) (Nat.succ_lt_succ hj)
          rw [accounted_succ] at hj
          linarith
    rw [waitLoop, if_neg (not_le.2 hzero)]
    refine ⟨_, by rw [hr]; rfl, ?_, ?_, ?_⟩
    · rw [hcount]
      ring
    · rw [hlast]
      rfl
    · rw [List.length_cons, hlen]

/-- If they are never enough, it goes on. -/
theorem waitLoop_eq_none (h : ∀ k ≤ clock.length, accounted Ticker clock k < wait) :
    waitLoop pollingMode Ticker wait clock = none := by
  induction clock generalizing Ticker wait with
  | nil =>
    have hzero := h 0 le_rfl
    rw [accounted_zero] at hzero
    rw [waitLoop, if_neg (not_le.2 hzero)]
  | cons thisTime clock ih =>
    have hzero := h 0 (Nat.zero_le _)
    rw [accounted_zero] at hzero
    rw [waitLoop, if_neg (not_le.2 hzero), Option.map_eq_none_iff]
    refine ih fun k hk => ?_
    have hk := h (k + 1) (Nat.succ_le_succ hk)
    rw [accounted_succ] at hk
    linarith

end WaitLoop

end Ditg
