import Ditg.Common.Info

/-!
# The records the decoder reads

The decoder reads the records of a log file one by one and checks their times
(`timeErrornum`, `errornum`) before it computes on them.

* `remote_eq_local`: with exact arithmetic, a record sent to a log server and
  converted back there is the one the receiver would have written itself,
  whatever the byte orders of the two hosts; and if it was taken within a day of
  the epoch the times are counted from, it passes the checks.
-/

namespace Ditg

open Bytes Memory

section Checks

variable {F : Type} [CDouble F]

/-- The greatest seconds that pass the checks, `59.999999`. -/
def maxSeconds (F : Type) [CDouble F] : F := ((59999999 : ℤ) : F) / ((1000000 : ℤ) : F)

/-- The number of the last range check of the times that a record fails, `0` when
    it passes all of them. -/
def timeErrornum (infos : Info F) : ℕ :=
  if infos.rxTime3 > maxSeconds F ∨ infos.rxTime3 < ((0 : ℤ) : F) then 6
  else if infos.rxTime2 > 59 ∨ infos.rxTime2 < 0 then 5
  else if infos.rxTime1 > 24 ∨ infos.rxTime1 < 0 then 4
  else if infos.txTime3 > maxSeconds F ∨ infos.txTime3 < ((0 : ℤ) : F) then 3
  else if infos.txTime2 > 59 ∨ infos.txTime2 < 0 then 2
  else if infos.txTime1 > 24 ∨ infos.txTime1 < 0 then 1
  else 0

/-- The error of a record: beside the times, a flow id above the ones selected. -/
def errornum (flagfilter : ℕ) (flownumsel : UInt32) (infos : Info F) : ℕ :=
  if flagfilter = 1 ∧ infos.flowId > flownumsel then 7 else timeErrornum infos

end Checks

/-! ## The times of a record -/

/-- The times of a record are those of two counts of seconds and microseconds. -/
structure HasTimes (r : Info ℚ) (time1 txUsec time2 rxUsec : ℤ) : Prop where
  txTime1 : r.txTime1 = hours time1
  txTime2 : r.txTime2 = minutes time1
  txTime3 : r.txTime3 = seconds ℚ time1 txUsec
  rxTime1 : r.rxTime1 = hours time2
  rxTime2 : r.rxTime2 = minutes time2
  rxTime3 : r.rxTime3 = seconds ℚ time2 rxUsec

/-- The times of a day are in the ranges that the decoder checks. -/
theorem times_in_range {time usec : ℤ} (h : 0 ≤ time ∧ time < 86400)
    (hu : 0 ≤ usec ∧ usec < 1000000) :
    ¬(hours time > 24 ∨ hours time < 0) ∧ ¬(minutes time > 59 ∨ minutes time < 0) ∧
      ¬(seconds ℚ time usec > maxSeconds ℚ ∨ seconds ℚ time usec < ((0 : ℤ) : ℚ)) := by
  have hmod : 0 ≤ time % 3600 := Int.emod_nonneg _ (by norm_num)
  have hh : ((hours time).toNat : ℤ) = time / 3600 := by
    rw [hours, Int.tdiv_eq_ediv_of_nonneg h.1, toNat_ofInt (by omega) (by omega)]
  have hm : ((minutes time).toNat : ℤ) = time % 3600 / 60 := by
    rw [minutes, Int.tmod_eq_emod_of_nonneg h.1, Int.tdiv_eq_ediv_of_nonneg hmod,
      toNat_ofInt (by omega) (by omega)]
  have hs : seconds ℚ time usec = (time % 60 : ℤ) + (usec : ℚ) / 1000000 := by
    rw [seconds, Int.tmod_eq_emod_of_nonneg h.1]
    norm_num
  refine ⟨?_, ?_, ?_⟩
  · simp only [gt_iff_lt, UInt32.lt_iff_toNat_lt, UInt32.reduceToNat]
    omega
  · simp only [gt_iff_lt, UInt32.lt_iff_toNat_lt, UInt32.reduceToNat]
    omega
  · -- 59 seconds and 999999 microseconds at most.
    have h₀ : (0 : ℚ) ≤ (time % 60 : ℤ) := by exact_mod_cast Int.emod_nonneg _ (by norm_num)
    have h₁ : ((time % 60 : ℤ) : ℚ) ≤ 59 := by exact_mod_cast (by omega : time % 60 ≤ 59)
    have hu₀ : (0 : ℚ) ≤ usec := by exact_mod_cast hu.1
    have hu₁ : (usec : ℚ) ≤ 999999 := by exact_mod_cast (by omega : usec ≤ 999999)
    rw [hs, maxSeconds, not_or]
    push_cast
    constructor <;> linarith

section Remote

variable {r : Info ℚ} {time1 txUsec time2 rxUsec : ℤ}

/-- Through the network format and back, a record keeps its times and all else. -/
theorem infosntoh_ofMem_toMem (host₁ host₂ : Host ℚ)
    (h : HasTimes r time1 txUsec time2 rxUsec)
    (h₁ : 0 ≤ time1 ∧ time1 < 2 ^ 31) (h₂ : 0 ≤ time2 ∧ time2 < 2 ^ 31)
    (hu₁ : 0 ≤ txUsec ∧ txUsec < 1000000) (hu₂ : 0 ≤ rxUsec ∧ rxUsec < 1000000) :
    infosntoh host₂.endian (Info.ofMem host₂ ((infosHostToNet host₁.endian r).toMem host₁)) =
      r := by
  have htx : timeSec r.txTime1 r.txTime2 r.txTime3 = UInt32.ofInt time1 := by
    rw [h.txTime1, h.txTime2, h.txTime3, timeSec_eq h₁.1 hu₁.1 hu₁.2]
  have hrx : timeSec r.rxTime1 r.rxTime2 r.rxTime3 = UInt32.ofInt time2 := by
    rw [h.rxTime1, h.rxTime2, h.rxTime3, timeSec_eq h₂.1 hu₂.1 hu₂.2]
  have htu : timeUsec r.txTime3 = UInt32.ofInt txUsec := by
    rw [h.txTime3, timeUsec_eq h₁.1 hu₁.1 hu₁.2]
  have hru : timeUsec r.rxTime3 = UInt32.ofInt rxUsec := by
    rw [h.rxTime3, timeUsec_eq h₂.1 hu₂.1 hu₂.2]
  have hn₁ := toNat_ofInt h₁.1 h₁.2
  have hn₂ := toNat_ofInt h₂.1 h₂.2
  have hm₁ := toNat_ofInt hu₁.1 (hu₁.2.trans (by norm_num))
  have hm₂ := toNat_ofInt hu₂.1 (hu₂.2.trans (by norm_num))
  obtain ⟨_, _, _, _, _, _, _, _, _, _, _, _, _⟩ := r
  simp only [infosntoh, Info.ofMem, Info.toMem, infosHostToNet, drop_store32_append,
    drop_address_append, List.drop_zero, ntohl_load32_htonl, charArray_append]
  simp only at htx hrx htu hru
  simp [htx, hrx, htu, hru, hn₁, hn₂, hm₁, hm₂, ← h.txTime1, ← h.txTime2, ← h.txTime3,
    ← h.rxTime1, ← h.rxTime2, ← h.rxTime3]

/-- A record with times within a day passes the checks. -/
theorem timeErrornum_eq_zero (h : HasTimes r time1 txUsec time2 rxUsec)
    (h₁ : 0 ≤ time1 ∧ time1 < 86400) (h₂ : 0 ≤ time2 ∧ time2 < 86400)
    (hu₁ : 0 ≤ txUsec ∧ txUsec < 1000000) (hu₂ : 0 ≤ rxUsec ∧ rxUsec < 1000000) :
    timeErrornum r = 0 := by
  have tx := times_in_range h₁ hu₁
  have rx := times_in_range h₂ hu₂
  rw [← h.txTime1, ← h.txTime2, ← h.txTime3] at tx
  rw [← h.rxTime1, ← h.rxTime2, ← h.rxTime3] at rx
  rw [timeErrornum, if_neg rx.2.2, if_neg rx.2.1, if_neg rx.1, if_neg tx.2.2, if_neg tx.2.1,
    if_neg tx.1]

end Remote

/-! ## The local and the remote path -/

/-- The record a receiver builds for a packet, by any of the three functions that
    do, arrives unchanged in the file of the log server, and passes the checks
    of the decoder if its times are within a day. -/
theorem remote_eq_local (host₁ host₂ : Host ℚ) (infos r : Info ℚ)
    (FlowId ptrSeqNum : UInt32) (SrcHost DestHost : List UInt8)
    (tmp_portSrc tmp_portDest : UInt16) (time1 time2 txTime_Usec rxTime_Usec size : ℤ)
    (h₁ : 0 ≤ time1 ∧ time1 < 2 ^ 31) (h₂ : 0 ≤ time2 ∧ time2 < 2 ^ 31)
    (hu₁ : 0 ≤ txTime_Usec ∧ txTime_Usec < 10 ^ 6) (hu₂ : 0 ≤ rxTime_Usec ∧ rxTime_Usec < 10 ^ 6)
    (hr : r = writeInBufferStandard host₁.endian infos FlowId ptrSeqNum SrcHost DestHost
        tmp_portSrc tmp_portDest time1 time2 txTime_Usec rxTime_Usec size ∨
      r = writeInBufferShort host₁.endian infos FlowId ptrSeqNum SrcHost DestHost
        tmp_portSrc tmp_portDest time2 rxTime_Usec size ∨
      r = writeInBufferNone host₁.endian infos FlowId SrcHost DestHost
        tmp_portSrc tmp_portDest time2 rxTime_Usec size) :
    infosntoh host₂.endian (Info.ofMem host₂ ((infosHostToNet host₁.endian r).toMem host₁)) = r ∧
      (time1 < 86400 → time2 < 86400 → timeErrornum r = 0) := by
  have key : HasTimes r time1 txTime_Usec time2 rxTime_Usec ∨
      HasTimes r time2 rxTime_Usec time2 rxTime_Usec := by
    rcases hr with rfl | rfl | rfl
    · exact .inl ⟨rfl, rfl, rfl, rfl, rfl, rfl⟩
    -- Without a transmit time in the packet, both times are the receive time.
    · exact .inr ⟨rfl, rfl, rfl, rfl, rfl, rfl⟩
    · exact .inr ⟨rfl, rfl, rfl, rfl, rfl, rfl⟩
  rcases key with h | h
  · exact ⟨infosntoh_ofMem_toMem host₁ host₂ h h₁ h₂ hu₁ hu₂, fun d₁ d₂ =>
      timeErrornum_eq_zero h ⟨h₁.1, d₁⟩ ⟨h₂.1, d₂⟩ hu₁ hu₂⟩
  · exact ⟨infosntoh_ofMem_toMem host₁ host₂ h h₂ h₂ hu₂ hu₂, fun _ d₂ =>
      timeErrornum_eq_zero h ⟨h₂.1, d₂⟩ ⟨h₂.1, d₂⟩ hu₂ hu₂⟩

/-- The record of the last microsecond of a day. -/
def lastOfDay : Info ℚ :=
  writeInBufferStandard .little default 1 2 [49] [50] 3 4 86399 86399 999999 999999 64

/-- The last microsecond of a day, between hosts of different byte orders. -/
theorem remote_eq_local_lastOfDay :
    infosntoh .big (Info.ofMem (.ofEndian .big) ((infosHostToNet .little lastOfDay).toMem
      (.ofEndian .little))) = lastOfDay ∧
      ((86399 : ℤ) < 86400 → (86399 : ℤ) < 86400 → timeErrornum lastOfDay = 0) :=
  remote_eq_local (.ofEndian .little) (.ofEndian .big) default lastOfDay 1 2 [49] [50] 3 4
    86399 86399 999999 999999 64 (by decide) (by decide) (by decide) (by decide) (.inl rfl)

end Ditg
