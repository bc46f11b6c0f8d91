import Mathlib.Algebra.BigOperators.Ring.Finset
import Ditg.Dec.Elabsplit
import Ditg.Library.Statistics

/-!
# The summary of the decoder

The loop of the decoder counts the records that fail the checks, enters the others in the flow
table and keeps sums over all flows of its own (`DecodeState.record`). From both, the summary
prints results for each flow (`StFlowInfo.results`) and for all flows together
(`DecodeState.results`): the entries of the table hold sums, which are divided by the packets
received, first.

* `summary_delays`: with exact arithmetic, the delays of the summary are the least, the greatest
  and the mean of the delays of a flow, their deviation and the mean of their differences, and
  those of all flows agree with them;
* `percentage_iff`: when the packets dropped of all flows are the right part of all packets.
-/

namespace Ditg

open Statistics

section Model

variable {F : Type} [CDouble F]

/-! ## The model -/

/-- The variables of the loop of the decoder. -/
structure DecodeState (F : Type) where
  flowinfo : List (StFlowInfo F)
  avdelay : F
  delvariation : F
  avjitter : F
  lastdelay : F
  secfirstline_gl : F
  flagfirstline : Bool
  pktvalid : ℕ
  pkterr : ℕ

/-- Before the first record. -/
def DecodeState.start : DecodeState F where
  flowinfo := []
  avdelay := ((0 : ℤ) : F)
  delvariation := ((0 : ℤ) : F)
  avjitter := ((0 : ℤ) : F)
  lastdelay := ((0 : ℤ) : F)
  secfirstline_gl := ((90000 : ℤ) : F)
  flagfirstline := true
  pktvalid := 0
  pkterr := 0

/-- One round of the loop: a record that fails the checks is counted as an error. -/
def DecodeState.record (flagfilter : ℕ) (flownumsel : UInt32) (s : DecodeState F)
    (infos : Info F) : DecodeState F :=
  if errornum flagfilter flownumsel infos > 0 then { s with pkterr := s.pkterr + 1 }
  else
    let sectxTime := secTime infos.txTime1 infos.txTime2 infos.txTime3
    let secrxTime := secTime infos.rxTime1 infos.rxTime2 infos.rxTime3
    { s with
      pktvalid := s.pktvalid + 1
      flowinfo := decodeRecord flagfilter s.flowinfo infos
      avdelay := s.avdelay + deltatime sectxTime secrxTime
      delvariation := s.delvariation + deltatime sectxTime secrxTime * deltatime sectxTime secrxTime
      secfirstline_gl := if secrxTime < s.secfirstline_gl then secrxTime else s.secfirstline_gl
      flagfirstline := false
      avjitter := if s.flagfirstline then s.avjitter
        else s.avjitter + CDouble.fabs (s.lastdelay - deltatime sectxTime secrxTime)
      lastdelay := deltatime sectxTime secrxTime }

/-- The loop over the records of a log. -/
def decodeLoop (flagfilter : ℕ) (flownumsel : UInt32) (log : List (Info F)) : DecodeState F :=
  log.foldl (DecodeState.record flagfilter flownumsel) .start

/-- The entry of a flow with its sums divided: the delay variation before its square root. -/
def StFlowInfo.divide (f : StFlowInfo F) : StFlowInfo F :=
  let avdelay := f.avdelay / ofULong f.pktrecv
  { f with
    avdelay := avdelay
    delvariation := f.delvariation / ofULong f.pktrecv - avdelay * avdelay
    avjitter := if f.pktrecv > 1 then f.avjitter / ofULong (f.pktrecv - 1) else ((0 : ℤ) : F) }

/-- The square root of a variation, if it is one. -/
def deviation (sqrt : F → F) (delvariation : F) : F :=
  if delvariation > ((0 : ℤ) : F) then sqrt delvariation else ((0 : ℤ) : F)

/-- The sums over the flows. -/
structure Totals (F : Type) where
  seclastline : F
  pktrecv : F
  byterecv : F
  maxdelay : F
  mindelay : F
  pktloss : UInt32
  lossEvents : UInt32

/-- Before the first flow. -/
def Totals.start : Totals F where
  seclastline := ((0 : ℤ) : F)
  pktrecv := ((0 : ℤ) : F)
  byterecv := ((0 : ℤ) : F)
  maxdelay := ((-86400 : ℤ) : F)
  mindelay := ((90000 : ℤ) : F)
  pktloss := 0
  lossEvents := 0

/-- The sums with a further flow. That of the packets lost is cut to 32 bits. -/
def Totals.add (t : Totals F) (f : StFlowInfo F) : Totals F where
  pktrecv := t.pktrecv + ofULong f.pktrecv
  byterecv := t.byterecv + f.byterecv
  pktloss := (t.pktloss.toUInt64 + f.pktloss).toUInt32
  lossEvents := t.lossEvents + f.lossEvents
  seclastline := if t.seclastline < f.seclastline then f.seclastline else t.seclastline
  maxdelay := if t.maxdelay < f.maxdelay then f.maxdelay else t.maxdelay
  mindelay := if t.mindelay > f.mindelay then f.mindelay else t.mindelay

/-- What is printed for a flow, and for all flows together. -/
structure Results (F : Type) where
  totaltime : F
  pktrecv : F
  mindelay : F
  maxdelay : F
  avdelay : F
  avjitter : F
  delvariation : F
  byterecv : F
  bitrate : F
  packetrate : F
  pktloss : ℕ
  /-- The part of the packets that was dropped, in percent. -/
  dropped : F
  /-- The average size of a loss burst. -/
  burst : Option F

/-- The results of a flow. Like the packets received, their sum with the packets lost is not
    reduced to 64 bits here. -/
def StFlowInfo.results (sqrt : F → F) (f : StFlowInfo F) : Results F :=
  let totaltime := deltatime f.secfirstline f.seclastline
  let lost : Bool := f.pktrecv > 0 ∧ f.pktloss > 0
  { totaltime := totaltime
    pktrecv := ofULong f.pktrecv
    mindelay := f.mindelay
    maxdelay := f.maxdelay
    avdelay := f.divide.avdelay
    avjitter := f.divide.avjitter
    delvariation := deviation sqrt f.divide.delvariation
    byterecv := f.byterecv
    bitrate := if totaltime > ((0 : ℤ) : F) then
        f.byterecv * ((8 : ℤ) : F) / ((1000 : ℤ) : F) / totaltime
      else ((0 : ℤ) : F)
    packetrate := if totaltime > ((0 : ℤ) : F) then ofULong f.pktrecv / totaltime
      else ((0 : ℤ) : F)
    pktloss := if lost then f.pktloss.toNat else 0
    dropped := if lost then ((100 : ℤ) : F) * ofULong f.pktloss.toNat /
        ofULong (f.pktrecv + f.pktloss.toNat)
      else ((0 : ℤ) : F)
    burst := if lost then quot (ofULong f.pktloss.toNat) f.lossEvents.toNat
      else some ((0 : ℤ) : F) }

/-- The delay variation of all flows, before its square root. -/
def DecodeState.variation (s : DecodeState F) (pktrecv : F) : F :=
  let avdelay := s.avdelay / pktrecv
  s.delvariation / pktrecv - avdelay * avdelay

/-- The results of all flows together. -/
def DecodeState.results (sqrt : F → F) (s : DecodeState F) : Results F :=
  let t := s.flowinfo.foldl Totals.add .start
  let totaltime := deltatime s.secfirstline_gl t.seclastline
  let lost : Bool := t.pktrecv > ((0 : ℤ) : F) ∧ t.pktloss > 0
  { totaltime := totaltime
    pktrecv := t.pktrecv
    mindelay := t.mindelay
    maxdelay := t.maxdelay
    avdelay := s.avdelay / t.pktrecv
    avjitter := if t.pktrecv > ((1 : ℤ) : F) then s.avjitter / (t.pktrecv - ((1 : ℤ) : F))
      else ((0 : ℤ) : F)
    delvariation := deviation sqrt (s.variation t.pktrecv)
    byterecv := t.byterecv
    bitrate := if totaltime > ((0 : ℤ) : F) then
        t.byterecv * ((8 : ℤ) : F) / ((1000 : ℤ) : F) / totaltime
      else ((0 : ℤ) : F)
    packetrate := if totaltime > ((0 : ℤ) : F) then t.pktrecv / totaltime else ((0 : ℤ) : F)
    pktloss := if lost then t.pktloss.toNat else 0
    -- The product is of 32 bits.
    dropped := if lost then ofUInt32 (100 * t.pktloss) / (t.pktrecv + ofUInt32 t.pktloss)
      else ((0 : ℤ) : F)
    burst := if lost then quot (ofUInt32 t.pktloss) t.lossEvents.toNat else some ((0 : ℤ) : F) }

end Model

/-! ## The loop -/

section Loop

variable {F : Type} [CDouble F] (flagfilter : ℕ) (flownumsel : UInt32)

/-- The records of a log that pass the checks, as they are entered in the table. -/
def valid (log : List (Info F)) : List (Info F) :=
  entered flagfilter (log.filter (errornum flagfilter flownumsel · = 0))

/-- The delay of a record. -/
def Info.delay (infos : Info F) : F :=
  deltatime (secTime infos.txTime1 infos.txTime2 infos.txTime3)
    (secTime infos.rxTime1 infos.rxTime2 infos.rxTime3)

theorem delay_entered (log : List (Info F)) :
    (entered flagfilter log).map Info.delay = log.map Info.delay := by
  rw [entered, List.map_map]
  apply List.map_congr_left
  intro r _
  rw [Function.comp_apply]
  split_ifs <;> rfl

/-- The flow table of the loop is that of the records that pass the checks. -/
theorem flowinfo_decodeLoop (log : List (Info F)) :
    (decodeLoop flagfilter flownumsel log).flowinfo =
      (flows F).table (valid flagfilter flownumsel log) := by
  rw [valid, ← decode_eq_table_entered]
  induction log using List.reverseRecOn with
  | nil => rfl
  | append_singleton log infos ih =>
    rw [decodeLoop, List.foldl_concat, ← decodeLoop, DecodeState.record, List.filter_append]
    by_cases h : errornum flagfilter flownumsel infos > 0
    · rw [if_pos h, List.filter_cons_of_neg (by simpa using h.ne'), List.filter_nil,
        List.append_nil, ih]
    · rw [if_neg h, List.filter_cons_of_pos (by simpa using h), List.filter_nil, decode,
        List.foldl_concat, ← decode, ← ih]

end Loop

section Exact

variable (flagfilter : ℕ) (flownumsel : UInt32)

theorem avdelay_next (f : StFlowInfo ℚ) (r : Info ℚ) :
    (next f r).avdelay = f.avdelay + r.delay := by
  obtain ⟨pktloss, pktdup, lossEvents, h⟩ := setLoss_eq r.seqNum _
  rw [next, nextline, h]
  rfl

theorem delvariation_next (f : StFlowInfo ℚ) (r : Info ℚ) :
    (next f r).delvariation = f.delvariation + r.delay * r.delay := by
  obtain ⟨pktloss, pktdup, lossEvents, h⟩ := setLoss_eq r.seqNum _
  rw [next, nextline, h]
  rfl

/-- The sums of the loop are those of the records that pass the checks. -/
theorem sums_decodeLoop (log : List (Info ℚ)) :
    (decodeLoop flagfilter flownumsel log).avdelay =
        ((valid flagfilter flownumsel log).map Info.delay).sum ∧
      (decodeLoop flagfilter flownumsel log).delvariation =
        ((valid flagfilter flownumsel log).map fun r => r.delay * r.delay).sum := by
  have hsq (l : List (Info ℚ)) : (l.map fun r => r.delay * r.delay) =
      (l.map Info.delay).map fun d => d * d := by
    rw [List.map_map]
    rfl
  rw [hsq, valid, delay_entered]
  induction log using List.reverseRecOn with
  | nil => exact ⟨rfl, rfl⟩
  | append_singleton log infos ih =>
    rw [decodeLoop, List.foldl_concat, ← decodeLoop, DecodeState.record, List.filter_append]
    by_cases h : errornum flagfilter flownumsel infos > 0
    · rw [if_pos h, List.filter_cons_of_neg (by simpa using h.ne'), List.filter_nil,
        List.append_nil]
      exact ih
    · rw [if_neg h, List.filter_cons_of_pos (by simpa using h), List.filter_nil, List.map_append,
        List.map_append, List.sum_append, List.sum_append, ← ih.1, ← ih.2]
      simp [Info.delay]

/-! ## The sums of a flow -/

/-- The entry of a flow holds the sums of its delays. -/
structure StFlowInfo.Sums (f : StFlowInfo ℚ) (ds : List ℚ) : Prop where
  pktrecv : f.pktrecv = ds.length
  avdelay : f.avdelay = ds.sum
  delvariation : f.delvariation = (ds.map fun d => d * d).sum
  mindelay : IsLeast {d | d ∈ ds} f.mindelay
  maxdelay : IsGreatest {d | d ∈ ds} f.maxdelay
  lastdelay : ds.getLast? = some f.lastdelay
  avjitter : f.avjitter = (steps ds).sum

theorem sums_first (r : Info ℚ) : (first r).Sums [r.delay] where
  pktrecv := rfl
  avdelay := List.sum_singleton.symm
  delvariation := List.sum_singleton.symm
  mindelay := isLeast_singleton _
  maxdelay := isGreatest_singleton _
  lastdelay := rfl
  avjitter := rfl

theorem sums_next {f : StFlowInfo ℚ} {ds : List ℚ} (h : f.Sums ds) (r : Info ℚ) :
    (next f r).Sums (ds ++ [r.delay]) := by
  obtain ⟨ds', hds⟩ := List.getLast?_eq_some_iff.1 h.lastdelay
  obtain ⟨pktloss, pktdup, lossEvents, hnext⟩ := setLoss_eq r.seqNum _
  rw [next, nextline, hnext]
  refine ⟨?_, ?_, ?_, isLeast_concat h.mindelay _, isGreatest_concat h.maxdelay _, ?_, ?_⟩
  · rw [List.length_append, List.length_singleton, ← h.pktrecv]
  · rw [List.sum_append, List.sum_singleton, ← h.avdelay]
    rfl
  · rw [List.map_append, List.sum_append, List.map_singleton, List.sum_singleton, ← h.delvariation]
    rfl
  · rw [List.getLast?_concat]
    rfl
  · rw [hds, steps_concat, List.sum_append, List.sum_singleton, ← hds, ← h.avjitter,
      abs_sub_comm]
    rfl

/-! ## The results of a flow -/

/-- The results of a flow are those of its delays. -/
structure StFlowInfo.Summarized (sqrt : ℚ → ℚ) (f : StFlowInfo ℚ) (ds : List ℚ) : Prop where
  mindelay : IsLeast {d | d ∈ ds} (f.results sqrt).mindelay
  maxdelay : IsGreatest {d | d ∈ ds} (f.results sqrt).maxdelay
  avdelay : (f.results sqrt).avdelay = mean ds
  between : (f.results sqrt).mindelay ≤ (f.results sqrt).avdelay ∧
    (f.results sqrt).avdelay ≤ (f.results sqrt).maxdelay
  variation : f.divide.delvariation = variance ds ∧ 0 ≤ f.divide.delvariation
  delvariation : (f.results sqrt).delvariation =
    if 0 < variance ds then sqrt (variance ds) else 0
  avjitter : (f.results sqrt).avjitter = mean (steps ds)

theorem StFlowInfo.Sums.summarized (sqrt : ℚ → ℚ) {f : StFlowInfo ℚ} {ds : List ℚ}
    (h : f.Sums ds) : f.Summarized sqrt ds := by
  have hne : ds ≠ [] := List.ne_nil_of_mem h.mindelay.1
  have hav : f.divide.avdelay = mean ds := by
    rw [mean_eq, ← h.avdelay, ← h.pktrecv, ← ofULong_eq]
    rfl
  have hvariation : f.divide.delvariation = variance ds := by
    rw [variance_eq hne, ← hav, ← h.delvariation, ← h.pktrecv, ← ofULong_eq]
    rfl
  refine ⟨h.mindelay, h.maxdelay, hav, ?_, ⟨hvariation, ?_⟩, ?_, ?_⟩
  · change f.mindelay ≤ f.divide.avdelay ∧ f.divide.avdelay ≤ f.maxdelay
    rw [hav]
    exact le_mean_le h.mindelay h.maxdelay
  · rw [hvariation]
    exact variance_nonneg ds
  · change deviation sqrt f.divide.delvariation = _
    rw [hvariation, deviation]
    push_cast
    rfl
  · -- There is one difference less than there are delays.
    have hlen : (steps ds).length = f.pktrecv - 1 := by
      rw [steps, List.length_map, List.length_zip, List.length_tail, h.pktrecv]
      omega
    change (if f.pktrecv > 1 then f.avjitter / ofULong (f.pktrecv - 1) else ((0 : ℤ) : ℚ)) = _
    rw [mean_eq, ← h.avjitter, hlen, ofULong_eq]
    split_ifs with hpkt
    · rfl
    · have hzero : f.pktrecv - 1 = 0 := by omega
      rw [hzero, Nat.cast_zero, div_zero, Int.cast_zero]

/-! ## All flows -/

section Totals

variable (tbl : List (StFlowInfo ℚ))

/-- The packets of all flows. -/
theorem pktrecv_totals : (tbl.foldl Totals.add .start).pktrecv =
    ((tbl.map StFlowInfo.pktrecv).sum : ℕ) := by
  induction tbl using List.reverseRecOn with
  | nil => rfl
  | append_singleton tbl f ih =>
    rw [List.foldl_concat, List.map_append, List.sum_append, Nat.cast_add, ← ih,
      List.map_singleton, List.sum_singleton, ← ofULong_eq]
    rfl

variable {tbl} (hne : tbl ≠ [])

include hne

/-- The least delay of all flows is one of theirs, as they are less than the one it starts
    from, ... -/
theorem mindelay_totals (h : ∀ f ∈ tbl, f.mindelay < 90000) :
    IsLeast {d | d ∈ tbl.map StFlowInfo.mindelay} (tbl.foldl Totals.add .start).mindelay := by
  have hfold : (tbl.foldl Totals.add .start).mindelay = (tbl.map StFlowInfo.mindelay).foldl
      (fun m d => if m > d then d else m) (Totals.start (F := ℚ)).mindelay := by
    rw [List.foldl_map]
    exact (List.foldl_hom Totals.mindelay fun _ _ => rfl).symm
  rw [hfold]
  exact isLeast_foldl (by simpa using hne) (by simpa [Totals.start] using h)

/-- ... and so is the greatest one. -/
theorem maxdelay_totals (h : ∀ f ∈ tbl, -86400 < f.maxdelay) :
    IsGreatest {d | d ∈ tbl.map StFlowInfo.maxdelay} (tbl.foldl Totals.add .start).maxdelay := by
  have hfold : (tbl.foldl Totals.add .start).maxdelay = (tbl.map StFlowInfo.maxdelay).foldl
      (fun m d => if m < d then d else m) (Totals.start (F := ℚ)).maxdelay := by
    rw [List.foldl_map]
    exact (List.foldl_hom Totals.maxdelay fun _ _ => rfl).symm
  rw [hfold]
  exact isGreatest_foldl (by simpa using hne) (by simpa [Totals.start] using h)

end Totals

/-- A record that passes the checks has no times before midnight. -/
theorem secTime_nonneg {infos : Info ℚ} (h : errornum flagfilter flownumsel infos = 0) :
    0 ≤ secTime infos.txTime1 infos.txTime2 infos.txTime3 ∧
      0 ≤ secTime infos.rxTime1 infos.rxTime2 infos.rxTime3 := by
  have hnat (n : UInt32) : (0 : ℚ) ≤ ofUInt32 n := Int.cast_nonneg (Int.natCast_nonneg _)
  have hsec {time1 time2 : UInt32} {time3 : ℚ}
      (h3 : ¬(time3 > maxSeconds ℚ ∨ time3 < ((0 : ℤ) : ℚ))) :
      0 ≤ secTime time1 time2 time3 := by
    have h3' : 0 ≤ time3 := by simpa using (not_or.1 h3).2
    have h1 := hnat time1
    have h2 := hnat time2
    rw [secTime]
    push_cast
    positivity
  rw [errornum, timeErrornum] at h
  split_ifs at h with _ h6 _ _ h3
  exact ⟨hsec h3, hsec h6⟩

/-- The delays of records with times of a day are within a day. -/
theorem delay_valid {log : List (Info ℚ)} (htimes : ∀ r ∈ valid flagfilter flownumsel log,
      secTime r.txTime1 r.txTime2 r.txTime3 < 86400 ∧
      secTime r.rxTime1 r.rxTime2 r.rxTime3 < 86400) :
    ∀ r ∈ valid flagfilter flownumsel log, -86400 < r.delay ∧ r.delay < 90000 := by
  intro r hr
  obtain ⟨htx, hrx⟩ := htimes r hr
  have hnonneg : 0 ≤ secTime r.txTime1 r.txTime2 r.txTime3 ∧
      0 ≤ secTime r.rxTime1 r.rxTime2 r.rxTime3 := by
    obtain ⟨infos, hinfos, rfl⟩ := List.mem_map.1 hr
    have h := secTime_nonneg flagfilter flownumsel (of_decide_eq_true (List.mem_filter.1 hinfos).2)
    split_ifs
    · exact h
    · exact h
  rw [Info.delay, deltatime]
  constructor
  · linarith [hnonneg.2]
  · linarith [hnonneg.1]

/-- Every entry has the sums of the delays of its records. -/
theorem sums_flowinfo (log : List (Info ℚ)) :
    ∀ f ∈ (decodeLoop flagfilter flownumsel log).flowinfo, f.Sums
      (((valid flagfilter flownumsel log).filter (·.key = f.key)).map Info.delay) := by
  intro f hf
  rw [flowinfo_decodeLoop] at hf
  exact (flows ℚ).table_induction (P := fun f rs => f.Sums (rs.map Info.delay)) sums_first
    (fun f rs r _ h => by
      rw [List.map_append]
      exact sums_next h r) hf

theorem flowinfo_decodeLoop_ne_nil {log : List (Info ℚ)}
    (hne : valid flagfilter flownumsel log ≠ []) :
    (decodeLoop flagfilter flownumsel log).flowinfo ≠ [] := by
  obtain ⟨r, hr⟩ := List.exists_mem_of_ne_nil _ hne
  have hkey := ((flows ℚ).mem_keys_table (valid flagfilter flownumsel log) r.key).2
    (List.mem_map_of_mem hr)
  rw [flowinfo_decodeLoop]
  rintro h
  rw [h] at hkey
  cases hkey

/-- By the packets, the averages of the flows are their sums. -/
theorem weighted_avdelay (sqrt : ℚ → ℚ) {tbl : List (StFlowInfo ℚ)} (h : ∀ f ∈ tbl, 0 < f.pktrecv) :
    (tbl.map fun f => (f.results sqrt).pktrecv * (f.results sqrt).avdelay) =
      tbl.map StFlowInfo.avdelay := by
  apply List.map_congr_left
  intro f hf
  have hpos : (f.pktrecv : ℚ) ≠ 0 := Nat.cast_ne_zero.2 (h f hf).ne'
  change ofULong f.pktrecv * (f.avdelay / ofULong f.pktrecv) = f.avdelay
  rw [ofULong_eq, mul_div_cancel₀ _ hpos]

/-- In the summary of a log, the results of every flow are those of the delays of its records.
    The least and the greatest delay of all flows are the least of the least ones and the
    greatest of the greatest ones, the average delay is that of the flows by their packets, and
    the sums of the loop are those of the entries. -/
theorem summary_delays (sqrt : ℚ → ℚ) {log : List (Info ℚ)}
    (hne : valid flagfilter flownumsel log ≠ [])
    (htimes : ∀ r ∈ valid flagfilter flownumsel log,
      secTime r.txTime1 r.txTime2 r.txTime3 < 86400 ∧
      secTime r.rxTime1 r.rxTime2 r.rxTime3 < 86400) :
    let s := decodeLoop flagfilter flownumsel log
    (∀ f ∈ s.flowinfo, f.Summarized sqrt
      (((valid flagfilter flownumsel log).filter (·.key = f.key)).map Info.delay)) ∧
    IsLeast {d | d ∈ s.flowinfo.map fun f => (f.results sqrt).mindelay} (s.results sqrt).mindelay ∧
    IsGreatest {d | d ∈ s.flowinfo.map fun f => (f.results sqrt).maxdelay}
      (s.results sqrt).maxdelay ∧
    (s.results sqrt).avdelay =
      (s.flowinfo.map fun f => (f.results sqrt).pktrecv * (f.results sqrt).avdelay).sum /
        (s.flowinfo.map fun f => (f.results sqrt).pktrecv).sum ∧
    s.avdelay = (s.flowinfo.map StFlowInfo.avdelay).sum ∧
    s.delvariation = (s.flowinfo.map StFlowInfo.delvariation).sum := by
  intro s
  have hflowinfo : s.flowinfo = (flows ℚ).table (valid flagfilter flownumsel log) :=
    flowinfo_decodeLoop flagfilter flownumsel log
  obtain ⟨havdelay, hdelvariation⟩ := sums_decodeLoop flagfilter flownumsel log
  have hsums := sums_flowinfo flagfilter flownumsel log
  -- The delays of a flow are those of records.
  have hdelay : ∀ f ∈ s.flowinfo, ∀ d ∈
      ((valid flagfilter flownumsel log).filter (·.key = f.key)).map Info.delay,
      -86400 < d ∧ d < 90000 := by
    intro f _ d hd
    obtain ⟨r, hr, rfl⟩ := List.mem_map.1 hd
    exact delay_valid flagfilter flownumsel htimes r (List.mem_filter.1 hr).1
  have htbl : s.flowinfo ≠ [] := flowinfo_decodeLoop_ne_nil flagfilter flownumsel hne
  have hav : s.avdelay = (s.flowinfo.map StFlowInfo.avdelay).sum := by
    rw [havdelay, hflowinfo]
    exact ((flows ℚ).sum_table (fun _ => rfl) avdelay_next _).symm
  refine ⟨fun f hf => (hsums f hf).summarized sqrt, ?_, ?_, ?_, hav, ?_⟩
  · exact mindelay_totals htbl fun f hf => (hdelay f hf _ (hsums f hf).mindelay.1).2
  · exact maxdelay_totals htbl fun f hf => (hdelay f hf _ (hsums f hf).maxdelay.1).1
  · have hpos : ∀ f ∈ s.flowinfo, 0 < f.pktrecv := fun f hf =>
      (hsums f hf).pktrecv ▸ List.length_pos_of_mem (hsums f hf).mindelay.1
    have hpackets : (s.flowinfo.map fun f => (f.results sqrt).pktrecv).sum =
        (s.flowinfo.foldl Totals.add .start).pktrecv := by
      rw [pktrecv_totals, Nat.cast_list_sum, List.map_map]
      exact congrArg List.sum (List.map_congr_left fun f _ => ofULong_eq f.pktrecv)
    rw [weighted_avdelay sqrt hpos, hpackets, ← hav]
    rfl
  · rw [hdelvariation, hflowinfo]
    exact ((flows ℚ).sum_table (fun _ => rfl) delvariation_next _).symm

end Exact

/-- Records of two flows, the first one with two records. -/
def twoFlows : List (Info ℚ) :=
  [{ lastOfDay with txTime3 := 58 }, { lastOfDay with flowId := 7, txTime3 := 59 },
    { lastOfDay with txTime3 := 57 }]

/-- The delays of two flows. -/
theorem summary_delays_two :
    IsLeast {d | d ∈ (decodeLoop 0 0 twoFlows).flowinfo.map fun f => (f.results id).mindelay}
      ((decodeLoop 0 0 twoFlows).results id).mindelay ∧
    (decodeLoop 0 0 twoFlows).avdelay =
      ((decodeLoop 0 0 twoFlows).flowinfo.map StFlowInfo.avdelay).sum := by
  obtain ⟨-, hmin, -, -, hav, -⟩ := summary_delays 0 0 id
    (show valid 0 0 twoFlows ≠ [] by decide +kernel) (by decide +kernel)
  exact ⟨hmin, hav⟩

/-! ## The packets dropped -/

section Dropped

/-- The packets lost of all flows, cut to 32 bits. -/
theorem pktloss_totals (tbl : List (StFlowInfo ℚ)) : (tbl.foldl Totals.add .start).pktloss.toNat =
    (tbl.map (·.pktloss.toNat)).sum % 2 ^ 32 := by
  induction tbl using List.reverseRecOn with
  | nil => rfl
  | append_singleton tbl f ih =>
    rw [List.foldl_concat, List.map_append, List.sum_append, List.map_singleton,
      List.sum_singleton]
    change ((tbl.foldl Totals.add .start).pktloss.toUInt64 + f.pktloss).toUInt32.toNat = _
    rw [UInt64.toNat_toUInt32, UInt64.toNat_add, UInt32.toNat_toUInt64, ih]
    omega

/-- The part of the packets that a flow drops. -/
theorem dropped_results (sqrt : ℚ → ℚ) {f : StFlowInfo ℚ} (h : 1 ≤ f.pktrecv) :
    (f.results sqrt).dropped =
      (100 * f.pktloss.toNat : ℚ) / ((f.pktrecv : ℚ) + f.pktloss.toNat) := by
  have hdropped : (f.results sqrt).dropped = if f.pktrecv > 0 ∧ f.pktloss > 0 then
      ((100 : ℤ) : ℚ) * ofULong f.pktloss.toNat / ofULong (f.pktrecv + f.pktloss.toNat)
      else ((0 : ℤ) : ℚ) := by
    simp only [StFlowInfo.results, decide_eq_true_eq]
  rw [hdropped, ofULong_eq, ofULong_eq]
  split_ifs with hlost
  · push_cast
    rfl
  · have hzero : f.pktloss.toNat = 0 := by
      by_contra hne
      exact hlost ⟨h, UInt64.lt_iff_toNat_lt.2 (Nat.pos_of_ne_zero hne)⟩
    rw [hzero]
    simp

variable (sqrt : ℚ → ℚ) {s : DecodeState ℚ} (hrecv : ∀ f ∈ s.flowinfo, 1 ≤ f.pktrecv)
  (hpos : 0 < (s.flowinfo.map (·.pktloss.toNat)).sum)
  (hlt : (s.flowinfo.map (·.pktloss.toNat)).sum < 2 ^ 32)

include hpos

theorem flowinfo_ne_nil : s.flowinfo ≠ [] := by
  rintro h
  rw [h] at hpos
  exact lt_irrefl _ hpos

include hrecv

/-- The flows have packets, of which some are lost. -/
theorem sum_pktrecv_pos : 0 < (s.flowinfo.map StFlowInfo.pktrecv).sum := by
  obtain ⟨f, hf⟩ := List.exists_mem_of_ne_nil _ (flowinfo_ne_nil hpos)
  exact (hrecv f hf).trans (List.single_le_sum (fun _ _ => Nat.zero_le _) _
    (List.mem_map_of_mem hf))

/-- The part of the packets that are lost of all flows is between those of the flows. -/
theorem dropped_between :
    (∃ f ∈ s.flowinfo, (f.results sqrt).dropped ≤
      (100 * (s.flowinfo.map (·.pktloss.toNat)).sum : ℚ) /
        ((s.flowinfo.map StFlowInfo.pktrecv).sum + (s.flowinfo.map (·.pktloss.toNat)).sum)) ∧
    ∃ f ∈ s.flowinfo, (100 * (s.flowinfo.map (·.pktloss.toNat)).sum : ℚ) /
        ((s.flowinfo.map StFlowInfo.pktrecv).sum + (s.flowinfo.map (·.pktloss.toNat)).sum) ≤
      (f.results sqrt).dropped := by
  have hquot : ∀ f ∈ s.flowinfo, (f.results sqrt).dropped =
      (100 * f.pktloss.toNat : ℚ) / ((f.pktrecv : ℚ) + f.pktloss.toNat) := fun f hf =>
    dropped_results sqrt (hrecv f hf)
  have hden : ∀ f ∈ s.flowinfo, (0 : ℚ) < (f.pktrecv : ℚ) + f.pktloss.toNat := fun f hf =>
    add_pos_of_pos_of_nonneg (Nat.cast_pos.2 (hrecv f hf)) (Nat.cast_nonneg _)
  have hnum : (s.flowinfo.map fun f => (100 * f.pktloss.toNat : ℚ)).sum =
      100 * ((s.flowinfo.map (·.pktloss.toNat)).sum : ℕ) := by
    rw [List.sum_map_mul_left, Nat.cast_list_sum, List.map_map]
    rfl
  have hsum : (s.flowinfo.map fun f => (f.pktrecv : ℚ) + f.pktloss.toNat).sum =
      ((s.flowinfo.map StFlowInfo.pktrecv).sum : ℕ) +
        ((s.flowinfo.map (·.pktloss.toNat)).sum : ℕ) := by
    rw [List.sum_map_add, Nat.cast_list_sum, Nat.cast_list_sum, List.map_map, List.map_map]
    rfl
  have hne := flowinfo_ne_nil hpos
  rw [← hnum, ← hsum]
  constructor
  · obtain ⟨f, hf, h⟩ :=
      exists_div_le (a := fun f : StFlowInfo ℚ => (100 * f.pktloss.toNat : ℚ)) hne hden
    exact ⟨f, hf, (hquot f hf).le.trans h⟩
  · obtain ⟨f, hf, h⟩ :=
      exists_le_div (a := fun f : StFlowInfo ℚ => (100 * f.pktloss.toNat : ℚ)) hne hden
    exact ⟨f, hf, h.trans (hquot f hf).ge⟩

include hlt

/-- The part of the packets that all flows drop: its product is cut to 32 bits. -/
theorem dropped_totals : (s.results sqrt).dropped =
    ((100 * (s.flowinfo.map (·.pktloss.toNat)).sum % 2 ^ 32 : ℕ) : ℚ) /
      ((s.flowinfo.map StFlowInfo.pktrecv).sum + (s.flowinfo.map (·.pktloss.toNat)).sum : ℕ) := by
  have hloss : (s.flowinfo.foldl Totals.add .start).pktloss.toNat =
      (s.flowinfo.map (·.pktloss.toNat)).sum := by
    rw [pktloss_totals, Nat.mod_eq_of_lt hlt]
  have hlost : (s.flowinfo.foldl Totals.add .start).pktrecv > ((0 : ℤ) : ℚ) ∧
      (s.flowinfo.foldl Totals.add .start).pktloss > 0 := by
    rw [pktrecv_totals, Int.cast_zero, gt_iff_lt, Nat.cast_pos, gt_iff_lt,
      UInt32.lt_iff_toNat_lt, hloss]
    exact ⟨sum_pktrecv_pos hrecv hpos, hpos⟩
  have hdropped : (s.results sqrt).dropped =
      ofUInt32 (100 * (s.flowinfo.foldl Totals.add .start).pktloss) /
        ((s.flowinfo.foldl Totals.add .start).pktrecv +
          ofUInt32 (s.flowinfo.foldl Totals.add .start).pktloss) := by
    simp only [DecodeState.results, decide_eq_true_eq, if_pos hlost]
  rw [hdropped, ofUInt32, ofUInt32, UInt32.toNat_mul, hloss, pktrecv_totals, Int.cast_natCast,
    Int.cast_natCast, Nat.cast_add]
  rfl

/-- The packets dropped of all flows are the right part of all packets, between those of the
    flows, if and only if the product with 100 fits in 32 bits. -/
theorem percentage_iff :
    ((s.results sqrt).dropped = 100 * (s.flowinfo.map (·.pktloss.toNat)).sum /
        ((s.flowinfo.map StFlowInfo.pktrecv).sum + (s.flowinfo.map (·.pktloss.toNat)).sum) ∧
      (s.results sqrt).dropped ≤ 100 ∧
      (∃ f ∈ s.flowinfo, (f.results sqrt).dropped ≤ (s.results sqrt).dropped) ∧
      ∃ f ∈ s.flowinfo, (s.results sqrt).dropped ≤ (f.results sqrt).dropped) ↔
    100 * (s.flowinfo.map (·.pktloss.toNat)).sum < 2 ^ 32 := by
  rw [dropped_totals sqrt hrecv hpos hlt]
  have hrecvpos := sum_pktrecv_pos hrecv hpos
  obtain ⟨hle, hge⟩ := dropped_between sqrt hrecv hpos
  generalize (s.flowinfo.map StFlowInfo.pktrecv).sum = N at *
  generalize (s.flowinfo.map (·.pktloss.toNat)).sum = L at *
  have htotal : (0 : ℚ) < (N : ℚ) + L := add_pos (Nat.cast_pos.2 hrecvpos) (Nat.cast_pos.2 hpos)
  rw [Nat.cast_add]
  constructor
  · rintro ⟨heq, -⟩
    rw [div_left_inj' htotal.ne'] at heq
    have hmod : 100 * L % 2 ^ 32 = 100 * L := by exact_mod_cast heq
    rw [← hmod]
    exact Nat.mod_lt _ (by norm_num)
  · intro hfit
    rw [Nat.mod_eq_of_lt hfit, Nat.cast_mul, Nat.cast_ofNat]
    refine ⟨rfl, ?_, hle, hge⟩
    rw [div_le_iff₀ htotal]
    have hN : (0 : ℚ) ≤ N := Nat.cast_nonneg N
    linarith

end Dropped

/-- Two flows that drop half and a quarter of their packets. -/
theorem percentage_two :
    let s : DecodeState ℚ := { DecodeState.start with
      flowinfo := [{ first lastOfDay with pktloss := 1 },
        { first lastOfDay with flowId := 7, pktrecv := 3, pktloss := 1 }] }
    (∃ f ∈ s.flowinfo, (f.results id).dropped ≤ (s.results id).dropped) ∧
      ∃ f ∈ s.flowinfo, (s.results id).dropped ≤ (f.results id).dropped :=
  ((percentage_iff id (by decide +kernel) (by decide +kernel) (by decide +kernel)).2
    (by decide +kernel)).2.2

/-- One flow that drops nearly all its packets, of which all flows drop almost none. -/
theorem percentage_wraps :
    let s : DecodeState ℚ := { DecodeState.start with
      flowinfo := [{ first lastOfDay with pktloss := 42949673 }] }
    (s.results id).dropped = 4 / 42949674 ∧
    (∀ f ∈ s.flowinfo, (f.results id).dropped = 4294967300 / 42949674) ∧
    ¬ ((s.results id).dropped = 100 * (s.flowinfo.map (·.pktloss.toNat)).sum /
        ((s.flowinfo.map StFlowInfo.pktrecv).sum + (s.flowinfo.map (·.pktloss.toNat)).sum) ∧
      (s.results id).dropped ≤ 100 ∧
      (∃ f ∈ s.flowinfo, (f.results id).dropped ≤ (s.results id).dropped) ∧
      ∃ f ∈ s.flowinfo, (s.results id).dropped ≤ (f.results id).dropped) := by
  decide +kernel

end Ditg
