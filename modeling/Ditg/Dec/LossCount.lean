import Ditg.Dec.FlowTable
import Ditg.Library.Arrivals

/-!
# The loss counters of the decoder

From the sequence numbers of the records of a flow, `setline` counts the packets
lost (`pktloss`) and duplicated (`pktdup`) and the losses in a row (`lossEvents`).
It does not keep which numbers it has seen: what it counts are the packets in
excess of the greatest number, and the counters are unsigned, of 32 and of 64
bits. The entry of a flow is related to the counts of its arrivals by
`StFlowInfo.Counts`.

* `decode_lossCounters`: `pktloss` and `pktdup` never wrap and are bounded by the
  numbers that are missing and the records that are repetitions, but `lossEvents`
  wraps when late packets fill more gaps than were counted;
* `decode_perm_iff`: when the packets lost and duplicated are the same in all orders
  of arrival.
-/

namespace Ditg

open Arrivals

section Counters

variable {F : Type} [CDouble F]

/-- The sequence numbers of a log. -/
def seqNums (log : List (Info F)) : List ℕ := log.map (·.seqNum.toNat)

/-! ## One record -/

section SetLoss

omit [CDouble F]

variable (seqNum : UInt32) {f : StFlowInfo F}

@[simp] theorem maxSeq_setLoss : (setLoss seqNum f).maxSeq = f.maxSeq := by
  rw [setLoss]
  split_ifs <;> rfl

@[simp] theorem minSeq_setLoss : (setLoss seqNum f).minSeq = f.minSeq := by
  rw [setLoss]
  split_ifs <;> rfl

/-- There are more packets than sequence numbers and duplicates. -/
theorem excess_iff (hmin : f.minSeq = 1) (hrecv : f.pktrecv < 2 ^ 64)
    (hdup : f.pktdup.toNat ≤ f.pktrecv) :
    (f.maxSeq - f.minSeq + 1).toUInt64 < UInt64.ofNat f.pktrecv - f.pktdup.toUInt64 ↔
      f.maxSeq.toNat + f.pktdup.toNat < f.pktrecv := by
  have hmax : f.maxSeq - f.minSeq + 1 = f.maxSeq := by
    rw [hmin, UInt32.sub_add_cancel]
  have hofNat : (UInt64.ofNat f.pktrecv).toNat = f.pktrecv := UInt64.toNat_ofNat_of_lt' hrecv
  have hle : f.pktdup.toUInt64 ≤ UInt64.ofNat f.pktrecv := by
    rw [UInt64.le_iff_toNat_le, hofNat, UInt32.toNat_toUInt64]
    exact hdup
  rw [hmax, UInt64.lt_iff_toNat_lt, UInt64.toNat_sub_of_le _ _ hle, hofNat, UInt32.toNat_toUInt64,
    UInt32.toNat_toUInt64]
  omega

/-- The duplicates: 32 bits of the packets in excess of the greatest number, if
    these are more than before. -/
theorem toNat_pktdup_setLoss (hmin : f.minSeq = 1) (hrecv : f.pktrecv < 2 ^ 64)
    (hdup : f.pktdup.toNat ≤ f.pktrecv) :
    (setLoss seqNum f).pktdup.toNat = if f.maxSeq.toNat + f.pktdup.toNat < f.pktrecv then
      (f.pktrecv - f.maxSeq.toNat) % 2 ^ 32 else f.pktdup.toNat := by
  have hofNat : (UInt64.ofNat f.pktrecv).toNat = f.pktrecv := UInt64.toNat_ofNat_of_lt' hrecv
  have hmax : f.maxSeq.toNat < 2 ^ 32 := f.maxSeq.toNat_lt
  rw [setLoss]
  simp only [excess_iff hmin hrecv hdup]
  by_cases hlt : f.maxSeq.toNat + f.pktdup.toNat < f.pktrecv
  · rw [if_pos hlt, if_pos hlt, hmin, UInt64.toNat_toUInt32, UInt64.toNat_sub, UInt64.toNat_add,
      hofNat, UInt32.toNat_toUInt64, UInt32.toNat_add, UInt32.toNat_neg, UInt64.toNat_one,
      UInt32.toNat_one, UInt32.size]
    omega
  · rw [if_neg hlt, if_neg hlt]

/-- The packets lost, from the greatest number and the duplicates. -/
theorem toNat_pktloss_setLoss (hmin : f.minSeq = 1) (hrecv : f.pktrecv < 2 ^ 64)
    (hdup : f.pktdup.toNat ≤ f.pktrecv) (hpos : 0 < f.maxSeq.toNat) :
    (setLoss seqNum f).pktloss.toNat =
      f.maxSeq.toNat + (setLoss seqNum f).pktdup.toNat - f.pktrecv := by
  have hofNat : (UInt64.ofNat f.pktrecv).toNat = f.pktrecv := UInt64.toNat_ofNat_of_lt' hrecv
  have hmax : f.maxSeq.toNat < 2 ^ 32 := f.maxSeq.toNat_lt
  have hdup32 : f.pktdup.toNat < 2 ^ 32 := f.pktdup.toNat_lt
  rw [toNat_pktdup_setLoss seqNum hmin hrecv hdup, setLoss]
  simp only [excess_iff hmin hrecv hdup]
  by_cases hlt : f.maxSeq.toNat + f.pktdup.toNat < f.pktrecv
  · rw [if_pos hlt, if_pos hlt, UInt64.toNat_zero]
    have hmod : (f.pktrecv - f.maxSeq.toNat) % 2 ^ 32 ≤ f.pktrecv - f.maxSeq.toNat :=
      Nat.mod_le _ _
    omega
  · have hsub : (f.maxSeq - 1).toNat = f.maxSeq.toNat - 1 := by
      rw [UInt32.toNat_sub_of_le, UInt32.toNat_one]
      rwa [UInt32.le_iff_toNat_le, UInt32.toNat_one]
    rw [if_neg hlt, if_neg hlt, hmin]
    simp only [UInt64.toNat_add, UInt64.toNat_sub, UInt32.toNat_toUInt64, hofNat, hsub,
      UInt64.toNat_one]
    omega

/-- The losses in a row: one more if the packet skips numbers, one fewer if fewer
    packets are lost than before and there are no new duplicates. -/
theorem lossEvents_setLoss (hmin : f.minSeq = 1) (hdup : f.pktdup.toNat ≤ f.pktrecv)
    (hpos : 0 < f.maxSeq.toNat) (hsum : f.pktloss.toNat + f.pktrecv < 2 ^ 64) :
    (setLoss seqNum f).lossEvents = f.lossEvents +
      (if f.pktloss.toNat + f.pktrecv < seqNum.toNat then 1 else 0) -
      if f.pktrecv ≤ f.maxSeq.toNat + f.pktdup.toNat ∧
        f.maxSeq.toNat + f.pktdup.toNat < f.pktrecv + f.pktloss.toNat then 1 else 0 := by
  have hrecv : f.pktrecv < 2 ^ 64 := by omega
  have hofNat : (UInt64.ofNat f.pktrecv).toNat = f.pktrecv := UInt64.toNat_ofNat_of_lt' hrecv
  -- The sum of the packets lost and received does not wrap.
  have hgap : (seqNum.toUInt64 > f.pktloss + UInt64.ofNat f.pktrecv) ↔
      f.pktloss.toNat + f.pktrecv < seqNum.toNat := by
    rw [gt_iff_lt, UInt64.lt_iff_toNat_lt, UInt64.toNat_add, hofNat, UInt32.toNat_toUInt64]
    omega
  have hgap1 : (if seqNum.toUInt64 > f.pktloss + UInt64.ofNat f.pktrecv then f.lossEvents + 1
      else f.lossEvents) =
      f.lossEvents + if f.pktloss.toNat + f.pktrecv < seqNum.toNat then 1 else 0 := by
    rw [if_congr hgap rfl rfl]
    split_ifs <;> simp
  have hpktloss := toNat_pktloss_setLoss seqNum hmin hrecv hdup hpos
  rw [toNat_pktdup_setLoss seqNum hmin hrecv hdup] at hpktloss
  rw [setLoss] at hpktloss ⊢
  simp only [excess_iff hmin hrecv hdup, hgap1] at hpktloss ⊢
  by_cases hlt : f.maxSeq.toNat + f.pktdup.toNat < f.pktrecv
  · have hnot : ¬ (f.pktrecv ≤ f.maxSeq.toNat + f.pktdup.toNat ∧
        f.maxSeq.toNat + f.pktdup.toNat < f.pktrecv + f.pktloss.toNat) := by omega
    rw [if_pos hlt, if_neg hnot, UInt32.sub_zero]
  · simp only [if_neg hlt] at hpktloss ⊢
    -- The difference may wrap on the way, but not in the end.
    have hlate : (f.maxSeq - f.minSeq).toUInt64 - UInt64.ofNat f.pktrecv + f.pktdup.toUInt64 + 1 <
        f.pktloss ↔ f.pktrecv ≤ f.maxSeq.toNat + f.pktdup.toNat ∧
          f.maxSeq.toNat + f.pktdup.toNat < f.pktrecv + f.pktloss.toNat := by
      rw [UInt64.lt_iff_toNat_lt, hpktloss]
      omega
    rw [if_congr hlate rfl rfl]
    split_ifs <;> simp

end SetLoss

/-- What `setline` has counted after the records numbered `l`. -/
structure StFlowInfo.Counts (f : StFlowInfo F) (l : List ℕ) : Prop where
  pktrecv : f.pktrecv = l.length
  maxSeq : f.maxSeq.toNat = top l
  minSeq : f.minSeq = 1
  pktdup_le : f.pktdup.toNat ≤ l.length
  pktloss : f.pktloss.toNat = if l.length < 2 then 0 else top l + f.pktdup.toNat - l.length

/-- What `setline` has counted after fewer than `2 ^ 32` records numbered `l`: the
    duplicates are the excess, and the losses in a row are the gaps that no late
    packet has filled, up to a multiple of `2 ^ 32`. -/
structure StFlowInfo.CountsExact (f : StFlowInfo F) (l : List ℕ) : Prop extends f.Counts l where
  pktdup : f.pktdup.toNat = excess l
  lossEvents : f.lossEvents + UInt32.ofNat (fills l) = UInt32.ofNat (gaps l)

theorem counts_firstline (infos : Info F) (txTime rxTime : F) :
    (firstline infos txTime rxTime).Counts [infos.seqNum.toNat] where
  pktrecv := rfl
  maxSeq := by simp [firstline, top]
  minSeq := rfl
  pktdup_le := Nat.zero_le _
  pktloss := rfl

theorem countsExact_firstline (infos : Info F) (txTime rxTime : F) :
    (firstline infos txTime rxTime).CountsExact [infos.seqNum.toNat] where
  toCounts := counts_firstline infos txTime rxTime
  pktdup := rfl
  lossEvents := by simp [firstline, fills, gaps, occurrences, IsFill, IsGap]

section Nextline

variable {f : StFlowInfo F} {l : List ℕ} (hf : f.Counts l) (hl : l ≠ []) (infos : Info F)
  (htop : 0 < max (top l) infos.seqNum.toNat) (txTime rxTime : F)

include hf

/-- A further record updates the loss counters of an entry that has counted it. -/
theorem exists_setLoss : ∃ g : StFlowInfo F, nextline infos txTime rxTime f =
    setLoss infos.seqNum g ∧ g.pktrecv = l.length + 1 ∧ g.minSeq = 1 ∧
    g.maxSeq.toNat = max (top l) infos.seqNum.toNat ∧ g.pktdup = f.pktdup ∧
    g.pktloss = f.pktloss ∧ g.lossEvents = f.lossEvents := by
  have hmax : (if infos.seqNum > f.maxSeq then infos.seqNum else f.maxSeq).toNat =
      max (top l) infos.seqNum.toNat := by
    rw [← hf.maxSeq, if_congr UInt32.lt_iff_toNat_lt rfl rfl]
    split_ifs <;> omega
  exact ⟨_, rfl, congrArg (· + 1) hf.pktrecv, hf.minSeq, hmax, rfl, rfl, rfl⟩

/-- The duplicates after a further record. -/
theorem toNat_pktdup_nextline (hlen : l.length + 1 < 2 ^ 64) :
    (nextline infos txTime rxTime f).pktdup.toNat =
      if max (top l) infos.seqNum.toNat + f.pktdup.toNat < l.length + 1 then
        (l.length + 1 - max (top l) infos.seqNum.toNat) % 2 ^ 32 else f.pktdup.toNat := by
  obtain ⟨g, hnext, hrecv, hmin, hmax, hdup, -⟩ := exists_setLoss hf infos txTime rxTime
  have hle := hf.pktdup_le
  rw [hnext, toNat_pktdup_setLoss _ hmin (by omega) (by rw [hdup]; omega), hmax, hdup, hrecv]

include hl

/-- As long as the excess fits in 32 bits, it is what is counted as duplicates. -/
theorem toNat_pktdup_eq_excess (hdup : f.pktdup.toNat = excess l) (hlen : l.length + 1 < 2 ^ 64)
    (hfit : excess (l ++ [infos.seqNum.toNat]) < 2 ^ 32) :
    (nextline infos txTime rxTime f).pktdup.toNat = excess (l ++ [infos.seqNum.toNat]) := by
  rw [excess_concat hl] at hfit ⊢
  rw [toNat_pktdup_nextline hf infos txTime rxTime hlen, hdup]
  split_ifs with h
  · rw [Nat.mod_eq_of_lt (by omega)]
    omega
  · omega

include htop

theorem counts_nextline (hlen : l.length + 1 < 2 ^ 64) :
    (nextline infos txTime rxTime f).Counts (l ++ [infos.seqNum.toNat]) := by
  have hnextdup := toNat_pktdup_nextline hf infos txTime rxTime hlen
  obtain ⟨g, hnext, hrecv, hmin, hmax, hdup, -⟩ := exists_setLoss hf infos txTime rxTime
  have hlen0 : 0 < l.length := List.length_pos_of_ne_nil hl
  have hle := hf.pktdup_le
  have hloss := toNat_pktloss_setLoss infos.seqNum hmin (by omega) (by rw [hdup]; omega)
    (by omega)
  rw [← hnext] at hloss
  have hlen' : (l ++ [infos.seqNum.toNat]).length = l.length + 1 := List.length_append
  constructor
  · rw [hnext, pktrecv_setLoss, hrecv, hlen']
  · rw [hnext, maxSeq_setLoss, hmax, top_concat]
  · rw [hnext, minSeq_setLoss, hmin]
  · rw [hnextdup, hlen']
    split_ifs
    · exact (Nat.mod_le _ _).trans (Nat.sub_le _ _)
    · omega
  · rw [if_neg (by omega), hloss, hmax, hrecv, top_concat, hlen']

/-- The losses in a row: one more if the packet skips numbers, one fewer if fewer
    packets are lost than before and there are no new duplicates. -/
theorem lossEvents_nextline (hlen : l.length + 1 < 2 ^ 64) :
    (nextline infos txTime rxTime f).lossEvents = f.lossEvents +
      (if f.pktloss.toNat + (l.length + 1) < infos.seqNum.toNat then 1 else 0) -
      if l.length + 1 ≤ max (top l) infos.seqNum.toNat + f.pktdup.toNat ∧
        max (top l) infos.seqNum.toNat + f.pktdup.toNat < l.length + 1 + f.pktloss.toNat
      then 1 else 0 := by
  obtain ⟨g, hnext, hrecv, hmin, hmax, hgdup, hgloss, hglossEvents⟩ :=
    exists_setLoss hf infos txTime rxTime
  have hlen0 : 0 < l.length := List.length_pos_of_ne_nil hl
  have hle := hf.pktdup_le
  have hdup32 := f.pktdup.toNat_lt
  have hmax32 : top l < 2 ^ 32 := hf.maxSeq ▸ f.maxSeq.toNat_lt
  -- The sum of the packets lost and received does not wrap.
  have hloss := hf.pktloss
  have hsum : f.pktloss.toNat + (l.length + 1) < 2 ^ 64 := by
    split_ifs at hloss <;> omega
  rw [hnext, lossEvents_setLoss _ hmin (by rw [hgdup]; omega) (by omega)
    (by rw [hgloss, hrecv]; exact hsum), hmax, hrecv, hgdup, hgloss, hglossEvents]

end Nextline

theorem countsExact_nextline {f : StFlowInfo F} {l : List ℕ} (hf : f.CountsExact l)
    (hpos : ∀ s ∈ l, 0 < s) (hl : l ≠ []) (infos : Info F) (txTime rxTime : F)
    (hlen : l.length + 1 < 2 ^ 32) :
    (nextline infos txTime rxTime f).CountsExact (l ++ [infos.seqNum.toNat]) := by
  have hfit := excess_le_length (l ++ [infos.seqNum.toNat])
  have htop : 0 < max (top l) infos.seqNum.toNat := lt_max_of_lt_left (top_pos hl hpos)
  have hloss : f.pktloss.toNat = missed l := by rw [hf.pktloss, missed, hf.pktdup]
  rw [List.length_append, List.length_singleton] at hfit
  refine ⟨counts_nextline hf.toCounts hl infos htop txTime rxTime (by omega),
    toNat_pktdup_eq_excess hf.toCounts hl infos txTime rxTime hf.pktdup (by omega) (by omega), ?_⟩
  rw [lossEvents_nextline hf.toCounts hl infos htop txTime rxTime (by omega), hloss, hf.pktdup,
    if_congr (isGap_iff hl _).symm rfl rfl, if_congr (isFill_iff l _).symm rfl rfl, fills_concat,
    gaps_concat, UInt32.ofNat_add, UInt32.ofNat_add, ← hf.lossEvents]
  split_ifs <;> grind

/-! ## The records of a flow -/

omit [CDouble F] in
theorem prefix_seqNums {p log : List (Info F)} (h : p <+: log) : seqNums p <+: seqNums log :=
  h.map _

/-- A further record of the flow of the only entry updates this entry. -/
theorem decodeRecord_singleton {flagfilter : ℕ} {f : StFlowInfo F} {infos : Info F}
    (h : flagfilter ≠ 2 → f.key = infos.key) : ∃ (infos' : Info F) (txTime rxTime : F),
    infos'.seqNum = infos.seqNum ∧
      decodeRecord flagfilter [f] infos = [nextline infos' txTime rxTime f] := by
  rw [decodeRecord]
  by_cases hff : flagfilter = 2
  · rw [if_pos hff, setline, if_neg (List.cons_ne_nil _ _), if_pos hff]
    exact ⟨aggregateFlow infos, _, _, rfl, rfl⟩
  · -- The scan finds the only entry.
    have hsame : sameFlow f infos := (sameFlow_iff f infos).2 (h hff)
    rw [if_neg hff, setline, if_neg (List.cons_ne_nil _ _), if_neg hff, scan, if_pos hsame, scan]
    exact ⟨infos, _, _, rfl, rfl⟩

section OneFlow

variable (flagfilter : ℕ) {log : List (Info F)} {k : FlowKey}
  (hflow : ∀ infos ∈ log, infos.key = k) {p : List (Info F)} (hp : p <+: log) (hne : p ≠ [])

include hflow hp hne

/-- What holds of the entry of a flow after its first record, and is kept by every
    further one, holds of the only entry of a log of that flow. -/
theorem decode_one_flow {P : StFlowInfo F → List ℕ → Prop}
    (hfirst : ∀ infos txTime rxTime, P (firstline infos txTime rxTime) [infos.seqNum.toNat])
    (hnext : ∀ f l infos txTime rxTime, l ≠ [] → l ++ [infos.seqNum.toNat] <+: seqNums log →
      P f l → P (nextline infos txTime rxTime f) (l ++ [infos.seqNum.toNat])) :
    ∃ f, decode flagfilter p = [f] ∧ P f (seqNums p) := by
  suffices h : ∃ f, decode flagfilter p = [f] ∧ P f (seqNums p) ∧ (flagfilter ≠ 2 → f.key = k) from
    h.imp fun f hf => ⟨hf.1, hf.2.1⟩
  induction p using List.reverseRecOn with
  | nil => exact absurd rfl hne
  | append_singleton p infos ih =>
    have hkey : infos.key = k := hflow infos (hp.subset (by simp))
    by_cases hnil : p = []
    · subst hnil
      -- With the filter 2 all records are of the first entry.
      by_cases hff : flagfilter = 2
      · subst hff
        exact ⟨_, rfl, hfirst (aggregateFlow infos) _ _, fun h => absurd rfl h⟩
      · refine ⟨first infos, ?_, hfirst infos _ _, fun _ => ?_⟩
        · rw [List.nil_append, decode, List.foldl_cons, List.foldl_nil, decodeRecord, if_neg hff,
            setline, if_pos rfl]
        · rw [key_firstline, hkey]
    · obtain ⟨f, hf, hP, hfk⟩ := ih ((List.prefix_append _ _).trans hp) hnil
      have hpre := prefix_seqNums hp
      rw [seqNums, List.map_append, ← seqNums] at hpre
      have hne : seqNums p ≠ [] := fun h => hnil (List.map_eq_nil_iff.1 h)
      obtain ⟨infos', txTime, rxTime, hseq, hstep⟩ :=
        decodeRecord_singleton fun hff => (hfk hff).trans hkey.symm
      rw [List.map_singleton, ← hseq] at hpre
      rw [decode, List.foldl_concat, ← decode, hf, hstep, seqNums, List.map_append, ← seqNums,
        List.map_singleton, ← hseq]
      exact ⟨_, rfl, hnext f _ infos' _ _ hne hpre hP,
        fun hff => (key_nextline _ _ _ f).trans (hfk hff)⟩

variable (hpos : ∀ s ∈ seqNums log, 0 < s)

include hpos

/-- With fewer than `2 ^ 32` records, the duplicates are the excess, and the losses
    in a row the gaps that have not been filled, up to a multiple of `2 ^ 32`. -/
theorem decode_countsExact (hlen : log.length < 2 ^ 32) :
    ∃ f, decode flagfilter p = [f] ∧ f.CountsExact (seqNums p) := by
  apply decode_one_flow flagfilter hflow hp hne
  · exact fun infos txTime rxTime => countsExact_firstline infos txTime rxTime
  · intro f l infos txTime rxTime hl hpre hf
    have hposl : ∀ s ∈ l, 0 < s := fun s hs => hpos s (hpre.subset (List.mem_append_left _ hs))
    have hle := hpre.length_le
    rw [List.length_append, List.length_singleton, seqNums, List.length_map] at hle
    exact countsExact_nextline hf hposl hl infos txTime rxTime (by omega)

end OneFlow

/-! ## Counting without wrapping -/

/-- The loss counters as integers. -/
structure LossCounters where
  pktrecv : ℤ
  pktloss : ℤ
  pktdup : ℤ
  maxSeq : ℤ
  minSeq : ℤ
  lossEvents : ℤ
  deriving DecidableEq

/-- The loss counters of an entry. -/
def StFlowInfo.lossCounters (f : StFlowInfo F) : LossCounters :=
  ⟨f.pktrecv, f.pktloss.toNat, f.pktdup.toNat, f.maxSeq.toNat, f.minSeq.toNat, f.lossEvents.toNat⟩

/-- The counters after a further record as `setLoss` computes them, where no
    difference wraps. -/
def LossCounters.next (c : LossCounters) (seqNum : ℤ) : LossCounters :=
  let pktrecv := c.pktrecv + 1
  let maxSeq := max c.maxSeq seqNum
  let lossEvents := if seqNum > c.pktloss + pktrecv then c.lossEvents + 1 else c.lossEvents
  if maxSeq - c.minSeq + 1 < pktrecv - c.pktdup then
    { c with
      pktrecv := pktrecv
      maxSeq := maxSeq
      lossEvents := lossEvents
      pktdup := -maxSeq + c.minSeq + pktrecv - 1
      pktloss := 0 }
  else
    let pktloss := maxSeq - c.minSeq - pktrecv + c.pktdup + 1
    { c with
      pktrecv := pktrecv
      maxSeq := maxSeq
      lossEvents := if pktloss < c.pktloss then lossEvents - 1 else lossEvents
      pktloss := pktloss }

/-- The counters after the records numbered `l`, where no difference wraps. -/
def exactCounters : List ℕ → LossCounters
  | [] => ⟨0, 0, 0, 0, 1, 0⟩
  | s :: l => l.foldl (fun c (s : ℕ) => c.next s) ⟨1, 0, 0, s, 1, 0⟩

theorem exactCounters_concat {l : List ℕ} (hl : l ≠ []) (s : ℕ) :
    exactCounters (l ++ [s]) = (exactCounters l).next s := by
  obtain ⟨s₀, l, rfl⟩ := List.exists_cons_of_ne_nil hl
  rw [List.cons_append, exactCounters, List.foldl_concat, exactCounters]

/-- The counters are the counts of the arrivals. -/
theorem exactCounters_eq {l : List ℕ} (hl : l ≠ []) (hpos : ∀ s ∈ l, 0 < s) :
    exactCounters l = ⟨l.length, missed l, excess l, top l, 1, gaps l - fills l⟩ := by
  induction l using List.reverseRecOn with
  | nil => exact absurd rfl hl
  | append_singleton l s ih =>
    by_cases hnil : l = []
    · subst hnil
      simp [exactCounters, missed, excess_singleton, top, gaps, fills, occurrences, IsGap, IsFill]
    · have hposl : ∀ s ∈ l, 0 < s := fun s hs => hpos s (List.mem_append_left _ hs)
      have htop : 0 < top l := top_pos hnil hposl
      have hlen : 0 < l.length := List.length_pos_of_ne_nil hnil
      have hcases := missed_cases hnil
      rw [exactCounters_concat hnil, ih hnil hposl, LossCounters.next, gaps_concat, fills_concat,
        missed_concat hnil, excess_concat hnil, top_concat, List.length_append,
        List.length_singleton]
      simp only [isGap_iff hnil, isFill_iff]
      split_ifs <;> simp only [LossCounters.mk.injEq, true_and] <;> omega

omit [CDouble F] in
/-- All counters but the losses in a row are exact, and those are if no more gaps
    have been filled than there were. -/
theorem StFlowInfo.CountsExact.lossCounters_eq {f : StFlowInfo F} {l : List ℕ}
    (hf : f.CountsExact l) (hl : l ≠ []) (hpos : ∀ s ∈ l, 0 < s) (hlen : l.length < 2 ^ 32) :
    f.lossCounters = { exactCounters l with lossEvents := f.lossEvents.toNat } ∧
      ((f.lossEvents.toNat : ℤ) = (exactCounters l).lossEvents ↔ fills l ≤ gaps l) := by
  have hloss : f.pktloss.toNat = missed l := by rw [hf.pktloss, missed, hf.pktdup]
  have hfills : fills l ≤ l.length := occurrences_le_length _ l
  have hgaps : gaps l ≤ l.length := occurrences_le_length _ l
  have hevents := congrArg UInt32.toNat hf.lossEvents
  rw [UInt32.toNat_add, UInt32.toNat_ofNat_of_lt' (by rw [UInt32.size]; omega),
    UInt32.toNat_ofNat_of_lt' (by rw [UInt32.size]; omega)] at hevents
  have hlt : f.lossEvents.toNat < 2 ^ 32 := f.lossEvents.toNat_lt
  rw [exactCounters_eq hl hpos]
  refine ⟨?_, ?_⟩
  · rw [StFlowInfo.lossCounters, hf.pktrecv, hloss, hf.pktdup, hf.maxSeq, hf.minSeq]
    rfl
  · simp only
    omega

/-- What the counters say of the records numbered `l` of a flow. -/
structure StFlowInfo.Accounted (f : StFlowInfo F) (l : List ℕ) : Prop where
  total : 2 ≤ l.length → f.pktrecv + f.pktloss.toNat = f.maxSeq.toNat + f.pktdup.toNat
  pktloss_le : f.pktloss.toNat ≤ (Finset.Icc 1 f.maxSeq.toNat \ l.toFinset).card
  pktdup_le : f.pktdup.toNat ≤ l.length - l.toFinset.card
  nodup : 2 ≤ l.length → l.Nodup →
    f.pktdup = 0 ∧ f.pktloss.toNat = (Finset.Icc 1 f.maxSeq.toNat \ l.toFinset).card

omit [CDouble F] in
theorem StFlowInfo.CountsExact.accounted {f : StFlowInfo F} {l : List ℕ} (hf : f.CountsExact l)
    (hpos : ∀ s ∈ l, 0 < s) : f.Accounted l := by
  have hloss : f.pktloss.toNat = missed l := by rw [hf.pktloss, missed, hf.pktdup]
  have habsent : Finset.Icc 1 f.maxSeq.toNat \ l.toFinset = absent l := by rw [hf.maxSeq, absent]
  constructor
  · intro h2
    rw [hf.pktrecv, hloss, hf.maxSeq, hf.pktdup]
    exact length_add_missed h2
  · rw [hloss, habsent]
    exact missed_le hpos
  · rw [hf.pktdup]
    exact Nat.le_sub_of_add_le (excess_le hpos)
  · intro h2 hl
    refine ⟨?_, ?_⟩
    · rw [← UInt32.toNat_inj, hf.pktdup, excess_eq_zero hpos hl, UInt32.toNat_zero]
    · rw [hloss, habsent]
      exact missed_eq hpos hl h2

/-- The counters `pktloss` and `pktdup` of a flow never wrap and say what they are
    to say, in any order of the records and with any repetitions. All counters do
    as long as in no initial part of the log more records fill gaps than open them. -/
theorem decode_lossCounters {flagfilter : ℕ} {log : List (Info F)} {k : FlowKey}
    (hflow : ∀ infos ∈ log, infos.key = k)
    (hseq : ∀ infos ∈ log, 1 ≤ infos.seqNum.toNat ∧ infos.seqNum.toNat < 2 ^ 31)
    (hlen : log.length < 2 ^ 31) :
    (∀ p, p <+: log → p ≠ [] → ∃ f, decode flagfilter p = [f] ∧ f.Accounted (seqNums p) ∧
      f.lossCounters = { exactCounters (seqNums p) with lossEvents := f.lossEvents.toNat }) ∧
    ((∀ p, p <+: log → p ≠ [] → ∃ f, decode flagfilter p = [f] ∧ f.Accounted (seqNums p) ∧
      f.lossCounters = exactCounters (seqNums p)) ↔
      ∀ p, p <+: log → fills (seqNums p) ≤ gaps (seqNums p)) := by
  have hpos : ∀ s ∈ seqNums log, 0 < s := by
    intro s hs
    obtain ⟨infos, hinfos, rfl⟩ := List.mem_map.1 hs
    exact (hseq infos hinfos).1
  -- The counters after every initial part.
  have hcount : ∀ p, p <+: log → p ≠ [] → ∃ f, decode flagfilter p = [f] ∧
      f.Accounted (seqNums p) ∧
      f.lossCounters = { exactCounters (seqNums p) with lossEvents := f.lossEvents.toNat } ∧
      ((f.lossEvents.toNat : ℤ) = (exactCounters (seqNums p)).lossEvents ↔
        fills (seqNums p) ≤ gaps (seqNums p)) := by
    intro p hp hne
    obtain ⟨f, hf, hcounts⟩ := decode_countsExact flagfilter hflow hp hne hpos (by omega)
    have hposp : ∀ s ∈ seqNums p, 0 < s := fun s hs => hpos s ((prefix_seqNums hp).subset hs)
    have hlenp : (seqNums p).length < 2 ^ 32 := by
      have hle := hp.length_le
      rw [seqNums, List.length_map]
      omega
    exact ⟨f, hf, hcounts.accounted hposp, hcounts.lossCounters_eq
      (fun h => hne (List.map_eq_nil_iff.1 h)) hposp hlenp⟩
  refine ⟨?_, ?_, ?_⟩
  · intro p hp hne
    obtain ⟨f, hf, hacc, heq, -⟩ := hcount p hp hne
    exact ⟨f, hf, hacc, heq⟩
  · intro h p hp
    by_cases hne : p = []
    · rw [hne]
      exact le_rfl
    · obtain ⟨f, hf, -, -, hiff⟩ := hcount p hp hne
      obtain ⟨f', hf', -, heq⟩ := h p hp hne
      obtain rfl : f' = f := List.singleton_inj.1 (hf'.symm.trans hf)
      exact hiff.1 (congrArg LossCounters.lossEvents heq)
  · intro h p hp hne
    obtain ⟨f, hf, hacc, heq, hiff⟩ := hcount p hp hne
    refine ⟨f, hf, hacc, ?_⟩
    rw [heq, hiff.2 (h p hp)]

/-- A log of one flow, by its sequence numbers. -/
def numbered (l : List UInt32) : List (Info ℚ) :=
  l.map fun seqNum => { lastOfDay with seqNum := seqNum }

/-- A log whose third and fourth record fill the gap before the second one. -/
def lateLog : List (Info ℚ) := numbered [1, 5, 2, 3]

theorem decode_lossCounters_late : fills (seqNums lateLog) = 2 ∧ gaps (seqNums lateLog) = 1 ∧
    ∀ p, p <+: lateLog → p ≠ [] → ∃ f, decode 0 p = [f] ∧ f.Accounted (seqNums p) ∧
      f.lossCounters = { exactCounters (seqNums p) with lossEvents := f.lossEvents.toNat } :=
  ⟨by decide +kernel, by decide +kernel,
    (decode_lossCounters (k := lastOfDay.key) (by decide +kernel) (by decide +kernel)
      (by decide +kernel)).1⟩

/-- The losses in a row wrap. -/
theorem lossEvents_wraps : (∀ infos ∈ lateLog, infos.key = lastOfDay.key) ∧
    (∀ infos ∈ lateLog, 1 ≤ infos.seqNum.toNat ∧ infos.seqNum.toNat < 2 ^ 31) ∧
    (decode 0 lateLog).map StFlowInfo.lossEvents = [4294967295] ∧
    ¬ ∃ f, decode 0 lateLog = [f] ∧ f.lossCounters = exactCounters (seqNums lateLog) := by
  refine ⟨by decide +kernel, by decide +kernel, by decide +kernel, ?_⟩
  rintro ⟨f, hf, heq⟩
  have hwrap : (decode 0 lateLog).map StFlowInfo.lossCounters ≠
      [exactCounters (seqNums lateLog)] := by decide +kernel
  exact hwrap (by rw [hf, List.map_singleton, heq])

/-! ## Other orders of arrival -/

/-- What `setline` has counted after any number of records numbered `l`. -/
structure StFlowInfo.CountsAny (f : StFlowInfo F) (l : List ℕ) : Prop extends f.Counts l where
  pktdup : excess l < 2 ^ 32 → f.pktdup.toNat = excess l
  pktdup_mod : 2 ^ 32 - 1 ≤ l.length - top l → f.pktdup.toNat = (l.length - top l) % 2 ^ 32

theorem countsAny_firstline (infos : Info F) (txTime rxTime : F) :
    (firstline infos txTime rxTime).CountsAny [infos.seqNum.toNat] where
  toCounts := counts_firstline infos txTime rxTime
  pktdup _ := rfl
  pktdup_mod h := by
    rw [List.length_singleton] at h
    omega

theorem countsAny_nextline {f : StFlowInfo F} {l : List ℕ} (hf : f.CountsAny l)
    (hpos : ∀ s ∈ l, 0 < s) (hl : l ≠ []) (infos : Info F) (txTime rxTime : F)
    (hlen : l.length + 1 < 2 ^ 64) :
    (nextline infos txTime rxTime f).CountsAny (l ++ [infos.seqNum.toNat]) := by
  have htop : 0 < max (top l) infos.seqNum.toNat := lt_max_of_lt_left (top_pos hl hpos)
  refine ⟨counts_nextline hf.toCounts hl infos htop txTime rxTime hlen, ?_, ?_⟩
  · intro hfit
    have hle := excess_le_concat hl infos.seqNum.toNat
    exact toNat_pktdup_eq_excess hf.toCounts hl infos txTime rxTime (hf.pktdup (by omega)) hlen hfit
  · -- The last record counts the duplicates again, unless there are `2 ^ 32 - 1` of them.
    intro hmany
    have hlt := f.pktdup.toNat_lt
    rw [List.length_append, List.length_singleton, top_concat] at hmany ⊢
    rw [toNat_pktdup_nextline hf.toCounts infos txTime rxTime hlen]
    split_ifs with h
    · rfl
    · rw [Nat.mod_eq_of_lt (by omega)]
      omega

omit [CDouble F] in
/-- The same packets are lost if the same packets are duplicated. -/
theorem StFlowInfo.Counts.pktloss_perm {log log' : List (Info F)}
    (hperm : log'.Perm log)
    {f f' : StFlowInfo F} (hf : f.Counts (seqNums log)) (hf' : f'.Counts (seqNums log'))
    (hdup : f'.pktdup = f.pktdup) : f'.pktloss = f.pktloss := by
  have hpermS : (seqNums log').Perm (seqNums log) := hperm.map _
  rw [← UInt64.toNat_inj, hf.pktloss, hf'.pktloss, hpermS.length_eq, top_perm hpermS, hdup]

section Orders

variable (flagfilter : ℕ) {log : List (Info F)} {k : FlowKey}
  (hflow : ∀ infos ∈ log, infos.key = k) (hpos : ∀ infos ∈ log, 0 < infos.seqNum.toNat)
  (h2 : 2 ≤ log.length) (hlen : log.length < 2 ^ 64)

include hflow hpos h2 hlen

theorem decode_countsAny {log' : List (Info F)} (hperm : log'.Perm log) :
    ∃ f, decode flagfilter log' = [f] ∧ f.CountsAny (seqNums log') := by
  have hne : log' ≠ [] := by
    rintro rfl
    rw [← hperm.length_eq, List.length_nil] at h2
    omega
  apply decode_one_flow flagfilter (fun infos h => hflow infos (hperm.subset h)) List.prefix_rfl hne
  · exact fun infos txTime rxTime => countsAny_firstline infos txTime rxTime
  · intro f l infos txTime rxTime hl hpre hf
    have hposl : ∀ s ∈ l, 0 < s := by
      intro s hs
      obtain ⟨r, hr, rfl⟩ := List.mem_map.1 (hpre.subset (List.mem_append_left _ hs))
      exact hpos r (hperm.subset hr)
    have hle := hpre.length_le
    rw [List.length_append, List.length_singleton, seqNums, List.length_map,
      hperm.length_eq] at hle
    exact countsAny_nextline hf hposl hl infos txTime rxTime (by omega)

/-- The packets lost and duplicated are the same in all orders of the records if and
    only if, for every number, there are no more packets in excess among those up to
    this number than among all of them, or there are at least `2 ^ 32 - 1` of these. -/
theorem decode_perm_iff : (∀ log', log'.Perm log → ∃ f f', decode flagfilter log = [f] ∧
      decode flagfilter log' = [f'] ∧ f'.pktloss = f.pktloss ∧ f'.pktdup = f.pktdup) ↔
    (∀ v, (seqNums log).countP (· ≤ v) - v ≤ log.length - top (seqNums log)) ∨
      2 ^ 32 - 1 ≤ log.length - top (seqNums log) := by
  have hlenS : (seqNums log).length = log.length := List.length_map _
  have h2S : 2 ≤ (seqNums log).length := hlenS ▸ h2
  have hposS : ∀ s ∈ seqNums log, 0 < s := by
    intro s hs
    obtain ⟨infos, hinfos, rfl⟩ := List.mem_map.1 hs
    exact hpos infos hinfos
  obtain ⟨f, hf, hcounts⟩ := decode_countsAny flagfilter hflow hpos h2 hlen List.Perm.rfl
  constructor
  · intro h
    by_contra hnot
    push Not at hnot
    obtain ⟨⟨v, hv⟩, hfew⟩ := hnot
    -- In any order, the duplicates are the excess if it fits.
    have hexcess : ∀ l', l'.Perm (seqNums log) → excess l' < 2 ^ 32 →
        f.pktdup.toNat = excess l' := by
      intro l' hperm' hfit
      have hmap := List.eq_map_comp_perm fun infos : Info F => infos.seqNum.toNat
      obtain ⟨log', rfl, hperm⟩ := (congrFun₂ hmap l' log).mpr hperm'
      obtain ⟨f₁, f', hf₁, hf', -, hdup⟩ := h log' hperm
      obtain ⟨f'', hf'', hcounts'⟩ := decode_countsAny flagfilter hflow hpos h2 hlen hperm
      obtain rfl : f₁ = f := List.singleton_inj.1 (hf₁.symm.trans hf)
      obtain rfl : f'' = f' := List.singleton_inj.1 (hf''.symm.trans hf')
      rw [← hdup]
      exact hcounts'.pktdup hfit
    obtain ⟨l₁, hperm₁, hl₁⟩ := exists_perm_excess_eq h2S
    obtain ⟨l₂, hperm₂, hl₂⟩ := exists_perm_excess hposS (v := v)
      (d := log.length - top (seqNums log) + 1) (by omega) (by omega)
    have h₁ := hexcess l₁ hperm₁ (by omega)
    have h₂ := hexcess l₂ hperm₂ (by omega)
    omega
  · intro h log' hperm
    obtain ⟨f', hf', hcounts'⟩ := decode_countsAny flagfilter hflow hpos h2 hlen hperm
    have hpermS : (seqNums log').Perm (seqNums log) := hperm.map _
    have hdup : f'.pktdup = f.pktdup := by
      rw [← UInt32.toNat_inj]
      by_cases hmany : 2 ^ 32 - 1 ≤ log.length - top (seqNums log)
      · rw [hcounts.pktdup_mod (by rwa [hlenS]), hcounts'.pktdup_mod
          (by rwa [hpermS.length_eq, top_perm hpermS, hlenS]), hpermS.length_eq, top_perm hpermS]
      · -- No order has a greater excess than that of all packets.
        have hall : ∀ l', l'.Perm (seqNums log) → excess l' = log.length - top (seqNums log) := by
          intro l' hperm'
          have hle := excess_le_of_count hperm' (d := log.length - top (seqNums log)) fun v => by
            have hv := h.resolve_right hmany v
            omega
          have hge := length_sub_top_le (l := l') (hperm'.length_eq ▸ h2S)
          rw [hperm'.length_eq, hlenS, top_perm hperm'] at hge
          omega
        rw [hcounts.pktdup (by rw [hall _ List.Perm.rfl]; omega),
          hcounts'.pktdup (by rw [hall _ hpermS]; omega), hall _ List.Perm.rfl, hall _ hpermS]
    exact ⟨f, f', hf, hf', hcounts.toCounts.pktloss_perm hperm hcounts'.toCounts hdup, hdup⟩

end Orders

/-- Without repetitions, the order does not matter. -/
theorem decode_perm_iff_numbered : (seqNums (numbered [3, 1, 5])).Nodup ∧
    ∀ log', log'.Perm (numbered [3, 1, 5]) →
      ∃ f f', decode 0 (numbered [3, 1, 5]) = [f] ∧ decode 0 log' = [f'] ∧
        f'.pktloss = f.pktloss ∧ f'.pktdup = f.pktdup := by
  refine ⟨by decide +kernel, (decode_perm_iff 0 (k := lastOfDay.key) (by decide +kernel)
    (by decide +kernel) (by decide) (by decide)).2 (.inl fun v => ?_)⟩
  have hseq : seqNums (numbered [3, 1, 5]) = [3, 1, 5] := by decide +kernel
  have hle : [3, 1, 5].countP (· ≤ v) ≤ 3 := List.countP_le_length
  rw [hseq]
  match v with
  | 0 | 1 | 2 => decide
  | v + 3 => omega

/-- A packet that is repeated counts as duplicated if the repetition comes before the
    greatest number, and as one of the missing packets if it comes after it. -/
theorem perm_pktloss : (numbered [5, 1, 1]).Perm (numbered [1, 1, 5]) ∧
    (decode 0 (numbered [1, 1, 5])).map (fun f => (f.pktloss, f.pktdup)) = [(3, 1)] ∧
    (decode 0 (numbered [5, 1, 1])).map (fun f => (f.pktloss, f.pktdup)) = [(2, 0)] := by
  have hperm : List.Perm [(5 : UInt32), 1, 1] [1, 1, 5] := by decide
  exact ⟨hperm.map _, by decide +kernel, by decide +kernel⟩

end Counters

end Ditg
