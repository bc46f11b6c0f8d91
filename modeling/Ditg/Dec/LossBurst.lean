import Ditg.Dec.LossCount
import Ditg.Library.Transition

/-!
# Loss bursts

The summary of the decoder gives the average size of a loss burst, as the quotient of
`pktloss` and `lossEvents`. The latter goes up with a record that skips numbers, and down
with one that makes fewer packets lost. It counts the runs of missing numbers as long as
the numbers increase, but not when packets come late.

* `decode_lossEvents`: in which logs `lossEvents` does not wrap and the quotient is
  finite and at least 1;
* `decode_increasing`: when the numbers increase, from 1 on, `lossEvents` is the number of
  runs of missing numbers, and `pktloss` what they amount to.
-/

namespace Ditg

open Arrivals

section Bursts

variable {F : Type} [CDouble F]

/-! ## The average size -/

/-- The average size of a loss burst can be computed, and is that of bursts of at least
    one packet. -/
structure StFlowInfo.BurstsCounted (f : StFlowInfo F) : Prop where
  one_le : 1 ≤ f.lossEvents.toNat
  le_pktloss : f.lossEvents.toNat ≤ f.pktloss.toNat
  average : 1 ≤ (f.pktloss.toNat : ℚ) / f.lossEvents.toNat

omit [CDouble F] in
theorem StFlowInfo.burstsCounted_iff {f : StFlowInfo F} : f.BurstsCounted ↔
    1 ≤ f.lossEvents.toNat ∧ f.lossEvents.toNat ≤ f.pktloss.toNat := by
  refine ⟨fun h => ⟨h.one_le, h.le_pktloss⟩, fun ⟨hone, hle⟩ => ⟨hone, hle, ?_⟩⟩
  have hpos : (0 : ℚ) < f.lossEvents.toNat := by exact_mod_cast hone
  rw [le_div_iff₀ hpos, one_mul]
  exact_mod_cast hle

/-- A record of the number `seqNum` does not come late while two packets or more are missing
    and a single loss event is counted, nor skip numbers without exceeding the packets
    received, while none is missing. (After the first record, all numbers before it count as
    missing.) -/
@[mk_iff]
structure StFlowInfo.KeepsBursts (f : StFlowInfo F) (seqNum : UInt32) : Prop where
  second : f.pktrecv = 1 → f.maxSeq.toNat ≤ 2 ∨ 2 < seqNum.toNat
  late : 2 ≤ f.pktrecv → seqNum.toNat ≤ f.maxSeq.toNat → 2 ≤ f.pktloss.toNat →
    2 ≤ f.lossEvents.toNat
  skip : 2 ≤ f.pktrecv → f.pktloss.toNat = 0 →
    f.pktrecv + 1 < seqNum.toNat + f.pktdup.toNat → f.pktrecv + 1 < seqNum.toNat

/-- What holds between the loss events and the packets lost, as long as all records keep
    the bursts. -/
@[mk_iff]
structure StFlowInfo.Bursts (f : StFlowInfo F) : Prop where
  first : f.pktrecv = 1 → f.pktdup.toNat = 0
  le_pktloss : f.lossEvents.toNat ≤ f.pktloss.toNat
  pos : 0 < f.pktloss.toNat → 0 < f.lossEvents.toNat

section Step

variable {f : StFlowInfo F} {l : List ℕ} (hf : f.Counts l) (hl : l ≠ []) (hb : f.Bursts)
  (infos : Info F) (hpos : 0 < infos.seqNum.toNat) (txTime rxTime : F)
  (hlen : l.length + 1 < 2 ^ 64)

include hf hl hb hpos hlen

omit hpos in
/-- The number of loss events does not wrap: there are fewer of them than packets received, with one
    more, and there is one if a packet is missing. -/
theorem toNat_lossEvents_nextline (htop : 0 < max (top l) infos.seqNum.toNat) :
    (nextline infos txTime rxTime f).lossEvents.toNat =
      f.lossEvents.toNat +
          (if f.pktloss.toNat + (l.length + 1) < infos.seqNum.toNat then 1 else 0) -
        if l.length + 1 ≤ max (top l) infos.seqNum.toNat + f.pktdup.toNat ∧
          max (top l) infos.seqNum.toNat + f.pktdup.toNat < l.length + 1 + f.pktloss.toNat
        then 1 else 0 := by
  have hevents := congrArg UInt32.toNat (lossEvents_nextline hf hl infos htop txTime rxTime hlen)
  rw [UInt32.toNat_sub, UInt32.toNat_add, apply_ite UInt32.toNat, apply_ite UInt32.toNat,
    UInt32.toNat_zero, UInt32.toNat_one] at hevents
  rw [hevents]
  have hseq := infos.seqNum.toNat_lt
  have hE := f.lossEvents.toNat_lt
  have hle := hb.le_pktloss
  have hpos := hb.pos
  clear hevents hf hl hb hlen htop
  split_ifs <;> omega

/-- The packets lost and the loss events after a further record: the second one, one with a
    new greatest number, or a late one, which takes the place of a missing packet. -/
theorem losses_nextline :
    (l.length = 1 ∧
      (nextline infos txTime rxTime f).pktloss.toNat = max (top l) infos.seqNum.toNat - 2 ∧
      (nextline infos txTime rxTime f).lossEvents.toNat =
        if 2 < infos.seqNum.toNat then 1 else 0) ∨
    (2 ≤ l.length ∧ top l < infos.seqNum.toNat ∧
      (nextline infos txTime rxTime f).pktloss.toNat =
        infos.seqNum.toNat + f.pktdup.toNat - (l.length + 1) ∧
      (nextline infos txTime rxTime f).lossEvents.toNat =
        if f.pktloss.toNat + (l.length + 1) < infos.seqNum.toNat then f.lossEvents.toNat + 1
        else f.lossEvents.toNat) ∨
    (2 ≤ l.length ∧ infos.seqNum.toNat ≤ top l ∧
      (nextline infos txTime rxTime f).pktloss.toNat = f.pktloss.toNat - 1 ∧
      (nextline infos txTime rxTime f).lossEvents.toNat = f.lossEvents.toNat - 1) := by
  have htop : 0 < max (top l) infos.seqNum.toNat := lt_max_of_lt_right hpos
  have hlen0 : 0 < l.length := List.length_pos_of_ne_nil hl
  have hevents := toNat_lossEvents_nextline hf hl hb infos txTime rxTime hlen htop
  have hdup := toNat_pktdup_nextline hf infos txTime rxTime hlen
  have hloss := (counts_nextline hf hl infos htop txTime rxTime hlen).pktloss
  have hmax := hf.maxSeq ▸ f.maxSeq.toNat_lt
  have hseq := infos.seqNum.toNat_lt
  have hdup_le := hf.pktdup_le
  have hlossl := hf.pktloss
  have hle := hb.le_pktloss
  have hfirst := hb.first
  rw [hf.pktrecv] at hfirst
  rw [List.length_append, List.length_singleton, if_neg (by omega), top_concat] at hloss
  generalize (nextline infos txTime rxTime f).lossEvents.toNat = E' at *
  generalize (nextline infos txTime rxTime f).pktloss.toNat = L' at *
  generalize (nextline infos txTime rxTime f).pktdup.toNat = D' at *
  generalize f.lossEvents.toNat = E at *
  generalize f.pktloss.toNat = L at *
  generalize f.pktdup.toNat = D at *
  generalize infos.seqNum.toNat = s at *
  generalize htop' : top l = M at *
  generalize hn : l.length = n at *
  clear hf hl hb hn htop'
  rcases Nat.lt_or_ge n 2 with h2 | h2
  · obtain rfl : n = 1 := by omega
    obtain rfl : D = 0 := hfirst rfl
    obtain rfl : L = 0 := by rw [hlossl, if_pos h2]
    obtain rfl : E = 0 := by omega
    have hfill : ¬ (1 + 1 ≤ max M s + 0 ∧ max M s + 0 < 1 + 1 + 0) := by omega
    rw [if_neg hfill] at hevents
    refine .inl ⟨rfl, ?_, ?_⟩
    · split_ifs at hdup <;> omega
    · split_ifs at hevents ⊢ <;> omega
  · rw [if_neg (by omega)] at hlossl
    refine .inr ?_
    rcases Nat.lt_or_ge M s with hs | hs
    · -- A new greatest number makes no fewer packets lost.
      rw [max_eq_right hs.le] at hloss hdup hevents
      have hfill : ¬ (n + 1 ≤ s + D ∧ s + D < n + 1 + L) := by omega
      rw [if_neg hfill] at hevents
      refine .inl ⟨h2, hs, ?_, ?_⟩
      · split_ifs at hdup <;> omega
      · split_ifs at hevents ⊢ <;> omega
    · rw [max_eq_left hs] at hloss hdup hevents
      have hgap : ¬ L + (n + 1) < s := by omega
      rw [if_neg hgap] at hevents
      refine .inr ⟨h2, hs, ?_⟩
      rcases Nat.eq_zero_or_pos L with hL | hL
      · have hfill : ¬ (n + 1 ≤ M + D ∧ M + D < n + 1 + L) := by omega
        rw [if_neg hfill] at hevents
        refine ⟨?_, by omega⟩
        split_ifs at hdup <;> omega
      · have hfill : n + 1 ≤ M + D ∧ M + D < n + 1 + L := by omega
        have hmany : ¬ M + D < n + 1 := by omega
        rw [if_pos hfill] at hevents
        rw [if_neg hmany] at hdup
        exact ⟨by omega, by omega⟩

/-- The loss events after a further record. -/
theorem bursts_nextline : ((nextline infos txTime rxTime f).lossEvents.toNat ≤
        f.lossEvents.toNat + 1 ∧
      (0 < (nextline infos txTime rxTime f).pktloss.toNat →
        (nextline infos txTime rxTime f).BurstsCounted) ↔ f.KeepsBursts infos.seqNum) ∧
    (f.KeepsBursts infos.seqNum → (nextline infos txTime rxTime f).Bursts) := by
  have htop : 0 < max (top l) infos.seqNum.toNat := lt_max_of_lt_right hpos
  have hrecv := (counts_nextline hf hl infos htop txTime rxTime hlen).pktrecv
  rw [List.length_append, List.length_singleton] at hrecv
  have hle := hb.le_pktloss
  have hpos' := hb.pos
  have hlossl := hf.pktloss
  rw [StFlowInfo.burstsCounted_iff, StFlowInfo.keepsBursts_iff, StFlowInfo.bursts_iff, hrecv,
    hf.pktrecv, hf.maxSeq]
  rcases losses_nextline hf hl hb infos hpos txTime rxTime hlen with
    ⟨hone, hL, hE⟩ | ⟨h2, hs, hL, hE⟩ | ⟨h2, hs, hL, hE⟩
  · -- Before the second record nothing was missing.
    have hzero : f.pktloss.toNat = 0 := by rw [hlossl, if_pos (by omega)]
    rw [hone]
    split_ifs at hE <;> omega
  · rw [if_neg (by omega)] at hlossl
    split_ifs at hE <;> omega
  · rw [if_neg (by omega)] at hlossl
    omega

end Step

/-! ## The records of a flow -/

/-- The only entry after the records `p` of a flow, whose bursts are kept so far. -/
structure KeptSoFar (flagfilter : ℕ) (k : FlowKey) (p : List (Info F)) (f : StFlowInfo F) :
    Prop where
  entry : decode flagfilter p = [f]
  key : flagfilter ≠ 2 → f.key = k
  counts : f.Counts (seqNums p)
  bursts : f.Bursts

variable {flagfilter : ℕ} {k : FlowKey} {infos : Info F}

theorem keptSoFar_first (flagfilter : ℕ) (h : infos.key = k) :
    ∃ f, KeptSoFar flagfilter k [infos] f := by
  by_cases hff : flagfilter = 2
  · subst hff
    exact ⟨_, rfl, fun h => absurd rfl h, counts_firstline (aggregateFlow infos) _ _,
      ⟨fun _ => rfl, le_rfl, fun h => absurd h (Nat.lt_irrefl 0)⟩⟩
  · refine ⟨first infos, ?_, fun _ => ?_, counts_firstline infos _ _,
      ⟨fun _ => rfl, le_rfl, fun h => absurd h (Nat.lt_irrefl 0)⟩⟩
    · rw [decode, List.foldl_cons, List.foldl_nil, decodeRecord, if_neg hff, setline, if_pos rfl]
    · rw [key_firstline, h]

/-- A further record keeps the bursts if and only if the loss events do not wrap, and make
    an average with the packets that are missing. -/
theorem KeptSoFar.next {p : List (Info F)} {f : StFlowInfo F} (h : KeptSoFar flagfilter k p f)
    (hne : p ≠ []) (hkey : infos.key = k) (hpos : 0 < infos.seqNum.toNat)
    (hlen : p.length + 1 < 2 ^ 64) : ∃ f', decode flagfilter (p ++ [infos]) = [f'] ∧
      (f'.lossEvents.toNat ≤ f.lossEvents.toNat + 1 ∧
        (0 < f'.pktloss.toNat → f'.BurstsCounted) ↔ f.KeepsBursts infos.seqNum) ∧
      (f.KeepsBursts infos.seqNum → KeptSoFar flagfilter k (p ++ [infos]) f') := by
  have hne' : seqNums p ≠ [] := fun h => hne (List.map_eq_nil_iff.1 h)
  have hlen' : (seqNums p).length + 1 < 2 ^ 64 := by rwa [seqNums, List.length_map]
  obtain ⟨infos', txTime, rxTime, hseq, hstep⟩ :=
    decodeRecord_singleton fun hff => (h.key hff).trans hkey.symm
  rw [← hseq] at hpos ⊢
  obtain ⟨hiff, hkeep⟩ := bursts_nextline h.counts hne' h.bursts infos' hpos txTime rxTime hlen'
  have hentry : decode flagfilter (p ++ [infos]) = [nextline infos' txTime rxTime f] := by
    rw [decode, List.foldl_concat, ← decode, h.entry, hstep]
  refine ⟨_, hentry, hiff, fun hK => ⟨hentry, fun hff => ?_, ?_, hkeep hK⟩⟩
  · exact (key_nextline _ _ _ f).trans (h.key hff)
  · rw [seqNums, List.map_append, ← seqNums, List.map_singleton, ← hseq]
    exact counts_nextline h.counts hne' infos' (lt_max_of_lt_right hpos) txTime rxTime hlen'

/-- In a log of one flow, `lossEvents` never goes below zero, and whenever packets are
    missing the average size of a loss burst can be computed and is at least 1, if and only
    if every record keeps the bursts. -/
theorem decode_lossEvents (flagfilter : ℕ) {log : List (Info F)}
    (hflow : ∀ infos ∈ log, infos.key = k)
    (hpos : ∀ infos ∈ log, 0 < infos.seqNum.toNat) (hlen : log.length < 2 ^ 64) :
    (∀ p infos, p ≠ [] → p ++ [infos] <+: log → ∃ f f', decode flagfilter p = [f] ∧
      decode flagfilter (p ++ [infos]) = [f'] ∧
      f'.lossEvents.toNat ≤ f.lossEvents.toNat + 1 ∧
      (0 < f'.pktloss.toNat → f'.BurstsCounted)) ↔
    ∀ p infos, p ≠ [] → p ++ [infos] <+: log →
      ∀ f ∈ decode flagfilter p, f.KeepsBursts infos.seqNum := by
  have hmem (p : List (Info F)) (infos : Info F) (hp : p ++ [infos] <+: log) :
      infos ∈ log ∧ p.length + 1 < 2 ^ 64 := by
    have hle := hp.length_le
    rw [List.length_append, List.length_singleton] at hle
    exact ⟨hp.subset (by simp), by omega⟩
  refine @Transition.forall_steps_iff _ log (fun p => ∃ f, KeptSoFar flagfilter k p f) _ _ ?_ ?_ ?_
  · exact fun infos hp => keptSoFar_first flagfilter (hflow infos (hp.subset (by simp)))
  · rintro p infos hne hp ⟨f, h⟩
    obtain ⟨hin, hlt⟩ := hmem p infos hp
    obtain ⟨f', hf', hiff, -⟩ := h.next hne (hflow infos hin) (hpos infos hin) hlt
    rw [h.entry]
    simp only [List.mem_singleton, forall_eq]
    rw [← hiff]
    constructor
    · rintro ⟨f₁, f₁', hf₁, hf₁', hwrap, hcounted⟩
      obtain rfl := List.singleton_inj.1 hf₁
      obtain rfl := List.singleton_inj.1 (hf₁'.symm.trans hf')
      exact ⟨hwrap, hcounted⟩
    · exact fun hprop => ⟨f, f', rfl, hf', hprop⟩
  · rintro p infos hne hp ⟨f, h⟩ hkeep
    obtain ⟨hin, hlt⟩ := hmem p infos hp
    obtain ⟨f', -, -, hkept⟩ := h.next hne (hflow infos hin) (hpos infos hin) hlt
    exact ⟨f', hkept (hkeep f (h.entry ▸ List.mem_singleton_self f))⟩

instance (f : StFlowInfo F) (seqNum : UInt32) : Decidable (f.KeepsBursts seqNum) :=
  decidable_of_iff' _ (f.keepsBursts_iff seqNum)

end Bursts

/-- A late packet that takes the place of the only missing one. -/
theorem decode_lossEvents_late : ∃ f f', decode 0 (numbered [1, 3]) = [f] ∧
    decode 0 (numbered [1, 3] ++ [{ lastOfDay with seqNum := 2 }]) = [f'] ∧
      f'.lossEvents.toNat ≤ f.lossEvents.toNat + 1 ∧
      (0 < f'.pktloss.toNat → f'.BurstsCounted) :=
  (decode_lossEvents 0 (k := lastOfDay.key) (by decide +kernel)
    (by decide +kernel) (by decide)).2
    (Transition.forall_steps_iff_getElem.2 (by decide +kernel)) (numbered [1, 3])
    { lastOfDay with seqNum := 2 } (by decide) List.prefix_rfl

/-- Of three packets that are missing, one comes late: the two others are missing in no
    loss event, so that their average is a division by zero. -/
theorem lossEvents_zero :
    (decode 0 (numbered [1, 5, 2])).map (fun f => (f.pktloss, f.lossEvents)) = [(2, 0)] ∧
    ¬ ∀ p infos, p ≠ [] → p ++ [infos] <+: numbered [1, 5, 2] →
      ∃ f f', decode 0 p = [f] ∧ decode 0 (p ++ [infos]) = [f'] ∧
        f'.lossEvents.toNat ≤ f.lossEvents.toNat + 1 ∧
        (0 < f'.pktloss.toNat → f'.BurstsCounted) := by
  refine ⟨by decide +kernel, fun h => ?_⟩
  obtain ⟨f, f', -, hf', -, hcounted⟩ :=
    h (numbered [1, 5]) { lastOfDay with seqNum := 2 } (by decide) List.prefix_rfl
  have hzero : (decode 0 (numbered [1, 5] ++ [{ lastOfDay with seqNum := 2 }])).map
      (fun f => (f.pktloss.toNat, f.lossEvents.toNat)) = [(2, 0)] := by decide +kernel
  rw [hf', List.map_singleton, List.singleton_inj, Prod.mk.injEq] at hzero
  have hone := (hcounted (by omega)).one_le
  omega

/-! ## Increasing numbers -/

section Increasing

variable {F : Type} [CDouble F]

/-- When the numbers of a flow increase, from 1 on, `lossEvents` is the number of runs of
    missing numbers, `pktloss` how many numbers these are, and no packet is duplicated. -/
theorem decode_increasing (flagfilter : ℕ) {log : List (Info F)} {k : FlowKey}
    (hflow : ∀ infos ∈ log, infos.key = k) (hstart : (seqNums log).head? = some 1)
    (hincr : (seqNums log).Pairwise (· < ·)) : ∃ f, decode flagfilter log = [f] ∧
      f.lossEvents.toNat = (runs (Finset.Icc 1 f.maxSeq.toNat \ (seqNums log).toFinset)).card ∧
      f.pktloss.toNat = ∑ r ∈ runs (Finset.Icc 1 f.maxSeq.toNat \ (seqNums log).toFinset),
        runLength r ∧
      f.pktdup = 0 := by
  have hinc : Increasing (seqNums log) := ⟨hstart, hincr⟩
  obtain ⟨hexcess, hall⟩ := hinc.length_add_missed
  obtain ⟨hfills, hgaps, hmissed⟩ := hinc.counts
  -- There are no more records than numbers.
  have htop : top (seqNums log) < 2 ^ 32 := by
    rw [top, Finset.sup_lt_iff (by norm_num)]
    intro s hs
    obtain ⟨infos, -, rfl⟩ := List.mem_map.1 (List.mem_toFinset.1 hs)
    exact infos.seqNum.toNat_lt
  have hlen : (seqNums log).length = log.length := List.length_map _
  have hne : log ≠ [] := by
    rintro rfl
    cases hstart
  obtain ⟨f, hf, hcounts⟩ :=
    decode_countsExact flagfilter hflow List.prefix_rfl hne hinc.pos (by omega)
  have habsent : Finset.Icc 1 f.maxSeq.toNat \ (seqNums log).toFinset = absent (seqNums log) := by
    rw [hcounts.maxSeq, absent]
  have hevents := hcounts.lossEvents
  rw [hfills, hgaps] at hevents
  replace hevents := (UInt32.add_zero _).symm.trans hevents
  have hgaps_le : gaps (seqNums log) ≤ (seqNums log).length := occurrences_le_length _ _
  refine ⟨f, hf, ?_, ?_, ?_⟩
  · rw [habsent, hevents, UInt32.toNat_ofNat_of_lt' (by rw [UInt32.size]; omega)]
  · rw [habsent, ← hmissed, hcounts.pktloss, missed, hcounts.pktdup]
  · rw [← UInt32.toNat_inj, hcounts.pktdup, hexcess, UInt32.toNat_zero]

end Increasing

/-- Two runs of missing numbers. -/
theorem decode_increasing_runs : ∃ f, decode 0 (numbered [1, 2, 5, 6, 8]) = [f] ∧
    f.lossEvents.toNat =
      (runs (Finset.Icc 1 f.maxSeq.toNat \ (seqNums (numbered [1, 2, 5, 6, 8])).toFinset)).card ∧
    f.pktloss.toNat = ∑ r ∈ runs (Finset.Icc 1 f.maxSeq.toNat \
      (seqNums (numbered [1, 2, 5, 6, 8])).toFinset), runLength r ∧
    f.pktdup = 0 :=
  decode_increasing 0 (k := lastOfDay.key) (by decide +kernel) (by decide +kernel)
    (by decide +kernel)

end Ditg
