import Mathlib.Algebra.BigOperators.Ring.Finset
import Ditg.Dec.Elabsplit
import Ditg.Dec.LossCount
import Ditg.Library.Statistics

/-!
# What the series of a flow say

The lines of a series of `elabsplit` in exact arithmetic, for the records of a flow that are
not received before the log begins.

* `elabsplit_bit`: the bitrate has a line for each interval, all lines together are the bytes
  received, in any order, and if the records are in order every line is that of its interval;
* `elabsplit_means_iff`: the jitter and the delay are the means of their intervals, unless the
  flow has a single record;
* `elabsplit_pkt_iff`: when the numbers increase, the packets lost are those of the summary,
  unless it takes no notice of numbers before the first record, or of one of them too few.
-/

namespace Ditg

open Arrivals
open Binning (slot slot_mono slot_eq_iff)
open Statistics (mean)

/-- A time is in interval `k` since the log began. The first interval has its left end. -/
def InInterval (ms secfirstline_gl : ℚ) (k : ℕ) (t : ℚ) : Prop :=
  (k = 0 ∧ t = secfirstline_gl) ∨
    (secfirstline_gl + k * (ms / 1000) < t ∧ t ≤ secfirstline_gl + (k + 1) * (ms / 1000))

instance (ms secfirstline_gl : ℚ) (k : ℕ) (t : ℚ) :
    Decidable (InInterval ms secfirstline_gl k t) := by
  unfold InInterval
  infer_instance

/-- What the records of an interval add. -/
def ofInterval {E : Type} (ms secfirstline_gl : ℚ) (k : ℕ) (es : List (ℚ × E)) : List E :=
  (es.filter fun e => InInterval ms secfirstline_gl k e.1).map Prod.snd

theorem ofInterval_map {E : Type} (ms secfirstline_gl : ℚ) (k : ℕ) (log : List (Info ℚ))
    (g : Info ℚ → E) : ofInterval ms secfirstline_gl k (log.map fun r => (r.secrxTime, g r)) =
      (log.filter fun r => InInterval ms secfirstline_gl k r.secrxTime).map g := by
  rw [ofInterval, List.filter_map, List.map_map]
  rfl

section Slots

variable {ms secfirstline_gl : ℚ} (hms : 0 < ms)

include hms

theorem slot_intervals_eq_iff {t : ℚ} (hgl : secfirstline_gl ≤ t) {k : ℕ} :
    slot (intervals ms secfirstline_gl t) = k ↔ InInterval ms secfirstline_gl k t := by
  have hpos : (0 : ℚ) < ms / 1000 := by positivity
  have hnonneg : 0 ≤ intervals ms secfirstline_gl t := div_nonneg (sub_nonneg.2 hgl) hpos.le
  rw [slot_eq_iff hnonneg, InInterval, intervals, lt_div_iff₀ hpos, div_le_iff₀ hpos,
    div_eq_zero_iff, or_iff_left hpos.ne', sub_eq_zero, lt_sub_iff_add_lt', sub_le_iff_le_add']
  push_cast
  rfl

/-- The records of an interval, found by its number. -/
theorem total_slots {A V E : Type} (b : Binning A V E) (r : A) {es : List (ℚ × E)}
    (hgl : ∀ e ∈ es, secfirstline_gl ≤ e.1) (k : ℕ) :
    b.total r (slots ms secfirstline_gl es) k =
      (ofInterval ms secfirstline_gl k es).foldl b.add r := by
  have hfilter : (slots ms secfirstline_gl es).filter (·.1 = k) =
      slots ms secfirstline_gl (es.filter fun e => InInterval ms secfirstline_gl k e.1) := by
    rw [slots, List.filter_map, slots]
    congr 1
    apply List.filter_congr
    intro e he
    simp only [Function.comp_apply, slot_intervals_eq_iff hms (hgl e he)]
  rw [Binning.total, hfilter, slots, List.map_map]
  rfl

/-- A later time is in the same interval or in a later one. -/
theorem slot_intervals_mono {t t' : ℚ} (h : t ≤ t') :
    slot (intervals ms secfirstline_gl t) ≤ slot (intervals ms secfirstline_gl t') := by
  have hpos : (0 : ℚ) < ms / 1000 := by positivity
  refine slot_mono ?_
  rw [intervals, intervals, div_le_div_iff_of_pos_right hpos]
  exact sub_le_sub_right h _

/-- Records in order are in order of their intervals. -/
theorem slots_sorted {E : Type} {es : List (ℚ × E)} (h : (es.map Prod.fst).Pairwise (· ≤ ·)) :
    ((slots ms secfirstline_gl es).map Prod.fst).Pairwise (· ≤ ·) := by
  rw [slots, List.map_map, List.pairwise_map]
  rw [List.pairwise_map] at h
  exact h.imp fun {x y} hle => slot_intervals_mono hms hle

end Slots

/-! ## The bitrate -/

theorem foldl_bitBlock (sizes : List UInt32) (x : ℚ) :
    sizes.foldl (bitBlock (F := ℚ)).add x = x + (sizes.map fun size => (size.toNat : ℚ)).sum := by
  induction sizes generalizing x with
  | nil => simp
  | cons size sizes ih =>
    rw [List.foldl_cons, ih, List.map_cons, List.sum_cons, ← add_assoc]
    simp [bitBlock, ofUInt32]

/-- The lines of the bitrate are those of a series of intervals. -/
theorem exists_bit (o : SeriesOptions ℚ) (hflag : o.flagbit = true) (hms : 0 < o.msbitrate)
    {secfirstline_gl : ℚ} {log : List (Info ℚ)} (hne : log ≠ [])
    (hgl : ∀ r ∈ log, secfirstline_gl ≤ r.secrxTime) : ∃ s : Binning.State ℚ ℚ,
      s = (bitBlock.binning o.msbitrate).run ⟨[], 0⟩
        (slots o.msbitrate secfirstline_gl (bitEvents log)) ∧
      (elabFlow o secfirstline_gl log).bit = (s.out ++ [s.acc * 8 / o.msbitrate]).zipIdx.map
        fun line => (lineTime o.msbitrate line.2, line.1) := by
  obtain ⟨r, log, rfl⟩ := List.exists_cons_of_ne_nil hne
  have hrefines := Block.refines_records bitBlock hms (fun _ => rfl)
    (by simp [bitBlock]) (r.secrxTime, r.size) (bitEvents log)
    (by simpa [bitEvents] using hgl)
  refine ⟨_, rfl, ?_⟩
  rw [elabFlow_cons, if_pos hflag]
  exact hrefines.finish

/-- A line is the bitrate of what its records add up to, ... -/
theorem value_bitBlock {ms : ℚ} (hms : 0 < ms) (x : ℚ) :
    (bitBlock.binning ms).value x * ms / 8 = x := by
  have hne := hms.ne'
  simp only [BlockKind.binning, bitBlock]
  push_cast
  field_simp

/-- ... of which nothing is left for the next interval. -/
theorem reset_bitBlock (ms x : ℚ) : (bitBlock.binning ms).reset x = 0 := by
  simp [BlockKind.binning, bitBlock]

/-- The lines and the open interval amount to the bytes received. -/
theorem sum_bit {ms : ℚ} (hms : 0 < ms) (secfirstline_gl : ℚ) (log : List (Info ℚ)) :
    ((((bitBlock.binning ms).run ⟨[], 0⟩ (slots ms secfirstline_gl (bitEvents log))).out.map
        fun v => v * ms / 8).sum +
      ((bitBlock.binning ms).run ⟨[], 0⟩ (slots ms secfirstline_gl (bitEvents log))).acc) =
    (log.map fun r => (r.size.toNat : ℚ)).sum := by
  have hvalue (x : ℚ) : (bitBlock.binning ms).value x * ms / 8 +
      (bitBlock.binning ms).reset x = x := by
    rw [value_bitBlock hms, reset_bitBlock, add_zero]
  have hadd (x : ℚ) (size : UInt32) : (bitBlock.binning ms).add x size =
      x + (size.toNat : ℚ) := by
    simp [BlockKind.binning, bitBlock, ofUInt32]
  have hsum := Binning.sum_run (w := fun v : ℚ => v * ms / 8) (m := id) hvalue hadd
    ⟨[], 0⟩ (slots ms secfirstline_gl (bitEvents log))
  have hsizes : (slots ms secfirstline_gl (bitEvents log)).map (fun e => (e.2.toNat : ℚ)) =
      log.map fun r => (r.size.toNat : ℚ) := by
    rw [slots, bitEvents, List.map_map, List.map_map]
    rfl
  rw [← hsizes]
  simpa using hsum

/-- If the records are in order, the lines are those of their intervals. -/
theorem binned_bit {ms : ℚ} (hms : 0 < ms) (secfirstline_gl : ℚ) {log : List (Info ℚ)}
    (hsorted : (log.map Info.secrxTime).Pairwise (· ≤ ·)) :
    (bitBlock.binning ms).Binned 0 (slots ms secfirstline_gl (bitEvents log))
      ((bitBlock.binning ms).run ⟨[], 0⟩ (slots ms secfirstline_gl (bitEvents log))) := by
  have hsorted' : ((bitEvents log).map Prod.fst).Pairwise (· ≤ ·) := by
    rw [bitEvents, List.map_map]
    exact hsorted
  exact (Binning.run_sorted (P := fun _ => True) (s := ⟨[], 0⟩)
    (fun x _ => reset_bitBlock ms x) trivial (fun _ _ _ => trivial) rfl rfl
    (slots_sorted hms hsorted') (fun _ _ => Nat.zero_le _)).1

/-- The records of an interval add up to its bytes. -/
theorem total_bit {ms secfirstline_gl : ℚ} (hms : 0 < ms) {log : List (Info ℚ)}
    (hgl : ∀ r ∈ log, secfirstline_gl ≤ r.secrxTime) (k : ℕ) :
    (bitBlock.binning ms).total 0 (slots ms secfirstline_gl (bitEvents log)) k =
      ((log.filter fun r => InInterval ms secfirstline_gl k r.secrxTime).map
        fun r => (r.size.toNat : ℚ)).sum := by
  have hgl' : ∀ e ∈ bitEvents log, secfirstline_gl ≤ e.1 := by
    intro e he
    obtain ⟨r, hr, rfl⟩ := List.mem_map.1 he
    exact hgl r hr
  have htotal := foldl_bitBlock ((log.filter fun r =>
    InInterval ms secfirstline_gl k r.secrxTime).map fun r => r.size) 0
  rw [zero_add, List.map_map] at htotal
  rw [total_slots hms _ _ hgl', bitEvents, ofInterval_map]
  exact htotal

/-- The bitrate has a line for each interval, from the first one on. Its lines amount to the
    bytes received, whatever the order of the records, and if the records are in order every
    line is that of its interval. -/
theorem elabsplit_bit (o : SeriesOptions ℚ) (hflag : o.flagbit = true) (hms : 0 < o.msbitrate)
    {secfirstline_gl : ℚ} {log : List (Info ℚ)} (hne : log ≠ [])
    (hgl : ∀ r ∈ log, secfirstline_gl ≤ r.secrxTime) :
    let bit := (elabFlow o secfirstline_gl log).bit
    bit ≠ [] ∧
    bit.map Prod.fst = (List.range bit.length).map (fun k : ℕ => k * (o.msbitrate / 1000)) ∧
    (bit.map fun line => line.2 * o.msbitrate / 8).sum =
      (log.map fun r => (r.size.toNat : ℚ)).sum ∧
    ((log.map Info.secrxTime).Pairwise (· ≤ ·) →
      (∀ r ∈ log, ∃ k < bit.length, InInterval o.msbitrate secfirstline_gl k r.secrxTime) ∧
      ∀ k, (h : k < bit.length) → bit[k].2 * o.msbitrate / 8 =
        ((log.filter fun r => InInterval o.msbitrate secfirstline_gl k r.secrxTime).map
          fun r => (r.size.toNat : ℚ)).sum) := by
  intro bit
  obtain ⟨s, hs, hbit⟩ := exists_bit o hflag hms hne hgl
  change bit = _ at hbit
  have hlen : bit.length = s.out.length + 1 := by
    rw [hbit, List.length_map, List.length_zipIdx, List.length_append, List.length_singleton]
  have hfst : bit.map Prod.fst = (List.range bit.length).map (lineTime o.msbitrate) := by
    rw [hlen, hbit, map_fst_labelled, List.length_append, List.length_singleton]
  have hsnd : bit.map Prod.snd = s.out ++ [s.acc * 8 / o.msbitrate] := by
    rw [hbit, map_snd_labelled]
  refine ⟨?_, ?_, ?_, fun hsorted => ?_⟩
  · rw [← List.length_pos_iff, hlen]
    exact Nat.succ_pos _
  · rw [hfst]
    exact List.map_congr_left fun k _ => lineTime_eq _ k
  · have hne' := hms.ne'
    have hlast : s.acc * 8 / o.msbitrate * o.msbitrate / 8 = s.acc := by
      field_simp
    have hmap : bit.map (fun line => line.2 * o.msbitrate / 8) =
        (bit.map Prod.snd).map fun v => v * o.msbitrate / 8 := by
      rw [List.map_map]
      rfl
    rw [hmap, hsnd, List.map_append, List.sum_append, List.map_singleton, List.sum_singleton,
      hlast, hs]
    exact sum_bit hms secfirstline_gl log
  · have hbinned := binned_bit hms secfirstline_gl hsorted
    rw [← hs] at hbinned
    have hlines := hbinned.out_append (v := s.acc * 8 / o.msbitrate)
      (by simp [BlockKind.binning, bitBlock])
    rw [← hlen, ← hsnd] at hlines
    refine ⟨fun r hr => ?_, fun k hk => ?_⟩
    · refine ⟨slot (intervals o.msbitrate secfirstline_gl r.secrxTime), ?_,
        (slot_intervals_eq_iff hms (hgl r hr)).1 rfl⟩
      rw [hlen]
      exact Nat.lt_succ_of_le (hbinned.le _ (List.mem_map_of_mem (List.mem_map_of_mem hr)))
    · have hline := List.getElem_of_eq hlines (i := k) (by rwa [List.length_map])
      rw [List.getElem_map, List.getElem_map, List.getElem_range, total_bit hms hgl] at hline
      rw [hline, value_bitBlock hms]

/-- All series, with intervals of a second. -/
def everySecond : SeriesOptions ℚ := ⟨true, true, true, true, 1000, 1000, 1000, 1000⟩

/-- Records in the first and in the third second of a log that begins at 86396. -/
def secondsApart : List (Info ℚ) :=
  [{ lastOfDay with seqNum := 1, rxTime3 := 113 / 2 },
    { lastOfDay with seqNum := 3, rxTime3 := 57 },
    { lastOfDay with seqNum := 6, rxTime3 := 59 }]

/-- A second without records. -/
theorem elabsplit_bit_apart :
    ((elabFlow everySecond 86396 secondsApart).bit.map fun line => line.2 * 1000 / 8).sum =
      (secondsApart.map fun r => (r.size.toNat : ℚ)).sum ∧
    ∀ k, (h : k < (elabFlow everySecond 86396 secondsApart).bit.length) →
      (elabFlow everySecond 86396 secondsApart).bit[k].2 * 1000 / 8 =
        ((secondsApart.filter fun r => InInterval 1000 86396 k r.secrxTime).map
          fun r => (r.size.toNat : ℚ)).sum := by
  obtain ⟨-, -, hsum, hsorted⟩ := elabsplit_bit everySecond rfl (by decide +kernel)
    (show secondsApart ≠ [] by decide)
    (show ∀ r ∈ secondsApart, (86396 : ℚ) ≤ r.secrxTime by decide +kernel)
  exact ⟨hsum, (hsorted (by decide +kernel)).2⟩

/-! ## The jitter and the delay -/

/-- The records of a flow from the second one on: when it is received, and how far its delay
    is from that of the one before. -/
def differences (log : List (Info ℚ)) : List (ℚ × ℚ) :=
  (log.zip log.tail).map fun r => (r.2.secrxTime, |r.2.currentdelay - r.1.currentdelay|)

/-- Every line is the mean of its interval, computed without a division by zero, and every
    record is in an interval with a line. -/
structure MeanLines (ms secfirstline_gl : ℚ) (log : List (Info ℚ)) (es : List (ℚ × ℚ))
    (series : List (ℚ × Option ℚ)) : Prop where
  lines : series = (List.range series.length).map fun k : ℕ =>
    (k * (ms / 1000), some (mean (ofInterval ms secfirstline_gl k es)))
  covered : ∀ r ∈ log, ∃ k < series.length, InInterval ms secfirstline_gl k r.secrxTime

theorem quot_eq_mean {xs : List ℚ} (h : xs ≠ []) : quot xs.sum xs.length = some (mean xs) := by
  have hlen : xs.length ≠ 0 := fun h' => h (List.length_eq_zero_iff.1 h')
  rw [quot, if_neg hlen, mean, if_neg h, ofULong_eq]

theorem foldl_delBlock (xs : List ℚ) (temp : ℚ × ℕ) :
    xs.foldl (delBlock (F := ℚ)).add temp = (temp.1 + xs.sum, temp.2 + xs.length) := by
  induction xs generalizing temp with
  | nil => simp
  | cons x xs ih =>
    rw [List.foldl_cons, ih, List.sum_cons, List.length_cons]
    simp only [delBlock, Prod.mk.injEq]
    exact ⟨by ring, by omega⟩

theorem jitEvents_eq (r : Info ℚ) (log : List (Info ℚ)) :
    jitEvents r.currentdelay log = differences (r :: log) := by
  induction log generalizing r with
  | nil => rfl
  | cons r' log ih =>
    rw [jitEvents, ih]
    rfl

section Means

variable {A : Type} {kind : BlockKind ℚ A (Option ℚ) ℚ} {ms secfirstline_gl : ℚ} (hms : 0 < ms)
  {b : Block ℚ A (Option ℚ)} {s : Binning.State A (Option ℚ)} {r : A} {es : List (ℚ × ℚ)}
  {log : List (Info ℚ)}

include hms

/-- A block whose values are means writes means. -/
theorem meanLines_finish (h : b.Refines ms s)
    (hbinned : (kind.binning ms).Binned r (slots ms secfirstline_gl es) s)
    (hlast : kind.last ms s.acc = (kind.binning ms).value s.acc)
    (hes : ∀ e ∈ es, secfirstline_gl ≤ e.1)
    (hmean : ∀ xs, (kind.binning ms).value (xs.foldl kind.add r) = some (mean xs))
    (hlog : ∀ r ∈ log, secfirstline_gl ≤ r.secrxTime ∧
      slot (intervals ms secfirstline_gl r.secrxTime) ≤ s.out.length) :
    MeanLines ms secfirstline_gl log es (b.finish kind ms) := by
  have hlen : (b.finish kind ms).length = s.out.length + 1 := by
    rw [h.finish, List.length_map, List.length_zipIdx, List.length_append, List.length_singleton]
  have hvalue (k : ℕ) : (kind.binning ms).value
      ((kind.binning ms).total r (slots ms secfirstline_gl es) k) =
      some (mean (ofInterval ms secfirstline_gl k es)) := by
    rw [total_slots hms _ _ hes]
    exact hmean _
  refine ⟨?_, fun r hr => ?_⟩
  · rw [hlen, h.finish, hbinned.out_append hlast]
    apply List.ext_getElem
    · simp
    · intro k hk hk'
      simp [hvalue, lineTime_eq]
  · obtain ⟨hgl, hle⟩ := hlog r hr
    exact ⟨_, hlen ▸ Nat.lt_succ_of_le hle, (slot_intervals_eq_iff hms hgl).1 rfl⟩

end Means

/-- A record in an interval is one of those of the interval. -/
theorem ofInterval_ne_nil {ms secfirstline_gl : ℚ} (hms : 0 < ms) {E : Type} {es : List (ℚ × E)}
    (hgl : ∀ e ∈ es, secfirstline_gl ≤ e.1) {k : ℕ}
    (h : ∃ e ∈ slots ms secfirstline_gl es, k = e.1) : ofInterval ms secfirstline_gl k es ≠ [] := by
  obtain ⟨_, hslot, rfl⟩ := h
  obtain ⟨e, he, rfl⟩ := List.mem_map.1 hslot
  refine List.ne_nil_of_mem (a := e.2) (List.mem_map_of_mem (List.mem_filter.2 ⟨he, ?_⟩))
  exact decide_eq_true ((slot_intervals_eq_iff hms (hgl e he)).1 rfl)

/-- What the delays add up to, as a mean. -/
theorem value_delBlock (ms : ℚ) (xs : List ℚ) :
    (delBlock.binning ms).value (xs.foldl (delBlock (F := ℚ)).add (0, 0)) = some (mean xs) := by
  rw [foldl_delBlock, zero_add, zero_add]
  by_cases h : xs = []
  · subst h
    simp [BlockKind.binning, delBlock, mean]
  · have hpos : xs.length > 0 := List.length_pos_iff.2 h
    simp only [BlockKind.binning, delBlock, if_pos hpos]
    exact quot_eq_mean h

/-- The delay of every interval is a mean. -/
theorem meanLines_del {ms secfirstline_gl : ℚ} (hms : 0 < ms) {r : Info ℚ} {log : List (Info ℚ)}
    (hgl : ∀ x ∈ r :: log, secfirstline_gl ≤ x.secrxTime)
    (hsorted : ((r :: log).map Info.secrxTime).Pairwise (· ≤ ·)) :
    MeanLines ms secfirstline_gl (r :: log) (delEvents (r :: log))
      (((Block.firstline delBlock secfirstline_gl).records delBlock ms secfirstline_gl r.secrxTime
        (delEvents (r :: log))).finish delBlock ms) := by
  have hes : ∀ e ∈ delEvents (r :: log), secfirstline_gl ≤ e.1 := by
    intro e he
    obtain ⟨x, hx, rfl⟩ := List.mem_map.1 he
    exact hgl x hx
  have hedge (k : ℕ) : (delBlock (F := ℚ)).edge ms k = lineTime ms k :=
    (mul_div_assoc _ _ _).symm
  have hsorted' : ((delEvents (r :: log)).map Prod.fst).Pairwise (· ≤ ·) := by
    rw [delEvents, List.map_map]
    exact hsorted
  obtain ⟨s, hs⟩ : ∃ s, s = (delBlock.binning ms).run ⟨[], ((0 : ℚ), 0)⟩
      (slots ms secfirstline_gl (delEvents (r :: log))) := ⟨_, rfl⟩
  have hrefines : Block.Refines ms ((Block.firstline delBlock secfirstline_gl).records delBlock ms
      secfirstline_gl r.secrxTime (delEvents (r :: log))) s := by
    have hall := Block.refines_records delBlock hms hedge rfl (r.secrxTime, r.currentdelay)
      (delEvents log) hes
    rw [hs]
    exact hall
  -- A sum is left in an interval only with its number of records.
  have hreset (temp : ℚ × ℕ) (h : temp.2 = 0 → temp = (0, 0)) :
      (delBlock.binning ms).reset temp = (0, 0) := by
    by_cases hpos : temp.2 > 0
    · simp [BlockKind.binning, delBlock, hpos]
    · simpa [BlockKind.binning, delBlock, hpos] using h (by omega)
  obtain ⟨hbinned, -, hlast⟩ := Binning.run_sorted (s := ⟨[], (0, 0)⟩) hreset (fun _ => rfl)
    (fun temp x _ h => absurd h (Nat.succ_ne_zero _)) rfl rfl (slots_sorted hms hsorted')
    (fun _ _ => Nat.zero_le _)
  rw [← hs] at hbinned hlast
  have hopen : ofInterval ms secfirstline_gl s.out.length (delEvents (r :: log)) ≠ [] :=
    ofInterval_ne_nil hms hes (hlast.resolve_left fun h => by simp [slots, delEvents] at h)
  refine meanLines_finish hms hrefines hbinned ?_ hes (value_delBlock ms) fun x hx => ⟨hgl x hx, ?_⟩
  · -- The last record is in the last interval.
    rw [hbinned.acc, total_slots hms _ _ hes]
    refine Eq.trans ?_ (value_delBlock ms _).symm
    rw [← quot_eq_mean hopen]
    change quot _ _ = _
    rw [show (delBlock.binning ms).add = (delBlock (F := ℚ)).add from rfl, foldl_delBlock,
      zero_add, zero_add]
  · exact hbinned.le _ (List.mem_map_of_mem (List.mem_map_of_mem hx))

theorem foldl_jitBlock (xs : List ℚ) (temp : ℚ × ℕ) :
    xs.foldl (jitBlock (F := ℚ)).add temp = (temp.1 + xs.sum, temp.2 + xs.length) :=
  foldl_delBlock xs temp

/-- What the differences add up to after the first record, as a mean. -/
theorem value_jitBlock (ms : ℚ) (xs : List ℚ) :
    (jitBlock.binning ms).value (xs.foldl (jitBlock (F := ℚ)).add (0, 1)) = some (mean xs) := by
  rw [foldl_jitBlock, zero_add, Nat.add_comm]
  by_cases h : xs = []
  · subst h
    simp [BlockKind.binning, jitBlock, mean]
  · have hpos : xs.length + 1 > 1 := Nat.succ_lt_succ (List.length_pos_iff.2 h)
    simp only [BlockKind.binning, jitBlock, if_pos hpos]
    exact quot_eq_mean h

/-- The first record closes the intervals before the flow, and is the only one in its own. -/
theorem step_jitBlock (ms : ℚ) (j : ℕ) : (jitBlock.binning ms).step ⟨[], (0, 0)⟩ (j, 0) =
    ⟨List.replicate j (some 0), ((0 : ℚ), 1)⟩ := by
  have hclose (n : ℕ) : (jitBlock.binning ms).close^[n] ⟨[], ((0 : ℚ), 0)⟩ =
      ⟨List.replicate n (some 0), (0, 0)⟩ := by
    induction n with
    | zero => rfl
    | succ n ih =>
      rw [Function.iterate_succ_apply', ih, List.replicate_succ']
      rfl
  rw [Binning.step, Binning.closeTo, List.length_nil, Nat.sub_zero, hclose]
  simp [BlockKind.binning, jitBlock]

/-- Every later mean starts from one record. -/
theorem reset_jitBlock (ms : ℚ) (temp : ℚ × ℕ) (h : 1 ≤ temp.2) :
    (jitBlock.binning ms).reset temp = (0, 1) := by
  by_cases hpos : temp.2 > 1
  · simp [BlockKind.binning, jitBlock, hpos]
  · have hone : temp.2 = 1 := by omega
    simp [BlockKind.binning, jitBlock, hone]

/-- There is a difference for each record but the first, at its time. -/
theorem map_fst_differences (r r' : Info ℚ) (log : List (Info ℚ)) :
    (differences (r :: r' :: log)).map Prod.fst = (r' :: log).map Info.secrxTime := by
  rw [differences, List.map_map]
  have hzip : ((r :: r' :: log).zip (r' :: log)).map Prod.snd = r' :: log :=
    List.map_snd_zip (by simp)
  conv_rhs => rw [← hzip, List.map_map]
  rfl

/-- The first record is its own predecessor. -/
theorem jitEvents_cons (r : Info ℚ) (log : List (Info ℚ)) :
    jitEvents r.currentdelay (r :: log) = (r.secrxTime, 0) :: differences (r :: log) := by
  rw [jitEvents, jitEvents_eq, sub_self]
  simp [CDouble.fabs]

/-- The differences are those of the records behind the first one. -/
theorem exists_of_mem_differences {r r' : Info ℚ} {log : List (Info ℚ)} {e : ℚ × ℚ}
    (he : e ∈ differences (r :: r' :: log)) : ∃ x ∈ r' :: log, x.secrxTime = e.1 :=
  List.mem_map.1 (map_fst_differences r r' log ▸ List.mem_map_of_mem he)

theorem exists_mem_differences {r r' : Info ℚ} {log : List (Info ℚ)} {x : Info ℚ}
    (hx : x ∈ r' :: log) : ∃ e ∈ differences (r :: r' :: log), e.1 = x.secrxTime :=
  have htimes : x.secrxTime ∈ (differences (r :: r' :: log)).map Prod.fst :=
    map_fst_differences r r' log ▸ List.mem_map_of_mem hx
  List.mem_map.1 htimes

/-- The bins of the jitter, from the interval of the first record on, which adds nothing. -/
def jitBins (ms secfirstline_gl : ℚ) (r : Info ℚ) (es : List (ℚ × ℚ)) :
    Binning.State (ℚ × ℕ) (Option ℚ) :=
  (jitBlock.binning ms).run
    ⟨List.replicate (slot (intervals ms secfirstline_gl r.secrxTime)) (some 0), ((0 : ℚ), 1)⟩
    (slots ms secfirstline_gl es)

theorem refines_jitBins {ms secfirstline_gl : ℚ} (hms : 0 < ms) {r : Info ℚ}
    {log : List (Info ℚ)} (hr : secfirstline_gl ≤ r.secrxTime)
    (hes : ∀ e ∈ differences (r :: log), secfirstline_gl ≤ e.1) :
    Block.Refines ms
      ((Block.firstline jitBlock secfirstline_gl).records jitBlock ms secfirstline_gl r.secrxTime
        (jitEvents r.currentdelay (r :: log)))
      (jitBins ms secfirstline_gl r (differences (r :: log))) := by
  have hall := Block.refines_records jitBlock hms (fun _ => rfl) rfl (r.secrxTime, 0)
    (differences (r :: log)) (List.forall_mem_cons.2 ⟨hr, hes⟩)
  have hinit : (jitBlock (F := ℚ)).init = (0, 0) := by simp [jitBlock]
  rw [hinit, slots, List.map_cons, Binning.run_cons, step_jitBlock, ← slots] at hall
  rw [jitEvents_cons]
  exact hall

/-- The jitter of every interval is a mean, if the flow has a second record. -/
theorem meanLines_jit {ms secfirstline_gl : ℚ} (hms : 0 < ms) {r r' : Info ℚ}
    {log : List (Info ℚ)} (hgl : ∀ x ∈ r :: r' :: log, secfirstline_gl ≤ x.secrxTime)
    (hsorted : ((r :: r' :: log).map Info.secrxTime).Pairwise (· ≤ ·)) :
    MeanLines ms secfirstline_gl (r :: r' :: log) (differences (r :: r' :: log))
      (((Block.firstline jitBlock secfirstline_gl).records jitBlock ms secfirstline_gl r.secrxTime
        (jitEvents r.currentdelay (r :: r' :: log))).finish jitBlock ms) := by
  have hes : ∀ e ∈ differences (r :: r' :: log), secfirstline_gl ≤ e.1 := by
    intro e he
    obtain ⟨x, hx, hxe⟩ := exists_of_mem_differences he
    exact hxe ▸ hgl x (List.mem_cons_of_mem _ hx)
  have hfirst := List.pairwise_cons.1 hsorted
  have hrefines := refines_jitBins hms (hgl r List.mem_cons_self) hes
  obtain ⟨s, hs⟩ : ∃ s, s = jitBins ms secfirstline_gl r (differences (r :: r' :: log)) := ⟨_, rfl⟩
  rw [← hs] at hrefines
  -- The other records are not before the first one.
  have hle (x : Info ℚ) (hx : x ∈ r' :: log) : slot (intervals ms secfirstline_gl r.secrxTime) ≤
      slot (intervals ms secfirstline_gl x.secrxTime) :=
    slot_intervals_mono hms (hfirst.1 _ (List.mem_map_of_mem hx))
  have hslot (e : ℕ × ℚ) (he : e ∈ slots ms secfirstline_gl (differences (r :: r' :: log))) :
      ∃ x ∈ r' :: log, e.1 = slot (intervals ms secfirstline_gl x.secrxTime) := by
    obtain ⟨e', he', rfl⟩ := List.mem_map.1 he
    obtain ⟨x, hx, hxe⟩ := exists_of_mem_differences he'
    exact ⟨x, hx, by rw [hxe]⟩
  obtain ⟨hbinned, -, hlast⟩ := Binning.run_sorted
    (s := ⟨List.replicate (slot (intervals ms secfirstline_gl r.secrxTime)) (some 0), ((0 : ℚ), 1)⟩)
    (reset_jitBlock ms) le_rfl (fun temp x h => h.trans (Nat.le_succ _)) rfl (by
      rw [List.length_replicate]
      simp [BlockKind.binning, jitBlock])
    (slots_sorted hms (by rw [map_fst_differences r r' log]; exact hfirst.2)) (fun e he => by
      obtain ⟨x, hx, hxe⟩ := hslot e he
      rw [List.length_replicate, hxe]
      exact hle x hx)
  rw [jitBins] at hs
  rw [← hs] at hbinned hlast
  have hopen : ofInterval ms secfirstline_gl s.out.length (differences (r :: r' :: log)) ≠ [] :=
    ofInterval_ne_nil hms hes
      (hlast.resolve_left fun h => by simp [slots, differences] at h)
  have hcovered (x : Info ℚ) (hx : x ∈ r' :: log) :
      slot (intervals ms secfirstline_gl x.secrxTime) ≤ s.out.length := by
    obtain ⟨e, he, hxe⟩ := exists_mem_differences (r := r) hx
    rw [← hxe]
    exact hbinned.le _ (List.mem_map_of_mem he)
  refine meanLines_finish hms hrefines hbinned ?_ hes (value_jitBlock ms) fun x hx => ⟨hgl x hx, ?_⟩
  · -- The last record is in the last interval.
    rw [hbinned.acc, total_slots hms _ _ hes]
    refine Eq.trans ?_ (value_jitBlock ms _).symm
    rw [← quot_eq_mean hopen]
    change quot _ (predULong _) = _
    rw [show (jitBlock.binning ms).add = (jitBlock (F := ℚ)).add from rfl, foldl_jitBlock,
      zero_add, Nat.add_comm]
    rfl
  · rcases List.mem_cons.1 hx with rfl | hx
    · exact (hle r' List.mem_cons_self).trans (hcovered r' List.mem_cons_self)
    · exact hcovered x hx

/-- A flow with a single record divides by zero in its last interval. -/
theorem not_meanLines_jit {ms secfirstline_gl : ℚ} (hms : 0 < ms) {r : Info ℚ}
    (hgl : secfirstline_gl ≤ r.secrxTime) (es : List (ℚ × ℚ)) :
    ¬ MeanLines ms secfirstline_gl [r] es
      (((Block.firstline jitBlock secfirstline_gl).records jitBlock ms secfirstline_gl r.secrxTime
        (jitEvents r.currentdelay [r])).finish jitBlock ms) := by
  intro h
  have hevents : jitEvents r.currentdelay [r] = [(r.secrxTime, 0)] := jitEvents_cons r []
  have hall := Block.refines_records jitBlock hms (fun _ => rfl) rfl
    (r.secrxTime, (0 : ℚ)) [] (List.forall_mem_singleton.2 hgl)
  have hinit : (jitBlock (F := ℚ)).init = (0, 0) := by simp [jitBlock]
  rw [hinit, slots, List.map_singleton, Binning.run_cons, step_jitBlock, ← hevents] at hall
  -- The last value is no number.
  have hlast := congrArg (List.map Prod.snd) h.lines
  rw [hall.finish, map_snd_labelled, List.map_map] at hlast
  have hnone : none ∈ List.replicate (slot (intervals ms secfirstline_gl r.secrxTime))
      (some (0 : ℚ)) ++ [none] := by simp
  change _ ++ [none] = _ at hlast
  rw [Binning.run, List.foldl_nil] at hlast
  rw [hlast] at hnone
  obtain ⟨k, -, hk⟩ := List.mem_map.1 hnone
  cases hk

/-- If the records of a flow are received in order, the lines of its jitter and of its delay
    are the means of their intervals, computed without a division by zero, if and only if the
    flow has more than one record. -/
theorem elabsplit_means_iff (o : SeriesOptions ℚ) (hjit : o.flagjit = true)
    (hdel : o.flagdel = true) (hmsjit : 0 < o.msjitter) (hmsdel : 0 < o.msdelay)
    {secfirstline_gl : ℚ} {log : List (Info ℚ)} (hne : log ≠ [])
    (hgl : ∀ r ∈ log.head?, secfirstline_gl ≤ r.secrxTime)
    (hsorted : (log.map Info.secrxTime).Pairwise (· ≤ ·)) :
    (MeanLines o.msjitter secfirstline_gl log (differences log)
        (elabFlow o secfirstline_gl log).jit ∧
      MeanLines o.msdelay secfirstline_gl log (log.map fun r => (r.secrxTime, r.currentdelay))
        (elabFlow o secfirstline_gl log).del) ↔ 2 ≤ log.length := by
  obtain ⟨r, log, rfl⟩ := List.exists_cons_of_ne_nil hne
  have hr : secfirstline_gl ≤ r.secrxTime := hgl r rfl
  have hall : ∀ x ∈ r :: log, secfirstline_gl ≤ x.secrxTime := by
    intro x hx
    rcases List.mem_cons.1 hx with rfl | hx
    · exact hr
    · exact hr.trans ((List.pairwise_cons.1 hsorted).1 _ (List.mem_map_of_mem hx))
  simp only [elabFlow_cons, if_pos hjit, if_pos hdel]
  refine (and_iff_left (meanLines_del hmsdel hall hsorted)).trans ?_
  rcases log with _ | ⟨r', log⟩
  · exact iff_of_false (not_meanLines_jit hmsjit hr _) (by simp)
  · exact iff_of_true (meanLines_jit hmsjit hall hsorted) (by simp)

/-- Both series of the records above. -/
theorem elabsplit_means_apart :
    MeanLines 1000 86396 secondsApart (differences secondsApart)
        (elabFlow everySecond 86396 secondsApart).jit ∧
      MeanLines 1000 86396 secondsApart (secondsApart.map fun r => (r.secrxTime, r.currentdelay))
        (elabFlow everySecond 86396 secondsApart).del :=
  (elabsplit_means_iff everySecond rfl rfl (by decide +kernel) (by decide +kernel) (by decide)
    (by decide +kernel) (by decide +kernel)).2 (by decide)

/-- The jitter of a single record is divided by zero. -/
theorem jit_single : (elabFlow everySecond 86396 [lastOfDay]).jit.map Prod.snd =
      [some 0, some 0, some 0, none] ∧
    ¬ (MeanLines 1000 86396 [lastOfDay] (differences [lastOfDay])
        (elabFlow everySecond 86396 [lastOfDay]).jit ∧
      MeanLines 1000 86396 [lastOfDay] [(lastOfDay.secrxTime, lastOfDay.currentdelay)]
        (elabFlow everySecond 86396 [lastOfDay]).del) := by
  have hjit : (elabFlow everySecond 86396 [lastOfDay]).jit.map Prod.snd =
      [some 0, some 0, some 0, none] := by decide +kernel
  refine ⟨hjit, ?_⟩
  rintro ⟨h, -⟩
  have hlast := h.lines
  have hlen : (elabFlow everySecond 86396 [lastOfDay]).jit.length = 4 := by decide +kernel
  have hne : (elabFlow everySecond 86396 [lastOfDay]).jit ≠ (List.range 4).map fun k : ℕ =>
      ((k : ℚ) * (1000 / 1000),
        some (mean (ofInterval 1000 86396 k (differences [lastOfDay])))) := by
    decide +kernel
  rw [hlen] at hlast
  exact hne hlast

/-! ## The packets lost -/

/-- When the numbers increase, the loss counter of the series is what the greatest number is
    ahead of the records. -/
theorem foldl_totalpktloss {seqs : List UInt32} (h : (seqs.map UInt32.toNat).Pairwise (· < ·)) :
    seqs.foldl (fun (c : ℕ × ℕ) s =>
        (c.1 + 1, if s.toNat > c.1 + 1 + c.2 then s.toNat - (c.1 + 1) else c.2)) (0, 0) =
      (seqs.length, top (seqs.map UInt32.toNat) - seqs.length) := by
  induction seqs using List.reverseRecOn with
  | nil => rfl
  | append_singleton seqs s ih =>
    rw [List.map_append, List.pairwise_append, List.map_singleton] at h
    obtain ⟨hincr, -, hlt⟩ := h
    have hs : top (seqs.map UInt32.toNat) < s.toNat ∨ seqs = [] := by
      by_cases hnil : seqs = []
      · exact .inr hnil
      · exact .inl (hlt _ (top_mem (by simpa using hnil)) _ (List.mem_singleton_self _))
    rw [List.foldl_concat, ih hincr, List.map_append, List.map_singleton, top_concat,
      List.length_append, List.length_singleton]
    refine Prod.ext rfl ?_
    rcases hs with hs | rfl
    · dsimp only
      split_ifs <;> omega
    · have htop : top [] = 0 := rfl
      simp only [List.map_nil, List.length_nil, htop]
      split_ifs <;> omega

/-- The lines of the packets lost are those of a series of intervals. -/
theorem exists_pkt (o : SeriesOptions ℚ) (hflag : o.flagpkt = true) (hms : 0 < o.mspktloss)
    {secfirstline_gl : ℚ} {log : List (Info ℚ)} (hne : log ≠ [])
    (hgl : ∀ r ∈ log, secfirstline_gl ≤ r.secrxTime) : ∃ s : Binning.State PktTemp ℕ,
      s = (pktBlock.binning o.mspktloss).run ⟨[], ⟨0, 0, 0⟩⟩
        (slots o.mspktloss secfirstline_gl (pktEvents log)) ∧
      (elabFlow o secfirstline_gl log).pkt.map Prod.snd = s.out ++ [s.acc.temppktloss] := by
  obtain ⟨r, log, rfl⟩ := List.exists_cons_of_ne_nil hne
  have hrefines := Block.refines_records pktBlock hms (fun _ => rfl) rfl (r.secrxTime, r.seqNum)
    (pktEvents log) (by simpa [pktEvents] using hgl)
  refine ⟨_, rfl, ?_⟩
  rw [elabFlow_cons, if_pos hflag]
  exact (congrArg _ hrefines.finish).trans (map_snd_labelled _)

/-- When the numbers increase, the lines of the packets lost amount to what the greatest number
    is ahead of the records, wherever the records are. -/
theorem sum_pkt (o : SeriesOptions ℚ) (hflag : o.flagpkt = true) (hms : 0 < o.mspktloss)
    {secfirstline_gl : ℚ} {log : List (Info ℚ)} (hne : log ≠ [])
    (hincr : (seqNums log).Pairwise (· < ·)) (hgl : ∀ r ∈ log, secfirstline_gl ≤ r.secrxTime) :
    ((elabFlow o secfirstline_gl log).pkt.map Prod.snd).sum = top (seqNums log) - log.length := by
  obtain ⟨s, hs, hpkt⟩ := exists_pkt o hflag hms hne hgl
  have hseqs : (log.map Info.seqNum).map UInt32.toNat = seqNums log := by
    rw [List.map_map]
    rfl
  -- What is written and what is open are the packets lost in total.
  have hsum := Binning.sum_run (b := pktBlock.binning o.mspktloss) (w := fun v : ℕ => (v : ℤ))
    (m := fun t : PktTemp => (t.temppktloss : ℤ) - t.totalpktloss) (c := fun _ => 0)
    (fun t => by simp [BlockKind.binning, pktBlock]; ring) (fun t seqNum => by
      simp only [BlockKind.binning, pktBlock, PktTemp.add, add_zero]
      split_ifs
      · dsimp only
        omega
      · rfl) ⟨[], ⟨0, 0, 0⟩⟩ (slots o.mspktloss secfirstline_gl (pktEvents log))
  have htotal := Binning.proj_run (b := pktBlock.binning o.mspktloss)
    (g := fun t : PktTemp => (t.pktpktloss, t.totalpktloss)) (h := fun c (seqNum : UInt32) =>
      (c.1 + 1, if seqNum.toNat > c.1 + 1 + c.2 then seqNum.toNat - (c.1 + 1) else c.2))
    (fun t => rfl) (fun t seqNum => by
      simp only [BlockKind.binning, pktBlock, PktTemp.add]
      split_ifs <;> rfl) ⟨[], ⟨0, 0, 0⟩⟩ (slots o.mspktloss secfirstline_gl (pktEvents log))
  have hsnd : (slots o.mspktloss secfirstline_gl (pktEvents log)).map Prod.snd =
      log.map Info.seqNum := by
    rw [slots, pktEvents, List.map_map, List.map_map]
    rfl
  rw [← hs, hsnd, foldl_totalpktloss (hseqs ▸ hincr), hseqs, List.length_map] at htotal
  have hacc : s.acc.totalpktloss = top (seqNums log) - log.length := congrArg Prod.snd htotal
  rw [← hs] at hsum
  rw [← Nat.cast_list_sum] at hsum
  simp only [List.map_nil, List.sum_nil, List.map_const', List.sum_replicate, nsmul_zero, sub_self,
    add_zero] at hsum
  rw [hpkt, List.sum_append, List.sum_singleton, ← hacc]
  omega

/-- When the numbers of a flow increase, the packets lost of its entry are those missing, as
    far as the duplicates tell. -/
theorem decode_pktloss (flagfilter : ℕ) {log : List (Info ℚ)} {k : FlowKey} (hne : log ≠ [])
    (hflow : ∀ infos ∈ log, infos.key = k) (hincr : (seqNums log).Pairwise (· < ·)) :
    ∃ f, decode flagfilter log = [f] ∧ f.pktloss.toNat = missed (seqNums log) := by
  have htop : top (seqNums log) < 2 ^ 32 := by
    rw [top, Finset.sup_lt_iff (by norm_num)]
    intro s hs
    obtain ⟨infos, -, rfl⟩ := List.mem_map.1 (List.mem_toFinset.1 hs)
    exact infos.seqNum.toNat_lt
  suffices h : ∃ f, decode flagfilter log = [f] ∧
      f.Counts (seqNums log) ∧ f.pktdup.toNat = excess (seqNums log) by
    obtain ⟨f, hf, hcounts, hdup⟩ := h
    exact ⟨f, hf, by rw [hcounts.pktloss, missed, hdup]⟩
  refine decode_one_flow (P := fun f l => f.Counts l ∧ f.pktdup.toNat = excess l) flagfilter hflow
    List.prefix_rfl hne ?_ ?_
  · exact fun infos txTime rxTime => ⟨counts_firstline infos _ _, (excess_singleton _).symm⟩
  · rintro f l infos txTime rxTime hl hpre ⟨hcounts, hdup⟩
    have hincr' : (l ++ [infos.seqNum.toNat]).Pairwise (· < ·) := hincr.sublist hpre.sublist
    obtain ⟨hexcess, hlen, -⟩ := excess_of_pairwise (by simp) hincr'
    have htop' : top (l ++ [infos.seqNum.toNat]) < 2 ^ 32 :=
      (top_le fun s hs => le_top (hpre.subset hs)).trans_lt htop
    have hlt : l.length + 1 < 2 ^ 64 := by
      rw [List.length_append, List.length_singleton] at hlen
      omega
    have hpos : 0 < max (top l) infos.seqNum.toNat :=
      lt_max_of_lt_right (Nat.zero_lt_of_lt ((List.pairwise_append.1 hincr').2.2 _ (top_mem hl) _
        (List.mem_singleton_self _)))
    refine ⟨counts_nextline hcounts hl infos hpos txTime rxTime hlt,
      toNat_pktdup_eq_excess hcounts hl infos txTime rxTime hdup hlt ?_⟩
    rw [hexcess]
    split_ifs <;> norm_num

/-- When the numbers of a flow increase, the packets lost of its series are those of its entry
    if and only if the entry of a single record has nothing to miss, and that of a flow from
    the number `0` on misses nothing either. -/
theorem elabsplit_pkt_iff (flagfilter : ℕ) (o : SeriesOptions ℚ) (hflag : o.flagpkt = true)
    (hms : 0 < o.mspktloss) {secfirstline_gl : ℚ} {log : List (Info ℚ)} {k : FlowKey}
    (hne : log ≠ []) (hflow : ∀ infos ∈ log, infos.key = k)
    (hincr : (seqNums log).Pairwise (· < ·)) (hgl : ∀ r ∈ log, secfirstline_gl ≤ r.secrxTime) :
    (∃ f, decode flagfilter log = [f] ∧
      ((elabFlow o secfirstline_gl log).pkt.map Prod.snd).sum = f.pktloss.toNat) ↔
    (∀ s, seqNums log = [s] → s ≤ 1) ∧
      ([0, 1] <+: seqNums log → top (seqNums log) < log.length) := by
  obtain ⟨f, hf, hloss⟩ := decode_pktloss flagfilter hne hflow hincr
  have hlen : (seqNums log).length = log.length := List.length_map _
  have hne' : seqNums log ≠ [] := fun h => hne (List.map_eq_nil_iff.1 h)
  obtain ⟨hexcess, hle, hcases⟩ := excess_of_pairwise hne' hincr
  have hsum : (∃ f, decode flagfilter log = [f] ∧
      ((elabFlow o secfirstline_gl log).pkt.map Prod.snd).sum = f.pktloss.toNat) ↔
      top (seqNums log) - log.length = missed (seqNums log) := by
    rw [sum_pkt o hflag hms hne hincr hgl, hf, ← hloss]
    exact ⟨fun ⟨g, hg, h⟩ => (List.singleton_inj.1 hg) ▸ h, fun h => ⟨f, rfl, h⟩⟩
  rw [hsum, missed, hexcess]
  by_cases hone : (seqNums log).length = 1
  · obtain ⟨s, hs⟩ := List.length_eq_one_iff.1 hone
    have htop : top [s] = s := by simp [top]
    simp only [hs, htop, ← hlen, List.cons_prefix_cons]
    simp
    omega
  · have hpos : 0 < (seqNums log).length := List.length_pos_iff.2 hne'
    have hsingle : ∀ s, seqNums log = [s] → s ≤ 1 := fun s hs => absurd (by rw [hs]; rfl) hone
    rw [if_neg (by omega), and_iff_right hsingle, ← hlen]
    by_cases h01 : [0, 1] <+: seqNums log
    · rw [if_pos h01, imp_iff_right h01]
      omega
    · rw [if_neg h01]
      exact iff_of_true (by omega) fun h => absurd h h01

/-- The numbers of the records above, which skip 2, 4 and 5. -/
theorem elabsplit_pkt_apart : ∃ f, decode 0 secondsApart = [f] ∧
    ((elabFlow everySecond 86396 secondsApart).pkt.map Prod.snd).sum = f.pktloss.toNat :=
  (elabsplit_pkt_iff 0 everySecond rfl (by decide +kernel) (k := lastOfDay.key) (by decide)
    (by decide +kernel) (by decide +kernel) (by decide +kernel)).2
    ⟨fun _ h => by simp [secondsApart, seqNums] at h, by decide +kernel⟩

/-- When the first packet of a flow that arrives is its only one, the packets before it are lost
    in the series, but not in the summary. -/
theorem pkt_single : (∀ infos ∈ numbered [5], infos.key = lastOfDay.key) ∧
    (seqNums (numbered [5])).Pairwise (· < ·) ∧
    (∀ r ∈ numbered [5], 86396 ≤ r.secrxTime) ∧
    (elabFlow everySecond 86396 (numbered [5])).pkt.map Prod.snd = [0, 0, 0, 4] ∧
    ¬ ∃ f, decode 0 (numbered [5]) = [f] ∧
      ((elabFlow everySecond 86396 (numbered [5])).pkt.map Prod.snd).sum = f.pktloss.toNat := by
  refine ⟨by decide +kernel, by decide +kernel, by decide +kernel, by decide +kernel, ?_⟩
  rintro ⟨f, hf, heq⟩
  have hne : (decode 0 (numbered [5])).map (·.pktloss.toNat) ≠
      [((elabFlow everySecond 86396 (numbered [5])).pkt.map Prod.snd).sum] := by decide +kernel
  exact hne (by rw [hf, heq, List.map_singleton])

end Ditg
