import Mathlib.Data.List.ReduceOption
import Ditg.Dec.MergeRows
import Ditg.Dec.Summary

/-!
# All statistics in one file

With the option `-c`, `elabsplit` writes the four series of each flow with the same interval,
and `mergeCombined` adds up the lines of all flows. It only looks for the end of the bitrates,
so that the other series have to be as long. They are, since the blocks of `elabsplit` all
close the same intervals (`edge_records`).

* `mergeCombined_iff`: the columns of the file are the last ones that `merge` would write for
  the four series, unless the scans of `memFile` miss the last flow.
-/

namespace Ditg

open Memory Text

section Combined

variable {F : Type} [CDouble F]

/-! ## The model -/

/-- What is read of the lines that `elabsplit` has written for a flow: `lf` is the number that
    is read of one printed with `%lf`, and `nan` the one read of a quotient by zero. -/
def ElabFiles.series (lf : F → F) (nan : F) (files : ElabFiles F) : ℕ → Series F
  | 1 => files.bit.map fun line => (lf line.1, lf line.2)
  | 2 => files.jit.map fun line => (lf line.1, line.2.elim nan lf)
  | 3 => files.del.map fun line => (lf line.1, line.2.elim nan lf)
  | 4 => files.pkt.map fun line => (lf line.1, ofULong line.2)
  | _ => []

/-- The series that are asked for, by their types. -/
def SeriesOptions.types (o : SeriesOptions F) : List ℕ :=
  [1, 2, 3, 4].filter fun
    | 1 => o.flagbit
    | 2 => o.flagjit
    | 3 => o.flagdel
    | _ => o.flagpkt

/-- The files of series after `elabsplit`, which goes through the entries of `memFile` and
    reads the records of their files. -/
def elabsplit (o : SeriesOptions F) (secfirstline_gl : F) (lf : F → F) (nan : F)
    (s : SplitState F) (seriesOf : List UInt8 → Series F) : Option (List UInt8 → Series F) :=
  (flowEntries s.memFile).map fun flows =>
    (flows.product o.types).foldl (fun seriesOf file =>
      Function.update seriesOf (file.1.FileName ++ extension file.2)
        ((elabFlow o secfirstline_gl (s.files file.1.FileName).reduceOption).series lf nan file.2))
      seriesOf

/-- The option `-c`: all series, with one interval. -/
def combinedOptions (ms : F) : SeriesOptions F := ⟨true, true, true, true, ms, ms, ms, ms⟩

/-! ## The blocks of a flow -/

section Edge

variable {A V E : Type} (kind : BlockKind F A V E) (ms secfirstline_gl secfirstline_loc : F)

/-- Where the open interval of a block is: its number and its left edge. -/
def Block.edge (b : Block F A V) : ℕ × F := (b.intclosed, b.secinit)

/-- Where the open interval is after the intervals before a time are closed. -/
def advance (edge : ℕ × F) (secrxTime : F) : ℕ × F :=
  if secrxTime - edge.2 > ms / ((1000 : ℤ) : F) then
    let temporary := deltatime secfirstline_gl secrxTime * ((1000 : ℤ) : F) / ms
    let intclosed := edge.1 +
      (CDouble.trunc (ceil temporary - ofULong edge.1 - ((1 : ℤ) : F))).toNat
    (intclosed, lineTime ms intclosed + secfirstline_gl)
  else edge

/-- Closing intervals writes a line for each, whatever its value. -/
theorem closeOne_iterate (b : Block F A V) (n : ℕ) :
    ((Block.closeOne kind ms secfirstline_gl secfirstline_loc)^[n] b).intclosed =
        b.intclosed + n ∧
      ((Block.closeOne kind ms secfirstline_gl secfirstline_loc)^[n] b).lines.map Prod.fst =
        b.lines.map Prod.fst ++ (List.range' b.intclosed n).map (lineTime ms) := by
  induction n with
  | zero => simp
  | succ n ih =>
    obtain ⟨hclosed, hlines⟩ := ih
    rw [Function.iterate_succ_apply', Block.closeOne]
    split_ifs <;>
      simp only [List.map_append, hlines, hclosed, List.range'_concat, List.map_cons,
        List.map_nil, List.append_assoc, Nat.one_mul, true_and, Nat.add_assoc]

/-- The lines have the times of the intervals that are closed. -/
def Block.TimedLines (b : Block F A V) : Prop :=
  b.lines.map Prod.fst = (List.range b.intclosed).map (lineTime ms)

theorem edge_close (b : Block F A V) (secrxTime : F) :
    (b.close kind ms secfirstline_gl secfirstline_loc secrxTime).edge =
        advance ms secfirstline_gl b.edge secrxTime ∧
      (b.TimedLines ms →
        (b.close kind ms secfirstline_gl secfirstline_loc secrxTime).TimedLines ms) := by
  rw [Block.close, advance]
  by_cases h : secrxTime - b.secinit > ms / ((1000 : ℤ) : F)
  · rw [if_pos h, if_pos (show secrxTime - b.edge.2 > _ from h)]
    dsimp only [Block.edge]
    obtain ⟨hclosed, hlines⟩ := closeOne_iterate kind ms secfirstline_gl secfirstline_loc b
      (CDouble.trunc (ceil (deltatime secfirstline_gl secrxTime * ((1000 : ℤ) : F) / ms) -
        ofULong b.intclosed - ((1 : ℤ) : F))).toNat
    refine ⟨by rw [hclosed], fun htimed => ?_⟩
    rw [Block.TimedLines] at htimed ⊢
    dsimp only
    rw [hlines, htimed, hclosed, ← List.map_append, List.range_eq_range', List.range_eq_range']
    rw [← List.range'_append_1, Nat.zero_add]
  · rw [if_neg h, if_neg (show ¬ secrxTime - b.edge.2 > _ from h)]
    exact ⟨rfl, id⟩

/-- Where the open interval is after the records depends on their times only. -/
theorem edge_records (b : Block F A V) (es : List (F × E)) :
    (b.records kind ms secfirstline_gl secfirstline_loc es).edge =
        (es.map Prod.fst).foldl (advance ms secfirstline_gl) b.edge ∧
      (b.TimedLines ms →
        (b.records kind ms secfirstline_gl secfirstline_loc es).TimedLines ms) := by
  induction es generalizing b with
  | nil => exact ⟨rfl, id⟩
  | cons e es ih =>
    obtain ⟨hedge, htimed⟩ := edge_close kind ms secfirstline_gl secfirstline_loc b e.1
    obtain ⟨hedges, htimeds⟩ :=
      ih (b.record kind ms secfirstline_gl secfirstline_loc e.1 e.2)
    refine ⟨?_, fun h => htimeds (htimed h)⟩
    rw [List.map_cons, List.foldl_cons, ← hedge]
    exact hedges

/-- The intervals of a flow, from the times of its records. -/
def intervalsOf (log : List (Info F)) : ℕ :=
  ((log.map Info.secrxTime).foldl (advance ms secfirstline_gl) (0, secfirstline_gl)).1 + 1

/-- The series of a block has a line for each interval. -/
theorem map_fst_finish {es : List (F × E)} {log : List (Info F)}
    (hes : es.map Prod.fst = log.map Info.secrxTime) :
    (((Block.firstline kind secfirstline_gl).records kind ms secfirstline_gl secfirstline_loc
        es).finish kind ms).map Prod.fst =
      (List.range (intervalsOf ms secfirstline_gl log)).map (lineTime ms) := by
  obtain ⟨hedge, htimed⟩ := edge_records kind ms secfirstline_gl secfirstline_loc
    (Block.firstline kind secfirstline_gl) es
  have hlines := htimed rfl
  rw [Block.TimedLines] at hlines
  rw [hes] at hedge
  have hclosed := congrArg Prod.fst hedge
  rw [Block.finish, List.map_append, hlines, intervalsOf, List.range_succ, List.map_append]
  exact congrArg (fun n => (List.range n).map (lineTime ms) ++ [lineTime ms n]) hclosed

end Edge

theorem map_fst_jitEvents (lastdelay : F) (log : List (Info F)) :
    (jitEvents lastdelay log).map Prod.fst = log.map Info.secrxTime := by
  induction log generalizing lastdelay with
  | nil => rfl
  | cons r log ih => rw [jitEvents, List.map_cons, List.map_cons, ih]

variable (ms secfirstline_gl : F) (lf : F → F) (nan : F)

/-- With one interval, the four series of a flow have the same times. -/
theorem map_fst_series (log : List (Info F)) {type : ℕ} (htype : type ∈ [1, 2, 3, 4]) :
    ((elabFlow (combinedOptions ms) secfirstline_gl log).series lf nan type).map Prod.fst =
      (List.range (intervalsOf ms secfirstline_gl log)).map fun k => lf (lineTime ms k) := by
  have htimes {V : Type} {lines : List (F × V)} (g : V → F)
      (h : lines.map Prod.fst =
        (List.range (intervalsOf ms secfirstline_gl log)).map (lineTime ms)) :
      (lines.map fun line => (lf line.1, g line.2)).map Prod.fst =
        (List.range (intervalsOf ms secfirstline_gl log)).map fun k => lf (lineTime ms k) := by
    have hlf := congrArg (List.map lf) h
    rw [List.map_map, List.map_map] at hlf
    rw [List.map_map]
    exact hlf
  have hevents {E : Type} (g : Info F → E) (l : List (Info F)) :
      (l.map fun r => (r.secrxTime, g r)).map Prod.fst = l.map Info.secrxTime := by
    rw [List.map_map]
    rfl
  simp only [List.mem_cons, List.not_mem_nil, or_false] at htype
  rcases log with _ | ⟨r, log⟩
  · rcases htype with rfl | rfl | rfl | rfl <;> rfl
  · rw [elabFlow_cons]
    rcases htype with rfl | rfl | rfl | rfl
    · exact htimes lf (map_fst_finish bitBlock _ _ _ (hevents _ _))
    · exact htimes (·.elim nan lf) (map_fst_finish jitBlock _ _ _ (map_fst_jitEvents _ _))
    · exact htimes (·.elim nan lf) (map_fst_finish delBlock _ _ _ (hevents _ _))
    · exact htimes ofULong (map_fst_finish pktBlock _ _ _ (hevents _ _))

/-! ## The rows of all statistics -/

/-- The series of a flow are as long as each other. -/
structure FlowSeries.Even (s : FlowSeries F) : Prop where
  del : s.del.length = s.bit.length
  jit : s.jit.length = s.bit.length
  pkt : s.pkt.length = s.bit.length

/-- The series of a flow from a row on. -/
def FlowSeries.drop (k : ℕ) (s : FlowSeries F) : FlowSeries F :=
  ⟨s.bit.drop k, s.del.drop k, s.jit.drop k, s.pkt.drop k⟩

omit [CDouble F] in
/-- Series of one length are exhausted in the same row. -/
theorem FlowSeries.Even.iterate_next {s : FlowSeries F} (h : s.Even) (k : ℕ) :
    FlowSeries.next^[k] s = s.drop k := by
  induction k with
  | zero => rfl
  | succ k ih =>
    rw [Function.iterate_succ_apply', ih, FlowSeries.next, FlowSeries.drop, FlowSeries.drop]
    split_ifs with hnil
    · have hlen : s.bit.length ≤ k := List.drop_eq_nil_iff.1 hnil
      have hdrop {series : Series F} (hs : series.length = s.bit.length) :
          series.drop k = series.drop (k + 1) := by
        rw [List.drop_eq_nil_of_le (by omega), List.drop_eq_nil_of_le (by omega)]
      rw [hdrop rfl, hdrop h.del, hdrop h.jit, hdrop h.pkt]
    · simp only [List.tail_drop]

omit [CDouble F] in
theorem iterate_map_next {flows : List (FlowSeries F)} (h : ∀ s ∈ flows, s.Even) (k : ℕ) :
    (List.map FlowSeries.next)^[k] flows = flows.map (FlowSeries.drop k) := by
  have hiterate (k : ℕ) (l : List (FlowSeries F)) :
      (List.map FlowSeries.next)^[k] l = l.map FlowSeries.next^[k] := by
    induction k generalizing l with
    | zero => exact (List.map_id l).symm
    | succ k ih => rw [Function.iterate_succ_apply, ih, List.map_map, ← Function.iterate_succ]
  rw [hiterate]
  exact List.map_congr_left fun s hs => (h s hs).iterate_next k

theorem nextValue_drop {k : ℕ} {series : Series F} {line : F × F}
    (h : series[k]? = some line) : nextValue (series.drop k) = line.2 := by
  rw [← List.head?_drop] at h
  rcases hdrop : series.drop k with _ | ⟨line', rest⟩
  · rw [hdrop] at h
    cases h
  · rw [hdrop, List.head?_cons, Option.some_inj] at h
    rw [← h]
    rfl

/-- Row `k` of all statistics after the flows `p`. -/
structure CombinedAt (time : F) (k : ℕ) (p : List (FlowSeries F)) (row : CombinedRow F) :
    Prop where
  flagbreak : row.flagbreak = p.countP (·.bit.length ≤ k)
  flagfirstfile : row.flagfirstfile = true ↔ ∃ s ∈ p, k < s.bit.length
  bit : row.bit = rowTotal k (p.map FlowSeries.bit)
  del : row.del = rowTotal k (p.map FlowSeries.del)
  jit : row.jit = rowTotal k (p.map FlowSeries.jit)
  pkt : row.pkt = rowTotal k (p.map FlowSeries.pkt)
  printed : row.printed = if row.flagfirstfile then [.time time] else []

theorem combinedAt_start (time : F) (k : ℕ) : CombinedAt time k [] CombinedRow.start where
  flagbreak := rfl
  flagfirstfile := by simp [CombinedRow.start]
  bit := rfl
  del := rfl
  jit := rfl
  pkt := rfl
  printed := rfl

theorem CombinedAt.read {time : F} {k : ℕ} {p : List (FlowSeries F)} {row : CombinedRow F}
    (h : CombinedAt time k p row) {s : FlowSeries F} (hs : s.Even)
    (htime : ∀ line, s.bit[k]? = some line → line.1 = time) :
    CombinedAt time k (p ++ [s]) (row.read (s.drop k)) := by
  have hhead : (s.bit.drop k).head? = s.bit[k]? := List.head?_drop
  have hexists : (∃ x ∈ p ++ [s], k < x.bit.length) ↔
      (∃ x ∈ p, k < x.bit.length) ∨ k < s.bit.length := by
    simp only [List.mem_append, List.mem_singleton, or_and_right, exists_or, exists_eq_left]
  have hconcat (g : FlowSeries F → Series F) : (p ++ [s]).map g = p.map g ++ [g s] := by
    rw [List.map_append, List.map_singleton]
  rw [CombinedRow.read]
  rcases hdrop : s.bit.drop k with _ | ⟨⟨time', value⟩, rest⟩
  · -- The other series are exhausted too.
    have hlen : s.bit.length ≤ k := List.drop_eq_nil_iff.1 hdrop
    have hnone {series : Series F} (hlen' : series.length = s.bit.length) :
        series[k]? = none := List.getElem?_eq_none (by omega)
    simp only [FlowSeries.drop, hdrop]
    refine ⟨?_, ?_, ?_, ?_, ?_, ?_, h.printed⟩
    · rw [List.countP_append, ← h.flagbreak, List.countP_singleton, if_pos (decide_eq_true hlen)]
    · rw [hexists, ← h.flagfirstfile, or_iff_left (not_lt.2 hlen)]
    · rw [hconcat, rowTotal_concat_none (hnone rfl), ← h.bit]
    · rw [hconcat, rowTotal_concat_none (hnone hs.del), ← h.del]
    · rw [hconcat, rowTotal_concat_none (hnone hs.jit), ← h.jit]
    · rw [hconcat, rowTotal_concat_none (hnone hs.pkt), ← h.pkt]
  · -- The other series go on, too.
    rw [hdrop, List.head?_cons] at hhead
    have hlen : k < s.bit.length := by
      rw [← not_le, ← List.drop_eq_nil_iff, hdrop]
      exact List.cons_ne_nil _ _
    obtain rfl : time' = time := htime _ hhead.symm
    have hvalue (g : FlowSeries F → Series F) (hg : (g s).length = s.bit.length) :
        rowTotal k ((p ++ [s]).map g) = rowTotal k (p.map g) + nextValue ((g s).drop k) := by
      have hget : (g s)[k]? = some ((g s).get ⟨k, hg ▸ hlen⟩) :=
        List.getElem?_eq_getElem _
      rw [hconcat, rowTotal_concat_some hget, nextValue_drop hget]
    have hcount : (p ++ [s]).countP (·.bit.length ≤ k) = p.countP (·.bit.length ≤ k) := by
      rw [List.countP_append, List.countP_singleton,
        if_neg fun h => not_le.2 hlen (of_decide_eq_true h), Nat.add_zero]
    have hbit := hvalue FlowSeries.bit rfl
    rw [hdrop, nextValue] at hbit
    simp only [FlowSeries.drop, hdrop]
    refine ⟨hcount.symm ▸ h.flagbreak, ?_, ?_, ?_, ?_, ?_, ?_⟩
    · rw [hexists]
      exact iff_of_true rfl (.inr hlen)
    · rw [hbit, h.bit]
    · rw [hvalue FlowSeries.del hs.del, h.del]
    · rw [hvalue FlowSeries.jit hs.jit, h.jit]
    · rw [hvalue FlowSeries.pkt hs.pkt, h.pkt]
    · rw [if_pos rfl, h.printed]
      split_ifs <;> rfl

/-- The row after all flows: it is ended, unless all bitrates are exhausted. -/
theorem CombinedAt.combinedRow {time : F} {k flownum : ℕ} {p : List (FlowSeries F)}
    {row : CombinedRow F} (h : CombinedAt time k p row) {flows : List (FlowSeries F)}
    (hne : flows ≠ []) (heven : ∀ s ∈ flows, s.Even)
    (htime : ∀ s ∈ flows, ∀ line, s.bit[k]? = some line → line.1 = time) :
    ∃ row', CombinedAt time k (p ++ flows) row' ∧
      combinedRow flownum (flows.map (FlowSeries.drop k)) row =
        if row'.flagbreak ≠ flownum then
          { row' with printed := row'.printed ++ [.value row'.bit, .value row'.del,
            .value row'.jit, .total row'.pkt] }
        else row' := by
  induction flows generalizing p row with
  | nil => exact absurd rfl hne
  | cons s flows ih =>
    have hread := h.read (heven s List.mem_cons_self) (htime s List.mem_cons_self)
    rw [List.map_cons, Ditg.combinedRow]
    by_cases hnil : flows = []
    · subst hnil
      refine ⟨_, hread, ?_⟩
      simp only [List.map_nil, true_and]
      rfl
    · obtain ⟨row', hrow', heq⟩ := ih hread hnil
        (fun x hx => heven x (List.mem_cons_of_mem _ hx))
        (fun x hx => htime x (List.mem_cons_of_mem _ hx))
      refine ⟨row', by rwa [List.append_assoc] at hrow', ?_⟩
      rw [← heq, if_neg fun h => hnil (List.map_eq_nil_iff.1 h.1)]

/-- A row of all statistics. -/
def statisticsRow (time : F) (k : ℕ) (bit del jit pkt : List (Series F)) : List (Printed F) :=
  [.time time, .value (rowTotal k bit), .value (rowTotal k del), .value (rowTotal k jit),
    .total (rowTotal k pkt)]

/-- What is printed of a row of all statistics. -/
theorem printed_combinedRow {time : F} {k : ℕ} {flows : List (FlowSeries F)}
    (heven : ∀ s ∈ flows, s.Even)
    (htime : ∀ s ∈ flows, ∀ line, s.bit[k]? = some line → line.1 = time) :
    (combinedRow flows.length (flows.map (FlowSeries.drop k)) .start).printed =
      if k < longest (flows.map FlowSeries.bit) then statisticsRow time k
        (flows.map FlowSeries.bit) (flows.map FlowSeries.del) (flows.map FlowSeries.jit)
        (flows.map FlowSeries.pkt) else [] := by
  by_cases hnil : flows = []
  · subst hnil
    rfl
  · obtain ⟨row, hrow, heq⟩ := (combinedAt_start time k).combinedRow hnil heven htime
    rw [List.nil_append] at hrow
    have hfirst := hrow.flagfirstfile
    have hexists : (∃ s ∈ flows, k < s.bit.length) ↔ k < longest (flows.map FlowSeries.bit) := by
      rw [lt_longest_iff]
      simp only [List.mem_map, exists_exists_and_eq_and]
    rw [hexists] at hfirst
    rw [heq]
    -- The loop ends when all bitrates are exhausted, which is when no time is printed.
    by_cases hlt : k < longest (flows.map FlowSeries.bit)
    · have hne : row.flagbreak ≠ flows.length := by
        rw [hrow.flagbreak]
        intro hall
        obtain ⟨s, hs, hlen⟩ := hexists.2 hlt
        exact absurd (of_decide_eq_true (List.countP_eq_length.1 hall s hs)) (not_le.2 hlen)
      rw [if_pos hne, if_pos hlt, statisticsRow, ← hrow.bit, ← hrow.del, ← hrow.jit, ← hrow.pkt]
      dsimp only
      rw [hrow.printed, if_pos (hfirst.2 hlt)]
      rfl
    · have hall : row.flagbreak = flows.length := by
        rw [hrow.flagbreak, List.countP_eq_length]
        intro s hs
        exact decide_eq_true (not_lt.1 fun h => hlt (hexists.1 ⟨s, hs, h⟩))
      rw [if_neg (not_not.2 hall), if_neg hlt, hrow.printed,
        if_neg fun h => hlt (hfirst.1 h)]

/-- The file of all statistics, from the series of the flows: a row for each line of the
    longest bitrate. -/
def statisticsFile (time : ℕ → F) (bit del jit pkt : List (Series F)) : List (Printed F) :=
  (List.range (longest bit)).flatMap fun k => statisticsRow (time k) k bit del jit pkt

/-- The series of a type, of all flows. -/
def seriesOfType (tbl : List GestioneFileLog) (seriesOf : List UInt8 → Series F) (type : ℕ) :
    List (Series F) :=
  tbl.map fun m => seriesOf (m.FileName ++ extension type)

/-- With as many entries in use as flows, and series of one length for each, all rows are
    written. -/
theorem mergeCombined_eq_some {memFile tbl : List GestioneFileLog}
    {seriesOf : List UInt8 → Series F} (hflows : flowEntries memFile = some tbl)
    (heven : ∀ m ∈ tbl, (flowSeries m seriesOf).Even) {time : ℕ → F}
    (htime : Timed time (seriesOfType tbl seriesOf 1)) {n : ℕ}
    (hn : longest (seriesOfType tbl seriesOf 1) < n) :
    mergeCombined tbl.length memFile seriesOf n = some (statisticsFile time
      (seriesOfType tbl seriesOf 1) (seriesOfType tbl seriesOf 3) (seriesOfType tbl seriesOf 2)
      (seriesOfType tbl seriesOf 4)) := by
  obtain ⟨flows, hflowsDef⟩ : ∃ flows, flows = tbl.map fun m => flowSeries m seriesOf := ⟨_, rfl⟩
  have hmap (g : FlowSeries F → Series F) :
      flows.map g = tbl.map fun m => g (flowSeries m seriesOf) := by
    rw [hflowsDef, List.map_map]
    rfl
  have hbit : seriesOfType tbl seriesOf 1 = flows.map FlowSeries.bit := (hmap FlowSeries.bit).symm
  have hdel : seriesOfType tbl seriesOf 3 = flows.map FlowSeries.del := (hmap FlowSeries.del).symm
  have hjit : seriesOfType tbl seriesOf 2 = flows.map FlowSeries.jit := (hmap FlowSeries.jit).symm
  have hpkt : seriesOfType tbl seriesOf 4 = flows.map FlowSeries.pkt := (hmap FlowSeries.pkt).symm
  have heven' : ∀ s ∈ flows, s.Even := by
    intro s hs
    rw [hflowsDef] at hs
    obtain ⟨m, hm, rfl⟩ := List.mem_map.1 hs
    exact heven m hm
  have hlen : flows.length = tbl.length := by rw [hflowsDef, List.length_map]
  rw [hbit] at htime hn
  have hrow (k : ℕ) := printed_combinedRow (k := k) heven' fun s hs line =>
    htime s.bit (List.mem_map_of_mem hs) k line
  rw [mergeCombined, hflows, Option.bind_some, ← hflowsDef, hbit, hdel, hjit, hpkt, statisticsFile,
    rows_eq_some (fun flows : List (FlowSeries F) => flows.length = tbl.length)
      (fun flows => longest (flows.map FlowSeries.bit)) (fun _ hlen => combinedRow_done hlen)
      (fun flows hlen => ⟨by rw [List.length_map, hlen], by rw [map_bit_next, longest_tail]⟩)
      hlen hn,
    List.range_succ, List.flatMap_append, List.flatMap_singleton]
  simp only [iterate_map_next heven', ← hlen, hrow, lt_irrefl, if_false, List.append_nil]
  congr 1
  apply List.flatMap_congr
  intro k hk
  rw [if_pos (List.mem_range.1 hk)]

/-! ## The entries in use -/

/-- The flows of `memFile`: of those that are not free, every one has one entry, and is a flow of
    the log. -/
structure LiveKeys (log : List (Info F)) (keys : List FlowKey) : Prop where
  length : keys.length = MaxNumFlow
  nodup : (keys.filter (·.flowId ≠ freeId)).Nodup
  mem : ∀ k ∈ keys.filter (·.flowId ≠ freeId), k ∈ flowKeys log

omit [CDouble F] in
theorem liveKeys_init (files : Files F) :
    LiveKeys ([] : List (Info F)) ((SplitState.init files).memFile.map GestioneFileLog.key) := by
  have hnil : ((SplitState.init files).memFile.map GestioneFileLog.key).filter
      (·.flowId ≠ freeId) = [] := by
    rw [List.filter_eq_nil_iff]
    intro k hk
    obtain ⟨m, hm, rfl⟩ := List.mem_map.1 hk
    rw [List.eq_of_mem_replicate hm]
    decide
  refine ⟨?_, ?_, ?_⟩
  · rw [List.length_map, SplitState.init, List.length_replicate]
  · rw [hnil]
    exact List.nodup_nil
  · rw [hnil]
    exact fun _ h => absurd h List.not_mem_nil

omit [CDouble F] in
/-- Writing to a stream changes no flow of the table. -/
theorem map_key_write (s : SplitState F) (i : ℕ) (infos : Info F) :
    (s.write i infos).memFile.map GestioneFileLog.key = s.memFile.map GestioneFileLog.key := by
  rw [SplitState.write]
  rcases hm : s.memFile[i]? with _ | m
  · rfl
  · obtain ⟨hi, rfl⟩ := List.getElem?_eq_some_iff.1 hm
    have hi' : i < (s.memFile.map GestioneFileLog.key).length := by rwa [List.length_map]
    have hkey : GestioneFileLog.key { s.memFile[i] with
        FileId := { s.memFile[i].FileId with pos := s.memFile[i].FileId.pos + 1 } } =
        (s.memFile.map GestioneFileLog.key)[i] := by
      rw [List.getElem_map]
      rfl
    dsimp only
    rw [List.map_set, hkey, List.set_getElem_self]

omit [CDouble F] in
/-- A free entry that is taken is one more in use, if it is not free again. -/
theorem LiveKeys.set {log : List (Info F)} {keys : List FlowKey} (h : LiveKeys log keys) {i : ℕ}
    (hi : i < keys.length) (hfree : keys[i].flowId = freeId) {r : Info F} (hnew : r.key ∉ keys) :
    LiveKeys (log ++ [r]) (keys.set i r.key) := by
  have hsub : ∀ k ∈ flowKeys log, k ∈ flowKeys (log ++ [r]) := by
    intro k hk
    obtain ⟨infos, hinfos, rfl⟩ := mem_flowKeys.1 hk
    exact mem_flowKeys.2 ⟨infos, List.mem_append_left _ hinfos, rfl⟩
  have hperm : ((keys.set i r.key).filter (·.flowId ≠ freeId)).Perm
      (if r.key.flowId ≠ freeId then r.key :: keys.filter (·.flowId ≠ freeId)
        else keys.filter (·.flowId ≠ freeId)) := by
    have hsplit : keys.filter (·.flowId ≠ freeId) = (keys.take i).filter (·.flowId ≠ freeId) ++
        (keys.drop (i + 1)).filter (·.flowId ≠ freeId) := by
      conv_lhs => rw [← List.take_append_drop i keys, List.drop_eq_getElem_cons hi]
      rw [List.filter_append, List.filter_cons_of_neg (by simpa using hfree)]
    rw [List.set_eq_take_append_cons_drop, if_pos hi, List.filter_append, hsplit]
    split_ifs with hr
    · rw [List.filter_cons_of_pos (by simpa using hr)]
      exact List.perm_middle
    · rw [List.filter_cons_of_neg (by simpa using hr)]
  refine ⟨by rw [List.length_set, h.length], ?_, ?_⟩
  · rw [hperm.nodup_iff]
    split_ifs with hr
    · exact List.nodup_cons.2 ⟨fun hm => hnew (List.mem_filter.1 hm).1, h.nodup⟩
    · exact h.nodup
  · intro k hk
    rw [hperm.mem_iff] at hk
    split_ifs at hk
    · rcases List.mem_cons.1 hk with rfl | hk
      · exact mem_flowKeys.2 ⟨r, by simp, rfl⟩
      · exact hsub k (h.mem k hk)
    · exact hsub k (h.mem k hk)

omit [CDouble F] in
/-- The table after the records of a log, if there is one. -/
theorem liveKeys_splitAll {files : Files F} {log : List (Info F)} {s : SplitState F}
    (hs : splitAll files log = some s) : LiveKeys log (s.memFile.map GestioneFileLog.key) := by
  induction log using List.reverseRecOn generalizing s with
  | nil =>
    obtain rfl := Option.some_inj.1 hs
    exact liveKeys_init files
  | append_singleton log r ih =>
    rw [splitAll, List.foldlM_append, ← splitAll] at hs
    obtain ⟨s₀, hs₀, hs⟩ := Option.bind_eq_some_iff.1 hs
    have h := ih hs₀
    have hstep : split s₀ r = some s := by simpa using hs
    rw [split] at hstep
    rcases hfound : FlowPresent s₀.memFile r with _ | i
    · rcases hfree : s₀.memFile.findIdx? (·.flowId = freeId) with _ | i
      · simp [hfound, hfree] at hstep
      · simp only [hfound, hfree, Option.some_inj] at hstep
        obtain ⟨hi, hid, -⟩ := List.findIdx?_eq_some_iff_getElem.1 hfree
        have hnew : r.key ∉ s₀.memFile.map GestioneFileLog.key := by
          intro hmem
          obtain ⟨m, hm, hk⟩ := List.mem_map.1 hmem
          have hsame := List.findIdx?_eq_none_iff.1 hfound m hm
          rw [← Bool.not_eq_true] at hsame
          exact hsame ((sameEntry_iff r m).2 hk)
        have hi' : i < (s₀.memFile.map GestioneFileLog.key).length := by rwa [List.length_map]
        have hid' : (s₀.memFile.map GestioneFileLog.key)[i].flowId = freeId := by
          rw [List.getElem_map]
          exact of_decide_eq_true hid
        rw [← hstep, map_key_write, List.map_set, key_newEntry]
        exact h.set hi' hid' hnew
    · simp only [hfound, Option.some_inj] at hstep
      rw [← hstep, map_key_write]
      refine ⟨h.length, h.nodup, fun k hk => ?_⟩
      obtain ⟨infos, hinfos, rfl⟩ := mem_flowKeys.1 (h.mem k hk)
      exact mem_flowKeys.2 ⟨infos, List.mem_append_left _ hinfos, rfl⟩

/-! ## The series of all flows -/

section Series

variable {ms secfirstline_gl : F} {lf : F → F} {nan : F} {tbl : List GestioneFileLog}
  {seriesOf : List UInt8 → Series F} {logOf : GestioneFileLog → List (Info F)}
  (hseries : ∀ m ∈ tbl, ∀ type ∈ [1, 2, 3, 4], seriesOf (m.FileName ++ extension type) =
    (elabFlow (combinedOptions ms) secfirstline_gl (logOf m)).series lf nan type)

include hseries

/-- The series of a flow have the same lines, but for their values. -/
theorem length_series {m : GestioneFileLog} (hm : m ∈ tbl) {type : ℕ}
    (htype : type ∈ [1, 2, 3, 4]) : (seriesOf (m.FileName ++ extension type)).length =
      intervalsOf ms secfirstline_gl (logOf m) := by
  have hlen := congrArg List.length (map_fst_series ms secfirstline_gl lf nan (logOf m) htype)
  rw [List.length_map, List.length_map, List.length_range] at hlen
  rw [hseries m hm type htype, hlen]

theorem even_series {m : GestioneFileLog} (hm : m ∈ tbl) : (flowSeries m seriesOf).Even := by
  have hbit := length_series hseries hm (show 1 ∈ [1, 2, 3, 4] by simp)
  refine ⟨?_, ?_, ?_⟩
  · exact (length_series hseries hm (show 3 ∈ [1, 2, 3, 4] by simp)).trans hbit.symm
  · exact (length_series hseries hm (show 2 ∈ [1, 2, 3, 4] by simp)).trans hbit.symm
  · exact (length_series hseries hm (show 4 ∈ [1, 2, 3, 4] by simp)).trans hbit.symm

theorem timed_series {type : ℕ} (htype : type ∈ [1, 2, 3, 4]) :
    Timed (fun k => lf (lineTime ms k)) (seriesOfType tbl seriesOf type) := by
  rw [timed_iff]
  intro series hs
  obtain ⟨m, hm, rfl⟩ := List.mem_map.1 hs
  rw [length_series hseries hm htype, hseries m hm type htype]
  exact map_fst_series ms secfirstline_gl lf nan (logOf m) htype

theorem longest_series {type : ℕ} (htype : type ∈ [1, 2, 3, 4]) :
    longest (seriesOfType tbl seriesOf type) = longest (seriesOfType tbl seriesOf 1) := by
  rw [longest, longest, seriesOfType, seriesOfType, List.map_map, List.map_map]
  congr 1
  apply List.map_congr_left
  intro m hm
  exact (length_series hseries hm htype).trans
    (length_series hseries hm (show 1 ∈ [1, 2, 3, 4] by simp)).symm

end Series

/-! ## The file of all statistics -/

/-- Of files that are written one after the other, each has what is written to its name. -/
theorem foldl_update_of_inj {A N V : Type} [DecidableEq N] (name : A → N) (g : A → V) {l : List A}
    (hinj : ∀ a ∈ l, ∀ b ∈ l, name a = name b → a = b) (f : N → V) {a : A} (ha : a ∈ l) :
    l.foldl (fun f a => Function.update f (name a) (g a)) f (name a) = g a := by
  induction l using List.reverseRecOn with
  | nil => exact absurd ha List.not_mem_nil
  | append_singleton l b ih =>
    rw [List.foldl_concat]
    by_cases hab : name a = name b
    · obtain rfl := hinj a ha b (by simp) hab
      rw [Function.update_self]
    · have hne : a ≠ b := fun h => hab (congrArg name h)
      have ha' : a ∈ l := (List.mem_append.1 ha).resolve_right fun h =>
        hne (List.mem_singleton.1 h)
      rw [Function.update_of_ne hab]
      exact ih (fun x hx y hy => hinj x (List.mem_append_left _ hx) y (List.mem_append_left _ hy))
        ha'

/-- The names of the series of a flow are told apart by their extensions, and those of
    different flows by the names of the flows. -/
theorem extension_inj {name name' : List UInt8} {type type' : ℕ} (ht : type ∈ [1, 2, 3, 4])
    (ht' : type' ∈ [1, 2, 3, 4]) (h : name ++ extension type = name' ++ extension type') :
    name = name' ∧ type = type' := by
  have hlen : ∀ t ∈ [1, 2, 3, 4], (extension t).length = 4 := by decide
  have hext : ∀ t ∈ [1, 2, 3, 4], ∀ t' ∈ [1, 2, 3, 4], extension t = extension t' → t = t' := by
    decide
  obtain ⟨hname, hex⟩ := List.append_inj' h ((hlen type ht).trans (hlen type' ht').symm)
  exact ⟨hname, hext type ht type' ht' hex⟩

/-- With the option `-c`, the file of all statistics has the times and the last columns of the
    files that `merge` writes for the series of the flows, row by row, the series of a flow being
    as long as each other. -/
def StatisticsAgree (flagfilter : ℕ) (flownumsel : UInt32) (files : Files F) (ms : F) (lf : F → F)
    (nan : F) (old : List UInt8 → Series F) (log : List (Info F)) : Prop :=
  let main := decodeLoop flagfilter flownumsel log
  ∃ s tbl seriesOf, splitAll files (valid flagfilter flownumsel log) = some s ∧
    flowEntries s.memFile = some tbl ∧
    tbl.map GestioneFileLog.key = main.flowinfo.map StFlowInfo.key ∧
    elabsplit (combinedOptions ms) main.secfirstline_gl lf nan s old = some seriesOf ∧
    (∀ m ∈ tbl, ∀ type ∈ [1, 2, 3, 4], seriesOf (m.FileName ++ extension type) =
      (elabFlow (combinedOptions ms) main.secfirstline_gl
        ((valid flagfilter flownumsel log).filter (·.key = m.key))).series lf nan type) ∧
    (∀ m ∈ tbl, (flowSeries m seriesOf).Even) ∧
    ∃ (time : ℕ → F) (n : ℕ),
      (∀ type ∈ [1, 2, 3, 4],
        merge main.flowinfo.length (extension type) s.memFile seriesOf n =
          some (mergedFile tbl time (seriesOfType tbl seriesOf type)) ∧
        longest (seriesOfType tbl seriesOf type) = longest (seriesOfType tbl seriesOf 1)) ∧
      mergeCombined main.flowinfo.length s.memFile seriesOf n = some (statisticsFile time
        (seriesOfType tbl seriesOf 1) (seriesOfType tbl seriesOf 3) (seriesOfType tbl seriesOf 2)
        (seriesOfType tbl seriesOf 4))

section Agree

variable (flagfilter : ℕ) (flownumsel : UInt32) (files : Files F) (ms : F) (lf : F → F) (nan : F)
  (old : List UInt8 → Series F) {log : List (Info F)}

/-- There is one entry of `flowinfo` for each flow. -/
theorem length_flowinfo : (decodeLoop flagfilter flownumsel log).flowinfo.length =
    (flowKeys (valid flagfilter flownumsel log)).card := by
  have hlen := congrArg List.length (map_key_entries (valid flagfilter flownumsel log))
  rw [List.length_map, List.length_map] at hlen
  rw [flowinfo_decodeLoop, ← hlen, length_entries]

/-- What the files of all flows have is what `elabsplit` writes for each. -/
theorem elabsplit_eq_some {log' : List (Info F)} (hnames : NamesDistinct log')
    {s : SplitState F} (h : Splitted log' log' s) {tbl : List GestioneFileLog}
    (htbl : tbl = (entries F).table log') (hflows : flowEntries s.memFile = some tbl)
    (secfirstline_gl : F) : ∃ seriesOf,
      elabsplit (combinedOptions ms) secfirstline_gl lf nan s old = some seriesOf ∧
      ∀ m ∈ tbl, ∀ type ∈ [1, 2, 3, 4], seriesOf (m.FileName ++ extension type) =
        (elabFlow (combinedOptions ms) secfirstline_gl
          (log'.filter (·.key = m.key))).series lf nan type := by
  subst htbl
  refine ⟨_, by rw [elabsplit, hflows, Option.map_some], fun m hm type htype => ?_⟩
  have hmem {a : GestioneFileLog × ℕ}
      (ha : a ∈ ((entries F).table log').product (combinedOptions ms).types) :
      a.1 ∈ (entries F).table log' ∧ a.2 ∈ [1, 2, 3, 4] := List.mem_product.1 ha
  -- Different flows have different files.
  have hinj : ∀ a ∈ ((entries F).table log').product (combinedOptions ms).types,
      ∀ b ∈ ((entries F).table log').product (combinedOptions ms).types,
      a.1.FileName ++ extension a.2 = b.1.FileName ++ extension b.2 → a = b := by
    intro a ha b hb heq
    obtain ⟨hname, htype⟩ := extension_inj (hmem ha).2 (hmem hb).2 heq
    rw [(h.named _ (hmem ha).1).1, (h.named _ (hmem hb).1).1] at hname
    obtain ⟨r, hr, hrk⟩ :=
      List.mem_map.1 ((mem_keys_entries log' _).1 (List.mem_map_of_mem (hmem ha).1))
    obtain ⟨r', hr', hrk'⟩ :=
      List.mem_map.1 ((mem_keys_entries log' _).1 (List.mem_map_of_mem (hmem hb).1))
    have hkey : a.1.key = b.1.key := by
      rw [← hrk, ← hrk']
      exact hnames r hr r' hr' (by rw [hrk, hrk', hname])
    exact Prod.ext (List.inj_on_of_nodup_map ((entries F).nodup_keys log') (hmem ha).1
      (hmem hb).1 hkey) htype
  have hfile : (s.files m.FileName).reduceOption = log'.filter (·.key = m.key) := by
    rw [(h.named m hm).1, (h.files hnames m hm).1]
    simp [List.reduceOption]
  rw [foldl_update_of_inj (fun a : GestioneFileLog × ℕ => a.1.FileName ++ extension a.2)
    (fun a => (elabFlow (combinedOptions ms) secfirstline_gl
      (s.files a.1.FileName).reduceOption).series lf nan a.2) hinj old
    (a := (m, type)) (List.mem_product.2 ⟨hm, htype⟩), hfile]

/-- If the merges end, the entries that they scan are of all flows. -/
theorem few_of_agree (h : StatisticsAgree flagfilter flownumsel files ms lf nan old log) :
    (flowKeys (valid flagfilter flownumsel log)).card < MaxNumFlow ∧
      ∀ infos ∈ valid flagfilter flownumsel log, infos.flowId ≠ freeId := by
  obtain ⟨s, tbl, seriesOf, hs, hflows, -, -, -, -, time, n, hmerge, -⟩ := h
  obtain ⟨p, hp, hle⟩ := flowEntries_of_merge (hmerge 1 (by simp)).1
  obtain rfl : p = tbl := Option.some_inj.1 (hp.symm.trans hflows)
  rw [length_flowinfo] at hle
  obtain ⟨hpre, hlt, hlive⟩ := flowEntries_spec hflows
  have hkeys := liveKeys_splitAll hs
  have hlen := hkeys.length
  rw [List.length_map] at hlen
  refine ⟨by omega, ?_⟩
  -- The entries that are scanned are those of as many flows that are not free.
  have hsub : (p.map GestioneFileLog.key).Sublist
      ((s.memFile.map GestioneFileLog.key).filter (·.flowId ≠ freeId)) := by
    have hfilter := (hpre.sublist.map GestioneFileLog.key).filter (fun k => k.flowId ≠ freeId)
    rwa [List.filter_eq_self.2] at hfilter
    intro k hk
    obtain ⟨m, hm, rfl⟩ := List.mem_map.1 hk
    exact decide_eq_true (hlive m hm)
  have hcard : p.length ≤
      ((flowKeys (valid flagfilter flownumsel log)).filter (·.flowId ≠ freeId)).card := by
    have hnodup := hkeys.nodup.sublist hsub
    rw [← List.length_map GestioneFileLog.key, ← List.toFinset_card_of_nodup hnodup]
    apply Finset.card_le_card
    intro k hk
    have hk' := hsub.subset (List.mem_toFinset.1 hk)
    exact Finset.mem_filter.2 ⟨hkeys.mem k hk', of_decide_eq_true (List.mem_filter.1 hk').2⟩
  have hall := Finset.eq_of_subset_of_card_le (Finset.filter_subset _ _) (hle.trans hcard)
  intro infos hinfos
  have hmem : infos.key ∈ flowKeys (valid flagfilter flownumsel log) :=
    mem_flowKeys.2 ⟨infos, hinfos, rfl⟩
  rw [← hall] at hmem
  exact (Finset.mem_filter.1 hmem).2

/-- The file of all statistics agrees with the merges if and only if there are fewer flows than
    entries and none has the id of a free entry. -/
theorem mergeCombined_iff (hnames : NamesDistinct (valid flagfilter flownumsel log)) :
    StatisticsAgree flagfilter flownumsel files ms lf nan old log ↔
      (flowKeys (valid flagfilter flownumsel log)).card < MaxNumFlow ∧
        ∀ infos ∈ valid flagfilter flownumsel log, infos.flowId ≠ freeId := by
  constructor
  · exact few_of_agree flagfilter flownumsel files ms lf nan old
  · rintro ⟨hcount, hid⟩
    obtain ⟨s, hs, h⟩ := exists_splitAll files hid hcount.le List.prefix_rfl
    have hflows : flowEntries s.memFile =
        some ((entries F).table (valid flagfilter flownumsel log)) := by
      rw [h.memFile]
      exact flowEntries_memTable (flowId_ne_freeId hid) (length_entries _ ▸ hcount)
    obtain ⟨seriesOf, helab, hseries⟩ := elabsplit_eq_some ms lf nan old hnames h rfl hflows
      (decodeLoop flagfilter flownumsel log).secfirstline_gl
    have hlen : (decodeLoop flagfilter flownumsel log).flowinfo.length =
        ((entries F).table (valid flagfilter flownumsel log)).length := by
      rw [length_flowinfo, length_entries]
    refine ⟨s, _, seriesOf, hs, hflows, ?_, helab, hseries, fun m hm => even_series hseries hm,
      fun k => lf (lineTime ms k), longest (seriesOfType
        ((entries F).table (valid flagfilter flownumsel log)) seriesOf 1) + 1,
      fun type htype => ⟨?_, longest_series hseries htype⟩, ?_⟩
    · rw [flowinfo_decodeLoop]
      exact map_key_entries _
    · rw [hlen]
      exact merge_eq_some hflows (timed_series hseries htype)
        (Nat.lt_succ_of_le (longest_series hseries htype).le)
    · rw [hlen]
      exact mergeCombined_eq_some hflows (fun m hm => even_series hseries hm)
        (timed_series hseries (by simp)) (Nat.lt_succ_self _)

end Agree

end Combined

theorem mergeCombined_iff_two :
    StatisticsAgree 0 0 (fun _ => []) 1000 id 0 (fun _ => []) twoFlows := by
  have hnames : NamesDistinct (valid 0 0 twoFlows) := by
    unfold NamesDistinct
    decide +kernel
  exact (mergeCombined_iff 0 0 (fun _ => []) 1000 id 0 (fun _ => []) hnames).2
    ⟨by decide +kernel, by decide +kernel⟩

/-- With as many flows as entries, the scans run past the end of the table. -/
theorem mergeCombined_full : NamesDistinct (valid 0 0 (manyFlows 1000)) ∧
    (flowKeys (valid 0 0 (manyFlows 1000))).card = MaxNumFlow ∧
    ¬ StatisticsAgree 0 0 (fun _ => []) 1000 id 0 (fun _ => []) (manyFlows 1000) := by
  have hvalid : valid 0 0 (manyFlows 1000) = manyFlows 1000 := by
    have herror : ∀ r ∈ manyFlows 1000, errornum 0 0 r = 0 := by
      intro r hr
      obtain ⟨i, -, rfl⟩ := List.mem_map.1 hr
      have htimes : timeErrornum lastOfDay = 0 := by decide +kernel
      rw [errornum, if_neg (by simp)]
      exact htimes
    rw [valid, List.filter_eq_self.2 fun r hr => decide_eq_true (herror r hr)]
    simp [entered]
  have hcard := card_manyFlows (show 1000 ≤ 2 ^ 32 by decide)
  rw [hvalid]
  refine ⟨?_, hcard, fun h => ?_⟩
  · intro r hr r' hr' hname
    obtain ⟨i, -, rfl⟩ := List.mem_map.1 hr
    obtain ⟨j, -, rfl⟩ := List.mem_map.1 hr'
    have hflow : UInt32.ofNat i = UInt32.ofNat j := (fileName_eq_iff.1 hname).1
    rw [hflow]
  · have hlt := (few_of_agree 0 0 (fun _ => []) 1000 id 0 (fun _ => []) h).1
    rw [hvalid, hcard] at hlt
    exact absurd hlt (by decide)

end Ditg
