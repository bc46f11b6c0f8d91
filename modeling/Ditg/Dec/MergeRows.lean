import Ditg.Dec.Merge

/-!
# The rows of a merged series

`merge` writes the zeros of the series that are exhausted only with the next value or at the
end of a row. Where a row is after some of the series is described by `RowAt`.

* `merge_iff`: the file has a column for each flow and a row for each line of the longest
  series, whatever the lengths of the others, unless the scans of `memFile` miss the last flow.
-/

namespace Ditg

open Memory Text

/-! ## Loops of rows -/

section Loop

variable {S P : Type} {done : S → Bool} {next : S → S} {row : S → List P}

/-- A loop whose rounds all lower a rank by one, up to the one that is done, prints the rows of
    its states up to that one. -/
theorem rows_eq_some (inv : S → Prop) (rank : S → ℕ) (hdone : ∀ s, inv s → (done s ↔ rank s = 0))
    (hnext : ∀ s, inv s → inv (next s) ∧ rank (next s) = rank s - 1) {n : ℕ} {s : S} (hs : inv s)
    (hn : rank s < n) : rows done next row n s =
      some ((List.range (rank s + 1)).flatMap fun k => row (next^[k] s)) := by
  induction n generalizing s with
  | zero => exact absurd hn (Nat.not_lt_zero _)
  | succ n ih =>
    obtain ⟨hinv, hrank⟩ := hnext s hs
    rw [rows]
    by_cases hd : done s
    · rw [if_pos hd, (hdone s hs).1 hd]
      simp
    · have hpos : rank s ≠ 0 := fun h => hd ((hdone s hs).2 h)
      have hsucc : rank (next s) + 1 = rank s := by omega
      rw [if_neg hd, ih hinv (by omega), hsucc, List.range_succ_eq_map, List.flatMap_cons,
        List.flatMap_map]
      rfl

/-- A loop that ends has come to a state that is done. -/
theorem exists_done {n : ℕ} {s : S} {out : List P} (h : rows done next row n s = some out) :
    ∃ k, done (next^[k] s) := by
  induction n generalizing s out with
  | zero => cases h
  | succ n ih =>
    rw [rows] at h
    by_cases hd : done s
    · exact ⟨0, hd⟩
    · rw [if_neg hd, Option.map_eq_some_iff] at h
      obtain ⟨out', hout, -⟩ := h
      obtain ⟨k, hk⟩ := ih hout
      exact ⟨k + 1, hk⟩

end Loop

/-- The entries that a scan goes through are the first ones, not free, and not all. -/
theorem flowEntries_spec {memFile p : List GestioneFileLog} (h : flowEntries memFile = some p) :
    p <+: memFile ∧ p.length < memFile.length ∧ ∀ m ∈ p, m.flowId ≠ freeId := by
  induction memFile generalizing p with
  | nil => cases h
  | cons m memFile ih =>
    rw [flowEntries] at h
    split_ifs at h with hfree
    · obtain rfl := Option.some_inj.1 h
      exact ⟨List.nil_prefix, Nat.succ_pos _, fun _ hm => absurd hm List.not_mem_nil⟩
    · obtain ⟨p', hp', rfl⟩ := Option.map_eq_some_iff.1 h
      obtain ⟨hpre, hlt, hlive⟩ := ih hp'
      exact ⟨(List.prefix_cons_inj m).2 hpre, Nat.succ_lt_succ hlt,
        List.forall_mem_cons.2 ⟨hfree, hlive⟩⟩

section Rows

variable {F : Type} [CDouble F]

/-! ## A row -/

/-- The value of a series in a row, `0` if it is exhausted. -/
def valueAt (k : ℕ) (series : Series F) : F := (series[k]?.map Prod.snd).getD ((0 : ℤ) : F)

/-- The sum of a row, of the series that are not exhausted. -/
def rowTotal (k : ℕ) (tempfiles : List (Series F)) : F :=
  (tempfiles.filterMap fun series => series[k]?.map Prod.snd).foldl (· + ·) ((0 : ℤ) : F)

/-- A row of a merged series. -/
def mergedRow (time : F) (k : ℕ) (tempfiles : List (Series F)) : List (Printed F) :=
  .time time :: tempfiles.map (fun series => .value (valueAt k series)) ++
    [.total (rowTotal k tempfiles)]

/-- Row `k` after the series `p`: but for the zeros that are still to be written, it is that of
    these series. -/
structure RowAt (time : F) (k : ℕ) (p : List (Series F)) (row : MergeRow F) : Prop where
  flagbreak : row.flagbreak = p.countP (·.length ≤ k)
  flagfirstfile : row.flagfirstfile = true ↔ ∃ series ∈ p, k < series.length
  valuesum : row.valuesum = rowTotal k p
  nothing : row.flagfirstfile = false → row.printed = []
  printed : row.printed ++ List.replicate row.finishedfiles (.value ((0 : ℤ) : F)) =
    (if row.flagfirstfile then [.time time] else []) ++
      p.map fun series => .value (valueAt k series)

theorem rowAt_start (time : F) (k : ℕ) : RowAt time k [] MergeRow.start where
  flagbreak := rfl
  flagfirstfile := by simp [MergeRow.start]
  valuesum := rfl
  nothing := fun _ => rfl
  printed := rfl

theorem rowTotal_concat_none {k : ℕ} {series : Series F} (h : series[k]? = none)
    (p : List (Series F)) : rowTotal k (p ++ [series]) = rowTotal k p := by
  simp [rowTotal, List.filterMap_append, h]

theorem rowTotal_concat_some {k : ℕ} {series : Series F} {line : F × F}
    (h : series[k]? = some line) (p : List (Series F)) :
    rowTotal k (p ++ [series]) = rowTotal k p + line.2 := by
  simp [rowTotal, List.filterMap_append, h]

/-- The row after a series that is not exhausted: the zeros are written first. -/
theorem read_cons (row : MergeRow F) (time value : F) (series : Series F) :
    row.read ((time, value) :: series) =
      { flagfirstfile := true
        flagbreak := row.flagbreak
        finishedfiles := 0
        valuesum := row.valuesum + value
        printed := (if row.flagfirstfile then row.printed else row.printed ++ [.time time]) ++
          List.replicate row.finishedfiles (.value ((0 : ℤ) : F)) ++ [.value value] } := by
  obtain ⟨flagfirstfile, flagbreak, finishedfiles, valuesum, printed⟩ := row
  cases flagfirstfile <;> rfl

theorem RowAt.read {time : F} {k : ℕ} {p : List (Series F)} {row : MergeRow F}
    (h : RowAt time k p row) {series : Series F}
    (htime : ∀ line, series[k]? = some line → line.1 = time) :
    RowAt time k (p ++ [series]) (row.read (series.drop k)) := by
  have hhead : (series.drop k).head? = series[k]? := List.head?_drop
  have hprinted := h.printed
  have hexists : (∃ s ∈ p ++ [series], k < s.length) ↔
      (∃ s ∈ p, k < s.length) ∨ k < series.length := by
    simp only [List.mem_append, List.mem_singleton, or_and_right, exists_or, exists_eq_left]
  rcases hdrop : series.drop k with _ | ⟨⟨time', value⟩, rest⟩
  · -- The series is exhausted: its zero is written later.
    rw [hdrop, List.head?_nil] at hhead
    have hlen : series.length ≤ k := List.drop_eq_nil_iff.1 hdrop
    have hvalue : valueAt k series = ((0 : ℤ) : F) := by
      rw [valueAt, ← hhead]
      rfl
    rw [MergeRow.read]
    refine ⟨?_, ?_, ?_, h.nothing, ?_⟩
    · rw [List.countP_append, ← h.flagbreak, List.countP_singleton, if_pos (decide_eq_true hlen)]
    · rw [hexists, ← h.flagfirstfile, or_iff_left (not_lt.2 hlen)]
    · rw [rowTotal_concat_none hhead.symm, ← h.valuesum]
    · rw [List.map_append, List.map_singleton, hvalue, ← List.append_assoc, ← hprinted,
        List.append_assoc, ← List.replicate_succ']
  · rw [hdrop, List.head?_cons] at hhead
    have hlen : k < series.length := by
      rw [← not_le, ← List.drop_eq_nil_iff, hdrop]
      exact List.cons_ne_nil _ _
    have hvalue : valueAt k series = value := by
      rw [valueAt, ← hhead]
      rfl
    obtain rfl : time' = time := htime _ hhead.symm
    have hcount : (p ++ [series]).countP (·.length ≤ k) = p.countP (·.length ≤ k) := by
      rw [List.countP_append, List.countP_singleton,
        if_neg fun h => not_le.2 hlen (of_decide_eq_true h), Nat.add_zero]
    -- Nothing has been written before the time.
    have hlast : (if row.flagfirstfile then row.printed else row.printed ++ [.time time']) ++
        List.replicate row.finishedfiles (.value ((0 : ℤ) : F)) =
          .time time' :: p.map fun series => .value (valueAt k series) := by
      by_cases hfirst : row.flagfirstfile
      · rw [if_pos hfirst] at hprinted ⊢
        exact hprinted
      · rw [if_neg hfirst, h.nothing (by simpa using hfirst)] at hprinted ⊢
        rw [List.nil_append, List.nil_append] at hprinted
        rw [hprinted]
        rfl
    rw [read_cons]
    refine ⟨hcount.symm ▸ h.flagbreak, ?_, ?_, fun hf => Bool.noConfusion hf, ?_⟩
    · rw [hexists]
      exact iff_of_true rfl (.inr hlen)
    · rw [rowTotal_concat_some hhead.symm, ← h.valuesum]
    · rw [List.map_append, List.map_singleton, hvalue, List.replicate_zero, List.append_nil, hlast]
      rfl

/-- The row after all series: it is ended, unless all are exhausted. -/
theorem RowAt.mergeRow {time : F} {k flownum : ℕ} {p : List (Series F)} {row : MergeRow F}
    (h : RowAt time k p row) {tempfiles : List (Series F)} (hne : tempfiles ≠ [])
    (htime : ∀ series ∈ tempfiles, ∀ line, series[k]? = some line → line.1 = time) :
    ∃ row', RowAt time k (p ++ tempfiles) row' ∧
      mergeRow flownum (tempfiles.map (List.drop k)) row = if row'.flagbreak ≠ flownum then
        { row'.zeros with printed := row'.zeros.printed ++ [.total row'.valuesum] } else row' := by
  induction tempfiles generalizing p row with
  | nil => exact absurd rfl hne
  | cons series tempfiles ih =>
    have hread := h.read (htime series List.mem_cons_self)
    rw [List.map_cons, Ditg.mergeRow]
    by_cases hnil : tempfiles = []
    · subst hnil
      refine ⟨_, hread, ?_⟩
      simp only [List.map_nil, true_and]
      rfl
    · obtain ⟨row', hrow', heq⟩ := ih hread hnil fun s hs =>
        htime s (List.mem_cons_of_mem _ hs)
      refine ⟨row', by rwa [List.append_assoc] at hrow', ?_⟩
      rw [← heq, if_neg fun h => hnil (List.map_eq_nil_iff.1 h.1)]

omit [CDouble F] in
/-- There is a row as long as there is a line. -/
theorem lt_longest_iff {k : ℕ} {tempfiles : List (Series F)} :
    k < longest tempfiles ↔ ∃ series ∈ tempfiles, k < series.length := by
  induction tempfiles with
  | nil => simp [longest]
  | cons series tempfiles ih =>
    rw [longest, List.map_cons, List.foldr_cons, ← longest, lt_max_iff, ih]
    simp only [List.mem_cons, or_and_right, exists_or, exists_eq_left]

/-- What is printed of a row. -/
theorem printed_mergeRow {time : F} {k : ℕ} {tempfiles : List (Series F)}
    (htime : ∀ series ∈ tempfiles, ∀ line, series[k]? = some line → line.1 = time) :
    (mergeRow tempfiles.length (tempfiles.map (List.drop k)) .start).printed =
      if k < longest tempfiles then mergedRow time k tempfiles else [] := by
  by_cases hnil : tempfiles = []
  · subst hnil
    rfl
  · obtain ⟨row, hrow, heq⟩ := (rowAt_start time k).mergeRow hnil htime
    rw [List.nil_append] at hrow
    have hprinted := hrow.printed
    have hfirst := hrow.flagfirstfile
    have hbreak := hrow.flagbreak
    rw [← lt_longest_iff] at hfirst
    rw [heq]
    by_cases hlt : k < longest tempfiles
    · have hne : row.flagbreak ≠ tempfiles.length := by
        rw [hbreak]
        intro hall
        obtain ⟨series, hseries, hlen⟩ := lt_longest_iff.1 hlt
        exact absurd (of_decide_eq_true (List.countP_eq_length.1 hall series hseries))
          (not_le.2 hlen)
      rw [if_pos hne, if_pos hlt, mergedRow, MergeRow.zeros, ← hrow.valuesum]
      rw [if_pos (hfirst.2 hlt)] at hprinted
      dsimp only
      rw [hprinted]
      rfl
    · have hall : row.flagbreak = tempfiles.length := by
        rw [hbreak, List.countP_eq_length]
        intro series hseries
        exact decide_eq_true (not_lt.1 fun h => hlt (lt_longest_iff.2 ⟨series, hseries, h⟩))
      rw [if_neg (not_not.2 hall), if_neg hlt]
      exact hrow.nothing (by simpa using hfirst.not.2 hlt)

/-! ## All rows -/

/-- The file of a merged series: a column for each flow, and a row for each line of the longest
    series. -/
def mergedFile (flows : List GestioneFileLog) (time : ℕ → F) (tempfiles : List (Series F)) :
    List (Printed F) :=
  mergeHeader flows ++
    (List.range (longest tempfiles)).flatMap fun k => mergedRow (time k) k tempfiles

omit [CDouble F] in
theorem iterate_tail (k : ℕ) (tempfiles : List (Series F)) :
    (List.map List.tail)^[k] tempfiles = tempfiles.map (List.drop k) := by
  induction k generalizing tempfiles with
  | zero => exact (List.map_id tempfiles).symm
  | succ k ih =>
    rw [Function.iterate_succ_apply, ih, List.map_map]
    apply List.map_congr_left
    intro series _
    rw [Function.comp_apply, List.drop_tail]

/-- The series of the flows have the same times. -/
def Timed (time : ℕ → F) (tempfiles : List (Series F)) : Prop :=
  ∀ series ∈ tempfiles, ∀ k line, series[k]? = some line → line.1 = time k

omit [CDouble F] in
theorem timed_iff {time : ℕ → F} {tempfiles : List (Series F)} : Timed time tempfiles ↔
    ∀ series ∈ tempfiles, series.map Prod.fst = (List.range series.length).map time := by
  refine forall₂_congr fun series _ => ?_
  constructor
  · intro h
    apply List.ext_getElem
    · rw [List.length_map, List.length_map, List.length_range]
    · intro k hk hk'
      rw [List.length_map] at hk
      rw [List.getElem_map, List.getElem_map, List.getElem_range]
      exact h k _ (List.getElem?_eq_getElem hk)
  · intro h k line hline
    obtain ⟨hk, rfl⟩ := List.getElem?_eq_some_iff.1 hline
    have hget := List.getElem_of_eq h (i := k) (by rwa [List.length_map])
    rwa [List.getElem_map, List.getElem_map, List.getElem_range] at hget

section Merge

variable {memFile tbl : List GestioneFileLog} {extension : List UInt8}
  {seriesOf : List UInt8 → Series F}

/-- With as many entries in use as flows, the merge writes all rows and ends. -/
theorem merge_eq_some (hflows : flowEntries memFile = some tbl) {time : ℕ → F}
    (htime : Timed time (tbl.map fun m => seriesOf (m.FileName ++ extension))) {n : ℕ}
    (hn : longest (tbl.map fun m => seriesOf (m.FileName ++ extension)) < n) :
    merge tbl.length extension memFile seriesOf n =
      some (mergedFile tbl time (tbl.map fun m => seriesOf (m.FileName ++ extension))) := by
  set tempfiles := tbl.map fun m => seriesOf (m.FileName ++ extension) with htempfiles
  have hlen : tempfiles.length = tbl.length := List.length_map _
  have hrow (k : ℕ) := printed_mergeRow (k := k) fun series hs line => htime series hs k line
  rw [merge, hflows, Option.bind_some, ← htempfiles, mergedFile,
    rows_eq_some (fun tempfiles => tempfiles.length = tbl.length) longest
      (fun _ hlen => mergeRow_done hlen)
      (fun tempfiles hlen => ⟨by rw [List.length_map, hlen], longest_tail tempfiles⟩) hlen hn,
    Option.map_some, List.range_succ, List.flatMap_append, List.flatMap_singleton]
  simp only [iterate_tail, ← hlen, hrow, lt_irrefl, if_false, List.append_nil]
  congr 2
  apply List.flatMap_congr
  intro k hk
  rw [if_pos (List.mem_range.1 hk)]

/-- A merge that ends has scanned no fewer entries than there are flows. -/
theorem flowEntries_of_merge {flownum n : ℕ} {out : List (Printed F)}
    (h : merge flownum extension memFile seriesOf n = some out) :
    ∃ p, flowEntries memFile = some p ∧ flownum ≤ p.length := by
  obtain ⟨p, hp, h⟩ := Option.bind_eq_some_iff.1 h
  obtain ⟨out', hout, -⟩ := Option.map_eq_some_iff.1 h
  obtain ⟨k, hk⟩ := exists_done hout
  refine ⟨p, hp, ?_⟩
  rw [iterate_tail, decide_eq_true_iff, flagbreak_mergeRow] at hk
  have hcount := List.countP_le_length (p := List.isEmpty)
    (l := (p.map fun m => seriesOf (m.FileName ++ extension)).map (List.drop k))
  rw [List.length_map, List.length_map] at hcount
  have hzero : (MergeRow.start (F := F)).flagbreak = 0 := rfl
  omega

end Merge

end Rows

/-- A merge writes a column for each of the flows in use, in the order of the table, and a row
    for each line of the longest series, with the values of the flows that have them and zeros
    of the others, and then ends, if and only if there are fewer flows than entries and none
    has the id of a free entry. In exact arithmetic, the last column is the sum of the row. -/
theorem merge_iff {F : Type} [CDouble F] (tbl : List GestioneFileLog) (extension : List UInt8)
    (seriesOf : List UInt8 → Series F) (time : ℕ → F)
    (htime : Timed time (tbl.map fun m => seriesOf (m.FileName ++ extension))) :
    ((∃ n, merge tbl.length extension (memTable tbl) seriesOf n =
        some (mergedFile tbl time (tbl.map fun m => seriesOf (m.FileName ++ extension)))) ↔
      tbl.length < MaxNumFlow ∧ ∀ m ∈ tbl, m.flowId ≠ freeId) ∧
    ∀ (k : ℕ) (tempfiles : List (Series ℚ)),
      rowTotal k tempfiles = (tempfiles.map (valueAt k)).sum := by
  refine ⟨⟨?_, ?_⟩, ?_⟩
  · rintro ⟨n, hn⟩
    obtain ⟨p, hp, hle⟩ := flowEntries_of_merge hn
    obtain ⟨hpre, hlt, hlive⟩ := flowEntries_spec hp
    rw [memTable, List.length_append, List.length_replicate] at hlt
    refine ⟨by omega, fun m hm => hlive m ?_⟩
    have hsub : tbl <+: p := List.prefix_of_prefix_length_le (List.prefix_append _ _) hpre hle
    exact hsub.subset hm
  · rintro ⟨hlt, hlive⟩
    exact ⟨_, merge_eq_some (flowEntries_memTable hlive hlt) htime (Nat.lt_succ_self _)⟩
  · intro k tempfiles
    induction tempfiles using List.reverseRecOn with
    | nil => rfl
    | append_singleton tempfiles series ih =>
      rw [List.map_append, List.sum_append, ← ih, List.map_singleton, List.sum_singleton, valueAt]
      rcases h : series[k]? with _ | line
      · rw [rowTotal_concat_none h]
        simp
      · rw [rowTotal_concat_some h]
        rfl

/-- Two flows, of which the first one has a line more than the other. -/
def unevenSeries (name : List UInt8) : Series ℚ :=
  if name = fileName lastOfDay ++ extension 1 then [(0, 3), (1, 4)] else [(0, 5)]

theorem merge_iff_uneven : ∃ n, merge 2 (extension 1)
    (memTable [newEntry lastOfDay, newEntry { lastOfDay with flowId := 7 }]) unevenSeries n =
      some (mergedFile [newEntry lastOfDay, newEntry { lastOfDay with flowId := 7 }]
        (fun k => (k : ℚ)) ([newEntry lastOfDay, newEntry { lastOfDay with flowId := 7 }].map
          fun m => unevenSeries (m.FileName ++ extension 1))) :=
  (merge_iff [newEntry lastOfDay, newEntry { lastOfDay with flowId := 7 }] (extension 1)
    unevenSeries (fun k => (k : ℚ)) (timed_iff.2 (by decide +kernel))).1.2 ⟨by decide, by decide⟩

/-- With as many flows as entries, the scans run past the end of the table. -/
theorem merge_full : ((manyFlows 1000).map newEntry).length = MaxNumFlow ∧
    Timed (fun k => (k : ℚ)) (((manyFlows 1000).map newEntry).map fun _ => [(0, 1)]) ∧
    ¬ ∃ n, merge 1000 (extension 1) (memTable ((manyFlows 1000).map newEntry))
      (fun _ => [((0 : ℚ), 1)]) n = some (mergedFile ((manyFlows 1000).map newEntry)
        (fun k => (k : ℚ)) (((manyFlows 1000).map newEntry).map fun _ => [(0, 1)])) := by
  have hlen : ((manyFlows 1000).map newEntry).length = MaxNumFlow := by
    rw [List.length_map, manyFlows, List.length_map, List.length_range, MaxNumFlow]
  refine ⟨hlen, ?_, ?_⟩
  · rw [timed_iff]
    intro series hs
    obtain ⟨m, -, rfl⟩ := List.mem_map.1 hs
    rfl
  · rintro ⟨n, hn⟩
    obtain ⟨p, hp, hle⟩ := flowEntries_of_merge hn
    obtain ⟨-, hlt, -⟩ := flowEntries_spec hp
    rw [memTable, List.length_append, List.length_replicate, hlen, Nat.sub_self] at hlt
    have hmax : MaxNumFlow = 1000 := rfl
    omega

end Ditg
