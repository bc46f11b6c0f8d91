import Ditg.Dec.Split

/-!
# Merging the series of the flows

After the last record, the decoder goes through the flows of `memFile`, up to the
first free entry, to close their files, to compute their series (`elabsplit`) and to
merge these into one table with a row for each interval (`merge`), or into one of
all statistics (`mergeCombined`). None of these scans has a bound, and the merging
ends when as many series are exhausted as there are entries in `flowinfo`.

* `mergesEnd_iff`: the two flow tables agree and the merging ends, unless `memFile`
  is full: then the scans run past its end.
-/

namespace Ditg

open Memory Text

section Merge

variable {F : Type} [CDouble F]

/-- The entries that a loop `while (memFile[i].flowId != -1)` goes through. No result
    stands for a loop that runs past the end of the table. -/
def flowEntries : List GestioneFileLog → Option (List GestioneFileLog)
  | [] => none
  | m :: memFile => if m.flowId = freeId then some [] else (flowEntries memFile).map (m :: ·)

/-- What is printed to the file of a merged series: a text, the time that a row
    starts with, a value, or the last value of a row. -/
inductive Printed (F : Type)
  | text (s : List UInt8)
  | time (x : F)
  | value (x : F)
  | total (x : F)

/-- The lines of a series, with a time and a value each, that have not been read. -/
abbrev Series (F : Type) := List (F × F)

/-- The variables of a row of `merge`. -/
structure MergeRow (F : Type) where
  flagfirstfile : Bool
  flagbreak : ℕ
  finishedfiles : ℕ
  valuesum : F
  printed : List (Printed F)

/-- The start of a row. -/
def MergeRow.start : MergeRow F := ⟨false, 0, 0, ((0 : ℤ) : F), []⟩

/-- The zeros of the series that are exhausted. -/
def MergeRow.zeros (row : MergeRow F) : MergeRow F :=
  { row with
    finishedfiles := 0
    printed := row.printed ++ List.replicate row.finishedfiles (.value ((0 : ℤ) : F)) }

/-- The row after the next line of a series. -/
def MergeRow.read (row : MergeRow F) : Series F → MergeRow F
  | [] => { row with flagbreak := row.flagbreak + 1, finishedfiles := row.finishedfiles + 1 }
  | (time, value) :: _ =>
    let row := { row with valuesum := row.valuesum + value }
    let row := if row.flagfirstfile then row else
      { row with flagfirstfile := true, printed := row.printed ++ [.time time] }
    let row := row.zeros
    { row with printed := row.printed ++ [.value value] }

/-- The row after the series: at the last flow the row is ended, unless all series
    are exhausted. -/
def mergeRow (flownum : ℕ) : List (Series F) → MergeRow F → MergeRow F
  | [], row => row
  | tempfile :: tempfiles, row =>
    let row := row.read tempfile
    mergeRow flownum tempfiles <|
      if tempfiles = [] ∧ row.flagbreak ≠ flownum then
        { row.zeros with printed := row.zeros.printed ++ [.total row.valuesum] }
      else row

/-- A loop of rows: it prints the row of its state and goes on, unless it is done. No
    result stands for a loop that takes more than the given number of rounds. -/
def rows {S P : Type} (done : S → Bool) (next : S → S) (row : S → List P) :
    ℕ → S → Option (List P)
  | 0, _ => none
  | n + 1, s => if done s then some (row s) else (rows done next row n (next s)).map (row s ++ ·)

/-- The columns of a merged series. -/
def mergeHeader (flows : List GestioneFileLog) : List (Printed F) :=
  .text (chars "Time") :: flows.map (fun m => .text (chars " " ++ decimal m.flowId.toNat ++
    chars "-" ++ cstr m.srcAddr.toList ++ chars "-" ++ cstr m.destAddr.toList)) ++
    [.text (chars " Aggregate-Flow\n")]

/-- The file of a merged series: `seriesOf` gives the lines of the file of a name. -/
def merge (flownum : ℕ) (extension : List UInt8) (memFile : List GestioneFileLog)
    (seriesOf : List UInt8 → Series F) (rounds : ℕ) : Option (List (Printed F)) :=
  (flowEntries memFile).bind fun flows =>
    (rows (fun tempfiles => (mergeRow flownum tempfiles .start).flagbreak = flownum)
      (List.map List.tail) (fun tempfiles => (mergeRow flownum tempfiles .start).printed) rounds
      (flows.map fun m => seriesOf (m.FileName ++ extension))).map (mergeHeader flows ++ ·)

/-- The extension of the series of a type. -/
def extension : ℕ → List UInt8
  | 1 => chars ".bit"
  | 2 => chars ".jit"
  | 3 => chars ".del"
  | 4 => chars ".pkt"
  | _ => []

/-- The four series of a flow. -/
structure FlowSeries (F : Type) where
  bit : Series F
  del : Series F
  jit : Series F
  pkt : Series F

/-- The value of the next line of a series, `-1` if there is none. -/
def nextValue : Series F → F
  | [] => ((-1 : ℤ) : F)
  | (_, value) :: _ => value

/-- The series after a row: the others are only read with a line of the bitrate. -/
def FlowSeries.next (s : FlowSeries F) : FlowSeries F :=
  if s.bit = [] then s else ⟨s.bit.tail, s.del.tail, s.jit.tail, s.pkt.tail⟩

/-- The variables of a row of `mergeCombined`. -/
structure CombinedRow (F : Type) where
  flagfirstfile : Bool
  flagbreak : ℕ
  bit : F
  del : F
  jit : F
  pkt : F
  printed : List (Printed F)

/-- The start of a row. -/
def CombinedRow.start : CombinedRow F :=
  ⟨false, 0, ((0 : ℤ) : F), ((0 : ℤ) : F), ((0 : ℤ) : F), ((0 : ℤ) : F), []⟩

/-- The row after the next lines of the series of a flow. -/
def CombinedRow.read (row : CombinedRow F) (s : FlowSeries F) : CombinedRow F :=
  match s.bit with
  | [] => { row with flagbreak := row.flagbreak + 1 }
  | (time, value) :: _ =>
    { row with
      flagfirstfile := true
      bit := row.bit + value
      del := row.del + nextValue s.del
      jit := row.jit + nextValue s.jit
      pkt := row.pkt + nextValue s.pkt
      printed := if row.flagfirstfile then row.printed else row.printed ++ [.time time] }

/-- The row after the series of the flows. -/
def combinedRow (flownum : ℕ) : List (FlowSeries F) → CombinedRow F → CombinedRow F
  | [], row => row
  | s :: flows, row =>
    let row := row.read s
    combinedRow flownum flows <|
      if flows = [] ∧ row.flagbreak ≠ flownum then
        { row with printed := row.printed ++ [.value row.bit, .value row.del, .value row.jit,
          .total row.pkt] }
      else row

/-- The series of a flow. -/
def flowSeries (m : GestioneFileLog) (seriesOf : List UInt8 → Series F) : FlowSeries F where
  bit := seriesOf (m.FileName ++ extension 1)
  del := seriesOf (m.FileName ++ extension 3)
  jit := seriesOf (m.FileName ++ extension 2)
  pkt := seriesOf (m.FileName ++ extension 4)

/-- The file of all statistics. -/
def mergeCombined (flownum : ℕ) (memFile : List GestioneFileLog)
    (seriesOf : List UInt8 → Series F) (rounds : ℕ) : Option (List (Printed F)) :=
  (flowEntries memFile).bind fun flows =>
    rows (fun flows => (combinedRow flownum flows .start).flagbreak = flownum)
      (List.map FlowSeries.next) (fun flows => (combinedRow flownum flows .start).printed) rounds
      (flows.map fun m => flowSeries m seriesOf)

/-! ## The rows end -/

section Rows

variable {S P : Type} {done : S → Bool} {next : S → S} {row : S → List P}

omit [CDouble F] in
/-- A loop whose rounds all lower a rank by one, up to the one that is done, takes
    one round more than the rank. -/
theorem rows_isSome_iff (inv : S → Prop) (rank : S → ℕ) (hdone : ∀ s, inv s → (done s ↔ rank s = 0))
    (hnext : ∀ s, inv s → inv (next s) ∧ rank (next s) = rank s - 1) (n : ℕ) {s : S} (hs : inv s) :
    (rows done next row n s).isSome ↔ rank s < n := by
  induction n generalizing s with
  | zero => simp [rows]
  | succ n ih =>
    obtain ⟨hinv, hrank⟩ := hnext s hs
    rw [rows]
    by_cases hd : done s
    · rw [if_pos hd, (hdone s hs).1 hd]
      simp
    · have hne : rank s ≠ 0 := fun h => hd ((hdone s hs).2 h)
      rw [if_neg hd, Option.isSome_map, ih hinv, hrank]
      omega

end Rows

/-- The lines of the longest series. -/
def longest (tempfiles : List (Series F)) : ℕ := (tempfiles.map List.length).foldr max 0

omit [CDouble F] in
theorem longest_tail (tempfiles : List (Series F)) :
    longest (tempfiles.map List.tail) = longest tempfiles - 1 := by
  induction tempfiles with
  | nil => rfl
  | cons s tempfiles ih =>
    have hcons : ∀ t : Series F, ∀ ts, longest (t :: ts) = max t.length (longest ts) :=
      fun _ _ => rfl
    rw [List.map_cons, hcons, hcons, ih, List.length_tail]
    omega

omit [CDouble F] in
theorem longest_eq_zero_iff {tempfiles : List (Series F)} :
    longest tempfiles = 0 ↔ ∀ s ∈ tempfiles, s = [] := by
  induction tempfiles with
  | nil => simp [longest]
  | cons s tempfiles ih =>
    rw [longest, List.map_cons, List.foldr_cons, ← longest, Nat.max_eq_zero_iff, ih,
      List.length_eq_zero_iff, List.forall_mem_cons]

/-- A row counts the series that are exhausted. -/
theorem flagbreak_mergeRow (flownum : ℕ) (tempfiles : List (Series F)) (row : MergeRow F) :
    (mergeRow flownum tempfiles row).flagbreak =
      row.flagbreak + tempfiles.countP List.isEmpty := by
  induction tempfiles generalizing row with
  | nil => rfl
  | cons s tempfiles ih =>
    have hread : (row.read s).flagbreak = row.flagbreak + if s.isEmpty then 1 else 0 := by
      rcases s with _ | ⟨⟨time, value⟩, s⟩
      · rfl
      · simp only [MergeRow.read, MergeRow.zeros]
        split_ifs <;> simp_all
    have hend : ∀ row' : MergeRow F, (if tempfiles = [] ∧ row'.flagbreak ≠ flownum then
        { row'.zeros with printed := row'.zeros.printed ++ [.total row'.valuesum] }
        else row').flagbreak = row'.flagbreak := by
      intro row'
      split_ifs <;> rfl
    rw [mergeRow, ih, hend, hread, List.countP_cons]
    omega

/-- A row counts the flows whose bitrates are exhausted. -/
theorem flagbreak_combinedRow (flownum : ℕ) (flows : List (FlowSeries F)) (row : CombinedRow F) :
    (combinedRow flownum flows row).flagbreak =
      row.flagbreak + (flows.map FlowSeries.bit).countP List.isEmpty := by
  induction flows generalizing row with
  | nil => rfl
  | cons s flows ih =>
    have hread : (row.read s).flagbreak = row.flagbreak + if s.bit.isEmpty then 1 else 0 := by
      rw [CombinedRow.read]
      rcases s.bit with _ | ⟨⟨time, value⟩, bit⟩ <;> rfl
    have hend : ∀ row' : CombinedRow F, (if flows = [] ∧ row'.flagbreak ≠ flownum then
        { row' with printed := row'.printed ++ [.value row'.bit, .value row'.del, .value row'.jit,
          .total row'.pkt] }
        else row').flagbreak = row'.flagbreak := by
      intro row'
      split_ifs <;> rfl
    rw [combinedRow, ih, hend, hread, List.map_cons, List.countP_cons]
    omega

omit [CDouble F] in
/-- All series are exhausted if as many are as there are. -/
theorem countP_isEmpty_iff (tempfiles : List (Series F)) :
    tempfiles.countP List.isEmpty = tempfiles.length ↔ longest tempfiles = 0 := by
  rw [List.countP_eq_length, longest_eq_zero_iff]
  simp only [List.isEmpty_iff]

/-- The last row of `merge` comes when all series are exhausted, ... -/
theorem mergeRow_done {flownum : ℕ} {tempfiles : List (Series F)}
    (hlen : tempfiles.length = flownum) :
    decide ((mergeRow flownum tempfiles .start).flagbreak = flownum) ↔ longest tempfiles = 0 := by
  rw [decide_eq_true_iff, flagbreak_mergeRow, ← hlen, ← countP_isEmpty_iff]
  exact (Nat.zero_add _).congr_left

/-- ... and that of `mergeCombined` when all bitrates are. -/
theorem combinedRow_done {flownum : ℕ} {flows : List (FlowSeries F)}
    (hlen : flows.length = flownum) :
    decide ((combinedRow flownum flows .start).flagbreak = flownum) ↔
      longest (flows.map FlowSeries.bit) = 0 := by
  rw [decide_eq_true_iff, flagbreak_combinedRow, ← hlen, ← countP_isEmpty_iff, List.length_map]
  exact (Nat.zero_add _).congr_left

omit [CDouble F] in
/-- A row of `mergeCombined` goes on in the bitrates. -/
theorem map_bit_next (flows : List (FlowSeries F)) :
    (flows.map FlowSeries.next).map FlowSeries.bit = (flows.map FlowSeries.bit).map List.tail := by
  rw [List.map_map, List.map_map]
  apply List.map_congr_left
  intro s _
  simp only [Function.comp_apply, FlowSeries.next]
  split_ifs with h
  · rw [h]
    rfl
  · rfl

/-! ## The flows of the two tables -/

/-- The loops go through the entries in use, ... -/
theorem flowEntries_memTable {tbl : List GestioneFileLog} (hlive : ∀ m ∈ tbl, m.flowId ≠ freeId)
    (hlt : tbl.length < MaxNumFlow) : flowEntries (memTable tbl) = some tbl := by
  obtain ⟨n, hn⟩ := Nat.exists_eq_add_of_lt hlt
  have hfree : MaxNumFlow - tbl.length = n + 1 := by omega
  rw [memTable, hfree, List.replicate_succ]
  clear hn hfree hlt
  induction tbl with
  | nil => rfl
  | cons m tbl ih =>
    rw [List.cons_append, flowEntries, if_neg (hlive m List.mem_cons_self),
      ih fun m hm => hlive m (List.mem_cons_of_mem _ hm), Option.map_some]

/-- ... but not if all entries are. -/
theorem flowEntries_full {tbl : List GestioneFileLog} (hlive : ∀ m ∈ tbl, m.flowId ≠ freeId) :
    flowEntries tbl = none := by
  induction tbl with
  | nil => rfl
  | cons m tbl ih =>
    rw [flowEntries, if_neg (hlive m List.mem_cons_self),
      ih fun m hm => hlive m (List.mem_cons_of_mem _ hm), Option.map_none]

/-- The two tables have the same flows, in the same order. -/
theorem map_key_entries (log : List (Info F)) :
    ((entries F).table log).map GestioneFileLog.key = ((flows F).table log).map StFlowInfo.key :=
  ((entries F).map_key_table log).trans ((flows F).map_key_table log).symm

section Ends

variable {memFile tbl : List GestioneFileLog} (hflows : flowEntries memFile = some tbl)
  (seriesOf : List UInt8 → Series F) (n : ℕ)

include hflows

/-- A merge with as many series as entries of `flowinfo` ends in the round after the
    last line of the longest series. -/
theorem merge_isSome_iff (extension : List UInt8) :
    (merge tbl.length extension memFile seriesOf n).isSome ↔
      longest (tbl.map fun m => seriesOf (m.FileName ++ extension)) < n := by
  rw [merge, hflows, Option.bind_some, Option.isSome_map]
  exact rows_isSome_iff (fun tempfiles => tempfiles.length = tbl.length) longest
    (fun _ hlen => mergeRow_done hlen)
    (fun tempfiles hlen => ⟨by rw [List.length_map, hlen], longest_tail tempfiles⟩) n
    (List.length_map _)

/-- So does the merge of all statistics, by the series of the bitrate. -/
theorem mergeCombined_isSome_iff : (mergeCombined tbl.length memFile seriesOf n).isSome ↔
    longest (tbl.map fun m => seriesOf (m.FileName ++ extension 1)) < n := by
  have hbit : tbl.map (fun m => seriesOf (m.FileName ++ extension 1)) =
      (tbl.map fun m => flowSeries m seriesOf).map FlowSeries.bit := by
    rw [List.map_map]
    rfl
  rw [mergeCombined, hflows, Option.bind_some, hbit]
  exact rows_isSome_iff (fun flows : List (FlowSeries F) => flows.length = tbl.length)
    (fun flows => longest (flows.map FlowSeries.bit)) (fun _ hlen => combinedRow_done hlen)
    (fun flows hlen => ⟨by rw [List.length_map, hlen], by rw [map_bit_next, longest_tail]⟩) n
    (List.length_map _)

end Ends

/-- After the records of a log, the scans of `memFile` stay in the table and find one
    entry for each entry of `flowinfo`, and the merges end, whatever the series, in the
    round after the last line of the longest one. -/
def MergesEnd (flagfilter : ℕ) (files : Files F) (log : List (Info F)) : Prop :=
  ∃ s tbl, splitAll files log = some s ∧ flowEntries s.memFile = some tbl ∧
    tbl.length = (decode flagfilter log).length ∧
    tbl.map GestioneFileLog.key = (decode flagfilter log).map StFlowInfo.key ∧
    ∀ (seriesOf : List UInt8 → Series F) (n : ℕ),
      (∀ type, (merge (decode flagfilter log).length (extension type) s.memFile seriesOf n).isSome ↔
        longest (tbl.map fun m => seriesOf (m.FileName ++ extension type)) < n) ∧
      ((mergeCombined (decode flagfilter log).length s.memFile seriesOf n).isSome ↔
        longest (tbl.map fun m => seriesOf (m.FileName ++ extension 1)) < n)

/-- A full table has no free entry for the scans to stop at. -/
theorem not_mergesEnd (flagfilter : ℕ) (files : Files F) {log : List (Info F)}
    (hid : ∀ infos ∈ log, infos.flowId ≠ freeId) (hfull : (flowKeys log).card = MaxNumFlow) :
    ¬ MergesEnd flagfilter files log := by
  obtain ⟨s, hs, h⟩ := exists_splitAll files hid hfull.le List.prefix_rfl
  rintro ⟨s', tbl, hs', htbl, -⟩
  obtain rfl : s' = s := Option.some_injective _ (hs'.symm.trans hs)
  rw [← length_entries] at hfull
  rw [h.memFile, memTable, hfull, Nat.sub_self, List.replicate_zero, List.append_nil,
    flowEntries_full (flowId_ne_freeId hid)] at htbl
  cases htbl

/-- With at most as many flows as entries of `memFile`, the scans stay in the table and
    the merges end if and only if there are fewer. -/
theorem mergesEnd_iff {flagfilter : ℕ} (hf : flagfilter ≠ 2) (files : Files F)
    {log : List (Info F)} (hid : ∀ infos ∈ log, infos.flowId ≠ freeId)
    (hcount : (flowKeys log).card ≤ MaxNumFlow) :
    MergesEnd flagfilter files log ↔ (flowKeys log).card < MaxNumFlow := by
  constructor
  · intro h
    rcases hcount.lt_or_eq with hlt | hfull
    · exact hlt
    · exact absurd h (not_mergesEnd flagfilter files hid hfull)
  · intro hlt
    obtain ⟨s, hs, h⟩ := exists_splitAll files hid hcount List.prefix_rfl
    have htbl : flowEntries s.memFile = some ((entries F).table log) := by
      rw [h.memFile]
      exact flowEntries_memTable (flowId_ne_freeId hid) (length_entries log ▸ hlt)
    have hkeys : ((entries F).table log).map GestioneFileLog.key =
        (decode flagfilter log).map StFlowInfo.key := by
      rw [decode_eq_table hf, map_key_entries]
    have hlen : ((entries F).table log).length = (decode flagfilter log).length := by
      have hlen := congrArg List.length hkeys
      rwa [List.length_map, List.length_map] at hlen
    refine ⟨s, (entries F).table log, hs, htbl, hlen, hkeys, fun seriesOf n => ?_⟩
    rw [← hlen]
    exact ⟨fun type => merge_isSome_iff htbl seriesOf n (extension type),
      mergeCombined_isSome_iff htbl seriesOf n⟩

end Merge

/-- A log of `n` flows between two hosts, told apart by their flow ids. -/
def manyFlows (n : ℕ) : List (Info ℚ) :=
  (List.range n).map fun i => { lastOfDay with flowId := UInt32.ofNat i }

theorem card_manyFlows {n : ℕ} (hn : n ≤ 2 ^ 32) : (flowKeys (manyFlows n)).card = n := by
  have hnodup : ((manyFlows n).map Info.key).Nodup := by
    rw [manyFlows, List.map_map]
    refine List.Nodup.map_on ?_ List.nodup_range
    intro i hi j hj heq
    have hflow := congrArg (fun k : FlowKey => k.flowId.toNat) heq
    have hi := List.mem_range.1 hi
    have hj := List.mem_range.1 hj
    have hflow' : (UInt32.ofNat i).toNat = (UInt32.ofNat j).toNat := hflow
    rwa [UInt32.toNat_ofNat_of_lt' (by rw [UInt32.size]; omega),
      UInt32.toNat_ofNat_of_lt' (by rw [UInt32.size]; omega)] at hflow'
  rw [flowKeys, List.toFinset_card_of_nodup hnodup, List.length_map, manyFlows, List.length_map,
    List.length_range]

theorem manyFlows_ne_freeId {n : ℕ} (hn : n < 2 ^ 32) :
    ∀ infos ∈ manyFlows n, infos.flowId ≠ freeId := by
  intro infos hinfos hflow
  obtain ⟨i, hi, rfl⟩ := List.mem_map.1 hinfos
  have hi := List.mem_range.1 hi
  have hnat : (UInt32.ofNat i).toNat = 4294967295 := congrArg UInt32.toNat hflow
  rw [UInt32.toNat_ofNat_of_lt' (by rw [UInt32.size]; omega)] at hnat
  omega

theorem mergesEnd_iff_few : MergesEnd 0 (fun _ => []) (manyFlows 999) :=
  (mergesEnd_iff (by decide) _ (manyFlows_ne_freeId (by decide))
    (by rw [card_manyFlows (by decide)]; decide)).2 (by rw [card_manyFlows (by decide)]; decide)

/-- With as many flows as entries the scans run past the end of the table. -/
theorem mergesEnd_full : (flowKeys (manyFlows 1000)).card = MaxNumFlow ∧
    ¬ MergesEnd 0 (fun _ => []) (manyFlows 1000) :=
  ⟨card_manyFlows (by decide), not_mergesEnd 0 _ (manyFlows_ne_freeId (by decide))
    (card_manyFlows (by decide))⟩

end Ditg
