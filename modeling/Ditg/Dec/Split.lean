import Ditg.Dec.FlowTable
import Ditg.Library.Decimal

/-!
# Splitting a log by flows

With an option that asks for a series or for the logs of single flows, the decoder
writes every record to a file of its flow (`split`). The open files are kept in the
table `memFile`, whose free entries have the flow id `-1`.

* `split_files_iff`: every flow has a file of its own, with its records in their
  order, unless two flows of the log are named alike. The name has no ports in it.
-/

namespace Ditg

open Memory Text

/-- `MaxNumFlow`, the length of the table `memFile`. -/
def MaxNumFlow : ℕ := 1000

/-- An `ofstream`: the file it is open on, and its position in it, in records. -/
structure OFStream where
  file : List UInt8
  pos : ℕ
  deriving DecidableEq

/-- An entry of the table `memFile`. -/
structure GestioneFileLog where
  flowId : UInt32
  srcPort : UInt32
  destPort : UInt32
  destAddr : CharArray inet6Addrstrlen
  srcAddr : CharArray inet6Addrstrlen
  FileId : OFStream
  FileName : List UInt8
  FileNWE : List UInt8
  deriving DecidableEq

/-- The flow id of a free entry. -/
def freeId : UInt32 := 0xFFFFFFFF

/-- A free entry. -/
def freeEntry : GestioneFileLog :=
  ⟨freeId, 0, 0, strncpy _ [], strncpy _ [], ⟨[], 0⟩, [], []⟩

section Split

variable {F : Type}

/-- The files, by their names: where a file has been skipped over, there is no
    record. -/
abbrev Files (F : Type) := List UInt8 → List (Option (Info F))

/-- The records of a file after a record is written at a position. -/
def writeAt (pos : ℕ) (infos : Info F) (file : List (Option (Info F))) : List (Option (Info F)) :=
  if pos < file.length then file.set pos (some infos)
  else file ++ List.replicate (pos - file.length) none ++ [some infos]

/-- The table `memFile` and the files. -/
structure SplitState (F : Type) where
  memFile : List GestioneFileLog
  files : Files F

/-- All entries are free. -/
def SplitState.init (files : Files F) : SplitState F :=
  ⟨List.replicate MaxNumFlow freeEntry, files⟩

/-- The entry is that of the flow of the record. -/
def sameEntry (infos : Info F) (m : GestioneFileLog) : Bool :=
  m.flowId = infos.flowId ∧ strcmpEq m.srcAddr infos.srcAddr ∧ strcmpEq m.destAddr infos.destAddr ∧
    m.srcPort = infos.srcPort ∧ m.destPort = infos.destPort

/-- The index of the entry of the flow of a record. -/
def FlowPresent (memFile : List GestioneFileLog) (infos : Info F) : Option ℕ :=
  memFile.findIdx? (sameEntry infos)

/-- `(*IdFile).write` on the stream of the entry `i`. -/
def SplitState.write (s : SplitState F) (i : ℕ) (infos : Info F) : SplitState F :=
  match s.memFile[i]? with
  | some m =>
    { memFile := s.memFile.set i { m with FileId := { m.FileId with pos := m.FileId.pos + 1 } }
      files := Function.update s.files m.FileId.file
        (writeAt m.FileId.pos infos (s.files m.FileId.file)) }
  | none => s

/-- The name of the file of a flow, without the extension. -/
def fileNWE (infos : Info F) : List UInt8 :=
  decimal infos.flowId.toNat ++ chars "-" ++ cstr infos.srcAddr.toList ++ chars "-" ++
    cstr infos.destAddr.toList

/-- The name of the file of a flow. -/
def fileName (infos : Info F) : List UInt8 := fileNWE infos ++ chars ".dat"

/-- The entry of a flow, opened with its first record. -/
def newEntry (infos : Info F) : GestioneFileLog where
  flowId := infos.flowId
  srcPort := infos.srcPort
  destPort := infos.destPort
  destAddr := strncpy _ infos.destAddr.toList
  srcAddr := strncpy _ infos.srcAddr.toList
  FileId := ⟨fileName infos, 0⟩
  FileName := fileName infos
  FileNWE := fileNWE infos

/-- The table and the files after a record. The file of a new flow is truncated. No
    result stands for a scan past the end of the table. -/
def split (s : SplitState F) (infos : Info F) : Option (SplitState F) :=
  match FlowPresent s.memFile infos with
  | some i => some (s.write i infos)
  | none =>
    match s.memFile.findIdx? (·.flowId = freeId) with
    | some i => some (SplitState.write
        { memFile := s.memFile.set i (newEntry infos)
          files := Function.update s.files (fileName infos) [] } i infos)
    | none => none

/-- The table and the files after the records of a log. -/
def splitAll (files : Files F) (log : List (Info F)) : Option (SplitState F) :=
  log.foldlM split (SplitState.init files)

/-! ## The table as a keyed table -/

/-- The flow of an entry. -/
def GestioneFileLog.key (m : GestioneFileLog) : FlowKey :=
  ⟨m.flowId, cstr m.srcAddr.toList, cstr m.destAddr.toList, m.srcPort, m.destPort⟩

/-- An entry whose stream has written one more record. -/
def GestioneFileLog.advance (m : GestioneFileLog) : GestioneFileLog :=
  { m with FileId := { m.FileId with pos := m.FileId.pos + 1 } }

@[simp] theorem key_advance (m : GestioneFileLog) : m.advance.key = m.key := rfl

theorem key_newEntry (infos : Info F) : (newEntry infos).key = infos.key := by
  simp only [newEntry, GestioneFileLog.key, Info.key, cstr_strncpy_toList]

/-- The entries that are in use: they are opened with the first record of a flow, and
    their streams advance with every record. -/
def entries (F : Type) : Keyed FlowKey GestioneFileLog (Info F) where
  key := GestioneFileLog.key
  keyOf := Info.key
  new infos := (newEntry infos).advance
  upd m _ := m.advance
  key_new infos := (key_advance _).trans (key_newEntry infos)
  key_upd m _ := key_advance m

theorem sameEntry_iff (infos : Info F) (m : GestioneFileLog) :
    sameEntry infos m ↔ m.key = infos.key := by
  simp [sameEntry, strcmpEq, GestioneFileLog.key, Info.key]

/-- The table with the entries `tbl` in use. -/
def memTable (tbl : List GestioneFileLog) : List GestioneFileLog :=
  tbl ++ List.replicate (MaxNumFlow - tbl.length) freeEntry

variable {tbl : List GestioneFileLog} {infos : Info F}

theorem not_sameEntry_freeEntry (hid : infos.flowId ≠ freeId) : ¬ sameEntry infos freeEntry := by
  intro h
  rw [sameEntry_iff] at h
  exact hid (congrArg FlowKey.flowId h).symm

/-- The entry of a flow is found if it has one, ... -/
theorem exists_FlowPresent (hmem : infos.key ∈ tbl.map GestioneFileLog.key) :
    ∃ (i : ℕ) (hi : i < tbl.length), FlowPresent (memTable tbl) infos = some i ∧
      tbl[i].key = infos.key := by
  obtain ⟨m, hm, hk⟩ := List.mem_map.1 hmem
  have hany : tbl.any (sameEntry infos) :=
    List.any_eq_true.2 ⟨m, hm, (sameEntry_iff infos m).2 hk⟩
  rw [← List.findIdx?_isSome] at hany
  obtain ⟨i, hi⟩ := Option.isSome_iff_exists.1 hany
  obtain ⟨hlt, hsame, -⟩ := List.findIdx?_eq_some_iff_getElem.1 hi
  refine ⟨i, hlt, ?_, (sameEntry_iff infos _).1 hsame⟩
  rw [FlowPresent, memTable, List.findIdx?_append, hi, Option.some_or]

/-- ... and otherwise there is none, ... -/
theorem FlowPresent_eq_none (hid : infos.flowId ≠ freeId)
    (hmem : infos.key ∉ tbl.map GestioneFileLog.key) :
    FlowPresent (memTable tbl) infos = none := by
  rw [FlowPresent, List.findIdx?_eq_none_iff]
  intro m hm
  rw [memTable, List.mem_append] at hm
  rw [← Bool.not_eq_true]
  rcases hm with hm | hm
  · exact fun h => hmem (List.mem_map.2 ⟨m, hm, (sameEntry_iff infos m).1 h⟩)
  · rw [List.eq_of_mem_replicate hm]
    exact not_sameEntry_freeEntry hid

/-- ... and the first free entry comes after those in use. -/
theorem findIdx?_free (hlt : tbl.length < MaxNumFlow) (hlive : ∀ m ∈ tbl, m.flowId ≠ freeId) :
    (memTable tbl).findIdx? (·.flowId = freeId) = some tbl.length := by
  have hnone : tbl.findIdx? (·.flowId = freeId) = none := by
    rw [List.findIdx?_eq_none_iff]
    exact fun m hm => decide_eq_false (hlive m hm)
  rw [memTable, List.findIdx?_append, hnone, Option.none_or, List.findIdx?_replicate,
    if_pos ⟨by omega, by decide⟩, Option.map_some, Nat.zero_add]

/-- A record is written at the end of its file. -/
theorem writeAt_length (infos : Info F) (file : List (Option (Info F))) :
    writeAt file.length infos file = file ++ [some infos] := by
  rw [writeAt, if_neg (lt_irrefl _), Nat.sub_self, List.replicate_zero, List.append_nil]

theorem write_memTable {files : Files F} {i : ℕ} (hi : i < tbl.length) (infos : Info F) :
    SplitState.write ⟨memTable tbl, files⟩ i infos =
      ⟨memTable (tbl.modify i GestioneFileLog.advance), Function.update files tbl[i].FileId.file
        (writeAt tbl[i].FileId.pos infos (files tbl[i].FileId.file))⟩ := by
  have hget : (memTable tbl)[i]? = some tbl[i] := by
    rw [memTable, List.getElem?_append_left hi, List.getElem?_eq_getElem hi]
  have hset : (memTable tbl).set i tbl[i].advance =
      memTable (tbl.modify i GestioneFileLog.advance) := by
    rw [memTable, memTable, List.set_append_left _ _ hi, List.length_modify]
    congr 1
    apply List.ext_getElem
    · rw [List.length_set, List.length_modify]
    · intro j _ _
      rw [List.getElem_set, List.getElem_modify]
      split_ifs with hij
      · subst hij
        rfl
      · rfl
  rw [SplitState.write]
  simp only [hget]
  rw [← hset]
  rfl

/-- A new entry takes the place of the first free one. -/
theorem set_memTable (hlt : tbl.length < MaxNumFlow) (m : GestioneFileLog) :
    (memTable tbl).set tbl.length m = memTable (tbl ++ [m]) := by
  obtain ⟨n, hn⟩ := Nat.exists_eq_add_of_lt hlt
  have hfree : MaxNumFlow - tbl.length = n + 1 := by omega
  have hfree' : MaxNumFlow - (tbl ++ [m]).length = n := by
    rw [List.length_append, List.length_singleton]
    omega
  rw [memTable, memTable, hfree, hfree', List.replicate_succ, List.set_append_right _ _ le_rfl,
    Nat.sub_self, List.set_cons_zero, List.append_assoc, List.singleton_append]

/-- The first record of a flow opens its file, which it is then the only record of. -/
theorem split_memTable_new {files : Files F} (hid : infos.flowId ≠ freeId)
    (hlive : ∀ m ∈ tbl, m.flowId ≠ freeId) (hmem : infos.key ∉ tbl.map GestioneFileLog.key)
    (hlt : tbl.length < MaxNumFlow) :
    split ⟨memTable tbl, files⟩ infos = some ⟨memTable (tbl ++ [(newEntry infos).advance]),
      Function.update files (fileName infos) [some infos]⟩ := by
  have hlast : tbl.length < (tbl ++ [newEntry infos]).length := by
    rw [List.length_append]
    exact Nat.lt_succ_self _
  have hget : (tbl ++ [newEntry infos])[tbl.length] = newEntry infos := by
    rw [List.getElem_append_right le_rfl]
    simp
  have hmodify : (tbl ++ [newEntry infos]).modify tbl.length GestioneFileLog.advance =
      tbl ++ [(newEntry infos).advance] := by
    rw [List.modify_eq_take_drop, List.take_left, List.drop_left]
    rfl
  rw [split, FlowPresent_eq_none hid hmem]
  simp only [findIdx?_free hlt hlive]
  rw [set_memTable hlt, write_memTable hlast, hget, hmodify]
  simp [newEntry, writeAt]

/-- The name of the file of a flow. -/
def FlowKey.fileName (k : FlowKey) : List UInt8 :=
  decimal k.flowId.toNat ++ chars "-" ++ k.srcaddress ++ chars "-" ++ k.destaddress ++ chars ".dat"

/-- Different flows of a log have different names. -/
def NamesDistinct (log : List (Info F)) : Prop :=
  ∀ r ∈ log, ∀ r' ∈ log, r.key.fileName = r'.key.fileName → r.key = r'.key

/-- What `split` has done with the records `log` of the log `all`. -/
structure Splitted (all log : List (Info F)) (s : SplitState F) : Prop where
  memFile : s.memFile = memTable ((entries F).table log)
  named : ∀ m ∈ (entries F).table log,
    m.FileName = m.key.fileName ∧ m.FileId.file = m.key.fileName
  files : NamesDistinct all → ∀ m ∈ (entries F).table log,
    s.files m.key.fileName = (log.filter (·.key = m.key)).map some ∧
      m.FileId.pos = (log.filter (·.key = m.key)).length

theorem splitted_init (all : List (Info F)) (files : Files F) :
    Splitted all [] (SplitState.init files) where
  memFile := rfl
  named := fun _ h => absurd h List.not_mem_nil
  files := fun _ _ h => absurd h List.not_mem_nil

theorem mem_keys_entries (log : List (Info F)) (k : FlowKey) :
    k ∈ ((entries F).table log).map GestioneFileLog.key ↔ k ∈ log.map Info.key :=
  (entries F).mem_keys_table log k

/-- The entries in use are not free. -/
theorem flowId_ne_freeId {log : List (Info F)} (hid : ∀ infos ∈ log, infos.flowId ≠ freeId) :
    ∀ m ∈ (entries F).table log, m.flowId ≠ freeId := by
  intro m hm
  obtain ⟨infos, hinfos, hk⟩ :=
    List.mem_map.1 ((mem_keys_entries log _).1 (List.mem_map_of_mem hm))
  have hflow : infos.flowId = m.flowId := congrArg FlowKey.flowId hk
  exact hflow ▸ hid infos hinfos

section Step

variable {all log : List (Info F)} {s : SplitState F} {r : Info F}

/-- A flow of the log that is not that of the record has another name. -/
theorem fileName_ne (hnames : NamesDistinct all) (hpre : log ++ [r] <+: all)
    {m : GestioneFileLog} (hm : m ∈ (entries F).table log) (hne : m.key ≠ r.key) :
    m.key.fileName ≠ r.key.fileName := by
  intro heq
  obtain ⟨r', hr', hk⟩ := List.mem_map.1 ((mem_keys_entries log _).1 (List.mem_map_of_mem hm))
  have hkey := hnames r' (hpre.subset (List.mem_append_left _ hr')) r
    (hpre.subset (by simp)) (by rw [hk, heq])
  exact hne (hk.symm.trans hkey)

/-- A record is one more of its flow, ... -/
theorem filter_concat_of_eq {k : FlowKey} (h : r.key = k) :
    (log ++ [r]).filter (·.key = k) = log.filter (·.key = k) ++ [r] := by
  rw [List.filter_append, List.filter_cons_of_pos (by simpa using h), List.filter_nil]

/-- ... and none of another one. -/
theorem filter_concat_of_ne {k : FlowKey} (h : r.key ≠ k) :
    (log ++ [r]).filter (·.key = k) = log.filter (·.key = k) := by
  rw [List.filter_append, List.filter_cons_of_neg (by simpa using h), List.filter_nil,
    List.append_nil]

variable (h : Splitted all log s) (hpre : log ++ [r] <+: all)

include h hpre

/-- A further record of a flow is written to its file. -/
theorem split_known (hmem : r.key ∈ ((entries F).table log).map GestioneFileLog.key) :
    ∃ s', split s r = some s' ∧ Splitted all (log ++ [r]) s' := by
  obtain ⟨i, hi, hfound, hk⟩ := exists_FlowPresent hmem
  have hmi := List.getElem_mem hi
  obtain ⟨-, hfile⟩ := h.named _ hmi
  have hupd := (entries F).modify_eq_update ((entries F).nodup_keys log) hi hk
  have htable : (entries F).table (log ++ [r]) =
      ((entries F).table log).map fun m => if m.key = r.key then m.advance else m := by
    rw [Keyed.table_concat]
    exact if_pos hmem
  have hmemFile := h.memFile
  rcases s with ⟨memFile, files⟩
  subst hmemFile
  -- The record is written behind those that the file of its flow holds.
  refine ⟨_, by rw [split, hfound], ?_⟩
  rw [write_memTable hi, hfile, hk]
  refine ⟨by rw [htable]; exact congrArg memTable hupd, ?_, ?_⟩
  · intro m hm
    rw [htable] at hm
    obtain ⟨m', hm', rfl⟩ := List.mem_map.1 hm
    split_ifs
    · exact h.named m' hm'
    · exact h.named m' hm'
  · intro hnames m hm
    rw [htable] at hm
    obtain ⟨m', hm', rfl⟩ := List.mem_map.1 hm
    obtain ⟨hfiles, hpos⟩ := h.files hnames m' hm'
    obtain ⟨hfilesi, hposi⟩ := h.files hnames _ hmi
    by_cases hkey : m'.key = r.key
    · -- The flow of the record.
      rw [if_pos hkey, key_advance, filter_concat_of_eq hkey.symm]
      rw [hk] at hfilesi hposi
      rw [hkey] at hpos ⊢
      dsimp only at hfilesi ⊢
      refine ⟨?_, ?_⟩
      · rw [Function.update_self, hfilesi, hposi, ← List.length_map some, writeAt_length,
          List.map_append]
        rfl
      · rw [List.length_append, ← hpos]
        rfl
    · -- Another flow has another file, which stays as it was.
      rw [if_neg hkey, filter_concat_of_ne (Ne.symm hkey)]
      exact ⟨(Function.update_of_ne (fileName_ne hnames hpre hm' hkey) _ _).trans hfiles, hpos⟩

/-- The first record of a flow is written to a file that has been truncated. -/
theorem split_new (hid : r.flowId ≠ freeId) (hlive : ∀ infos ∈ log, infos.flowId ≠ freeId)
    (hmem : r.key ∉ ((entries F).table log).map GestioneFileLog.key)
    (hlt : ((entries F).table log).length < MaxNumFlow) :
    ∃ s', split s r = some s' ∧ Splitted all (log ++ [r]) s' := by
  have htable : (entries F).table (log ++ [r]) =
      (entries F).table log ++ [(newEntry r).advance] := by
    rw [Keyed.table_concat]
    exact if_neg hmem
  have hmemFile := h.memFile
  rcases s with ⟨memFile, files⟩
  subst hmemFile
  refine ⟨_, split_memTable_new hid (flowId_ne_freeId hlive) hmem hlt, by rw [htable], ?_, ?_⟩
  · intro m hm
    rw [htable, List.mem_append, List.mem_singleton] at hm
    rcases hm with hm | rfl
    · exact h.named m hm
    · rw [key_advance, key_newEntry]
      exact ⟨rfl, rfl⟩
  · intro hnames m hm
    rw [htable, List.mem_append, List.mem_singleton] at hm
    rcases hm with hm | rfl
    · -- The file that is truncated is of none of the flows before.
      have hne : m.key ≠ r.key := fun hk => hmem (hk ▸ List.mem_map_of_mem hm)
      obtain ⟨hfiles, hpos⟩ := h.files hnames m hm
      rw [filter_concat_of_ne (Ne.symm hne)]
      exact ⟨(Function.update_of_ne (fileName_ne hnames hpre hm hne) _ _).trans hfiles, hpos⟩
    · -- There was no record of the flow before.
      have hnil : log.filter (·.key = r.key) = [] := by
        rw [List.filter_eq_nil_iff]
        intro r' hr' hk
        exact hmem ((mem_keys_entries log _).2 (of_decide_eq_true hk ▸ List.mem_map_of_mem hr'))
      rw [key_advance, key_newEntry, filter_concat_of_eq rfl, hnil]
      exact ⟨Function.update_self _ _ _, rfl⟩

end Step

/-! ## The files of a log -/

/-- The flows of a log. -/
def flowKeys (log : List (Info F)) : Finset FlowKey := (log.map Info.key).toFinset

theorem mem_flowKeys {log : List (Info F)} {k : FlowKey} :
    k ∈ flowKeys log ↔ ∃ infos ∈ log, infos.key = k := by
  rw [flowKeys, List.mem_toFinset, List.mem_map]

/-- There is one entry for every flow. -/
theorem length_entries (log : List (Info F)) :
    ((entries F).table log).length = (flowKeys log).card := by
  have hset : flowKeys log = (((entries F).table log).map GestioneFileLog.key).toFinset := by
    ext k
    rw [flowKeys, List.mem_toFinset, List.mem_toFinset, mem_keys_entries]
  have hcard := List.toFinset_card_of_nodup ((entries F).nodup_keys log)
  rw [List.length_map] at hcard
  rw [hset]
  exact hcard.symm

/-- With no more flows than entries, all records are written. -/
theorem exists_splitAll {log : List (Info F)} (files : Files F)
    (hid : ∀ infos ∈ log, infos.flowId ≠ freeId) (hcount : (flowKeys log).card ≤ MaxNumFlow)
    {p : List (Info F)} (hp : p <+: log) :
    ∃ s, splitAll files p = some s ∧ Splitted log p s := by
  induction p using List.reverseRecOn with
  | nil => exact ⟨_, rfl, splitted_init log files⟩
  | append_singleton p r ih =>
    obtain ⟨s, hs, hsplit⟩ := ih ((List.prefix_append _ _).trans hp)
    have hstep : ∃ s', split s r = some s' ∧ Splitted log (p ++ [r]) s' := by
      by_cases hmem : r.key ∈ ((entries F).table p).map GestioneFileLog.key
      · exact split_known hsplit hp hmem
      · -- A new flow finds a free entry, as it is one of those of the whole log.
        have hsub : insert r.key (flowKeys p) ⊆ flowKeys log := by
          intro k hk
          rw [Finset.mem_insert, mem_flowKeys] at hk
          rw [mem_flowKeys]
          rcases hk with rfl | ⟨infos, hinfos, rfl⟩
          · exact ⟨r, hp.subset (by simp), rfl⟩
          · exact ⟨infos, hp.subset (List.mem_append_left _ hinfos), rfl⟩
        have hnew : r.key ∉ flowKeys p := fun h =>
          hmem ((mem_keys_entries p _).2 (List.mem_toFinset.1 h))
        have hcard := Finset.card_le_card hsub
        rw [Finset.card_insert_of_notMem hnew, ← length_entries] at hcard
        exact split_new hsplit hp (hid r (hp.subset (by simp)))
          (fun infos h => hid infos (hp.subset (List.mem_append_left _ h))) hmem (by omega)
    obtain ⟨s', hs', hsplit'⟩ := hstep
    refine ⟨s', ?_, hsplit'⟩
    rw [splitAll, List.foldlM_append, ← splitAll, hs]
    simpa using hs'

/-- What stands between the flow id and the extension in the name of a flow. -/
def FlowKey.addresses (k : FlowKey) : List UInt8 := k.srcaddress ++ chars "-" ++ k.destaddress

/-- Flows are named alike if they have the same flow id and the same addresses, as far
    as these can be told apart in the name. -/
theorem fileName_eq_iff {k k' : FlowKey} :
    k.fileName = k'.fileName ↔ k.flowId = k'.flowId ∧ k.addresses = k'.addresses := by
  have hsep : ∀ k : FlowKey, k.fileName =
      decimal k.flowId.toNat ++ 45 :: (k.addresses ++ chars ".dat") := by
    intro k
    rw [FlowKey.fileName, FlowKey.addresses]
    simp [chars]
  rw [hsep, hsep, decimal_append_inj (by decide), UInt32.toNat_inj, List.append_left_inj]

/-- The entries of flows are those in use. -/
theorem mem_memFile {log : List (Info F)} {s : SplitState F}
    (hid : ∀ infos ∈ log, infos.flowId ≠ freeId) (h : Splitted log log s) {m : GestioneFileLog}
    (hk : m.key ∈ flowKeys log) : m ∈ s.memFile ↔ m ∈ (entries F).table log := by
  rw [h.memFile, memTable, List.mem_append]
  constructor
  · rintro (hm | hm)
    · exact hm
    · obtain ⟨infos, hinfos, hkey⟩ := mem_flowKeys.1 hk
      rw [List.eq_of_mem_replicate hm] at hkey
      exact absurd (congrArg FlowKey.flowId hkey) (hid infos hinfos)
  · exact .inl

/-- After the records of a log, every flow has an entry whose file holds its records in
    their order, and different flows have different files. -/
def OwnFiles (files : Files F) (log : List (Info F)) : Prop :=
  ∃ s, splitAll files log = some s ∧
    (∀ k ∈ flowKeys log, ∃ m ∈ s.memFile, m.key = k ∧
      s.files m.FileName = (log.filter (·.key = k)).map some) ∧
    ∀ m ∈ s.memFile, ∀ m' ∈ s.memFile, m.key ∈ flowKeys log → m'.key ∈ flowKeys log →
      m.key ≠ m'.key → m.FileName ≠ m'.FileName

/-- Every flow of a log has a file of its own, with its records in their order, if and
    only if no two flows have the same flow id and the same addresses. -/
theorem split_files_iff {log : List (Info F)} (files : Files F)
    (hid : ∀ infos ∈ log, infos.flowId ≠ freeId) (hcount : (flowKeys log).card < MaxNumFlow) :
    OwnFiles files log ↔ ∀ k ∈ flowKeys log, ∀ k' ∈ flowKeys log,
      k.flowId = k'.flowId → k.addresses = k'.addresses → k = k' := by
  obtain ⟨s, hs, h⟩ := exists_splitAll files hid hcount.le List.prefix_rfl
  -- Every flow has its entry.
  have hentry : ∀ k ∈ flowKeys log, ∃ m ∈ (entries F).table log, m.key = k := by
    intro k hk
    exact List.mem_map.1 ((mem_keys_entries log k).2 (List.mem_toFinset.1 hk))
  constructor
  · rintro ⟨s', hs', -, hdistinct⟩ k hk k' hk' hflow haddr
    obtain rfl : s' = s := Option.some_injective _ (hs'.symm.trans hs)
    by_contra hne
    obtain ⟨m, hm, rfl⟩ := hentry k hk
    obtain ⟨m', hm', rfl⟩ := hentry k' hk'
    apply hdistinct m ((mem_memFile hid h hk).2 hm) m' ((mem_memFile hid h hk').2 hm') hk hk' hne
    rw [(h.named m hm).1, (h.named m' hm').1, fileName_eq_iff]
    exact ⟨hflow, haddr⟩
  · intro hkeys
    have hnames : NamesDistinct log := by
      intro r hr r' hr' hname
      obtain ⟨hflow, haddr⟩ := fileName_eq_iff.1 hname
      exact hkeys _ (mem_flowKeys.2 ⟨r, hr, rfl⟩) _ (mem_flowKeys.2 ⟨r', hr', rfl⟩) hflow haddr
    refine ⟨s, hs, ?_, ?_⟩
    · intro k hk
      obtain ⟨m, hm, rfl⟩ := hentry k hk
      refine ⟨m, (mem_memFile hid h hk).2 hm, rfl, ?_⟩
      rw [(h.named m hm).1]
      exact (h.files hnames m hm).1
    · intro m hm m' hm' hk hk' hne hname
      have hmt := (mem_memFile hid h hk).1 hm
      have hmt' := (mem_memFile hid h hk').1 hm'
      rw [(h.named m hmt).1, (h.named m' hmt').1, fileName_eq_iff] at hname
      exact hne (hkeys _ hk _ hk' hname.1 hname.2)

end Split

/-- A record between the hosts `a` and `b`. -/
def between (a b : String) (srcPort : UInt32) : Info ℚ :=
  { lastOfDay with
    srcAddr := strncpy _ (chars a)
    destAddr := strncpy _ (chars b)
    srcPort := srcPort }

theorem split_files_iff_hosts : OwnFiles (fun _ => [])
    [between "10.0.0.1" "10.0.0.2" 1, between "10.0.0.1" "10.0.0.3" 1] :=
  (split_files_iff (fun _ => []) (by decide +kernel) (by decide +kernel)).2 (by decide +kernel)

/-- Two flows that differ in their ports have the same file. -/
theorem split_ports :
    (flowKeys [between "10.0.0.1" "10.0.0.2" 1, between "10.0.0.1" "10.0.0.2" 2]).card = 2 ∧
    ¬ OwnFiles (fun _ => [])
      [between "10.0.0.1" "10.0.0.2" 1, between "10.0.0.1" "10.0.0.2" 2] := by
  refine ⟨by decide +kernel, ?_⟩
  rintro ⟨s, hs, -, hdistinct⟩
  have hmem : (splitAll (fun _ => [])
      [between "10.0.0.1" "10.0.0.2" 1, between "10.0.0.1" "10.0.0.2" 2]).map
      (fun s => s.memFile.take 2) = some [(newEntry (between "10.0.0.1" "10.0.0.2" 1)).advance,
        (newEntry (between "10.0.0.1" "10.0.0.2" 2)).advance] := by decide +kernel
  rw [hs, Option.map_some, Option.some_inj] at hmem
  refine hdistinct _ (List.mem_of_mem_take (hmem ▸ List.mem_cons_self)) _
    (List.mem_of_mem_take (hmem ▸ List.mem_cons_of_mem _ List.mem_cons_self)) ?_ ?_ ?_ ?_
  · decide +kernel
  · decide +kernel
  · decide +kernel
  · decide +kernel

end Ditg
