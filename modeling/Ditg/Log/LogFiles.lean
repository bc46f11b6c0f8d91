import Ditg.Library.RefCount
import Ditg.Recv.Logging

/-!
# The tables of log files

Both ITGRecv and ITGLog have a table of the log files in use (`memLogFile`). A session asks for
the stream of a file by its name (`allowedLogFile`), and gives it back (`closeFileLog`). A free
entry is marked twice, by its number of users (-1) and by its name (a blank): the one is looked
for to open a file, the other to find a file that is open. The entry to give back is found by
the address of its stream. The two programs differ in what they do without such an entry:
ITGRecv exits or does nothing, ITGLog goes on behind its table.

* `logFiles_of_reach`: in the runs in which all names in use fit in the table, files are shared
  by name, an entry counts its users, and is open while it has one; a free entry is always
  found, and no file is truncated that is in use.
-/

namespace Ditg

open Bytes Memory RefCount

/-! ## The model -/

/-- The programs with a table of log files. -/
inductive LogProgram
  | itgRecv
  | itgLog
  deriving DecidableEq, Repr

/-- A user of a log file: the name, and the index of the entry whose stream it was given. -/
abbrev LogUser := User (List UInt8)

/-- The table, those who use it, and the names of the files that have been truncated, each time
    they were. -/
structure LogFiles where
  memLogFile : List ManageLogFile
  users : List LogUser
  truncated : List (List UInt8)
  deriving DecidableEq, Repr

/-- The calls. -/
inductive LogFilesCall
  | allowedLogFile (logFile : List UInt8)
  | closeFileLog (user : LogUser)
  deriving DecidableEq, Repr

/-- `allowedLogFile`. Opening a file truncates it. In ITGLog nothing is known about the call
    when there is no free entry. -/
def LogFiles.allowedLogFile (s : LogFiles) (logFile : List UInt8) : Option LogFiles :=
  match s.memLogFile.findIdx? (·.logFile = logFile) with
  | some i =>
    some
      { s with
        memLogFile := s.memLogFile.modify i fun m => { m with num := m.num + 1 }
        users := ⟨logFile, i⟩ :: s.users }
  | none =>
    (s.memLogFile.findIdx? (·.num = -1)).map fun i =>
      { memLogFile := s.memLogFile.modify i fun _ => ⟨1, logFile, true⟩
        users := ⟨logFile, i⟩ :: s.users
        truncated := s.truncated ++ [logFile] }

/-- `closeFileLog` of ITGLog, which looks for the stream without a bound. -/
def itgLogCloseFileLog (memLogFile : List ManageLogFile) (out : ℕ) :
    Option (List ManageLogFile) :=
  if out < memLogFile.length then
    some (memLogFile.modify out fun m =>
      if m.num - 1 = 0 then ⟨-1, chars " ", false⟩ else { m with num := m.num - 1 })
  else none

/-- `closeFileLog` of either program. -/
def LogProgram.closeFileLog (memLogFile : List ManageLogFile) (out : ℕ) :
    LogProgram → Option (List ManageLogFile)
  | .itgRecv => some (Ditg.closeFileLog memLogFile (.mem out))
  | .itgLog => itgLogCloseFileLog memLogFile out

/-- A program, whose calls are made one at a time. -/
def logFiles (p : LogProgram) : Transition LogFiles LogFilesCall where
  init s := s = ⟨List.replicate maxNumThread .free, [], []⟩
  step s
    | .allowedLogFile logFile => s.allowedLogFile logFile
    | .closeFileLog user =>
      (p.closeFileLog s.memLogFile user.slot).map fun memLogFile =>
        { s with memLogFile := memLogFile, users := s.users.erase user }

/-- A call as it is made: for a name that is not a blank and, with those in use, is one of at
    most `MAX_NUM_THREAD` names; or by a user, for the stream it was given. -/
def LogFiles.Called (s : LogFiles) : LogFilesCall → Prop
  | .allowedLogFile logFile => logFile ≠ chars " " ∧
    (insert logFile (s.users.map (·.key)).toFinset).card ≤ maxNumThread
  | .closeFileLog user => user ∈ s.users

instance (s : LogFiles) : DecidablePred s.Called
  | .allowedLogFile _ => inferInstanceAs (Decidable (_ ∧ _))
  | .closeFileLog user => inferInstanceAs (Decidable (user ∈ s.users))

/-- The number of users of an entry. -/
def LogFiles.numUsers (s : LogFiles) (i : ℕ) : ℕ := s.users.countP (·.slot = i)

/-! ## Entries -/

/-- The entry of a slot that is free, or of a name with its users. -/
def ManageLogFile.ofSlot : RefCount.Slot (List UInt8) → ManageLogFile
  | none => .free
  | some (logFile, num) => ⟨num, logFile, true⟩

variable {slots slots' : List (RefCount.Slot (List UInt8))} {logFile : List UInt8} {i : ℕ}

/-- The entry of a name is found. -/
theorem findIdx?_logFile (h : logFile ≠ chars " ") :
    (slots.map ManageLogFile.ofSlot).findIdx? (·.logFile = logFile) = find slots logFile := by
  rw [List.findIdx?_map, find]
  congr 1
  funext slot
  rcases slot with _ | ⟨x, n⟩
  · exact decide_eq_false (Ne.symm h)
  · rfl

/-- A free entry is found. -/
theorem findIdx?_num :
    (slots.map ManageLogFile.ofSlot).findIdx? (·.num = -1) = SlotTable.find slots none := by
  rw [List.findIdx?_map, SlotTable.find]
  congr 1
  funext slot
  rcases slot with _ | ⟨x, n⟩
  · rfl
  · have hnum : (ManageLogFile.ofSlot (some (x, n))).num ≠ -1 := by
      change (n : ℤ) ≠ -1
      omega
    exact decide_eq_false hnum

/-- An entry is set. -/
theorem map_modify {slot : RefCount.Slot (List UInt8)} (slot' : RefCount.Slot (List UInt8))
    {f : ManageLogFile → ManageLogFile} (hi : slots[i]? = some slot)
    (hf : f (.ofSlot slot) = .ofSlot slot') :
    (slots.map ManageLogFile.ofSlot).modify i f = (slots.set i slot').map .ofSlot := by
  have hget : (slots.map ManageLogFile.ofSlot)[i]? = some (.ofSlot slot) := by
    rw [List.getElem?_map, hi, Option.map_some]
  rw [modify_eq_set hget, hf, List.map_set]

/-- `allowedLogFile` acquires the name. -/
theorem LogFiles.allowedLogFile_eq {s : LogFiles} (hs : s.memLogFile = slots.map .ofSlot)
    (h : logFile ≠ chars " ") : s.allowedLogFile logFile = (acquire slots logFile).map
      fun (i, slots') =>
        { memLogFile := slots'.map .ofSlot
          users := ⟨logFile, i⟩ :: s.users
          truncated :=
            if find slots logFile = none then s.truncated ++ [logFile] else s.truncated } := by
  rw [LogFiles.allowedLogFile, hs, findIdx?_logFile h, findIdx?_num, acquire]
  rcases hfind : find slots logFile with _ | i
  · rcases hfree : SlotTable.find slots none with _ | i
    · rfl
    · simp only [Option.map_some, if_true]
      rw [map_modify (some (logFile, 1)) (SlotTable.find_eq_some hfree) rfl]
  · obtain ⟨n, hn⟩ := find_eq_some hfind
    simp only [Option.map_some, reduceCtorEq, if_false]
    rw [map_modify (some (logFile, n + 1)) hn rfl, modify_eq_set hn, Option.map_some]

/-- `closeFileLog` releases an entry that is in use. -/
theorem LogProgram.closeFileLog_eq (p : LogProgram) {n : ℕ}
    (hi : slots[i]? = some (some (logFile, n + 1))) :
    p.closeFileLog (slots.map .ofSlot) i = some ((release slots i).map .ofSlot) := by
  have hset : (slots.map ManageLogFile.ofSlot).modify i (fun m =>
      if m.num - 1 = 0 then ⟨-1, chars " ", false⟩ else { m with num := m.num - 1 }) =
        (release slots i).map .ofSlot := by
    rw [release_eq hi]
    apply map_modify _ hi
    simp only [ManageLogFile.ofSlot, Nat.cast_add, Nat.cast_one, add_sub_cancel_right,
      Nat.cast_eq_zero]
    split_ifs <;> rfl
  have hlt : i < (slots.map ManageLogFile.ofSlot).length := by
    rw [List.length_map]
    exact (List.getElem?_eq_some_iff.1 hi).1
  cases p with
  | itgRecv => exact congrArg some hset
  | itgLog => rw [LogProgram.closeFileLog, itgLogCloseFileLog, if_pos hlt, hset]

/-! ## Runs -/

/-- The entries are those of the users. -/
def LogFiles.Inv (s : LogFiles) : Prop :=
  ∃ slots, s.memLogFile = slots.map .ofSlot ∧ slots.length = maxNumThread ∧ Counts slots s.users

theorem LogFiles.Inv.step {p : LogProgram} {s s' : LogFiles} {c : LogFilesCall} (h : s.Inv)
    (hc : s.Called c) (hstep : (logFiles p).step s c = some s') : s'.Inv := by
  obtain ⟨slots, hs, hlen, hcounts⟩ := h
  cases c with
  | allowedLogFile logFile =>
    change s.allowedLogFile logFile = some s' at hstep
    rw [LogFiles.allowedLogFile_eq hs hc.1] at hstep
    obtain ⟨⟨i, slots'⟩, hacq, rfl⟩ := Option.map_eq_some_iff.1 hstep
    exact ⟨slots', rfl, (length_acquire hacq).trans hlen, hcounts.acquire hacq⟩
  | closeFileLog user =>
    obtain ⟨n, hn⟩ := hcounts.slot_eq_succ hc
    change Option.map _ _ = some s' at hstep
    rw [hs, p.closeFileLog_eq hn, Option.map_some, Option.some.injEq] at hstep
    subst hstep
    exact ⟨release slots user.slot, rfl, (length_release ..).trans hlen, hcounts.release hc⟩

theorem LogFiles.Inv.of_reach {p : LogProgram} {s : LogFiles}
    (h : (logFiles p).ReachVia LogFiles.Called s) : s.Inv := by
  refine h.invariant (fun s hs => ?_) fun s c s' hs hc hstep => hs.step hc hstep
  obtain rfl : s = _ := hs
  refine ⟨List.replicate maxNumThread none, ?_, List.length_replicate, Counts.replicate _⟩
  rw [List.map_replicate]
  rfl

/-- A call that is made returns, and truncates no file but one without users. -/
theorem LogFiles.Inv.exists_step (p : LogProgram) {s : LogFiles} {c : LogFilesCall} (h : s.Inv)
    (hc : s.Called c) : ∃ s', (logFiles p).step s c = some s' ∧
      ∀ x, s'.truncated.count x ≠ s.truncated.count x → ∀ u ∈ s.users, u.key ≠ x := by
  obtain ⟨slots, hs, hlen, hcounts⟩ := h
  cases c with
  | allowedLogFile logFile =>
    obtain ⟨i, slots', hacq⟩ := hcounts.exists_acquire (hlen.symm ▸ hc.2)
    refine ⟨_, (LogFiles.allowedLogFile_eq hs hc.1).trans (by rw [hacq]; rfl), fun x hx => ?_⟩
    dsimp only at hx
    split_ifs at hx with hfind
    · have hxl : x = logFile := by
        by_contra hne
        refine hx ?_
        rw [List.count_append, List.count_singleton, beq_false_of_ne (Ne.symm hne)]
        simp
      exact hxl ▸ hcounts.find_eq_none_iff.1 hfind
    · exact absurd rfl hx
  | closeFileLog user =>
    obtain ⟨n, hn⟩ := hcounts.slot_eq_succ hc
    refine ⟨⟨(release slots user.slot).map .ofSlot, s.users.erase user, s.truncated⟩, ?_,
      fun x hx => absurd rfl hx⟩
    change Option.map _ _ = _
    rw [hs, p.closeFileLog_eq hn, Option.map_some]

/-- In the runs of either program in which at most `MAX_NUM_THREAD` names are in use: users
    have the same stream if and only if they have the same name, that of an entry; an entry
    counts its users (-1 if there are none), and its stream is open if and only if it has any;
    and a call returns, and truncates no file but one without users. -/
theorem logFiles_of_reach (p : LogProgram) {s : LogFiles}
    (h : (logFiles p).ReachVia LogFiles.Called s) :
    (∀ u ∈ s.users, ∃ m, s.memLogFile[u.slot]? = some m ∧ m.logFile = u.key) ∧
    (∀ u ∈ s.users, ∀ v ∈ s.users, u.slot = v.slot ↔ u.key = v.key) ∧
    (∀ (i : ℕ) m, s.memLogFile[i]? = some m →
      m.num = (if s.numUsers i = 0 then -1 else (s.numUsers i : ℤ)) ∧
      (m.is_open ↔ 0 < s.numUsers i)) ∧
    ∀ c, s.Called c → ∃ s', (logFiles p).step s c = some s' ∧
      ∀ x, s'.truncated.count x ≠ s.truncated.count x → ∀ u ∈ s.users, u.key ≠ x := by
  have hInv := LogFiles.Inv.of_reach h
  have ⟨slots, hs, _, hcounts⟩ := hInv
  refine ⟨fun u hu => ?_, fun u hu v hv => hcounts.slot_eq_iff hu hv, fun i m hm => ?_,
    fun c hc => hInv.exists_step p hc⟩
  · rw [hs, List.getElem?_map, hcounts.slot_eq u hu]
    exact ⟨_, rfl, rfl⟩
  · rw [hs, List.getElem?_map] at hm
    obtain ⟨slot, hslot, rfl⟩ := Option.map_eq_some_iff.1 hm
    rcases slot with _ | ⟨x, n⟩
    · rw [LogFiles.numUsers, hcounts.count_eq_zero hslot]
      exact ⟨rfl, by simp [ManageLogFile.ofSlot, ManageLogFile.free]⟩
    · obtain ⟨rfl, hpos⟩ := hcounts.count_eq hslot
      rw [LogFiles.numUsers, if_neg hpos.ne']
      exact ⟨rfl, by simp [ManageLogFile.ofSlot, hpos]⟩

/-- Two sessions share a file, one of which gives it back, and a third one has another file. -/
def someLogFiles : LogFiles where
  memLogFile := [⟨1, chars "a", true⟩, ⟨1, chars "b", true⟩] ++ List.replicate 398 .free
  users := [⟨chars "b", 1⟩, ⟨chars "a", 0⟩]
  truncated := [chars "a", chars "b"]

theorem someLogFiles_reach (p : LogProgram) :
    (logFiles p).ReachVia LogFiles.Called someLogFiles := by
  have hinit : (logFiles p).ReachVia LogFiles.Called
      ⟨List.replicate maxNumThread .free, [], []⟩ := .init rfl
  have hcalls : (logFiles p).StepsVia LogFiles.Called ⟨List.replicate maxNumThread .free, [], []⟩
      [.allowedLogFile (chars "a"), .allowedLogFile (chars "a"), .allowedLogFile (chars "b"),
        .closeFileLog ⟨chars "a", 0⟩] := by
    cases p <;> decide +kernel
  exact hinit.run hcalls (by cases p <;> decide +kernel)

/-- Such a run of ITGLog. -/
theorem logFiles_of_reach_some :
    (∀ u ∈ someLogFiles.users, ∃ m, someLogFiles.memLogFile[u.slot]? = some m ∧
      m.logFile = u.key) ∧
    (∀ u ∈ someLogFiles.users, ∀ v ∈ someLogFiles.users, u.slot = v.slot ↔ u.key = v.key) ∧
    (∀ (i : ℕ) m, someLogFiles.memLogFile[i]? = some m →
      m.num = (if someLogFiles.numUsers i = 0 then -1 else (someLogFiles.numUsers i : ℤ)) ∧
      (m.is_open ↔ 0 < someLogFiles.numUsers i)) ∧
    ∀ c, someLogFiles.Called c → ∃ s', (logFiles .itgLog).step someLogFiles c = some s' ∧
      ∀ x, s'.truncated.count x ≠ someLogFiles.truncated.count x →
        ∀ u ∈ someLogFiles.users, u.key ≠ x :=
  logFiles_of_reach .itgLog (someLogFiles_reach .itgLog)

end Ditg
