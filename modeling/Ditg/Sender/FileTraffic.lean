import Ditg.Common.Info
import Ditg.Sender.PayloadSize

/-!
# Sizes and times from files

A flow takes the sizes of its packets from a file (`-Fs`), the times between them from another
one (`-Ft`), or from its distributions. The sender goes through the files again and again, with
an index for each: that of the sizes starts at 0, that of the times at 1, as the first time is
the delay of the flow. An index is used first, and then increased and reduced.

* `sendFiles_eq`: where the size of every packet, and the wait behind it, are taken from;
* `filesFollowed_iff`: they are those of the files, one after the other, if and only if there are
  at least two times, as the first wait is taken from behind a vector with one time only.
-/

namespace Ditg

variable {F : Type}

/-! ## The model -/

/-- A flow with its times and its delay. The sizes of its file are those of `flow`. The delay is an
    `unsigned long`, from a `long`; the times are positive, and a number of milliseconds that it
    does not hold is not among them. -/
structure FileFlow (F : Type) where
  flow : ParsedFlow
  vectTime : List F
  Delay : ℤ
  deriving DecidableEq

/-- `-Ft`, its lines as `strtod` reads them, without those that are empty. It is `none` when an
    error is reported, and for a file without a time, whose first one is read nevertheless. -/
def FileFlow.setTimes [CDouble F] [DecidableEq F] (HUGE_VAL : F) (f : FileFlow F)
    (lines : List F) : Option (FileFlow F) :=
  if ∃ t ∈ lines, t < ((0 : ℤ) : F) ∨ t = ((0 : ℤ) : F) ∨ t = HUGE_VAL then none
  else
    let vectTime := f.vectTime ++ lines
    vectTime.head?.map fun first =>
      { f with vectTime, Delay := CDouble.trunc (CDouble.floor first) }

/-- What is not in the files: the results of `PktSize->Next()` and `IntArriv->Next()` for every
    packet, and what is read at an index behind the end of a vector. -/
structure Drawn (F : Type) where
  size : ℕ → ℤ
  wait : ℕ → F
  behindSizes : ℕ → ℤ
  behindTimes : ℕ → F

/-- `vector[index]`, which is not checked. -/
def readVector {α : Type} (vector : List α) (behind : ℕ → α) (index : ℕ) : α :=
  (vector[index]?).getD (behind index)

/-- A value, the index it has been read at, if it is from a file, and the index after it. -/
structure Taken (α : Type) where
  value : α
  usedIndex : Option ℕ
  index : ℕ

/-- `dimVectSize` and `dimVectTime`. They are 32 bits wide. -/
def dimVect {α : Type} (vector : List α) : ℕ := vector.length % 2 ^ 32

/-- A value of the file, if there is one (`SizeFile`, `TimeFile`), or else a drawn one. -/
def takeNext {α : Type} (vector : List α) (behind : ℕ → α) (drawn : α) (index : ℕ) : Taken α :=
  if 0 < dimVect vector then
    { value := readVector vector behind index
      usedIndex := some index
      index := (index + 1) % dimVect vector }
  else { value := drawn, usedIndex := none, index }

/-- A packet with its size, and the wait behind it. -/
structure FilePacket (F : Type) where
  size : Taken ℤ
  wait : Taken F

/-- The size of the packet `k`, from 0 on, limited to what a packet can have. -/
def FileFlow.takeSize (b : Build) (f : FileFlow F) (d : Drawn F) (k index : ℕ) : Taken ℤ :=
  let size := takeNext f.flow.vectSize d.behindSizes (d.size k) index
  { size with value := f.flow.packetSize b size.value }

/-- `count` turns of the loop, from the packet `k` on, whose size has been taken before. Behind a
    packet, the size of the next one is taken, and then the wait. -/
def FileFlow.sendTurns (b : Build) (f : FileFlow F) (d : Drawn F) :
    ℕ → ℕ → Taken ℤ → ℕ → List (FilePacket F)
  | 0, _, _, _ => []
  | count + 1, k, size, indexVectTime =>
    let nextSize := f.takeSize b d (k + 1) size.index
    let wait := takeNext f.vectTime d.behindTimes (d.wait k) indexVectTime
    { size, wait } :: f.sendTurns b d count (k + 1) nextSize wait.index

/-- The first `count` packets of a flow. -/
def FileFlow.sendFiles (b : Build) (f : FileFlow F) (d : Drawn F) (count : ℕ) :
    List (FilePacket F) :=
  let indexVectSize := 0
  let indexVectTime := 1
  f.sendTurns b d count 0 (f.takeSize b d 0 indexVectSize) indexVectTime

/-! ## The indices -/

/-- The index of the `k`th value that is taken. Only the first one may be out of the range. -/
def indexAt (start dim k : ℕ) : ℕ := if k = 0 then start else (start + k) % dim

theorem indexAt_succ (start dim k : ℕ) :
    indexAt start dim (k + 1) = (indexAt start dim k + 1) % dim := by
  rw [indexAt, if_neg k.succ_ne_zero, indexAt]
  split_ifs with h
  · rw [h]
  · rw [Nat.mod_add_mod, add_assoc]

theorem indexAt_zero (dim k : ℕ) : indexAt 0 dim k = k % dim := by
  rw [indexAt]
  split_ifs with hk
  · rw [hk, Nat.zero_mod]
  · rw [zero_add]

/-- The times begin at the second one, if there is one. -/
theorem indexAt_one {dim : ℕ} (h : 2 ≤ dim) (k : ℕ) : indexAt 1 dim k = (k + 1) % dim := by
  rw [indexAt]
  split_ifs with hk
  · rw [hk, zero_add, Nat.mod_eq_of_lt h]
  · rw [add_comm]

section Turns

variable {b : Build} {f : FileFlow F} {d : Drawn F}

/-- What is taken of a file for the packet `k`, from `start` on. -/
def takenAt {α : Type} (vector : List α) (behind : ℕ → α) (drawn : ℕ → α) (start k : ℕ) :
    Taken α :=
  takeNext vector behind (drawn k)
    (if 0 < dimVect vector then indexAt start (dimVect vector) k else start)

/-- One more value moves the index one further. -/
theorem takenAt_succ {α : Type} (vector : List α) (behind drawn : ℕ → α) (start k : ℕ) :
    takenAt vector behind drawn start (k + 1) =
      takeNext vector behind (drawn (k + 1)) (takenAt vector behind drawn start k).index := by
  simp only [takenAt, takeNext]
  split_ifs
  · rw [indexAt_succ]
  · rfl

/-- The size and the wait of the packet `k`. -/
def FileFlow.packetAt (b : Build) (f : FileFlow F) (d : Drawn F) (k : ℕ) : FilePacket F where
  size :=
    let size := takenAt f.flow.vectSize d.behindSizes d.size 0 k
    { size with value := f.flow.packetSize b size.value }
  wait := takenAt f.vectTime d.behindTimes d.wait 1 k

theorem sendTurns_eq (count k : ℕ) (size : Taken ℤ) (indexVectTime : ℕ)
    (hsize : size = (f.packetAt b d k).size)
    (htime : takeNext f.vectTime d.behindTimes (d.wait k) indexVectTime =
      (f.packetAt b d k).wait) :
    f.sendTurns b d count k size indexVectTime =
      (List.range' k count).map (f.packetAt b d) := by
  induction count generalizing k size indexVectTime with
  | zero => rfl
  | succ count ih =>
    rw [FileFlow.sendTurns, List.range'_succ, List.map_cons]
    have hpacket : ({ size, wait := takeNext f.vectTime d.behindTimes (d.wait k) indexVectTime } :
        FilePacket F) = f.packetAt b d k := by
      rw [hsize, htime]
    refine List.cons_eq_cons.2 ⟨hpacket, ih _ _ _ ?_ ?_⟩
    · rw [hsize]
      simp only [FileFlow.takeSize, FileFlow.packetAt, takenAt_succ]
    · rw [htime]
      exact (takenAt_succ _ _ _ _ _).symm

/-- Every packet, whatever their number. -/
theorem sendFiles_eq (count : ℕ) :
    f.sendFiles b d count = (List.range count).map (f.packetAt b d) := by
  rw [List.range_eq_range']
  refine sendTurns_eq count 0 _ _ ?_ ?_
  · simp only [FileFlow.takeSize, FileFlow.packetAt, takenAt, indexAt, if_true, ite_self]
  · simp only [FileFlow.packetAt, takenAt, indexAt, if_true, ite_self]

end Turns

/-! ## Following the files -/

/-- The packet `k`, from 0 on, follows the files. -/
structure FileFlow.Follows (b : Build) (f : FileFlow F) (k : ℕ) (p : FilePacket F) : Prop where
  size_index : p.size.usedIndex = some (k % f.flow.vectSize.length)
  size_eq : (f.flow.vectSize[k % f.flow.vectSize.length]?).map (f.flow.packetSize b) =
    some p.size.value
  wait_index : p.wait.usedIndex = some ((k + 1) % f.vectTime.length)
  wait_eq : f.vectTime[(k + 1) % f.vectTime.length]? = some p.wait.value
  size_lt : ∀ j ∈ p.size.usedIndex, j < f.flow.vectSize.length
  wait_lt : ∀ j ∈ p.wait.usedIndex, j < f.vectTime.length

/-- Every packet of the flow does, however many there are. The first time is its delay. -/
def FileFlow.FilesFollowed [CDouble F] (b : Build) (f : FileFlow F) (d : Drawn F) : Prop :=
  (f.vectTime.head?).map (fun t => CDouble.trunc (CDouble.floor t)) = some f.Delay ∧
  ∀ count k p, (f.sendFiles b d count)[k]? = some p → f.Follows b k p

/-- The flow has as many values as its vectors, whose lengths fit their type, and two times. -/
structure FileFlow.Regular (f : FileFlow F) : Prop where
  sizes_lt : f.flow.vectSize.length < 2 ^ 32
  two_le : 2 ≤ f.vectTime.length
  times_lt : f.vectTime.length < 2 ^ 32

section Follow

variable {b : Build} {f f' : FileFlow F} {d : Drawn F}

theorem setTimes_eq_some [CDouble F] [DecidableEq F] {HUGE_VAL : F} {times : List F}
    (h : f.setTimes HUGE_VAL times = some f') :
    f'.flow = f.flow ∧ f'.vectTime = f.vectTime ++ times ∧
      (f'.vectTime.head?).map (fun t => CDouble.trunc (CDouble.floor t)) = some f'.Delay := by
  rw [FileFlow.setTimes] at h
  split at h
  · cases h
  · obtain ⟨first, hfirst, rfl⟩ := Option.map_eq_some_iff.1 h
    exact ⟨rfl, rfl, by rw [hfirst]; rfl⟩

/-- Which packets are sent. -/
theorem sendFiles_getElem? {count k : ℕ} {p : FilePacket F} :
    (f.sendFiles b d count)[k]? = some p ↔ k < count ∧ p = f.packetAt b d k := by
  rw [sendFiles_eq, List.getElem?_map, Option.map_eq_some_iff]
  constructor
  · rintro ⟨i, hi, rfl⟩
    obtain ⟨hlt, rfl⟩ := List.getElem?_eq_some_iff.1 hi
    rw [List.length_range] at hlt
    exact ⟨hlt, by rw [List.getElem_range]⟩
  · rintro ⟨hlt, rfl⟩
    exact ⟨k, List.getElem?_range hlt, rfl⟩

/-- The index of a value taken from a file that is not empty. -/
theorem usedIndex_takenAt {α : Type} {vector : List α} (h : 0 < dimVect vector)
    (behind drawn : ℕ → α) (start k : ℕ) :
    (takenAt vector behind drawn start k).usedIndex =
      some (indexAt start (dimVect vector) k) := by
  rw [takenAt, takeNext, if_pos h, if_pos h]

/-- A value of a file, when its index is in the range. -/
theorem value_takenAt {α : Type} {vector : List α} (behind drawn : ℕ → α) {start k j : ℕ}
    (hj : (takenAt vector behind drawn start k).usedIndex = some j) (hlt : j < vector.length) :
    vector[j]? = some (takenAt vector behind drawn start k).value := by
  rw [takenAt, takeNext] at hj ⊢
  split_ifs at hj ⊢ with h
  · obtain rfl := Option.some.inj hj
    rw [readVector, List.getElem?_eq_getElem hlt]
    rfl

/-- The indices of a vector go over all of it only if its length fits its type. -/
theorem length_lt_of_index {α : Type} {vector : List α} (start : ℕ) (h : 0 < dimVect vector)
    (hindex : ∀ k, 0 < k → indexAt start (dimVect vector) k = (start + k) % vector.length)
    (hstart : start < 2 ^ 32) : vector.length < 2 ^ 32 := by
  by_contra hle
  have hlt : start + dimVect vector < vector.length := by
    have hsplit := Nat.div_add_mod vector.length (2 ^ 32)
    have hpos : 1 ≤ vector.length / 2 ^ 32 := Nat.div_pos (not_lt.1 hle) (by decide)
    rw [dimVect]
    omega
  -- Behind the last index of the type, the sender is back at the first ones.
  have hback := hindex (dimVect vector) h
  rw [Nat.mod_eq_of_lt hlt, indexAt, if_neg h.ne'] at hback
  have := Nat.mod_lt (start + dimVect vector) h
  omega

theorem follows_packetAt (h : f.Regular) (hn : f.flow.vectSize ≠ []) (k : ℕ) :
    f.Follows b k (f.packetAt b d k) := by
  have hsizes : dimVect f.flow.vectSize = f.flow.vectSize.length := Nat.mod_eq_of_lt h.sizes_lt
  have htimes : dimVect f.vectTime = f.vectTime.length := Nat.mod_eq_of_lt h.times_lt
  have hn : 0 < f.flow.vectSize.length := List.length_pos_iff.2 hn
  have hm := h.two_le
  have hsize := usedIndex_takenAt (hsizes.symm ▸ hn) d.behindSizes d.size 0 k
  rw [hsizes, indexAt_zero] at hsize
  have hpos : 0 < dimVect f.vectTime := by omega
  have hwait := usedIndex_takenAt hpos d.behindTimes d.wait 1 k
  rw [htimes, indexAt_one hm] at hwait
  have hsize_lt := Nat.mod_lt k hn
  have hwait_lt := Nat.mod_lt (k + 1) (show 0 < f.vectTime.length by omega)
  refine ⟨hsize, ?_, hwait, value_takenAt _ _ hwait hwait_lt, fun j hj => ?_, fun j hj => ?_⟩
  · rw [value_takenAt _ _ hsize hsize_lt]
    rfl
  · obtain rfl := Option.some.inj (hsize.symm.trans hj)
    exact hsize_lt
  · obtain rfl := Option.some.inj (hwait.symm.trans hj)
    exact hwait_lt

/-- An index that is used is one of a file. -/
theorem dimVect_pos_of_usedIndex {α : Type} {vector : List α} {behind drawn : ℕ → α}
    {start k j : ℕ} (h : (takenAt vector behind drawn start k).usedIndex = some j) :
    0 < dimVect vector := by
  by_contra hzero
  rw [takenAt, takeNext, if_neg hzero] at h
  cases h

theorem regular_of_follows (h : ∀ k, f.Follows b k (f.packetAt b d k)) : f.Regular := by
  have hsizes := dimVect_pos_of_usedIndex (h 0).size_index
  have htimes := dimVect_pos_of_usedIndex (h 0).wait_index
  have hsize : ∀ k, indexAt 0 (dimVect f.flow.vectSize) k = k % f.flow.vectSize.length :=
    fun k => Option.some.inj ((usedIndex_takenAt hsizes _ _ 0 k).symm.trans (h k).size_index)
  have hwait : ∀ k, indexAt 1 (dimVect f.vectTime) k = (k + 1) % f.vectTime.length :=
    fun k => Option.some.inj ((usedIndex_takenAt htimes _ _ 1 k).symm.trans (h k).wait_index)
  refine ⟨length_lt_of_index 0 hsizes (fun k _ => ?_) (by decide), ?_,
    length_lt_of_index 1 htimes (fun k _ => ?_) (by decide)⟩
  · rw [hsize, zero_add]
  · -- The first wait is the one with index 1.
    exact (h 0).wait_lt 1 (usedIndex_takenAt htimes _ _ 1 0)
  · rw [hwait, add_comm]

end Follow

/-- A flow with a file of sizes and one of times. -/
theorem filesFollowed_iff [CDouble F] [DecidableEq F] {b : Build} {f f' : FileFlow F}
    {HUGE_VAL : F} {times : List F} (hf : f.vectTime = [])
    (h : f.setTimes HUGE_VAL times = some f') (hn : f.flow.vectSize ≠ []) (d : Drawn F) :
    f'.FilesFollowed b d ↔
      f.flow.vectSize.length < 2 ^ 32 ∧ 2 ≤ times.length ∧ times.length < 2 ^ 32 := by
  obtain ⟨hflow, htimes, hDelay⟩ := setTimes_eq_some h
  rw [hf, List.nil_append] at htimes
  rw [← hflow, ← htimes]
  constructor
  · rintro ⟨-, hfollow⟩
    have hregular : f'.Regular := regular_of_follows (b := b) (d := d) fun k =>
      hfollow (k + 1) k _ (sendFiles_getElem?.2 ⟨k.lt_succ_self, rfl⟩)
    exact ⟨hregular.sizes_lt, hregular.two_le, hregular.times_lt⟩
  · rintro ⟨hsizes, hm, hlt⟩
    refine ⟨hDelay, fun count k p hp => ?_⟩
    obtain ⟨-, rfl⟩ := sendFiles_getElem?.1 hp
    exact follows_packetAt ⟨hsizes, hm, hlt⟩ (hflow ▸ hn) k

/-- A flow with packets of 100 bytes. -/
def hundredFlow : FileFlow ℚ where
  flow := { ParsedFlow.default with vectSize := [100] }
  vectTime := []
  Delay := 0

/-- Nothing is drawn, and there is nothing behind the vectors. -/
def noneDrawn : Drawn ℚ where
  size _ := 0
  wait _ := 0
  behindSizes _ := 0
  behindTimes _ := 0

theorem filesFollowed_hundred :
    ({ hundredFlow with vectTime := [5, 7], Delay := 5 } : FileFlow ℚ).FilesFollowed ⟨true, true⟩
      noneDrawn := by
  have hset : hundredFlow.setTimes (-1) [5, 7] =
      some { hundredFlow with vectTime := [5, 7], Delay := 5 } := by decide +kernel
  exact (filesFollowed_iff rfl hset (by decide) noneDrawn).2 ⟨by decide, by decide, by decide⟩

/-- With a single time, the wait behind the first packet is read behind the end of the vector. -/
theorem not_filesFollowed : ¬∀ (b : Build) (f f' : FileFlow ℚ) (HUGE_VAL : ℚ) (times : List ℚ)
    (d : Drawn ℚ), f.vectTime = [] → f.setTimes HUGE_VAL times = some f' →
      f.flow.vectSize ≠ [] → times ≠ [] → f'.FilesFollowed b d := by
  intro h
  have hfollowed := h ⟨true, true⟩ hundredFlow
    { hundredFlow with vectTime := [5], Delay := 5 } (-1) [5] noneDrawn rfl (by decide +kernel)
    (by decide) (by decide)
  have hfirst := hfollowed.2 1 0 _ (sendFiles_getElem?.2 ⟨by decide, rfl⟩)
  exact absurd (hfirst.wait_lt 1 rfl) (by decide)

end Ditg
