import Mathlib.Data.List.Basic
import Mathlib.Data.Nat.ModEq
import Mathlib.Order.Basic

/-!
# Writing in batches

A buffer in which records are collected, to be written as one batch: the next record
goes to the slot `count`, and writing the buffer (`flush`) empties it. The records that
are written and those in the buffer are the *contents*: storing adds a record to them, and
writing the buffer leaves them as they are, as long as records are stored inside the
buffer.

* `contents_log`, `contents_run`: a buffer that is flushed when it is full neither loses nor
  repeats a record;
* `not_nodup_run`: records that have been written but left in the buffer are written again
  when it is full.
-/

/-- A buffer, and what has been written. -/
@[ext]
structure BatchBuffer (R : Type*) where
  slots : List R
  count : ℕ
  out : List R
  deriving DecidableEq

namespace BatchBuffer

variable {R : Type*}

/-- An empty buffer. -/
def new (slots : List R) : BatchBuffer R := ⟨slots, 0, []⟩

/-- The records in the buffer. -/
def held (b : BatchBuffer R) : List R := b.slots.take b.count

/-- All records, in order. -/
def contents (b : BatchBuffer R) : List R := b.out ++ b.held

/-- A record in the next slot. A slot outside the buffer is not modelled: nothing is
    stored. -/
def put (b : BatchBuffer R) (x : R) : BatchBuffer R := { b with slots := b.slots.set b.count x }

/-- A record stored, and counted. -/
def store (b : BatchBuffer R) (x : R) : BatchBuffer R := { b.put x with count := b.count + 1 }

/-- The buffer is written, but not emptied. -/
def write (b : BatchBuffer R) : BatchBuffer R := { b with out := b.contents }

/-- The buffer is written and emptied. -/
def flush (b : BatchBuffer R) : BatchBuffer R := { b.write with count := 0 }

/-- A record stored in a buffer that is flushed once there are `size` records in it. -/
def log (size : ℕ) (b : BatchBuffer R) (x : R) : BatchBuffer R :=
  if b.count + 1 = size then (b.store x).flush else b.store x

/-- A record that is not counted stays out of the buffer. -/
@[simp] theorem held_put (b : BatchBuffer R) (x : R) : (b.put x).held = b.held :=
  List.take_set_of_le le_rfl

theorem held_store {b : BatchBuffer R} (h : b.count < b.slots.length) (x : R) :
    (b.store x).held = b.held ++ [x] := by
  have hset : b.count < (b.slots.set b.count x).length := by rwa [List.length_set]
  rw [store, held, put, List.take_succ_eq_append_getElem hset, List.take_set_of_le le_rfl,
    List.getElem_set_self]
  rfl

theorem contents_store {b : BatchBuffer R} (h : b.count < b.slots.length) (x : R) :
    (b.store x).contents = b.contents ++ [x] := by
  rw [contents, held_store h, ← List.append_assoc]
  rfl

@[simp] theorem contents_flush (b : BatchBuffer R) : b.flush.contents = b.contents :=
  List.append_nil _

section Log

variable {size : ℕ} {b : BatchBuffer R}

@[simp] theorem length_slots_log (size : ℕ) (b : BatchBuffer R) (x : R) :
    (b.log size x).slots.length = b.slots.length := by
  rw [log]
  split_ifs <;> exact List.length_set

/-- Inside the buffer a record is added to the contents. -/
theorem contents_log (h : b.count < b.slots.length) (x : R) :
    (b.log size x).contents = b.contents ++ [x] := by
  rw [log]
  split_ifs
  · rw [contents_flush, contents_store h]
  · exact contents_store h x

/-- A buffer that is flushed in time stays inside its bounds. -/
theorem count_log_lt (h : b.count < size) (x : R) : (b.log size x).count < size := by
  rw [log]
  split_ifs with hfull
  · exact (Nat.zero_le _).trans_lt h
  · change b.count + 1 < size
    omega

end Log

/-! ## Many records -/

/-- A record that is counted or not. -/
def step (size : ℕ) (b : BatchBuffer R) (x : Bool × R) : BatchBuffer R :=
  if x.1 then b.log size x.2 else b.put x.2

/-- Records one after the other. -/
def run (size : ℕ) (b : BatchBuffer R) (xs : List (Bool × R)) : BatchBuffer R :=
  xs.foldl (step size) b

/-- The records that are counted. -/
def counted (xs : List (Bool × R)) : List R := (xs.filter Prod.fst).map Prod.snd

section Run

variable {size : ℕ} {b : BatchBuffer R}

/-- A buffer is never taken back what has been written of it. -/
theorem prefix_out_log (size : ℕ) (b : BatchBuffer R) (x : R) : b.out <+: (b.log size x).out := by
  rw [log]
  split_ifs
  · exact List.prefix_append _ _
  · exact List.prefix_rfl

theorem run_cons (size : ℕ) (b : BatchBuffer R) (x : Bool × R) (xs : List (Bool × R)) :
    b.run size (x :: xs) = (b.step size x).run size xs := rfl

theorem prefix_out_run (size : ℕ) (b : BatchBuffer R) (xs : List (Bool × R)) :
    b.out <+: (b.run size xs).out := by
  induction xs generalizing b with
  | nil => exact List.prefix_rfl
  | cons x xs ih =>
    rw [run_cons]
    refine List.IsPrefix.trans ?_ (ih _)
    rw [step]
    split_ifs
    · exact prefix_out_log size b x.2
    · exact List.prefix_rfl

theorem counted_cons (x : Bool × R) (xs : List (Bool × R)) :
    counted (x :: xs) = if x.1 then x.2 :: counted xs else counted xs := by
  rw [counted, List.filter_cons]
  split_ifs <;> rfl

theorem counted_map {α : Type*} (f : α → Bool) (g : α → R) (xs : List α) :
    counted (xs.map fun x => (f x, g x)) = (xs.filter f).map g := by
  rw [counted, List.filter_map, List.map_map]
  rfl

/-- Neither loses nor repeats a record, and goes round in the buffer. -/
theorem contents_run (h : b.count < size) (hlen : b.slots.length = size) (xs : List (Bool × R)) :
    (b.run size xs).contents = b.contents ++ counted xs ∧
      (b.run size xs).count = (b.count + (counted xs).length) % size ∧
      (b.run size xs).slots.length = size := by
  induction xs generalizing b with
  | nil => exact ⟨(List.append_nil _).symm, (Nat.mod_eq_of_lt h).symm, hlen⟩
  | cons x xs ih =>
    rw [counted_cons, run_cons, step]
    split_ifs with hx
    · obtain ⟨hc, hn, hl⟩ := ih (count_log_lt h x.2) (by rw [length_slots_log, hlen])
      refine ⟨?_, ?_, hl⟩
      · rw [hc, contents_log (h.trans_eq hlen.symm), List.append_assoc]
        rfl
      · rw [hn, List.length_cons, log]
        split_ifs with hfull
        · -- The count starts from 0 again.
          change (0 + _) % size = _
          rw [Nat.zero_add, ← Nat.add_assoc, Nat.add_right_comm, hfull, Nat.add_mod_left]
        · change (b.count + 1 + _) % size = _
          congr 1
          omega
    · obtain ⟨hc, hn, hl⟩ := ih (b := b.put x.2) h (by rw [put, List.length_set, hlen])
      refine ⟨?_, hn, hl⟩
      rw [hc, contents, held_put]
      rfl

/-- Until the buffer is full nothing is written. -/
theorem out_run_of_lt {xs : List (Bool × R)} (h : b.count + (counted xs).length < size) :
    (b.run size xs).out = b.out := by
  induction xs generalizing b with
  | nil => rfl
  | cons x xs ih =>
    rw [counted_cons] at h
    rw [run_cons, step]
    split_ifs at h ⊢ with hx
    · rw [List.length_cons] at h
      rw [log, if_neg (by omega), ih (b := b.store x.2) (by change b.count + 1 + _ < _; omega)]
      rfl
    · rw [ih (b := b.put x.2) h]
      rfl

/-- A record in the buffer that has been written is written again when the buffer is full. -/
theorem not_nodup_run {xs : List (Bool × R)} (hcount : b.count < size)
    (hlen : b.slots.length = size) {x : R} (hx : x ∈ b.held) (hout : x ∈ b.out)
    (h : size ≤ b.count + (counted xs).length) : ¬ (b.run size xs).out.Nodup := by
  induction xs generalizing b with
  | nil =>
    change size ≤ b.count + 0 at h
    omega
  | cons y xs ih =>
    rw [counted_cons] at h
    rw [run_cons, step]
    split_ifs at h ⊢ with hy
    · have hheld := held_store (hcount.trans_eq hlen.symm) y.2
      rw [List.length_cons] at h
      rw [log]
      split_ifs with hfull
      · -- The buffer is written with the record in it.
        intro hnodup
        have hflush := hnodup.sublist (prefix_out_run size _ xs).sublist
        have hmem : x ∈ (b.store y.2).held := by
          rw [hheld]
          exact List.mem_append_left _ hx
        exact (List.nodup_append.1 hflush).2.2 x hout x hmem rfl
      · -- The buffer is not full yet, and the record is still in it.
        refine ih (b := b.store y.2) ?_ ?_ ?_ hout ?_
        · change b.count + 1 < size
          omega
        · rw [store, put, List.length_set, hlen]
        · rw [hheld]
          exact List.mem_append_left _ hx
        · change size ≤ b.count + 1 + _
          omega
    · refine ih (b := b.put y.2) hcount ?_ ?_ hout h
      · rw [put, List.length_set, hlen]
      · rwa [held_put]

end Run

end BatchBuffer
