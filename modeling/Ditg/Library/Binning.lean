import Mathlib.Algebra.BigOperators.Group.List.Basic
import Mathlib.Algebra.Order.Floor.Semiring
import Mathlib.Data.List.Induction

/-!
# Series of intervals

Events come at times that are counted in intervals, and a line is written for each
interval: what has been added up in it. An interval is closed by the first event behind it,
which also closes the empty ones before its own; the interval of the last event stays open.
Events that come later than their interval count in the open one.

* `slot`: the interval of a time, open on the left and closed on the right;
* `sum_run`: what is written and what is still open amount to what has been added,
  whatever the order of the events;
* `run_sorted`: if the events come in order, the line of an interval is that of its own
  events.
-/

/-- How lines are made of what is added up in an interval: its line when it is closed, and
    what is left then; and how an event is added. -/
structure Binning (A V E : Type*) where
  value : A → V
  reset : A → A
  add : A → E → A

namespace Binning

/-! ## Intervals -/

/-- The interval of a time: number `k` is the one from `k`, not included, to `k + 1`. The time
    `0` is in number `0`. -/
def slot {R : Type*} [Semiring R] [LinearOrder R] [FloorSemiring R] (x : R) : ℕ := ⌈x⌉₊ - 1

section Slot

variable {R : Type*} [Semiring R] [LinearOrder R] [FloorSemiring R]

theorem lt_slot_iff {x : R} {k : ℕ} : k < slot x ↔ ((k + 1 : ℕ) : R) < x := by
  rw [slot, Nat.lt_sub_iff_add_lt, Nat.lt_ceil]

/-- Every time is before the end of its interval. -/
theorem le_slot_add_one (x : R) : x ≤ ((slot x + 1 : ℕ) : R) :=
  not_lt.1 (lt_slot_iff.not.1 (Nat.lt_irrefl _))

theorem slot_mono {x y : R} (h : x ≤ y) : slot x ≤ slot y := by
  by_contra hlt
  have hy := lt_slot_iff.1 (not_le.1 hlt)
  exact (hy.trans_le h).not_ge (le_slot_add_one y)

/-- The times of an interval. -/
theorem slot_eq_iff [IsStrictOrderedRing R] {x : R} (hx : 0 ≤ x) {k : ℕ} :
    slot x = k ↔ (k = 0 ∧ x = 0) ∨ ((k : R) < x ∧ x ≤ ((k + 1 : ℕ) : R)) := by
  constructor
  · rintro rfl
    rcases Nat.eq_zero_or_pos (slot x) with h | h
    · rcases hx.eq_or_lt with rfl | hpos
      · exact .inl ⟨h, rfl⟩
      · exact .inr ⟨by rwa [h, Nat.cast_zero], le_slot_add_one x⟩
    · refine .inr ⟨?_, le_slot_add_one x⟩
      have hlt : slot x - 1 < slot x := by omega
      have hx' := lt_slot_iff.1 hlt
      rwa [Nat.sub_add_cancel h] at hx'
  · rintro (⟨rfl, rfl⟩ | ⟨hlt, hle⟩)
    · rw [slot, Nat.ceil_zero]
    · apply le_antisymm
      · by_contra hk
        exact (lt_slot_iff.1 (not_le.1 hk)).not_ge hle
      · rcases Nat.eq_zero_or_pos k with rfl | hk
        · exact Nat.zero_le _
        · have hlt' : k - 1 < slot x := by rwa [lt_slot_iff, Nat.sub_add_cancel hk]
          omega

end Slot

/-! ## Lines -/

variable {A V E : Type*}

/-- The lines written, and what has been added up in the open interval. -/
@[ext]
structure State (A V : Type*) where
  out : List V
  acc : A

variable (b : Binning A V E)

/-- The open interval is closed. -/
def close (s : State A V) : State A V := ⟨s.out ++ [b.value s.acc], b.reset s.acc⟩

/-- All intervals before number `j` are closed. -/
def closeTo (s : State A V) (j : ℕ) : State A V := b.close^[j - s.out.length] s

/-- An event in interval `e.1`. -/
def step (s : State A V) (e : ℕ × E) : State A V :=
  ⟨(b.closeTo s e.1).out, b.add (b.closeTo s e.1).acc e.2⟩

/-- Events one after the other. -/
def run (s : State A V) (es : List (ℕ × E)) : State A V := es.foldl b.step s

theorem run_cons (s : State A V) (e : ℕ × E) (es : List (ℕ × E)) :
    b.run s (e :: es) = b.run (b.step s e) es := rfl

theorem run_concat (s : State A V) (es : List (ℕ × E)) (e : ℕ × E) :
    b.run s (es ++ [e]) = b.step (b.run s es) e :=
  List.foldl_concat _ _ _ _

/-- What is kept when an interval is closed, is kept when many are. -/
theorem closeTo_induction {P : State A V → Prop} {s : State A V} (h : P s)
    (hclose : ∀ s, P s → P (b.close s)) (j : ℕ) : P (b.closeTo s j) :=
  Function.Iterate.rec P h hclose (j - s.out.length)

theorem length_iterate_close (n : ℕ) (s : State A V) :
    (b.close^[n] s).out.length = s.out.length + n := by
  induction n generalizing s with
  | zero => rfl
  | succ n ih =>
    rw [Function.iterate_succ_apply, ih, close, List.length_append, List.length_singleton]
    omega

theorem length_closeTo (s : State A V) (j : ℕ) :
    (b.closeTo s j).out.length = max s.out.length j := by
  rw [closeTo, length_iterate_close]
  omega

/-- What closing intervals leaves alone is made by the events one after the other. -/
theorem proj_run {B : Type*} {g : A → B} {h : B → E → B} (hreset : ∀ a, g (b.reset a) = g a)
    (hadd : ∀ a e, g (b.add a e) = h (g a) e) (s : State A V) (es : List (ℕ × E)) :
    g (b.run s es).acc = (es.map Prod.snd).foldl h (g s.acc) := by
  induction es using List.reverseRecOn with
  | nil => rfl
  | append_singleton es e ih =>
    have hclose : g (b.closeTo (b.run s es) e.1).acc = g (b.run s es).acc :=
      b.closeTo_induction (P := fun t => g t.acc = g (b.run s es).acc) rfl
        (fun t ht => (hreset t.acc).trans ht) e.1
    rw [run_concat, step, hadd, hclose, ih, List.map_append, List.map_singleton, List.foldl_concat]

/-! ## What is added up -/

section Sum

variable {M : Type*} [AddCommMonoid M] {w : V → M} {m : A → M} {c : E → M} {b}
  (hvalue : ∀ a, w (b.value a) + m (b.reset a) = m a) (hadd : ∀ a e, m (b.add a e) = m a + c e)

include hvalue

/-- Closing intervals moves what has been added up to the lines. -/
theorem sum_closeTo (s : State A V) (j : ℕ) :
    ((b.closeTo s j).out.map w).sum + m (b.closeTo s j).acc = (s.out.map w).sum + m s.acc := by
  refine b.closeTo_induction (P := fun t => (t.out.map w).sum + m t.acc = _) rfl ?_ j
  intro t ht
  rw [← ht, close, List.map_append, List.sum_append, List.map_singleton, List.sum_singleton,
    add_assoc, hvalue]

include hadd

/-- The lines and the open interval amount to what has been added, in any order. -/
theorem sum_run (s : State A V) (es : List (ℕ × E)) :
    ((b.run s es).out.map w).sum + m (b.run s es).acc =
      (s.out.map w).sum + m s.acc + (es.map fun e => c e.2).sum := by
  induction es using List.reverseRecOn with
  | nil => exact (add_zero _).symm
  | append_singleton es e ih =>
    rw [run_concat, step, hadd, ← add_assoc, sum_closeTo hvalue, ih, List.map_append,
      List.sum_append, List.map_singleton, List.sum_singleton, add_assoc]

end Sum

/-! ## Events in order -/

/-- What the events of an interval add up to, from `r` on. -/
def total (r : A) (es : List (ℕ × E)) (k : ℕ) : A :=
  ((es.filter (·.1 = k)).map Prod.snd).foldl b.add r

variable {b} {r : A} {P : A → Prop}

theorem total_concat_self (r : A) (es : List (ℕ × E)) (e : ℕ × E) :
    b.total r (es ++ [e]) e.1 = b.add (b.total r es e.1) e.2 := by
  rw [total, List.filter_append, List.filter_cons_of_pos (by simp), List.filter_nil,
    List.map_append, List.foldl_append]
  rfl

theorem total_concat_of_ne (r : A) (es : List (ℕ × E)) {e : ℕ × E} {k : ℕ} (h : e.1 ≠ k) :
    b.total r (es ++ [e]) k = b.total r es k := by
  rw [total, List.filter_append, List.filter_cons_of_neg (by simpa using h), List.filter_nil,
    List.append_nil, total]

/-- Without events in an interval, nothing is added up. -/
theorem total_of_forall_ne (r : A) {es : List (ℕ × E)} {k : ℕ} (h : ∀ e ∈ es, e.1 ≠ k) :
    b.total r es k = r := by
  have hnil : es.filter (·.1 = k) = [] := by
    rw [List.filter_eq_nil_iff]
    intro e he
    simpa using h e he
  rw [total, hnil]
  rfl

/-- The intervals that are closed at once are empty, but for the first one. -/
theorem iterate_close (hreset : ∀ a, P a → b.reset a = r) (hr : P r) {s : State A V} (hs : P s.acc)
    (n : ℕ) : b.close^[n + 1] s = ⟨s.out ++ b.value s.acc :: List.replicate n (b.value r), r⟩ := by
  induction n generalizing s with
  | zero => rw [Function.iterate_one, close, hreset _ hs, List.replicate_zero]
  | succ n ih =>
    rw [Function.iterate_succ_apply, ih (s := b.close s) (by rw [close, hreset _ hs]; exact hr),
      close, hreset _ hs, List.replicate_succ, List.append_assoc, List.singleton_append]

theorem acc_closeTo_of_lt (hreset : ∀ a, P a → b.reset a = r) (hr : P r) {s : State A V}
    (hs : P s.acc) {j : ℕ} (h : s.out.length < j) : (b.closeTo s j).acc = r := by
  obtain ⟨n, hn⟩ := Nat.exists_eq_add_of_lt h
  rw [closeTo, hn, Nat.add_assoc, Nat.add_sub_cancel_left, iterate_close hreset hr hs]

/-- The lines and the open interval are what the events of each interval add up to. -/
structure Binned (b : Binning A V E) (r : A) (es : List (ℕ × E)) (s : State A V) : Prop where
  out : s.out = (List.range s.out.length).map fun k => b.value (b.total r es k)
  acc : s.acc = b.total r es s.out.length
  le : ∀ e ∈ es, e.1 ≤ s.out.length

/-- An event in the open interval, ... -/
theorem Binned.step_self {es : List (ℕ × E)} {s : State A V} (h : b.Binned r es s) {e : ℕ × E}
    (he : e.1 = s.out.length) : b.Binned r (es ++ [e]) (b.step s e) := by
  have hclose : b.closeTo s e.1 = s := by
    rw [closeTo, he, Nat.sub_self, Function.iterate_zero_apply]
  rw [step, hclose]
  refine ⟨?_, ?_, ?_⟩
  · refine h.out.trans (List.map_congr_left fun k hk => ?_)
    have hne : e.1 ≠ k := by
      rw [he]
      exact (List.mem_range.1 hk).ne'
    rw [total_concat_of_ne r es hne]
  · dsimp only
    rw [← he, total_concat_self, he, h.acc]
  · intro x hx
    rcases List.mem_append.1 hx with hx | hx
    · exact h.le x hx
    · exact (List.mem_singleton.1 hx ▸ he).le

/-- ... or behind it. -/
theorem Binned.step_lt (hreset : ∀ a, P a → b.reset a = r) (hr : P r) {es : List (ℕ × E)}
    {s : State A V} (h : b.Binned r es s) (hs : P s.acc) {e : ℕ × E} (he : s.out.length < e.1) :
    b.Binned r (es ++ [e]) (b.step s e) ∧ (b.step s e).out.length = e.1 := by
  obtain ⟨n, hn⟩ := Nat.exists_eq_add_of_lt he
  have hclose : b.closeTo s e.1 = ⟨s.out ++ b.value s.acc :: List.replicate n (b.value r), r⟩ := by
    rw [closeTo, hn, Nat.add_assoc, Nat.add_sub_cancel_left, iterate_close hreset hr hs]
  have hlen : (s.out ++ b.value s.acc :: List.replicate n (b.value r)).length = e.1 := by
    rw [List.length_append, List.length_cons, List.length_replicate, hn, Nat.add_assoc]
  -- There have been no events behind the open interval.
  have htotal (k : ℕ) (hk : s.out.length < k) : b.total r es k = r :=
    total_of_forall_ne r fun x hx => ((h.le x hx).trans_lt hk).ne
  rw [step, hclose]
  refine ⟨⟨?_, ?_, ?_⟩, hlen⟩
  · dsimp only
    have hne (k : ℕ) (hk : k ∈ List.range e.1) : b.value (b.total r (es ++ [e]) k) =
        b.value (b.total r es k) := by
      rw [total_concat_of_ne r es (List.mem_range.1 hk).ne']
    rw [hlen, List.map_congr_left hne, hn, Nat.add_assoc, List.range_add, List.map_append, ← h.out,
      List.range_succ_eq_map, List.map_cons, List.map_cons, Nat.add_zero, ← h.acc]
    congr 2
    symm
    rw [List.eq_replicate_iff]
    refine ⟨by simp, fun v hv => ?_⟩
    simp only [List.map_map, List.mem_map, Function.comp_apply] at hv
    obtain ⟨k, -, rfl⟩ := hv
    rw [htotal _ (by omega)]
  · dsimp only
    rw [hlen, total_concat_self, htotal _ he]
  · dsimp only
    rw [hlen]
    intro x hx
    rcases List.mem_append.1 hx with hx | hx
    · exact (h.le x hx).trans he.le
    · exact (congrArg Prod.fst (List.mem_singleton.1 hx)).le

/-- When events come in order, the line of every interval is that of its own events, and
    the last event is in the open interval. -/
theorem run_sorted (hreset : ∀ a, P a → b.reset a = r) (hr : P r)
    (hadd : ∀ a e, P a → P (b.add a e)) {s : State A V} (hacc : s.acc = r)
    (hout : s.out = List.replicate s.out.length (b.value r)) {es : List (ℕ × E)}
    (hsorted : (es.map Prod.fst).Pairwise (· ≤ ·)) (hfirst : ∀ e ∈ es, s.out.length ≤ e.1) :
    b.Binned r es (b.run s es) ∧ P (b.run s es).acc ∧
      (es = [] ∧ (b.run s es).out.length = s.out.length ∨
        ∃ e ∈ es, (b.run s es).out.length = e.1) := by
  induction es using List.reverseRecOn with
  | nil =>
    refine ⟨⟨?_, hacc, fun e he => absurd he List.not_mem_nil⟩, hacc ▸ hr, .inl ⟨rfl, rfl⟩⟩
    refine hout.trans ?_
    symm
    rw [List.eq_replicate_iff]
    refine ⟨by rw [List.length_map, List.length_range]; rfl, fun v hv => ?_⟩
    obtain ⟨k, -, rfl⟩ := List.mem_map.1 hv
    rfl
  | append_singleton es e ih =>
    rw [List.map_append, List.pairwise_append] at hsorted
    obtain ⟨hsorted, -, hlast⟩ := hsorted
    obtain ⟨hbinned, hP, hlen⟩ := ih hsorted fun x hx => hfirst x (List.mem_append_left _ hx)
    -- The open interval is not behind the event.
    have hle : (b.run s es).out.length ≤ e.1 := by
      rcases hlen with ⟨-, hlen⟩ | ⟨x, hx, hlen⟩
      · rw [hlen]
        exact hfirst e (by simp)
      · rw [hlen]
        exact hlast _ (List.mem_map_of_mem hx) _ (by simp)
    rw [run_concat]
    rcases hle.eq_or_lt with he | he
    · have hclose : b.closeTo (b.run s es) e.1 = b.run s es := by
        rw [closeTo, he, Nat.sub_self, Function.iterate_zero_apply]
      refine ⟨hbinned.step_self he.symm, ?_, .inr ⟨e, by simp, ?_⟩⟩
      · rw [step, hclose]
        exact hadd _ _ hP
      · rw [step, hclose, he]
    · obtain ⟨hbinned', hlen'⟩ := hbinned.step_lt hreset hr hP he
      refine ⟨hbinned', ?_, .inr ⟨e, by simp, hlen'⟩⟩
      rw [step, acc_closeTo_of_lt hreset hr hP he]
      exact hadd _ _ hr

/-- The lines, with that of the open interval. -/
theorem Binned.out_append {es : List (ℕ × E)} {s : State A V} (h : b.Binned r es s) {v : V}
    (hv : v = b.value s.acc) : s.out ++ [v] =
      (List.range (s.out.length + 1)).map fun k => b.value (b.total r es k) := by
  rw [List.range_succ, List.map_append, ← h.out, List.map_singleton, ← h.acc, hv]

end Binning
