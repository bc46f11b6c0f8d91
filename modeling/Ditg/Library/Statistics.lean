import Mathlib.Algebra.BigOperators.Ring.List
import Mathlib.Algebra.Order.BigOperators.Group.List
import Mathlib.Algebra.Order.Field.Basic
import Mathlib.Data.List.Induction
import Mathlib.Order.Bounds.Basic
import Mathlib.Tactic.FieldSimp
import Mathlib.Tactic.Ring

/-!
# Statistics of a list

The mean of the numbers of a list, their variance and how far each is from the one before, as
a program computes them: from sums, and from a least and a greatest number found so far.

* `variance_eq`: the variance from the sum and the sum of the squares;
* `exists_div_le`, `exists_le_div`: the quotient of two sums is between quotients of their
  summands;
* `isLeast_concat`, `isLeast_foldl`: the least number found so far.
-/

namespace Statistics

variable {K : Type*} [Field K]

/-- The mean, `0` of no values. -/
def mean (xs : List K) : K := if xs = [] then 0 else xs.sum / xs.length

/-- The variance of the whole population. -/
def variance (xs : List K) : K := mean (xs.map fun x => (x - mean xs) ^ 2)

theorem mean_eq (xs : List K) : mean xs = xs.sum / xs.length := by
  rw [mean]
  split_ifs with h
  · rw [h, List.sum_nil, zero_div]
  · rfl

section Ordered

variable [LinearOrder K]

/-- How far every number is from the one before. -/
def steps (xs : List K) : List K := (xs.zip xs.tail).map fun p => |p.2 - p.1|

/-- A further number. -/
theorem steps_concat (xs : List K) (x y : K) :
    steps (xs ++ [x] ++ [y]) = steps (xs ++ [x]) ++ [|y - x|] := by
  induction xs with
  | nil => rfl
  | cons a xs ih =>
    have hcons (ys : List K) (h : ys ≠ []) : steps (a :: ys) = |ys.head h - a| :: steps ys := by
      cases ys with
      | nil => exact absurd rfl h
      | cons b ys => rfl
    rw [List.cons_append, List.cons_append, hcons _ (by simp), hcons _ (by simp), ih]
    cases xs <;> rfl

variable [IsStrictOrderedRing K]

/-- The variance is the mean of the squares less the square of the mean. -/
theorem variance_eq {xs : List K} (h : xs ≠ []) : variance xs =
    (xs.map fun x => x * x).sum / xs.length - mean xs * mean xs := by
  have hlen : (xs.length : K) ≠ 0 := Nat.cast_ne_zero.2 fun h' => h (List.length_eq_zero_iff.1 h')
  have hsquares (m : K) (ys : List K) : (ys.map fun x => (x - m) ^ 2).sum =
      (ys.map fun x => x * x).sum - 2 * m * ys.sum + ys.length * m ^ 2 := by
    induction ys with
    | nil => simp
    | cons y ys ih =>
      rw [List.map_cons, List.sum_cons, ih, List.map_cons, List.sum_cons, List.sum_cons,
        List.length_cons, Nat.cast_succ]
      ring
  rw [variance, mean_eq (xs.map _), hsquares, List.length_map, mean_eq]
  field_simp
  ring

theorem variance_nonneg (xs : List K) : 0 ≤ variance xs := by
  rw [variance, mean_eq]
  refine div_nonneg (List.sum_nonneg fun y hy => ?_) (Nat.cast_nonneg _)
  obtain ⟨x, -, rfl⟩ := List.mem_map.1 hy
  exact sq_nonneg _

/-! ## Quotients of sums -/

section Quotients

variable {A : Type*} {l : List A} (hne : l ≠ []) {a b : A → K} (hpos : ∀ x ∈ l, 0 < b x)

include hne hpos

theorem sum_pos_of_ne_nil : 0 < (l.map b).sum := by
  refine List.sum_pos _ ?_ (by simpa using hne)
  intro y hy
  obtain ⟨x, hx, rfl⟩ := List.mem_map.1 hy
  exact hpos x hx

/-- Not all quotients are greater than that of the sums, ... -/
theorem exists_div_le : ∃ x ∈ l, a x / b x ≤ (l.map a).sum / (l.map b).sum := by
  by_contra hall
  simp only [not_exists, not_and, not_le] at hall
  have hsum := sum_pos_of_ne_nil hne hpos
  have hlt : (l.map fun x => (l.map a).sum / (l.map b).sum * b x).sum < (l.map a).sum :=
    List.sum_lt_sum_of_ne_nil hne _ _ fun x hx => (lt_div_iff₀ (hpos x hx)).1 (hall x hx)
  rw [List.sum_map_mul_left, div_mul_cancel₀ _ hsum.ne'] at hlt
  exact lt_irrefl _ hlt

/-- ... nor are all less. -/
theorem exists_le_div : ∃ x ∈ l, (l.map a).sum / (l.map b).sum ≤ a x / b x := by
  by_contra hall
  simp only [not_exists, not_and, not_le] at hall
  have hsum := sum_pos_of_ne_nil hne hpos
  have hlt : (l.map a).sum < (l.map fun x => (l.map a).sum / (l.map b).sum * b x).sum :=
    List.sum_lt_sum_of_ne_nil hne _ _ fun x hx => (div_lt_iff₀ (hpos x hx)).1 (hall x hx)
  rw [List.sum_map_mul_left, div_mul_cancel₀ _ hsum.ne'] at hlt
  exact lt_irrefl _ hlt

end Quotients

/-- The mean is between the numbers. -/
theorem le_mean_le {xs : List K} {lo hi : K} (hlo : IsLeast {x | x ∈ xs} lo)
    (hhi : IsGreatest {x | x ∈ xs} hi) : lo ≤ mean xs ∧ mean xs ≤ hi := by
  have hne : xs ≠ [] := List.ne_nil_of_mem hlo.1
  have hmean : mean xs = (xs.map id).sum / (xs.map fun _ => (1 : K)).sum := by
    rw [mean_eq, List.map_id, List.map_const', List.sum_replicate, nsmul_one]
  have hone : ∀ x ∈ xs, (0 : K) < (fun _ => 1) x := fun _ _ => one_pos
  rw [hmean]
  constructor
  · obtain ⟨x, hx, hle⟩ := exists_div_le (a := id) hne hone
    exact (hlo.2 hx).trans (by simpa using hle)
  · obtain ⟨x, hx, hle⟩ := exists_le_div (a := id) hne hone
    exact le_trans (by simpa using hle) (hhi.2 hx)

end Ordered

/-! ## The least and the greatest number so far -/

section Extremes

variable {T : Type*} [LinearOrder T]

theorem isLeast_singleton (x : T) : IsLeast {y | y ∈ [x]} x :=
  ⟨List.mem_singleton_self x, fun _ hy => (List.mem_singleton.1 hy).ge⟩

theorem isGreatest_singleton (x : T) : IsGreatest {y | y ∈ [x]} x :=
  @isLeast_singleton Tᵒᵈ _ x

/-- A further number may be less than all before. -/
theorem isLeast_concat {xs : List T} {m : T} (h : IsLeast {y | y ∈ xs} m) (x : T) :
    IsLeast {y | y ∈ xs ++ [x]} (if x < m then x else m) := by
  have hset : {y | y ∈ xs ++ [x]} = insert x {y | y ∈ xs} := by
    ext y
    simp [or_comm]
  have hmin : (if x < m then x else m) = min x m := by
    rw [min_def]
    split_ifs with hlt hle hle
    · rfl
    · exact absurd hlt.le hle
    · exact le_antisymm (not_lt.1 hlt) hle
    · rfl
  rw [hset, hmin]
  exact h.insert x

theorem isGreatest_concat {xs : List T} {m : T} (h : IsGreatest {y | y ∈ xs} m) (x : T) :
    IsGreatest {y | y ∈ xs ++ [x]} (if x > m then x else m) :=
  @isLeast_concat Tᵒᵈ _ xs m h x

/-- From a start greater than all numbers, the least number is found. -/
theorem isLeast_foldl {xs : List T} (hne : xs ≠ []) {m : T} (hm : ∀ x ∈ xs, x < m) :
    IsLeast {y | y ∈ xs} (xs.foldl (fun m x => if m > x then x else m) m) := by
  induction xs using List.reverseRecOn with
  | nil => exact absurd rfl hne
  | append_singleton xs x ih =>
    rw [List.foldl_concat]
    by_cases hnil : xs = []
    · subst hnil
      rw [List.foldl_nil, if_pos (hm x (by simp)), List.nil_append]
      exact isLeast_singleton x
    · exact isLeast_concat (ih hnil fun y hy => hm y (List.mem_append_left _ hy)) x

theorem isGreatest_foldl {xs : List T} (hne : xs ≠ []) {m : T} (hm : ∀ x ∈ xs, m < x) :
    IsGreatest {y | y ∈ xs} (xs.foldl (fun m x => if m < x then x else m) m) :=
  @isLeast_foldl Tᵒᵈ _ xs hne m hm

end Extremes

end Statistics
