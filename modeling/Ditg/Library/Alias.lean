import Mathlib.Algebra.BigOperators.Field
import Mathlib.Algebra.BigOperators.Fin
import Mathlib.Algebra.Order.BigOperators.Group.Finset
import Mathlib.Algebra.Order.Field.Basic
import Mathlib.Data.Finset.CastCard
import Mathlib.MeasureTheory.Integral.Bochner.Set
import Mathlib.MeasureTheory.Measure.Lebesgue.Basic
import Mathlib.Order.CompletePartialOrder
import Mathlib.Tactic.FieldSimp
import Mathlib.Tactic.Linarith

/-!
# Alias tables

A value `k` of `n` is drawn with probability `prob k`, in constant time, from a
table with `n` columns: a column `i`, all of them alike, gives its *alias* with
probability `p i`, and `i` itself otherwise.

The table is filled one column after the other. A column that is still open has
received `p k` from the columns with alias `k`; its *residual*, `prob k - p k`, is
what it is short of. To close the column `lo`, the column `hi` gives it what its
residual is short of `1 / n` (`AliasTable.give`).

* `Balanced`: what holds at any time, whichever columns are chosen;
* `Exact`: what holds in addition if the probabilities are none negative and add
  up to 1, and `lo` and `hi` have the smallest and the largest residuals;
* `Even`: what holds if they do not add up to 1, and `lo` is `hi` once all residuals
  are the same;
* `volume_pick`: the probability of a value, for two uniform numbers.
-/

/-- A table of columns, the aliases of which are set when they are closed. -/
structure AliasTable (n : ℕ) (K : Type*) where
  p : Fin n → K
  ialt : Fin n → Option (Fin n)

namespace AliasTable

section Filling

open Finset

variable {n : ℕ} {K : Type*} [Field K] (prob : Fin n → K) (t : AliasTable n K)

/-- What the column `k` is short of. -/
def residual (k : Fin n) : K := prob k - t.p k

/-- The open columns. -/
def rest : Finset (Fin n) := univ.filter fun k => t.ialt k = none

/-- What the column `k` has received from other columns, in `n`-ths. -/
def received (k : Fin n) : K := ∑ i, if t.ialt i = some k ∧ i ≠ k then t.p i else 0

/-- The column `hi` gives the column `lo`, whose residual is `x`, what it is short of. -/
def give (lo hi : Fin n) (x : K) : AliasTable n K where
  p := Function.update (Function.update t.p hi (t.p hi + (1 / n - x))) lo ((1 / n - x) * n)
  ialt := Function.update t.ialt lo (some hi)

/-- An open column has what it has received, and a closed one gives back what is
    left of its share. -/
structure Balanced : Prop where
  opened : ∀ k, t.ialt k = none → n * t.p k = t.received k
  closed : ∀ k, t.ialt k ≠ none → n * prob k = 1 - t.p k + t.received k

variable {prob t} {lo hi k : Fin n}

omit [Field K] in
theorem mem_rest : k ∈ t.rest ↔ t.ialt k = none := by simp [rest]

@[simp] theorem give_ialt_self (x : K) : (t.give lo hi x).ialt lo = some hi :=
  Function.update_self ..

theorem give_ialt_of_ne (x : K) (h : k ≠ lo) : (t.give lo hi x).ialt k = t.ialt k :=
  Function.update_of_ne h ..

@[simp] theorem give_p_self (x : K) : (t.give lo hi x).p lo = (1 / n - x) * n :=
  Function.update_self ..

theorem give_p_hi (x : K) (h : hi ≠ lo) : (t.give lo hi x).p hi = t.p hi + (1 / n - x) :=
  (Function.update_of_ne h ..).trans (Function.update_self ..)

theorem give_p_of_ne (x : K) (hlo : k ≠ lo) (hhi : k ≠ hi) : (t.give lo hi x).p k = t.p k :=
  (Function.update_of_ne hlo ..).trans (Function.update_of_ne hhi ..)

/-- Closing a column leaves the others open. -/
theorem rest_give (x : K) : (t.give lo hi x).rest = t.rest.erase lo := by
  ext k
  rw [mem_erase, mem_rest, mem_rest]
  rcases eq_or_ne k lo with rfl | hk
  · simp
  · rw [give_ialt_of_ne x hk]
    exact (and_iff_right hk).symm

/-- What is received from the column that is closed, and by which column. -/
theorem received_give (x : K) (hlo : t.ialt lo = none) (hhi : t.ialt hi = none) :
    (t.give lo hi x).received k =
      t.received k + if hi = k ∧ lo ≠ k then (1 / n - x) * n else 0 := by
  have hf : (fun i => if (t.give lo hi x).ialt i = some k ∧ i ≠ k then (t.give lo hi x).p i
      else 0) = Function.update (fun i => if t.ialt i = some k ∧ i ≠ k then t.p i else 0) lo
        (if hi = k ∧ lo ≠ k then (1 / n - x) * n else 0) := by
    funext i
    rcases eq_or_ne i lo with rfl | hi'
    · simp
    · rw [Function.update_of_ne hi', give_ialt_of_ne x hi']
      rcases eq_or_ne i hi with rfl | hne
      · simp [hhi]
      · rw [give_p_of_ne x hi' hne]
  have hz : (if t.ialt lo = some k ∧ lo ≠ k then t.p lo else 0) = 0 := by simp [hlo]
  unfold received
  rw [hf, sum_update_of_mem (mem_univ lo), sum_eq_add_sum_sdiff_singleton_of_mem (mem_univ lo)
    fun i => if t.ialt i = some k ∧ i ≠ k then t.p i else 0, hz, zero_add, add_comm]

/-- The table before any column is closed. -/
def empty (n : ℕ) (K : Type*) [Zero K] : AliasTable n K where
  p := fun _ => 0
  ialt := fun _ => none

theorem residual_empty : (empty n K).residual prob k = prob k := sub_zero _

theorem rest_empty : (empty n K).rest = univ := filter_true_of_mem fun _ _ => rfl

theorem balanced_empty : (empty n K).Balanced prob where
  opened k _ := by simp [empty, received]
  closed _ h := absurd rfl h

/-- Closing a column keeps the balance. -/
theorem Balanced.give (h : t.Balanced prob) (hn : (n : K) ≠ 0) (hlo : lo ∈ t.rest)
    (hhi : hi ∈ t.rest) : (t.give lo hi (t.residual prob lo)).Balanced prob := by
  rw [mem_rest] at hlo hhi
  constructor
  · intro k hk
    have hne : k ≠ lo := by
      rintro rfl
      simp at hk
    rw [give_ialt_of_ne _ hne] at hk
    rw [received_give _ hlo hhi, ← h.opened k hk]
    rcases eq_or_ne k hi with rfl | hk'
    · rw [give_p_hi _ hne, if_pos ⟨rfl, hne.symm⟩]
      ring
    · rw [give_p_of_ne _ hne hk', if_neg fun h => hk' h.1.symm, add_zero]
  · intro k hk
    rw [received_give _ hlo hhi]
    rcases eq_or_ne k lo with rfl | hne
    · rw [give_p_self, ← h.opened k hlo, if_neg fun h => h.2 rfl, residual]
      field_simp
      ring
    · rw [give_ialt_of_ne _ hne] at hk
      have hk' : k ≠ hi := by
        rintro rfl
        exact hk hhi
      rw [give_p_of_ne _ hne hk', if_neg fun h => hk' h.1.symm, add_zero]
      exact h.closed k hk

/-- What the other columns are short of afterwards. -/
theorem residual_give (x : K) (hne : k ≠ lo) : (t.give lo hi x).residual prob k =
    t.residual prob k - if k = hi then 1 / n - x else 0 := by
  rcases eq_or_ne k hi with rfl | hk
  · rw [residual, give_p_hi x hne, if_pos rfl, residual, sub_sub]
  · rw [residual, give_p_of_ne x hne hk, if_neg hk, sub_zero, residual]

/-- What all open columns are short of afterwards. -/
theorem sum_residual_give (hlo : lo ∈ t.rest) (hhi : hi ∈ t.rest) :
    ∑ k ∈ (t.give lo hi (t.residual prob lo)).rest,
        (t.give lo hi (t.residual prob lo)).residual prob k =
      ∑ k ∈ t.rest, t.residual prob k - if hi = lo then t.residual prob lo else 1 / n := by
  rw [rest_give, sum_congr rfl fun k hk => residual_give _ (ne_of_mem_erase hk), sum_sub_distrib,
    sum_ite_eq', ← add_sum_erase _ _ hlo]
  rcases eq_or_ne hi lo with rfl | hne
  · simp
  · rw [if_pos (mem_erase.2 ⟨hne, hhi⟩), if_neg hne]
    ring

/-- What is left of the shares goes where it belongs, but for what a column gives itself. -/
theorem Balanced.filled (h : t.Balanced prob) (hrest : t.rest = ∅) (k : Fin n) :
    n * prob k + (if t.ialt k = some k then t.p k else 0) =
      1 - t.p k + ∑ i, if t.ialt i = some k then t.p i else 0 := by
  have hk : t.ialt k ≠ none := fun hk => by
    have := mem_rest.2 hk
    rw [hrest] at this
    exact notMem_empty k this
  have hsum : (∑ i, if t.ialt i = some k then t.p i else 0) =
      t.received k + if t.ialt k = some k then t.p k else 0 := by
    have hk : (if t.ialt k = some k then t.p k else 0) =
        ∑ i, if k = i then if t.ialt i = some k then t.p i else 0 else 0 := by
      rw [sum_ite_eq, if_pos (mem_univ k)]
    rw [hk, received, ← sum_add_distrib]
    refine sum_congr rfl fun i _ => ?_
    rcases eq_or_ne i k with rfl | hne
    · simp
    · simp [hne, hne.symm]
  rw [hsum, h.closed k hk]
  ring

end Filling

/-! ## The choice of columns -/

section Choice

open Finset

variable {n : ℕ} {K : Type*} [Field K] [LinearOrder K] {prob : Fin n → K} {t : AliasTable n K}
  {lo hi k : Fin n} {px : K}

variable (prob t lo hi) in
/-- Open columns with the smallest and the largest residual, the same one if all
    residuals are the same. -/
structure Chosen : Prop where
  lo_mem : lo ∈ t.rest
  hi_mem : hi ∈ t.rest
  le_residual : ∀ k ∈ t.rest, t.residual prob lo ≤ t.residual prob k
  residual_le : ∀ k ∈ t.rest, t.residual prob k ≤ t.residual prob hi
  eq_of_even : (∀ k ∈ t.rest, t.residual prob k = t.residual prob lo) → hi = lo

/-- If one column has the smallest and the largest residual, all are the same. -/
theorem Chosen.even (h : t.Chosen prob lo hi) (heq : hi = lo) (hk : k ∈ t.rest) :
    t.residual prob k = t.residual prob lo :=
  le_antisymm (heq ▸ h.residual_le k hk) (h.le_residual k hk)

/-- The other columns stay as short as they are, when a column closes on its own. -/
theorem Chosen.residual_give (h : t.Chosen prob lo hi) (heq : hi = lo)
    (hk : k ∈ (t.give lo hi (t.residual prob lo)).rest) :
    (t.give lo hi (t.residual prob lo)).residual prob k = t.residual prob lo := by
  rw [rest_give] at hk
  have hne : k ≠ lo := ne_of_mem_erase hk
  rw [AliasTable.residual_give _ hne, if_neg fun hk => hne (hk.trans heq), sub_zero]
  exact h.even heq (mem_of_mem_erase hk)

/-- A closed column is not touched when another one closes. -/
theorem Chosen.give_p_of_closed (h : t.Chosen prob lo hi) (hk : k ∉ t.rest) (x : K) :
    (t.give lo hi x).p k = t.p k := by
  refine give_p_of_ne x ?_ ?_
  · rintro rfl
    exact hk h.lo_mem
  · rintro rfl
    exact hk h.hi_mem

theorem Chosen.card_give (h : t.Chosen prob lo hi) (x : K) :
    (#(t.give lo hi x).rest : K) = #t.rest - 1 := by
  rw [rest_give, cast_card_erase_of_mem h.lo_mem]

variable [IsStrictOrderedRing K]

theorem Chosen.card_rest_pos (h : t.Chosen prob lo hi) : (0 : K) < #t.rest :=
  Nat.cast_pos.2 (card_pos.2 ⟨lo, h.lo_mem⟩)

/-! ## Exact probabilities -/

variable (prob t) in
/-- The open columns are short of what is still to be given, of which none is negative. -/
structure Exact : Prop where
  balanced : t.Balanced prob
  nonneg : ∀ k ∈ t.rest, 0 ≤ t.residual prob k
  sum_residual : ∑ k ∈ t.rest, t.residual prob k = #t.rest / n
  share : ∀ k ∉ t.rest, 0 ≤ t.p k ∧ t.p k ≤ 1
  own : ∀ k, t.ialt k = some k → t.p k = 0

omit [IsStrictOrderedRing K] in
theorem exact_empty (hn : (n : K) ≠ 0) (hnonneg : ∀ k, 0 ≤ prob k) (hsum : ∑ k, prob k = 1) :
    (empty n K).Exact prob where
  balanced := balanced_empty
  nonneg k _ := (hnonneg k).trans_eq residual_empty.symm
  sum_residual := by
    rw [rest_empty, sum_congr rfl fun k _ => residual_empty, hsum, card_univ, Fintype.card_fin,
      div_self hn]
  share k hk := absurd (rest_empty (K := K) ▸ mem_univ k) hk
  own k hk := rfl

/-- The smallest residual is at most the mean. -/
theorem Exact.residual_lo_le (h : t.Exact prob) (hc : t.Chosen prob lo hi) :
    t.residual prob lo ≤ 1 / n := by
  have hle : #t.rest • t.residual prob lo ≤ ∑ k ∈ t.rest, t.residual prob k :=
    card_nsmul_le_sum _ _ _ hc.le_residual
  rw [h.sum_residual, nsmul_eq_mul, ← mul_one_div] at hle
  exact le_of_mul_le_mul_left hle hc.card_rest_pos

/-- The largest residual is at least the mean. -/
theorem Exact.le_residual_hi (h : t.Exact prob) (hc : t.Chosen prob lo hi) :
    1 / n ≤ t.residual prob hi := by
  have hle : ∑ k ∈ t.rest, t.residual prob k ≤ #t.rest • t.residual prob hi :=
    sum_le_card_nsmul _ _ _ hc.residual_le
  rw [h.sum_residual, nsmul_eq_mul, ← mul_one_div] at hle
  exact le_of_mul_le_mul_left hle hc.card_rest_pos

/-- A column that closes on its own is short of its whole share. -/
theorem Exact.residual_of_eq (h : t.Exact prob) (hc : t.Chosen prob lo hi) (heq : hi = lo) :
    t.residual prob lo = 1 / n :=
  le_antisymm (h.residual_lo_le hc) (heq ▸ h.le_residual_hi hc)

/-- Closing a column keeps the probabilities exact. -/
theorem Exact.give (h : t.Exact prob) (hn : (0 : K) < n) (hc : t.Chosen prob lo hi) :
    (t.give lo hi (t.residual prob lo)).Exact prob where
  balanced := h.balanced.give hn.ne' hc.lo_mem hc.hi_mem
  nonneg k hk := by
    rw [rest_give] at hk
    rw [residual_give _ (ne_of_mem_erase hk)]
    have hk₀ := h.nonneg k (mem_of_mem_erase hk)
    split_ifs with hhi
    · subst hhi
      linarith [h.le_residual_hi hc, h.nonneg lo hc.lo_mem]
    · linarith
  sum_residual := by
    rw [sum_residual_give hc.lo_mem hc.hi_mem, h.sum_residual, hc.card_give, sub_div]
    split_ifs with heq
    · rw [h.residual_of_eq hc heq]
    · rfl
  share k hk := by
    rcases eq_or_ne k lo with rfl | hne
    · have hx := h.residual_lo_le hc
      rw [give_p_self]
      constructor
      · exact mul_nonneg (sub_nonneg.2 hx) hn.le
      · have := mul_nonneg (h.nonneg k hc.lo_mem) hn.le
        rw [sub_mul, one_div_mul_cancel hn.ne']
        linarith
    · rw [rest_give, mem_erase, not_and] at hk
      rw [hc.give_p_of_closed (hk hne)]
      exact h.share k (hk hne)
  own k hk := by
    rcases eq_or_ne k lo with rfl | hne
    · rw [give_ialt_self, Option.some_inj] at hk
      rw [give_p_self, h.residual_of_eq hc hk, sub_self, zero_mul]
    · rw [give_ialt_of_ne _ hne] at hk
      have hrest : k ∉ t.rest := fun hmem => by simp [mem_rest.1 hmem] at hk
      rw [hc.give_p_of_closed hrest]
      exact h.own k hk

/-! ## Probabilities that do not add up to 1 -/

variable (prob t) in
/-- No column is its own alias so far, or all open columns are short of the same,
    and `px` is what a column that closes on its own keeps. -/
def Even (px : K) : Prop :=
  ((∀ k, t.ialt k ≠ some k) ∧
    ∑ k ∈ t.rest, t.residual prob k = #t.rest / n - (1 - ∑ k, prob k)) ∨
  ∃ x, ∃ m : ℕ, px = (1 / n - x) * n ∧ (∀ k ∈ t.rest, t.residual prob k = x) ∧
    (∀ k, t.ialt k = some k → t.p k = px) ∧ 1 ≤ m ∧ m ≤ n ∧ 1 - ∑ k, prob k = m * (1 / n - x)

omit [LinearOrder K] [IsStrictOrderedRing K] in
theorem even_empty (hn : (n : K) ≠ 0) (px : K) : (empty n K).Even prob px := by
  refine .inl ⟨fun k => (Option.some_ne_none k).symm, ?_⟩
  rw [rest_empty, sum_congr rfl fun k _ => residual_empty, card_univ, Fintype.card_fin,
    div_self hn, sub_sub_cancel]

/-- Closing a column on its own, when all are short of the same. -/
theorem Even.give (h : t.Even prob px) (hc : t.Chosen prob lo hi) :
    (t.give lo hi (t.residual prob lo)).Even prob ((1 / n - t.residual prob lo) * n) := by
  rcases h with ⟨hown, hsum⟩ | ⟨x, m, hpx, hx, hown, hm₁, hmn, hD⟩
  · by_cases heq : hi = lo
    · refine .inr ⟨t.residual prob lo, #t.rest, rfl, fun k => hc.residual_give heq, fun k hk => ?_,
        card_pos.2 ⟨lo, hc.lo_mem⟩, ?_, ?_⟩
      · rcases eq_or_ne k lo with rfl | hne
        · exact give_p_self _
        · rw [give_ialt_of_ne _ hne] at hk
          exact absurd hk (hown k)
      · exact (card_le_univ t.rest).trans_eq (Fintype.card_fin n)
      · rw [sum_congr rfl fun k hk => hc.even heq hk, sum_const, nsmul_eq_mul] at hsum
        rw [mul_sub, mul_one_div]
        linarith
    · refine .inl ⟨fun k hk => ?_, ?_⟩
      · rcases eq_or_ne k lo with rfl | hne
        · rw [give_ialt_self, Option.some_inj] at hk
          exact heq hk
        · rw [give_ialt_of_ne _ hne] at hk
          exact hown k hk
      · rw [sum_residual_give hc.lo_mem hc.hi_mem, hsum, hc.card_give, if_neg heq]
        ring
  · have hlo : t.residual prob lo = x := hx lo hc.lo_mem
    have heq : hi = lo := hc.eq_of_even fun k hk => (hx k hk).trans hlo.symm
    refine .inr ⟨x, m, by rw [hlo], fun k hk => (hc.residual_give heq hk).trans hlo,
      fun k hk => ?_, hm₁, hmn, hD⟩
    rcases eq_or_ne k lo with rfl | hne
    · exact give_p_self _
    · rw [give_ialt_of_ne _ hne] at hk
      have hrest : k ∉ t.rest := fun hmem => by simp [mem_rest.1 hmem] at hk
      rw [hc.give_p_of_closed hrest, hown k hk, hpx, hlo]

/-- How far the probabilities are from 1, once all columns are closed. -/
theorem Even.abs_le (h : t.Even prob px) (hn : (0 : K) < n) (hrest : t.rest = ∅) :
    |1 - ∑ k, prob k| ≤ |px| ∧ ∀ k, t.ialt k = some k → |t.p k| ≤ |px| := by
  rcases h with ⟨hown, hsum⟩ | ⟨x, m, hpx, -, hown, hm₁, hmn, hD⟩
  · rw [hrest, sum_empty, card_empty, Nat.cast_zero, zero_div, zero_sub, eq_comm,
      neg_eq_zero] at hsum
    exact ⟨by simp [hsum], fun k hk => absurd hk (hown k)⟩
  · refine ⟨?_, fun k hk => by rw [hown k hk]⟩
    have hm : (0 : K) < m := Nat.cast_pos.2 hm₁
    rw [hD, hpx, abs_mul, abs_mul, abs_of_pos hm, abs_of_pos hn, mul_comm]
    exact mul_le_mul_of_nonneg_left (Nat.cast_le.2 hmn) (abs_nonneg _)

/-! ## Drawing a value -/

/-- The part of the unit interval below `x`. -/
def clip (x : K) : K := max 0 (min x 1)

variable (t) in
/-- The probability of a value. -/
def mass (k : Fin n) : K :=
  (1 - clip (t.p k) + ∑ i, if t.ialt i = some k then clip (t.p i) else 0) / n

omit [IsStrictOrderedRing K] in
theorem clip_of_mem {x : K} (h : 0 ≤ x ∧ x ≤ 1) : clip x = x := by
  rw [clip, min_eq_left h.2, max_eq_right h.1]

/-- What is off the unit interval by at most `ε` is off its part by at most `ε`. -/
theorem abs_clip_sub_le {x ε : K} (hε : 0 ≤ ε) (h : -ε ≤ x ∧ x ≤ 1 + ε) : |clip x - x| ≤ ε := by
  rw [clip, abs_le]
  rcases le_total x 1 with h₁ | h₁
  · rw [min_eq_left h₁]
    rcases le_total 0 x with h₀ | h₀
    · rw [max_eq_right h₀]
      constructor <;> linarith
    · rw [max_eq_left h₀]
      constructor <;> linarith
  · rw [min_eq_right h₁, max_eq_right zero_le_one]
    constructor <;> linarith

omit [IsStrictOrderedRing K] in
/-- A value is drawn with its probability. -/
theorem Exact.mass_eq (h : t.Exact prob) (hn : (n : K) ≠ 0) (hrest : t.rest = ∅) (k : Fin n) :
    t.mass k = prob k := by
  have hclip (i : Fin n) : clip (t.p i) = t.p i :=
    clip_of_mem (h.share i (hrest ▸ notMem_empty i))
  have hown : (if t.ialt k = some k then t.p k else 0) = 0 := by
    split_ifs with hk
    · exact h.own k hk
    · rfl
  simp only [mass, hclip]
  rw [← h.balanced.filled hrest, hown, add_zero, mul_div_cancel_left₀ _ hn]

/-- A value is drawn with almost its probability, if all columns are almost what they
    should be. -/
theorem Balanced.abs_mass_sub_le (h : t.Balanced prob) (hn : (0 : K) < n) (hrest : t.rest = ∅)
    {ε : K} (hε : 0 ≤ ε) (hp : ∀ k, -ε ≤ t.p k ∧ t.p k ≤ 1 + ε)
    (hown : ∀ k, t.ialt k = some k → |t.p k| ≤ ε) (k : Fin n) : |t.mass k - prob k| ≤ ε := by
  -- What the column `k` itself contributes, and what the columns with alias `k` do.
  have hcol (i : Fin n) : |(if t.ialt i = some k then clip (t.p i) - t.p i else 0) +
      (if i = k then (if t.ialt k = some k then t.p k else 0) - (clip (t.p k) - t.p k) else 0)|
      ≤ ε := by
    have hs := abs_clip_sub_le hε (hp i)
    rcases eq_or_ne i k with rfl | hne
    · rw [if_pos rfl]
      split_ifs with hk
      · rw [add_sub_cancel]
        exact hown i hk
      · rwa [zero_add, zero_sub, abs_neg]
    · rw [if_neg hne, add_zero]
      split_ifs
      · exact hs
      · rwa [abs_zero]
  have hsum : n * (t.mass k - prob k) =
      ∑ i, ((if t.ialt i = some k then clip (t.p i) - t.p i else 0) +
        (if i = k then (if t.ialt k = some k then t.p k else 0) - (clip (t.p k) - t.p k)
          else 0)) := by
    have hite (i : Fin n) : (if t.ialt i = some k then clip (t.p i) - t.p i else 0) =
        (if t.ialt i = some k then clip (t.p i) else 0) -
          if t.ialt i = some k then t.p i else 0 := by
      split_ifs
      · rfl
      · rw [sub_zero]
    have hfilled := h.filled hrest k
    rw [sum_add_distrib, sum_ite_eq', if_pos (mem_univ k), sum_congr rfl fun i _ => hite i,
      sum_sub_distrib, mass, mul_sub, mul_div_cancel₀ _ hn.ne']
    linarith
  have hle : n * |t.mass k - prob k| ≤ n * ε := by
    rw [← abs_of_pos hn, ← abs_mul, abs_of_pos hn, hsum]
    refine (abs_sum_le_sum_abs _ _).trans ((sum_le_card_nsmul _ _ _ fun i _ => hcol i).trans_eq ?_)
    rw [card_univ, Fintype.card_fin, nsmul_eq_mul]
  exact le_of_mul_le_mul_left hle hn

end Choice

section Drawing

open MeasureTheory Set

variable {n : ℕ} (t : AliasTable n ℝ)

/-- The value a column gives, for a number of the unit interval. -/
noncomputable def column (i : Fin n) (v : ℝ) : Option (Fin n) :=
  if v < t.p i then t.ialt i else some i

/-- The value drawn for two numbers of the unit interval, the first of which chooses the column. -/
noncomputable def pick (u : ℝ × ℝ) : Option (Fin n) :=
  if h : ⌊n * u.1⌋₊ < n then t.column ⟨⌊n * u.1⌋₊, h⟩ u.2 else none

/-- The probability that a column gives a value. -/
theorem volume_column (i k : Fin n) : volume {v ∈ Ico (0 : ℝ) 1 | t.column i v = some k} =
    ENNReal.ofReal ((if t.ialt i = some k then clip (t.p i) else 0) +
      if i = k then 1 - clip (t.p i) else 0) := by
  have hbelow : {v ∈ Ico (0 : ℝ) 1 | v < t.p i} = Ico 0 (min (t.p i) 1) := by
    ext v
    simp only [mem_ofPred_eq, mem_Ico, lt_min_iff]
    tauto
  have habove : {v ∈ Ico (0 : ℝ) 1 | ¬v < t.p i} = Ico (max 0 (t.p i)) 1 := by
    ext v
    simp only [mem_ofPred_eq, mem_Ico, not_lt, max_le_iff]
    tauto
  by_cases hi : t.ialt i = some k <;> rcases eq_or_ne i k with rfl | hk
  · have : {v ∈ Ico (0 : ℝ) 1 | t.column i v = some i} = Ico 0 1 := by
      ext v
      simp [column, hi]
    rw [this, if_pos hi, if_pos rfl, Real.volume_Ico, add_sub_cancel, sub_zero]
  · have : {v ∈ Ico (0 : ℝ) 1 | t.column i v = some k} = {v ∈ Ico (0 : ℝ) 1 | v < t.p i} := by
      ext v
      simp [column, hi, hk]
    rw [this, hbelow, if_pos hi, if_neg hk, Real.volume_Ico, sub_zero, add_zero, clip,
      max_comm, ENNReal.ofReal_max, ENNReal.ofReal_zero, max_eq_left zero_le]
  · have : {v ∈ Ico (0 : ℝ) 1 | t.column i v = some i} = {v ∈ Ico (0 : ℝ) 1 | ¬v < t.p i} := by
      ext v
      simp [column, hi]
    rw [this, habove, if_neg hi, if_pos rfl, Real.volume_Ico, zero_add, clip]
    rcases le_total (t.p i) 1 with h | h
    · rw [min_eq_left h]
    · rw [min_eq_right h, max_eq_right zero_le_one, max_eq_right (zero_le_one.trans h), sub_self,
        ENNReal.ofReal_zero, ENNReal.ofReal_of_nonpos (sub_nonpos.2 h)]
  · have : {v ∈ Ico (0 : ℝ) 1 | t.column i v = some k} = ∅ := by
      ext v
      simp only [column, mem_ofPred_eq, mem_empty_iff_false, iff_false, not_and]
      intro _
      split_ifs
      · exact hi
      · exact fun h => hk (Option.some_inj.1 h)
    rw [this, if_neg hi, if_neg hk, measure_empty, add_zero, ENNReal.ofReal_zero]

theorem measurableSet_column (i k : Fin n) :
    MeasurableSet {v ∈ Ico (0 : ℝ) 1 | t.column i v = some k} := by
  have : {v ∈ Ico (0 : ℝ) 1 | t.column i v = some k} =
      Ico 0 1 ∩ (Iio (t.p i) ∩ {_v | t.ialt i = some k} ∪ Ici (t.p i) ∩ {_v | i = k}) := by
    ext v
    rcases lt_or_ge v (t.p i) with h | h
    · simp [column, h]
    · simp [column, h, not_lt.2 h]
  rw [this]
  exact measurableSet_Ico.inter
    ((measurableSet_Iio.inter (.const _)).union (measurableSet_Ici.inter (.const _)))

/-- The columns divide the unit interval. -/
theorem floor_eq_iff_mem (hn : (0 : ℝ) < n) {x : ℝ} (hx : 0 ≤ x) (i : ℕ) :
    ⌊n * x⌋₊ = i ↔ x ∈ Ico (i / n : ℝ) ((i + 1) / n) := by
  rw [Nat.floor_eq_iff (mul_nonneg hn.le hx), mem_Ico, div_le_iff₀' hn, lt_div_iff₀' hn]

/-- The pairs of numbers that draw a value. -/
theorem pick_eq_iUnion (hn : (0 : ℝ) < n) (k : Fin n) :
    {u ∈ Ico (0 : ℝ) 1 ×ˢ Ico (0 : ℝ) 1 | t.pick u = some k} =
      ⋃ i : Fin n, Ico ((i : ℕ) / n : ℝ) (((i : ℕ) + 1) / n) ×ˢ
        {v ∈ Ico (0 : ℝ) 1 | t.column i v = some k} := by
  ext ⟨x, v⟩
  simp only [mem_ofPred_eq, mem_prod, mem_iUnion]
  constructor
  · rintro ⟨⟨hx, hv⟩, hpick⟩
    unfold pick at hpick
    split_ifs at hpick with h
    exact ⟨⟨_, h⟩, (floor_eq_iff_mem hn hx.1 _).1 rfl, hv, hpick⟩
  · rintro ⟨i, hx, hv, hcol⟩
    have hx₀ : 0 ≤ x := (div_nonneg (Nat.cast_nonneg _) hn.le).trans hx.1
    have hi : ((i : ℕ) : ℝ) + 1 ≤ n := by exact_mod_cast i.isLt
    have hx₁ : x < 1 := hx.2.trans_le ((div_le_one hn).2 hi)
    have hfloor := (floor_eq_iff_mem hn hx₀ i).2 hx
    refine ⟨⟨⟨hx₀, hx₁⟩, hv⟩, ?_⟩
    have hlt : ⌊n * x⌋₊ < n := hfloor ▸ i.isLt
    have heq : (⟨⌊n * x⌋₊, hlt⟩ : Fin n) = i := Fin.ext hfloor
    rw [pick, dif_pos hlt, heq]
    exact hcol

theorem measurableSet_pick (hn : (0 : ℝ) < n) (k : Fin n) :
    MeasurableSet {u ∈ Ico (0 : ℝ) 1 ×ˢ Ico (0 : ℝ) 1 | t.pick u = some k} := by
  rw [t.pick_eq_iUnion hn]
  exact .iUnion fun i => measurableSet_Ico.prod (t.measurableSet_column i k)

/-- A full table has a value for all numbers. -/
theorem exists_pick (hn : (0 : ℝ) < n) (hrest : t.rest = ∅) {u : ℝ × ℝ}
    (hu : u ∈ Ico (0 : ℝ) 1 ×ˢ Ico (0 : ℝ) 1) : ∃ k, t.pick u = some k := by
  have hlt : ⌊n * u.1⌋₊ < n :=
    (Nat.floor_lt (mul_nonneg hn.le hu.1.1)).2 (mul_lt_of_lt_one_right hn hu.1.2)
  rw [pick, dif_pos hlt, column]
  split_ifs
  · refine Option.ne_none_iff_exists'.1 fun hnone => ?_
    exact Finset.notMem_empty _ (hrest ▸ mem_rest.2 hnone)
  · exact ⟨_, rfl⟩

/-- The parts of the unit square for different columns. -/
theorem disjoint_columns (hn : (0 : ℝ) < n) (s : Fin n → Set ℝ) :
    Pairwise (Function.onFun Disjoint fun i : Fin n =>
      Ico ((i : ℕ) / n : ℝ) (((i : ℕ) + 1) / n) ×ˢ s i) := by
  intro i j hij
  refine disjoint_left.2 ?_
  rintro ⟨x, v⟩ ⟨hx, -⟩ ⟨hx', -⟩
  have hx₀ : 0 ≤ x := (div_nonneg (Nat.cast_nonneg _) hn.le).trans hx.1
  have hi := (floor_eq_iff_mem hn hx₀ i).2 hx
  have hj := (floor_eq_iff_mem hn hx₀ j).2 hx'
  exact hij (Fin.ext (hi.symm.trans hj))

theorem clip_mem (x : ℝ) : clip x ∈ Icc (0 : ℝ) 1 :=
  ⟨le_max_left _ _, max_le zero_le_one (min_le_right _ _)⟩

/-- What a column contributes to the probability of a value is never negative. -/
theorem column_nonneg (i k : Fin n) : 0 ≤ (if t.ialt i = some k then clip (t.p i) else 0) +
    if i = k then 1 - clip (t.p i) else 0 := by
  have := clip_mem (t.p i)
  split_ifs <;> linarith [this.1, this.2]

/-- The probability of a value, by columns. -/
theorem mass_eq_sum (k : Fin n) : t.mass k = 1 / n * ∑ i,
    ((if t.ialt i = some k then clip (t.p i) else 0) + if i = k then 1 - clip (t.p i) else 0) := by
  rw [Finset.sum_add_distrib, Finset.sum_ite_eq', if_pos (Finset.mem_univ k), mass]
  ring

theorem mass_nonneg (k : Fin n) : 0 ≤ t.mass k :=
  t.mass_eq_sum k ▸ mul_nonneg (by positivity) (Finset.sum_nonneg fun i _ => t.column_nonneg i k)

/-- The probability of a value, for two independent uniform numbers. -/
theorem volume_pick (hn : (0 : ℝ) < n) (k : Fin n) :
    volume {u ∈ Ico (0 : ℝ) 1 ×ˢ Ico (0 : ℝ) 1 | t.pick u = some k} =
      ENNReal.ofReal (t.mass k) := by
  have hwidth (i : ℕ) : ((i : ℝ) + 1) / n - i / n = 1 / n := by rw [← sub_div, add_sub_cancel_left]
  rw [t.pick_eq_iUnion hn, measure_iUnion (disjoint_columns hn _) fun i =>
    measurableSet_Ico.prod (t.measurableSet_column i k), tsum_fintype]
  simp only [Measure.volume_eq_prod, Measure.prod_prod, Real.volume_Ico, hwidth, t.volume_column]
  rw [← Finset.mul_sum, ← ENNReal.ofReal_sum_of_nonneg fun i _ => t.column_nonneg i k,
    ← ENNReal.ofReal_mul (by positivity), t.mass_eq_sum]

/-- The mean of what is drawn, for two independent uniform numbers. -/
theorem integral_pick (hn : (0 : ℝ) < n) (f : Fin n → ℝ) :
    ∫ u in Ico (0 : ℝ) 1 ×ˢ Ico (0 : ℝ) 1, ((t.pick u).map f).getD 0 = ∑ k, t.mass k * f k := by
  have hmeas (k : Fin n) := t.measurableSet_pick hn k
  have hsum : ∀ u ∈ Ico (0 : ℝ) 1 ×ˢ Ico (0 : ℝ) 1, ((t.pick u).map f).getD 0 =
      ∑ k, {u ∈ Ico (0 : ℝ) 1 ×ˢ Ico (0 : ℝ) 1 | t.pick u = some k}.indicator
        (fun _ => f k) u := by
    intro u hu
    simp only [indicator_apply, mem_ofPred_eq, hu, true_and]
    cases t.pick u with
    | none => simp
    | some i => simp
  have hsquare : volume (Ico (0 : ℝ) 1 ×ˢ Ico (0 : ℝ) 1) ≠ ⊤ := by
    simp [Measure.volume_eq_prod, Measure.prod_prod]
  have hint (k : Fin n) : IntegrableOn
      ({u ∈ Ico (0 : ℝ) 1 ×ˢ Ico (0 : ℝ) 1 | t.pick u = some k}.indicator fun _ => f k)
      (Ico (0 : ℝ) 1 ×ˢ Ico (0 : ℝ) 1) :=
    (integrableOn_const hsquare).indicator (hmeas k)
  rw [setIntegral_congr_fun (measurableSet_Ico.prod measurableSet_Ico) hsum,
    integral_finsetSum _ fun k _ => hint k]
  refine Finset.sum_congr rfl fun k _ => ?_
  rw [integral_indicator_const _ (hmeas k), Measure.real, Measure.restrict_apply (hmeas k),
    inter_eq_left.2 (sep_subset _ _), t.volume_pick hn, ENNReal.toReal_ofReal (t.mass_nonneg k),
    smul_eq_mul]

end Drawing
end AliasTable
