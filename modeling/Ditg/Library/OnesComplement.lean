import Mathlib.Data.Nat.ModEq
import Mathlib.Algebra.BigOperators.Group.List.Basic
import Mathlib.Tactic.Ring

/-!
# One's complement sums

Words with `M` as the largest one, all of whose bits are set. A sum of two words that does not fit
has its carry added at the low end. So every sum is a remainder by `M`, but for zero, of which
there are two: `0`, which only zeros add up to, and `M`. A checksum is the complement of a sum;
with it, the sum is `M`.

* `sum_eq_reduce`: the sum of words is that of the numbers, reduced in the end;
* `fold_fold`: two additions of the carries reduce a number that is not too large;
* `verifies_iff`: which words complete a sum to `M`.
-/

namespace OnesComplement

variable (M : ℕ)

/-- The sum of two words, with the carry added at the low end. -/
def add (x y : ℕ) : ℕ := if x + y ≤ M then x + y else x + y - (M + 1) + 1

/-- The sum of words. -/
def sum (words : List ℕ) : ℕ := words.foldr (add M) 0

/-- The word that a number is reduced to. -/
def reduce (n : ℕ) : ℕ := if n = 0 then 0 else (n - 1) % M + 1

@[simp] theorem reduce_zero : reduce M 0 = 0 := rfl

variable {M}

theorem reduce_le (hM : 0 < M) (n : ℕ) : reduce M n ≤ M := by
  rw [reduce]
  split_ifs
  · exact Nat.zero_le M
  · exact Nat.mod_lt _ hM

/-- A word is reduced. -/
theorem reduce_of_le {n : ℕ} (h : n ≤ M) : reduce M n = n := by
  rw [reduce]
  split_ifs with h0
  · exact h0.symm
  · rw [Nat.mod_eq_of_lt (by omega)]
    omega

/-- Only the number zero is reduced to zero. -/
theorem reduce_eq_zero_iff {n : ℕ} : reduce M n = 0 ↔ n = 0 := by
  rw [reduce]
  split_ifs with h
  · exact iff_of_true rfl h
  · simp [h]

/-- The remainder does not change. -/
theorem reduce_modEq (n : ℕ) : reduce M n ≡ n [MOD M] := by
  rw [reduce]
  split_ifs with h
  · rw [h]
  · calc (n - 1) % M + 1 ≡ n - 1 + 1 [MOD M] := (Nat.mod_modEq _ _).add_right 1
      _ = n := Nat.sub_one_add_one h

/-- A word is known by its remainder, and whether it is zero. -/
theorem eq_reduce_iff (hM : 0 < M) {w n : ℕ} (hw : w ≤ M) :
    w = reduce M n ↔ w ≡ n [MOD M] ∧ (w = 0 ↔ n = 0) := by
  constructor
  · rintro rfl
    exact ⟨reduce_modEq n, reduce_eq_zero_iff⟩
  · rintro ⟨hmod, hzero⟩
    by_cases h : n = 0
    · rw [h, hzero.2 h, reduce_zero]
    · have hw0 : w ≠ 0 := fun h0 => h (hzero.1 h0)
      -- Both are positive, and one less they are remainders.
      have hpred : w - 1 ≡ n - 1 [MOD M] := by
        refine Nat.ModEq.add_right_cancel' 1 ?_
        rwa [Nat.sub_one_add_one hw0, Nat.sub_one_add_one h]
      rw [Nat.ModEq, Nat.mod_eq_of_lt (by omega)] at hpred
      rw [reduce, if_neg h]
      omega

/-- The sum of two words is that of the numbers they are reduced from. -/
theorem add_reduce (hM : 0 < M) (a b : ℕ) : add M (reduce M a) (reduce M b) = reduce M (a + b) := by
  have ha := reduce_le hM a
  have hb := reduce_le hM b
  have hmod : reduce M a + reduce M b ≡ a + b [MOD M] := (reduce_modEq a).add (reduce_modEq b)
  have hzero : reduce M a + reduce M b = 0 ↔ a + b = 0 := by
    rw [Nat.add_eq_zero_iff, Nat.add_eq_zero_iff, reduce_eq_zero_iff, reduce_eq_zero_iff]
  rw [add]
  split_ifs with h
  · exact (eq_reduce_iff hM h).2 ⟨hmod, hzero⟩
  · have hcarry : reduce M a + reduce M b - (M + 1) + 1 = reduce M a + reduce M b - M := by omega
    rw [hcarry]
    refine (eq_reduce_iff hM (by omega)).2 ⟨?_, by omega⟩
    refine Nat.ModEq.trans ?_ hmod
    exact (Nat.modEq_iff_dvd' (Nat.sub_le _ _)).2 ⟨1, by omega⟩

/-- The carries may be added in the end. -/
theorem sum_eq_reduce (hM : 0 < M) {words : List ℕ} (h : ∀ w ∈ words, w ≤ M) :
    sum M words = reduce M words.sum := by
  induction words with
  | nil => rfl
  | cons w words ih =>
    rw [List.forall_mem_cons] at h
    rw [sum, List.foldr_cons, ← sum, ih h.2, List.sum_cons, ← add_reduce hM, reduce_of_le h.1]

/-! ## Adding the carries -/

variable (M) in
/-- What does not fit into a word, added to what does. -/
def fold (n : ℕ) : ℕ := n / (M + 1) + n % (M + 1)

theorem fold_modEq (n : ℕ) : fold M n ≡ n [MOD M] := by
  have hbase : (M + 1) * (n / (M + 1)) ≡ 1 * (n / (M + 1)) [MOD M] := by
    refine Nat.ModEq.mul_right _ ?_
    exact Nat.add_modEq_left
  calc fold M n = 1 * (n / (M + 1)) + n % (M + 1) := by rw [fold, one_mul]
    _ ≡ (M + 1) * (n / (M + 1)) + n % (M + 1) [MOD M] := hbase.symm.add_right _
    _ = n := Nat.div_add_mod n (M + 1)

theorem fold_eq_zero_iff {n : ℕ} : fold M n = 0 ↔ n = 0 := by
  rw [fold, Nat.add_eq_zero_iff]
  constructor
  · rintro ⟨hdiv, hmod⟩
    rw [← Nat.div_add_mod n (M + 1), hdiv, hmod, mul_zero]
  · rintro rfl
    exact ⟨Nat.zero_div _, Nat.zero_mod _⟩

/-- The second time, there is at most one carry, and the rest of it need not be dropped before. -/
theorem fold_fold (hM : 0 < M) {n : ℕ} (hn : n < (M + 1) * (M + 1)) :
    (fold M n + fold M n / (M + 1)) % (M + 1) = reduce M n := by
  have hq : n / (M + 1) ≤ M := Nat.lt_succ_iff.1 (Nat.div_lt_of_lt_mul hn)
  have hr : n % (M + 1) ≤ M := Nat.lt_succ_iff.1 (Nat.mod_lt _ M.succ_pos)
  have hle : fold M n ≤ M + M := Nat.add_le_add hq hr
  have hmod := fold_modEq (M := M) n
  have hzero := fold_eq_zero_iff (M := M) (n := n)
  by_cases h : fold M n ≤ M
  · rw [Nat.div_eq_of_lt (by omega), add_zero, Nat.mod_eq_of_lt (by omega)]
    exact (eq_reduce_iff hM h).2 ⟨hmod, hzero⟩
  · have hone : fold M n / (M + 1) = 1 := Nat.div_eq_of_lt_le (by omega) (by omega)
    have hsub : (fold M n + 1) % (M + 1) = fold M n - M := by
      rw [show fold M n + 1 = fold M n - M + (M + 1) by omega, Nat.add_mod_right,
        Nat.mod_eq_of_lt (by omega)]
    rw [hone, hsub]
    refine (eq_reduce_iff hM (by omega)).2 ⟨?_, by omega⟩
    refine Nat.ModEq.trans ?_ hmod
    exact (Nat.modEq_iff_dvd' (Nat.sub_le _ _)).2 ⟨1, by omega⟩

/-! ## Verification -/

/-- The complement of `w` completes a number to `M` if and only if `w` is what the number is
    reduced to, up to the two zeros. -/
theorem verifies_iff (hM : 0 < M) {n w : ℕ} (hw : w ≤ M) (hpos : 0 < n + (M - w)) :
    reduce M (n + (M - w)) = M ↔ w ≡ n [MOD M] := by
  have hcancel : M + w ≡ n + (M - w) + w [MOD M] ↔ w ≡ n [MOD M] := by
    rw [add_assoc, Nat.sub_add_cancel hw, Nat.ModEq, Nat.ModEq, Nat.add_mod_left,
      Nat.add_mod_right]
  rw [eq_comm, eq_reduce_iff hM le_rfl, ← hcancel]
  constructor
  · rintro ⟨hmod, -⟩
    exact hmod.add_right w
  · intro h
    exact ⟨Nat.ModEq.add_right_cancel' w h, by omega⟩

/-- A checksum verifies. -/
theorem verifies_reduce (hM : 0 < M) (n : ℕ) : reduce M (n + (M - reduce M n)) = M := by
  by_cases h : n = 0
  · rw [h, reduce_zero, Nat.sub_zero, zero_add, reduce_of_le le_rfl]
  · exact (verifies_iff hM (reduce_le hM n) (by omega)).2 (reduce_modEq n)

end OnesComplement
