import Ditg.Library.Rejection

/-!
# Staircases

Strips of the same area `a` below a density that decreases, as wide as their height at
the edge on the left allows: an edge is followed by one at the distance `a / d z`,
until the density is not positive any more (`Staircase.edge`, `Staircase.Built`).

Two staircases, one on either side of a point, make up the strips of `Staircase.strips`;
an attempt draws from them with the densities of both sides (`Staircase.attempts_strips`).
-/

open MeasureTheory Set

namespace Staircase

variable (d : ℝ → ℝ) (a : ℝ)

/-- The edges of the strips. -/
noncomputable def edge (k : ℕ) : ℝ := (fun z => z + a / d z)^[k] 0

/-- A staircase of `n` strips covers the region below a density. -/
structure Built (n : ℕ) : Prop where
  antitone : Antitone d
  pos : ∀ k < n, 0 < d (edge d a k)
  last : d (edge d a n) ≤ 0

variable {d a} {n : ℕ} (h : Built d a n) (ha : 0 < a)

@[simp] theorem edge_zero : edge d a 0 = 0 := rfl

theorem edge_succ (k : ℕ) : edge d a (k + 1) = edge d a k + a / d (edge d a k) :=
  Function.iterate_succ_apply' ..

include h ha

/-- Edges follow each other. -/
theorem Built.edge_lt {k : ℕ} (hk : k < n) : edge d a k < edge d a (k + 1) := by
  rw [edge_succ]
  exact lt_add_of_pos_right _ (div_pos ha (h.pos k hk))

theorem Built.edge_le {j k : ℕ} (hjk : j ≤ k) (hk : k ≤ n) : edge d a j ≤ edge d a k := by
  induction k, hjk using Nat.le_induction with
  | base => rfl
  | succ k _ ih => exact (ih (Nat.le_of_succ_le hk)).trans (h.edge_lt ha hk).le

theorem Built.edge_nonneg {k : ℕ} (hk : k ≤ n) : 0 ≤ edge d a k :=
  edge_zero (d := d) (a := a) ▸ h.edge_le ha (Nat.zero_le k) hk

/-- All strips have the same area. -/
theorem Built.width_mul_height {k : ℕ} (hk : k < n) :
    |edge d a (k + 1) - edge d a k| * d (edge d a k) = a := by
  have hd := h.pos k hk
  rw [edge_succ, add_sub_cancel_left, abs_of_pos (div_pos ha hd), div_mul_cancel₀ _ hd.ne']

/-- What the strips are about, by strips. -/
theorem Built.sum_lintegral_Ico {B : Set ℝ} (hB : MeasurableSet B) {g : ℝ → ℝ} (hg : Measurable g)
    (f : ℝ → ENNReal) {m : ℕ} (hm : m ≤ n) :
    ∑ k ∈ Finset.range m, ∫⁻ v in B ∩ preimage g (Ico (edge d a k) (edge d a (k + 1))), f v =
      ∫⁻ v in B ∩ preimage g (Ico 0 (edge d a m)), f v := by
  induction m with
  | zero => simp
  | succ m ih =>
    have hunion : B ∩ preimage g (Ico 0 (edge d a (m + 1))) =
        B ∩ preimage g (Ico 0 (edge d a m)) ∪
          B ∩ preimage g (Ico (edge d a m) (edge d a (m + 1))) := by
      rw [← inter_union_distrib_left, ← preimage_union,
        Ico_union_Ico_eq_Ico (h.edge_nonneg ha (Nat.le_of_succ_le hm)) (h.edge_lt ha hm).le]
    have hdisj : Disjoint (B ∩ preimage g (Ico 0 (edge d a m)))
        (B ∩ preimage g (Ico (edge d a m) (edge d a (m + 1)))) := by
      refine disjoint_left.2 ?_
      rintro v ⟨-, hv⟩ ⟨-, hv'⟩
      exact absurd hv.2 (not_lt.2 hv'.1)
    rw [Finset.sum_range_succ, ih (Nat.le_of_succ_le hm), hunion,
      lintegral_union (hB.inter (measurableSet_Ico.preimage hg)) hdisj]

/-- There is nothing below the density behind the last edge. -/
theorem Built.lintegral_Ici {B : Set ℝ} (hB : MeasurableSet B) {g : ℝ → ℝ} (hg : Measurable g) :
    ∫⁻ v in B ∩ preimage g (Ici 0), ENNReal.ofReal (d (g v)) =
      ∑ k : Fin n, ∫⁻ v in B ∩ preimage g (Ico (edge d a k) (edge d a (k + 1))),
        ENNReal.ofReal (d (g v)) := by
  have hn := h.edge_nonneg ha le_rfl
  have hunion : B ∩ preimage g (Ici 0) = B ∩ preimage g (Ico 0 (edge d a n)) ∪
      B ∩ preimage g (Ici (edge d a n)) := by
    rw [← inter_union_distrib_left, ← preimage_union, Ico_union_Ici_eq_Ici hn]
  have hdisj : Disjoint (B ∩ preimage g (Ico 0 (edge d a n)))
      (B ∩ preimage g (Ici (edge d a n))) := by
    refine disjoint_left.2 ?_
    rintro v ⟨-, hv⟩ ⟨-, hv'⟩
    exact absurd hv.2 (not_lt.2 hv')
  have hmeas : MeasurableSet (B ∩ preimage g (Ici (edge d a n))) :=
    hB.inter (measurableSet_Ici.preimage hg)
  have hzero : ∀ v ∈ B ∩ preimage g (Ici (edge d a n)), ENNReal.ofReal (d (g v)) = 0 := fun v hv =>
    ENNReal.ofReal_of_nonpos ((h.antitone hv.2).trans h.last)
  rw [hunion, lintegral_union hmeas hdisj, setLIntegral_congr_fun hmeas hzero, lintegral_zero,
    add_zero, ← h.sum_lintegral_Ico ha hB hg _ le_rfl, Finset.sum_range]

omit ha in
/-- In a strip, the density is between what it is at the edges. -/
theorem Built.le_of_mem {k : ℕ} {z : ℝ} (hz : z ∈ Ico (edge d a k) (edge d a (k + 1))) :
    d (edge d a (k + 1)) ≤ d z ∧ d z ≤ d (edge d a k) :=
  ⟨h.antitone hz.2.le, h.antitone hz.1⟩

omit h ha

/-! ## Both sides of a point -/

theorem lintegral_ofReal_ne_zero {f : ℝ → ℝ} {x y c : ℝ} (hxy : x < y) (hc : 0 < c)
    (hf : ∀ v ∈ Ioo x y, c ≤ f v) : ∫⁻ v, ENNReal.ofReal (f v) ≠ 0 := by
  have hconst : ∫⁻ _ in Ioo x y, ENNReal.ofReal c ≤ ∫⁻ v, ENNReal.ofReal (f v) :=
    (setLIntegral_mono' measurableSet_Ioo fun v hv => ENNReal.ofReal_le_ofReal (hf v hv)).trans
      (setLIntegral_le_lintegral _ _)
  rw [setLIntegral_const, Real.volume_Ioo] at hconst
  refine ne_of_gt (lt_of_lt_of_le (ENNReal.mul_pos ?_ ?_) hconst)
  · exact (ENNReal.ofReal_pos.2 hc).ne'
  · exact (ENNReal.ofReal_pos.2 (sub_pos.2 hxy)).ne'

section TwoSided

variable {d₁ d₂ : ℝ → ℝ} {n₁ n₂ : ℕ}

/-- The densities on both sides of `m`. -/
noncomputable def twoSided (m : ℝ) (d₁ d₂ : ℝ → ℝ) (v : ℝ) : ℝ :=
  if m ≤ v then d₁ (v - m) else d₂ (m - v)

/-- The density of a strip. -/
def sideDensity (m : ℝ) (d₁ d₂ : ℝ → ℝ) : Fin n₁ ⊕ Fin n₂ → ℝ → ℝ :=
  Sum.elim (fun _ v => d₁ (v - m)) fun _ v => d₂ (m - v)

/-- The strips of two staircases. -/
noncomputable def strips (m : ℝ) (ha : 0 < a) (h₁ : Built d₁ a n₁) (h₂ : Built d₂ a n₂) :
    Strips (Fin n₁ ⊕ Fin n₂) where
  x := Sum.elim (fun k => m + edge d₁ a k) fun k => m - edge d₂ a k
  w := Sum.elim (fun k => edge d₁ a (k + 1) - edge d₁ a k) fun k => edge d₂ a k - edge d₂ a (k + 1)
  h := Sum.elim (fun k => d₁ (edge d₁ a k)) fun k => d₂ (edge d₂ a k)
  area := a
  area_pos := ha
  h_pos := by
    rintro (k | k)
    · exact h₁.pos k k.isLt
    · exact h₂.pos k k.isLt
  abs_w_mul_h := by
    rintro (k | k)
    · exact h₁.width_mul_height ha k.isLt
    · exact (congrArg (· * _) (abs_sub_comm _ _)).trans (h₂.width_mul_height ha k.isLt)

variable (m : ℝ) (ha : 0 < a) (h₁ : Built d₁ a n₁) (h₂ : Built d₂ a n₂)

theorem interval_inl (k : Fin n₁) : (strips m ha h₁ h₂).interval (.inl k) =
    preimage (fun v => v - m) (Ico (edge d₁ a k) (edge d₁ a (k + 1))) := by
  have hpos := sub_pos.2 (h₁.edge_lt ha k.isLt)
  ext v
  simp only [Strips.interval, strips, Sum.elim_inl, mem_ofPred_eq, mem_Ico, mem_preimage,
    le_div_iff₀ hpos, div_lt_iff₀ hpos]
  constructor <;> rintro ⟨h, h'⟩ <;> constructor <;> linarith

theorem interval_inr (k : Fin n₂) : (strips m ha h₁ h₂).interval (.inr k) =
    preimage (fun v => m - v) (Ico (edge d₂ a k) (edge d₂ a (k + 1))) := by
  have hneg := sub_neg.2 (h₂.edge_lt ha k.isLt)
  ext v
  simp only [Strips.interval, strips, Sum.elim_inr, mem_ofPred_eq, mem_Ico, mem_preimage,
    le_div_iff_of_neg hneg, div_lt_iff_of_neg hneg]
  constructor <;> rintro ⟨h, h'⟩ <;> constructor <;> linarith

theorem density_le_height (i : Fin n₁ ⊕ Fin n₂) (v : ℝ)
    (hv : v ∈ (strips m ha h₁ h₂).interval i) :
    sideDensity m d₁ d₂ i v ≤ (strips m ha h₁ h₂).h i := by
  rcases i with k | k
  · rw [interval_inl] at hv
    exact (h₁.le_of_mem hv).2
  · rw [interval_inr] at hv
    exact (h₂.le_of_mem hv).2

/-- The strips cover the region below the densities. -/
theorem sum_lintegral_strips {B : Set ℝ} (hB : MeasurableSet B) :
    ∑ i, ∫⁻ v in B ∩ (strips m ha h₁ h₂).interval i, ENNReal.ofReal (sideDensity m d₁ d₂ i v) =
      ∫⁻ v in B, ENNReal.ofReal (twoSided m d₁ d₂ v) := by
  have hIci : preimage (fun v => v - m) (Ici 0) = Ici m := by
    ext v
    simp
  have hIic : preimage (fun v => m - v) (Ici 0) = Iic m := by
    ext v
    simp
  have hinl := h₁.lintegral_Ici ha hB (g := fun v => v - m) (by fun_prop)
  have hinr := h₂.lintegral_Ici ha hB (g := fun v => m - v) (by fun_prop)
  rw [hIci] at hinl
  rw [hIic] at hinr
  rw [Fintype.sum_sum_type]
  simp only [interval_inl, interval_inr, sideDensity, Sum.elim_inl, Sum.elim_inr]
  rw [← hinl, ← hinr, ← lintegral_inter_add_sdiff _ B (measurableSet_Ici (a := m))]
  congr 1
  · refine setLIntegral_congr_fun (hB.inter measurableSet_Ici) fun v hv => ?_
    have hle : m ≤ v := hv.2
    rw [twoSided, if_pos hle]
  · have hlt : B \ Ici m = B ∩ Iio m := by
      ext v
      simp
    have hae : (B ∩ Iic m : Set ℝ) =ᵐ[volume] (B ∩ Iio m : Set ℝ) :=
      (Filter.EventuallyEq.refl _ _).inter Iio_ae_eq_Iic.symm
    rw [setLIntegral_congr hae, hlt]
    refine setLIntegral_congr_fun (hB.inter measurableSet_Iio) fun v hv => ?_
    have hlt : ¬m ≤ v := not_le.2 hv.2
    rw [twoSided, if_neg hlt]

/-- There is something below the densities, if there is more than one strip on a side. -/
theorem lintegral_twoSided_ne_zero (ha : 0 < a) (h₁ : Built d₁ a n₁) (h₂ : Built d₂ a n₂)
    (h : 1 < n₁ ∨ 1 < n₂) :
    ∫⁻ v, ENNReal.ofReal (twoSided m d₁ d₂ v) ≠ 0 := by
  rcases h with hn | hn
  · have hlt := h₁.edge_lt ha (Nat.zero_lt_of_lt hn)
    refine lintegral_ofReal_ne_zero (lt_add_of_pos_right m hlt) (h₁.pos 1 hn) fun v hv => ?_
    rw [twoSided, if_pos hv.1.le]
    exact h₁.antitone (sub_le_iff_le_add'.2 hv.2.le)
  · have hlt := h₂.edge_lt ha (Nat.zero_lt_of_lt hn)
    refine lintegral_ofReal_ne_zero (sub_lt_self m hlt) (h₂.pos 1 hn) fun v hv => ?_
    rw [twoSided, if_neg (not_le.2 hv.2)]
    exact h₂.antitone (sub_le_comm.1 hv.1.le)

/-- Three uniform numbers. -/
noncomputable def uniformCube : Measure (ℝ × ℝ × ℝ) := volume.restrict Strips.cube

theorem measurableSet_cube : MeasurableSet Strips.cube :=
  measurableSet_Ico.prod (measurableSet_Ico.prod measurableSet_Ico)

instance uniformCube_isProbabilityMeasure : IsProbabilityMeasure uniformCube where
  measure_univ := by
    simp [uniformCube, Strips.cube, Measure.volume_eq_prod, Measure.prod_prod]

/-- What an attempt gives, if all strips are chosen with the same probability. -/
theorem attempts_strips (hn : 1 < n₁ ∨ 1 < n₂) {c : ℝ → Option (Fin n₁ ⊕ Fin n₂)} {q : ℝ}
    (hq₀ : 0 < q) (hc : ∀ i, MeasurableSet {r | c r = some i})
    (hq : ∀ i, volume {r ∈ Ico (0 : ℝ) 1 | c r = some i} = ENNReal.ofReal q) :
    Rejection.Attempts uniformCube ((strips m ha h₁ h₂).attempt c (sideDensity m d₁ d₂))
      (ENNReal.ofReal (q / a)) fun v => ENNReal.ofReal (twoSided m d₁ d₂ v) := by
  have hd : ∀ i : Fin n₁ ⊕ Fin n₂, Measurable (sideDensity m d₁ d₂ i) := by
    rintro (k | k)
    · exact h₁.antitone.measurable.comp (measurable_id.sub_const m)
    · exact h₂.antitone.measurable.comp (measurable_const.sub measurable_id)
  refine ⟨lintegral_twoSided_ne_zero m ha h₁ h₂ hn, (ENNReal.ofReal_pos.2 (div_pos hq₀ ha)).ne',
    ENNReal.ofReal_ne_top, Strips.measurableSet_gives _ hc hd, fun hB => ?_⟩
  rw [uniformCube, Measure.restrict_apply' measurableSet_cube,
    Strips.volume_attempt _ hc hq hd hB (density_le_height m ha h₁ h₂),
    sum_lintegral_strips m ha h₁ h₂ hB, div_eq_mul_inv, ENNReal.ofReal_mul hq₀.le]
  rfl

end TwoSided

/-! ## The choice of a strip -/

section Choice

open Rejection

variable {n₁ n₂ : ℕ}

/-- One of the strips on both sides, all alike. -/
noncomputable def columns (n₁ n₂ : ℕ) (r : ℝ) : Option (Fin n₁ ⊕ Fin n₂) :=
  (column (n₁ + n₂) r).map finSumFinEquiv.symm

theorem columns_eq_some {r : ℝ} {i : Fin n₁ ⊕ Fin n₂} :
    columns n₁ n₂ r = some i ↔ column (n₁ + n₂) r = some (finSumFinEquiv i) := by
  rw [columns, Option.map_eq_some_iff]
  constructor
  · rintro ⟨k, hk, rfl⟩
    rw [hk, Equiv.apply_symm_apply]
  · exact fun h => ⟨_, h, Equiv.symm_apply_apply _ _⟩

theorem columns_zero {n : ℕ} {r : ℝ} {k : Fin n} :
    columns n 0 r = some (.inl k) ↔ column n r = some k := by
  rw [columns_eq_some, finSumFinEquiv_apply_left]
  rfl

theorem measurableSet_columns (i : Fin n₁ ⊕ Fin n₂) :
    MeasurableSet {r | columns n₁ n₂ r = some i} := by
  simp only [columns_eq_some]
  exact measurableSet_column _ _ measurable_id

theorem volume_columns (i : Fin n₁ ⊕ Fin n₂) :
    volume {r ∈ Ico (0 : ℝ) 1 | columns n₁ n₂ r = some i} =
      ENNReal.ofReal (1 / (n₁ + n₂ : ℕ)) := by
  simp only [columns_eq_some]
  exact volume_column _ _

/-- One of the strips on both sides, if there are as many on either: what is above 1/2
    chooses a strip on the left. -/
noncomputable def mirrored (n : ℕ) (r : ℝ) : Option (Fin n ⊕ Fin n) :=
  if 1 / 2 < r then (column n (2 * (1 - r))).map .inr else (column n (2 * r)).map .inl

theorem mirrored_inl {n : ℕ} {r : ℝ} {k : Fin n} :
    mirrored n r = some (.inl k) ↔ r ≤ 1 / 2 ∧ column n (2 * r) = some k := by
  rw [mirrored, ← not_lt]
  split_ifs with h <;> simp only [h, not_true, not_false_eq_true, Option.map_eq_some_iff] <;> simp

theorem mirrored_inr {n : ℕ} {r : ℝ} {k : Fin n} :
    mirrored n r = some (.inr k) ↔ 1 / 2 < r ∧ column n (2 * (1 - r)) = some k := by
  rw [mirrored]
  split_ifs with h <;> simp only [h, Option.map_eq_some_iff] <;> simp

theorem measurableSet_mirrored {n : ℕ} (i : Fin n ⊕ Fin n) :
    MeasurableSet {r | mirrored n r = some i} := by
  rcases i with k | k
  · simp only [mirrored_inl]
    exact measurableSet_Iic.inter (measurableSet_column n k (by fun_prop))
  · simp only [mirrored_inr]
    exact measurableSet_Ioi.inter (measurableSet_column n k (by fun_prop))

/-- A strip on one side has half the probability that it would have alone. -/
theorem volume_mirrored {n : ℕ} (i : Fin n ⊕ Fin n) :
    volume {r ∈ Ico (0 : ℝ) 1 | mirrored n r = some i} = ENNReal.ofReal (1 / (2 * n)) := by
  rcases i with k | k
  all_goals
    have hn : (0 : ℝ) < n := Nat.cast_pos.2 k.pos
    have hk : ((k : ℕ) : ℝ) + 1 ≤ n := by exact_mod_cast k.isLt
    have hk₀ : (0 : ℝ) ≤ (k : ℕ) / n := by positivity
    have hk₁ : (((k : ℕ) : ℝ) + 1) / n ≤ 1 := (div_le_one hn).2 hk
    have hwidth : (((k : ℕ) : ℝ) + 1) / n / 2 - (k : ℕ) / n / 2 = 1 / (2 * n) := by
      field_simp
      ring
  · have heq : {r ∈ Ico (0 : ℝ) 1 | mirrored n r = some (.inl k)} =
        Ico ((k : ℕ) / n / 2 : ℝ) (((k : ℕ) + 1) / n / 2) := by
      ext r
      simp only [mem_ofPred_eq, mirrored_inl]
      constructor
      · rintro ⟨hr, -, hcol⟩
        have hmem := (column_eq_some (by linarith [hr.1])).1 hcol
        constructor <;> linarith [hmem.1, hmem.2]
      · intro hr
        have hr₀ : 0 ≤ r := by linarith [hr.1]
        refine ⟨⟨hr₀, by linarith [hr.2]⟩, by linarith [hr.2],
          (column_eq_some (by linarith)).2 ⟨?_, ?_⟩⟩
        · linarith [hr.1]
        · linarith [hr.2]
    rw [heq, Real.volume_Ico, hwidth]
  · have hsub : {r ∈ Ico (0 : ℝ) 1 | mirrored n r = some (.inr k)} ⊆
        Ioc (1 - (((k : ℕ) : ℝ) + 1) / n / 2) (1 - (k : ℕ) / n / 2) := by
      rintro r ⟨hr, hcol⟩
      obtain ⟨-, hcol⟩ := mirrored_inr.1 hcol
      have hmem := (column_eq_some (by linarith [hr.2])).1 hcol
      constructor <;> linarith [hmem.1, hmem.2]
    have hsup : Ioo (1 - (((k : ℕ) : ℝ) + 1) / n / 2) (1 - (k : ℕ) / n / 2) ⊆
        {r ∈ Ico (0 : ℝ) 1 | mirrored n r = some (.inr k)} := by
      rintro r ⟨hr, hr'⟩
      refine ⟨⟨by linarith, by linarith⟩, mirrored_inr.2 ⟨by linarith, ?_⟩⟩
      refine (column_eq_some (by linarith)).2 ⟨?_, ?_⟩ <;> linarith
    refine le_antisymm ((measure_mono hsub).trans_eq ?_)
      (le_trans (le_of_eq ?_) (measure_mono hsup))
    · rw [Real.volume_Ioc, sub_sub_sub_cancel_left, hwidth]
    · rw [Real.volume_Ioo, sub_sub_sub_cancel_left, hwidth]

end Choice

end Staircase
