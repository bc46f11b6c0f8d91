import Mathlib.MeasureTheory.Function.Floor
import Mathlib.MeasureTheory.Function.JacobianOneDim
import Mathlib.MeasureTheory.Measure.Count
import Mathlib.Probability.ConditionalProbability

/-!
# Laws with a density

* `Density.normalized`: the law with a density that need not be normalised. A constant
  factor does not matter (`Density.normalized_const_mul`), and a density that is cut off
  gives the law under a condition (`Density.normalized_indicator`).
* `Density.map_floor`: the integer part of a number is counted.
* `Density.map_image`: the law of what a function gives that has an inverse, as for numbers that
  are drawn by inversion. With a density, it is `Density.map_normalized_image`.
-/

open MeasureTheory ProbabilityTheory Set

namespace Density

section Normalized

variable {α : Type*} [MeasurableSpace α] {μ : Measure α} {f g : α → ENNReal}

/-- The law with the density `f`, which need not be normalised. -/
noncomputable def normalized (μ : Measure α) (f : α → ENNReal) : Measure α :=
  ProbabilityTheory.cond (μ.withDensity f) univ

theorem normalized_eq_smul (μ : Measure α) (f : α → ENNReal) :
    normalized μ f = (∫⁻ a, f a ∂μ)⁻¹ • μ.withDensity f := by
  rw [normalized, ProbabilityTheory.cond, withDensity_apply f .univ, Measure.restrict_univ,
    Measure.restrict_univ]

theorem normalized_apply (f : α → ENNReal) {s : Set α} (hs : MeasurableSet s) :
    normalized μ f s = (∫⁻ a, f a ∂μ)⁻¹ * ∫⁻ a in s, f a ∂μ := by
  rw [normalized_eq_smul, Measure.smul_apply, withDensity_apply f hs, smul_eq_mul]

theorem normalized_absolutelyContinuous : normalized μ f ≪ μ :=
  cond_absolutelyContinuous.trans (withDensity_absolutelyContinuous μ f)

/-- A constant factor does not matter. -/
theorem normalized_const_mul {c : ENNReal} (h₀ : c ≠ 0) (h : c ≠ ⊤) (f : α → ENNReal) :
    normalized μ (fun a => c * f a) = normalized μ f := by
  ext s hs
  rw [normalized_apply _ hs, normalized_apply _ hs, lintegral_const_mul' c _ h,
    lintegral_const_mul' c _ h, ENNReal.mul_inv (.inl h₀) (.inl h), mul_mul_mul_comm,
    ENNReal.inv_mul_cancel h₀ h, one_mul]

/-- A density on a set. -/
theorem normalized_restrict {s : Set α} (hs : MeasurableSet s) (f : α → ENNReal) :
    normalized μ (s.indicator f) = normalized (μ.restrict s) f := by
  rw [normalized, withDensity_indicator hs, normalized]

/-- A density that is cut off. -/
theorem normalized_indicator {s : Set α} (hs : MeasurableSet s) (f : α → ENNReal) :
    normalized μ (s.indicator f) = cond (μ.withDensity f) s := by
  rw [normalized_eq_smul, lintegral_indicator hs, withDensity_indicator hs, ProbabilityTheory.cond,
    withDensity_apply f hs, restrict_withDensity hs]

/-- A multiple of a density that is cut off. -/
theorem normalized_eq_cond {s : Set α} (hs : MeasurableSet s) {c : ENNReal} (h₀ : c ≠ 0)
    (h : c ≠ ⊤) (hmem : ∀ a ∈ s, f a = c * g a) (hnot : ∀ a ∉ s, f a = 0) :
    normalized μ f = ProbabilityTheory.cond (μ.withDensity g) s := by
  have hf : f = fun a => c * s.indicator g a := by
    funext a
    by_cases ha : a ∈ s
    · rw [indicator_of_mem ha, hmem a ha]
    · rw [indicator_of_notMem ha, hnot a ha, mul_zero]
  rw [hf, normalized_const_mul h₀ h, normalized_indicator hs]

/-- A density that only depends on what a function gives. -/
theorem map_normalized_comp {β : Type*} [MeasurableSpace β] {T : α → β} (hT : Measurable T)
    {k : β → ENNReal} (hk : Measurable k) :
    (normalized μ fun a => k (T a)).map T = normalized (μ.map T) k := by
  ext s hs
  rw [Measure.map_apply hT hs, normalized_apply _ (hT hs), normalized_apply _ hs,
    lintegral_map hk hT, setLIntegral_map hs hk hT]

/-- Integer parts. -/
theorem map_floor : (volume.restrict (Ici (0 : ℝ))).map Nat.floor = Measure.count := by
  refine Measure.ext_of_singleton fun n => ?_
  have hpre : preimage Nat.floor {n} ∩ Ici (0 : ℝ) = Ico (n : ℝ) (n + 1) := by
    ext x
    simp only [mem_inter_iff, mem_preimage, mem_singleton_iff, mem_Ici, mem_Ico]
    constructor
    · rintro ⟨hn, hx⟩
      exact (Nat.floor_eq_iff hx).1 hn
    · intro hx
      have hx₀ : 0 ≤ x := n.cast_nonneg.trans hx.1
      exact ⟨(Nat.floor_eq_iff hx₀).2 hx, hx₀⟩
  rw [Measure.map_apply Nat.measurable_floor (measurableSet_singleton n),
    Measure.restrict_apply (Nat.measurable_floor (measurableSet_singleton n)), hpre,
    Real.volume_Ico, add_sub_cancel_left, ENNReal.ofReal_one, Measure.count_singleton]

end Normalized

/-! ## Inversion -/

section Image

variable {s : Set ℝ} {F F' G : ℝ → ℝ}

/-- What a function gives that has an inverse `F` on `s`, for numbers with a density. -/
theorem map_withDensity_image (hs : MeasurableSet s)
    (hF : ∀ x ∈ s, HasDerivWithinAt F (F' x) s x) (hG : ∀ x ∈ s, G (F x) = x)
    (hmeas : Measurable G) (f : ℝ → ENNReal) :
    ((volume.restrict (F '' s)).withDensity f).map G =
      (volume.restrict s).withDensity fun x => ENNReal.ofReal |F' x| * f (F x) := by
  have hinj : InjOn F s := LeftInvOn.injOn hG
  ext B hB
  have himage : preimage G B ∩ F '' s = F '' (B ∩ s) := by
    ext y
    constructor
    · rintro ⟨hy, x, hx, rfl⟩
      exact ⟨x, ⟨hG x hx ▸ hy, hx⟩, rfl⟩
    · rintro ⟨x, ⟨hxB, hx⟩, rfl⟩
      exact ⟨mem_preimage.2 (by rwa [hG x hx]), x, hx, rfl⟩
  rw [Measure.map_apply hmeas hB, withDensity_apply _ (hmeas hB), withDensity_apply _ hB,
    Measure.restrict_restrict (hmeas hB), Measure.restrict_restrict hB, himage]
  exact lintegral_image_eq_lintegral_abs_deriv_mul (hB.inter hs)
    (fun x hx => (hF x hx.2).mono inter_subset_right) (hinj.mono inter_subset_right) f

/-- For uniform numbers. -/
theorem map_image (hs : MeasurableSet s) (hF : ∀ x ∈ s, HasDerivWithinAt F (F' x) s x)
    (hG : ∀ x ∈ s, G (F x) = x) (hmeas : Measurable G) :
    (volume.restrict (F '' s)).map G =
      (volume.restrict s).withDensity fun x => ENNReal.ofReal |F' x| := by
  have h := map_withDensity_image hs hF hG hmeas 1
  rw [withDensity_one] at h
  simpa only [Pi.one_apply, mul_one] using h

/-- For numbers with a density that need not be normalised. -/
theorem map_normalized_image (hs : MeasurableSet s)
    (hF : ∀ x ∈ s, HasDerivWithinAt F (F' x) s x) (hG : ∀ x ∈ s, G (F x) = x)
    (hmeas : Measurable G) (f : ℝ → ENNReal) :
    (normalized (volume.restrict (F '' s)) f).map G =
      normalized (volume.restrict s) fun x => ENNReal.ofReal |F' x| * f (F x) := by
  rw [normalized_eq_smul, Measure.map_smul, map_withDensity_image hs hF hG hmeas,
    normalized_eq_smul,
    lintegral_image_eq_lintegral_abs_deriv_mul hs hF (LeftInvOn.injOn hG)]

/-- Multiples. -/
theorem map_withDensity_mul {a : ℝ} (ha : a ≠ 0) (f : ℝ → ENNReal) :
    (volume.withDensity f).map (· * a) =
      volume.withDensity fun x => ENNReal.ofReal |a⁻¹| * f (x * a⁻¹) := by
  have himage : (· * a⁻¹) '' (univ : Set ℝ) = univ :=
    image_univ_of_surjective (mul_right_surjective₀ (inv_ne_zero ha))
  have hderiv : ∀ x ∈ (univ : Set ℝ), HasDerivWithinAt (· * a⁻¹) a⁻¹ univ x := fun x _ => by
    simpa using (hasDerivWithinAt_id x univ).mul_const a⁻¹
  have hmap := map_withDensity_image .univ hderiv (fun x _ => inv_mul_cancel_right₀ ha x)
    (measurable_mul_const a) f
  rwa [himage, Measure.restrict_univ] at hmap

/-- Sums with a constant. -/
theorem map_withDensity_add (b : ℝ) (f : ℝ → ENNReal) :
    (volume.withDensity f).map (· + b) = volume.withDensity fun x => f (x - b) := by
  have himage : (· - b) '' (univ : Set ℝ) = univ :=
    image_univ_of_surjective (Equiv.subRight b).surjective
  have hderiv : ∀ x ∈ (univ : Set ℝ), HasDerivWithinAt (· - b) 1 univ x := fun x _ =>
    (hasDerivWithinAt_id x univ).sub_const b
  have hmap := map_withDensity_image .univ hderiv (fun x _ => sub_add_cancel x b)
    (measurable_add_const b) f
  rw [himage, Measure.restrict_univ] at hmap
  simpa only [abs_one, ENNReal.ofReal_one, one_mul] using hmap

end Image

/-! ## Conditions -/

section Cond

variable {α β : Type*} [MeasurableSpace α] [MeasurableSpace β] {μ : Measure α}

/-- A condition on what a function gives. -/
theorem map_cond {e : α → β} (he : MeasurableEmbedding e) (t : Set β) :
    (ProbabilityTheory.cond μ (preimage e t)).map e = ProbabilityTheory.cond (μ.map e) t := by
  rw [ProbabilityTheory.cond, ProbabilityTheory.cond, Measure.map_smul, he.restrict_map,
    he.map_apply]

theorem cond_smul {c : ENNReal} (h₀ : c ≠ 0) (h : c ≠ ⊤) (t : Set α) :
    ProbabilityTheory.cond (c • μ) t = ProbabilityTheory.cond μ t := by
  rw [ProbabilityTheory.cond, ProbabilityTheory.cond, Measure.smul_apply, Measure.restrict_smul,
    smul_smul, smul_eq_mul, ENNReal.mul_inv (.inl h₀) (.inl h), mul_right_comm,
    ENNReal.inv_mul_cancel h₀ h, one_mul]

theorem cond_congr {s t : Set α} (h : s =ᵐ[μ] t) :
    ProbabilityTheory.cond μ s = ProbabilityTheory.cond μ t := by
  rw [ProbabilityTheory.cond, ProbabilityTheory.cond, measure_congr h,
    Measure.restrict_congr_set h]

end Cond

end Density
