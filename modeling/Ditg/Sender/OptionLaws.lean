import Ditg.Newran.Draws

/-!
# What the options ask for

The laws of the times between the packets, of their sizes and of the periods of a bursty
flow, for the options they are given with (`intArriv`, `pktSize`, `period`): those that are named
by the letters (`DistroLetter.law`), for the parameters of the options or, where the parameters
are packets per second, for the milliseconds between two packets. Without any packets per second,
which `-O` can draw, the next packet is never sent.

* `intArriv_law`, `pktSize_law`, `period_law`: the random variables of the options have these laws.
* `flow_draws`: what a flow draws with them is independent.
* Where a random variable is cut off, its law is, too.
* The parameters of `-W` are the scale and the shape, in this order.
* Most sizes, and the periods that do not change, are read with `atoi`, which leaves out what
  follows the point (`Source.Whole`).

Doubles are the reals here.
-/

namespace Ditg

open MeasureTheory ProbabilityTheory Set Density Sampler Memory Stdlib

/-- The law with the name of a letter, for two parameters. -/
noncomputable def DistroLetter.law (x y : ℝ) : DistroLetter → Measure ℝ
  | .C => Measure.dirac x
  | .U => cond volume (Icc x y)
  | .E => expMeasure (1 / x)
  | .V => paretoMeasure y x
  | .Y => cond (cauchyMeasure x y.toNNReal) {v | |v - x| ≤ cauchyBound * y}
  | .N => cond (gaussianReal x (y ^ 2).toNNReal) {v | |v - x| ≤ normalBound * |y|}
  | .O => (RandomVar.poisson x).law
  | .G => cond (gammaMeasure x (1 / y)) {v | v / y ∈ gammaRange x}
  | .W => (expMeasure 1).map fun v => x * v ^ (1 / y)

/-! ## Multiples and sums -/

theorem gammaMeasure_map_mul (a : ℝ) {y : ℝ} (hy : 0 < y) :
    (gammaMeasure a 1).map (· * y) = gammaMeasure a (1 / y) := by
  rw [gammaMeasure, map_withDensity_mul hy.ne', gammaMeasure]
  congr 1
  funext v
  have hinv : 0 < y⁻¹ := inv_pos.2 hy
  rw [gammaPDF, gammaPDF, ← ENNReal.ofReal_mul (abs_nonneg _), abs_of_pos hinv]
  congr 1
  by_cases hv : 0 ≤ v
  · have hv' : 0 ≤ v * y⁻¹ := mul_nonneg hv hinv.le
    rw [gammaPDFReal, gammaPDFReal, if_pos hv, if_pos hv', Real.one_rpow,
      Real.mul_rpow hv hinv.le, one_div, Real.rpow_sub_one hinv.ne']
    field_simp
  · have hv' : ¬0 ≤ v * y⁻¹ := not_le.2 (mul_neg_of_neg_of_pos (not_le.1 hv) hinv)
    rw [gammaPDFReal, gammaPDFReal, if_neg hv, if_neg hv', mul_zero]

theorem expMeasure_map_mul {y : ℝ} (hy : 0 < y) :
    (expMeasure 1).map (· * y) = expMeasure (1 / y) :=
  gammaMeasure_map_mul 1 hy

theorem paretoMeasure_map_mul {shape y : ℝ} (hy : 0 < y) :
    (paretoMeasure 1 shape).map (· * y) = paretoMeasure y shape := by
  rw [paretoMeasure, map_withDensity_mul hy.ne', paretoMeasure]
  congr 1
  funext v
  have hinv : 0 < y⁻¹ := inv_pos.2 hy
  rw [paretoPDF, paretoPDF, ← ENNReal.ofReal_mul (abs_nonneg _), abs_of_pos hinv]
  congr 1
  have hle : 1 ≤ v * y⁻¹ ↔ y ≤ v := by rw [← div_eq_mul_inv, one_le_div hy]
  simp only [paretoPDFReal, hle]
  split_ifs with hv
  · have hv₀ : 0 < v := hy.trans_le hv
    rw [Real.one_rpow, mul_one, Real.mul_rpow hv₀.le hinv.le, Real.inv_rpow hy.le,
      Real.rpow_neg hy.le, inv_inv, Real.rpow_add_one hy.ne']
    field_simp
  · rw [mul_zero]

theorem cauchyMeasure_map {x y : ℝ} (hy : 0 < y) :
    ((cauchyMeasure 0 1).map (· * y)).map (· + x) = cauchyMeasure x y.toNNReal := by
  have hy' : y.toNNReal ≠ 0 := (Real.toNNReal_pos.2 hy).ne'
  rw [cauchyMeasure_of_scale_ne_zero 0 one_ne_zero, map_withDensity_mul hy.ne',
    map_withDensity_add, cauchyMeasure_of_scale_ne_zero x hy']
  congr 1
  funext v
  rw [cauchyPDF, cauchyPDF, ← ENNReal.ofReal_mul (abs_nonneg _), cauchyPDFReal_def',
    cauchyPDFReal_def', Real.coe_toNNReal y hy.le, abs_of_pos (inv_pos.2 hy)]
  congr 1
  simp only [NNReal.coe_one, inv_one, mul_one, sub_zero, div_eq_mul_inv, NNReal.coe_inv,
    Real.coe_toNNReal y hy.le]
  ring

theorem gaussianReal_map (x y : ℝ) :
    ((gaussianReal 0 1).map (· * y)).map (· + x) = gaussianReal x (y ^ 2).toNNReal := by
  rw [gaussianReal_map_mul_const, gaussianReal_map_add_const, mul_zero, zero_add, mul_one,
    Real.toNNReal_of_nonneg (sq_nonneg y)]

theorem volume_map (a : ℝ) {b : ℝ} (hb : b ≠ 0) :
    ((volume : Measure ℝ).map (· * b)).map (· + a) = ENNReal.ofReal |b⁻¹| • volume := by
  rw [Real.map_volume_mul_right hb, Measure.map_smul, map_add_right_eq_self]

/-! ## The variables of the options -/

/-- A multiple of a value under a condition, and a constant. -/
theorem map_map_cond (μ : Measure ℝ) (a : ℝ) {b : ℝ} (hb : b ≠ 0) {s t : Set ℝ}
    (h : ∀ v, v ∈ s ↔ v * b + a ∈ t) :
    ((cond μ s).map (· * b)).map (· + a) = cond ((μ.map (· * b)).map (· + a)) t := by
  have hs : s = preimage (· * b) (preimage (· + a) t) := ext h
  rw [hs, map_cond (measurableEmbedding_mulRight₀ hb), map_cond (measurableEmbedding_addRight a)]

theorem law_constant (a y : ℝ) : (scaledConstant a).law = DistroLetter.C.law a y := by
  rw [scaledConstant, RandomVar.law, RandomVar.law, Measure.map_dirac' (measurable_mul_const a),
    Int.cast_one, one_mul, DistroLetter.law]

theorem unitLaw_eq_cond : unitLaw = cond volume (Ico 0 1) := by
  rw [unitLaw, ProbabilityTheory.cond, Real.volume_Ico, sub_zero, ENNReal.ofReal_one, inv_one,
    one_smul]

theorem law_uniform {a b : ℝ} (h : a < b) : (RandomVar.shifted (.scaled (b - a) .uniform) a).law =
    DistroLetter.U.law a b := by
  have hb : 0 < b - a := sub_pos.2 h
  have hmem (v : ℝ) : v ∈ Ico (0 : ℝ) 1 ↔ v * (b - a) + a ∈ Ico a b := by
    rw [mem_Ico, mem_Ico, le_add_iff_nonneg_left, mul_nonneg_iff_of_pos_right hb,
      ← lt_sub_iff_add_lt, mul_lt_iff_lt_one_left hb]
  have hb' : ENNReal.ofReal |(b - a)⁻¹| ≠ 0 :=
    (ENNReal.ofReal_pos.2 (abs_pos.2 (inv_ne_zero hb.ne'))).ne'
  rw [RandomVar.law, RandomVar.law, RandomVar.law, unitLaw_eq_cond, map_map_cond _ _ hb.ne' hmem,
    volume_map a hb.ne', cond_smul hb' ENNReal.ofReal_ne_top, cond_congr Ico_ae_eq_Icc,
    DistroLetter.law]

theorem law_uniform_neg {a b : ℝ} (h : a < b) :
    (RandomVar.shifted (.scaled (a - b) .uniform) b).law = DistroLetter.U.law a b := by
  have hb : a - b < 0 := sub_neg.2 h
  have hmem (v : ℝ) : v ∈ Ico (0 : ℝ) 1 ↔ v * (a - b) + b ∈ Ioc a b := by
    rw [mem_Ico, mem_Ioc]
    constructor
    · rintro ⟨hv₀, hv₁⟩
      constructor <;> nlinarith
    · rintro ⟨hv₁, hv₀⟩
      constructor <;> nlinarith
  have hb' : ENNReal.ofReal |(a - b)⁻¹| ≠ 0 :=
    (ENNReal.ofReal_pos.2 (abs_pos.2 (inv_ne_zero hb.ne))).ne'
  rw [RandomVar.law, RandomVar.law, RandomVar.law, unitLaw_eq_cond, map_map_cond _ _ hb.ne hmem,
    volume_map b hb.ne, cond_smul hb' ENNReal.ofReal_ne_top, cond_congr Ioc_ae_eq_Icc,
    DistroLetter.law]

theorem law_exponential {a : ℝ} (h : 0 < a) (y : ℝ) :
    (RandomVar.scaled a standardExponential).law = DistroLetter.E.law a y := by
  rw [standardExponential, RandomVar.law, RandomVar.law, Int.cast_one, div_one,
    expMeasure_map_mul h, DistroLetter.law]

theorem law_pareto {x y : ℝ} (h : 0 < y) :
    (RandomVar.scaled y (.pareto x)).law = DistroLetter.V.law x y := by
  rw [RandomVar.law, RandomVar.law, paretoMeasure_map_mul h, DistroLetter.law]

theorem law_cauchy {x y : ℝ} (h : 0 < y) :
    (RandomVar.shifted (.scaled y .cauchy) x).law = DistroLetter.Y.law x y := by
  have hmem (v : ℝ) : v ∈ Icc (-cauchyBound) cauchyBound ↔
      v * y + x ∈ {v | |v - x| ≤ cauchyBound * y} := by
    rw [mem_Icc, ← abs_le, mem_ofPred_eq, add_sub_cancel_right, abs_mul, abs_of_pos h,
      mul_le_mul_iff_left₀ h]
  rw [RandomVar.law, RandomVar.law, RandomVar.law, cauchyLaw, map_map_cond _ _ h.ne' hmem,
    cauchyMeasure_map h, DistroLetter.law]

instance normalLaw_isProbabilityMeasure : IsProbabilityMeasure normalLaw := by
  refine cond_isProbabilityMeasure fun hzero => ?_
  have hvolume := gaussianReal_absolutelyContinuous' 0 one_ne_zero hzero
  norm_num [normalBound] at hvolume

theorem law_normal (x y : ℝ) :
    (RandomVar.shifted (.scaled y .normal) x).law = DistroLetter.N.law x y := by
  rw [RandomVar.law, RandomVar.law, RandomVar.law, DistroLetter.law]
  by_cases hy : y = 0
  · -- There is nothing to draw.
    have hconst : (fun v : ℝ => v * y) = fun _ => 0 := by simp only [hy, mul_zero]
    have hmem : {v | |v - x| ≤ normalBound * |y|} = {x} := by
      ext v
      rw [mem_ofPred_eq, hy, abs_zero, mul_zero, abs_nonpos_iff, sub_eq_zero, mem_singleton_iff]
    have hzero : (y ^ 2).toNNReal = 0 := by rw [hy, sq, mul_zero, Real.toNNReal_zero]
    rw [hconst, Measure.map_const, measure_univ, one_smul,
      Measure.map_dirac' (measurable_add_const x), zero_add, hmem, hzero, gaussianReal_zero_var,
      ProbabilityTheory.cond, restrict_dirac, Measure.dirac_apply_of_mem (mem_singleton x),
      if_pos (mem_singleton x), inv_one, one_smul]
  · have hmem (v : ℝ) : v ∈ Icc (-normalBound) normalBound ↔
        v * y + x ∈ {v | |v - x| ≤ normalBound * |y|} := by
      rw [mem_Icc, ← abs_le, mem_ofPred_eq, add_sub_cancel_right, abs_mul,
        mul_le_mul_iff_left₀ (abs_pos.2 hy)]
    rw [normalLaw, map_map_cond _ _ hy hmem, gaussianReal_map]

theorem law_gamma {x y : ℝ} (h : 0 < y) :
    (RandomVar.scaled y (.gamma x)).law = DistroLetter.G.law x y := by
  have hpre : gammaRange x = preimage (· * y) {v | v / y ∈ gammaRange x} := by
    ext v
    rw [mem_preimage, mem_ofPred_eq, mul_div_cancel_right₀ v h.ne']
  rw [RandomVar.law, RandomVar.law, gammaLaw, hpre, map_cond (measurableEmbedding_mulRight₀ h.ne'),
    gammaMeasure_map_mul x h, DistroLetter.law]

theorem law_scaled_one (rv : RandomVar ℝ) : (RandomVar.scaled ((1 : ℤ) : ℝ) rv).law = rv.law := by
  have hid : (fun v : ℝ => v * ((1 : ℤ) : ℝ)) = id := by
    funext v
    rw [Int.cast_one, mul_one, id]
  rw [RandomVar.law, hid, Measure.map_id]

theorem law_weibull (x y : ℝ) :
    (RandomVar.scaled ((1 : ℤ) : ℝ) (.weibull x y)).law = DistroLetter.W.law x y := by
  rw [law_scaled_one, RandomVar.law, DistroLetter.law]

/-! ## The options -/

section Options

variable (strtod : Argument → ℝ)

/-- An argument of an option. There is none behind the last one. -/
def argument (args : List Argument) (i : ℕ) : Argument := args.getD i []

/-- The law of the times that an option asks for, which gives the packets per second for some
    letters. -/
noncomputable def timesLaw (args : List Argument) : DistroLetter → Measure (WithTop ℝ)
  | .C => (DistroLetter.C.law (1000 / strtod (argument args 0)) 0).map (↑)
  | .U => (DistroLetter.U.law (1000 / strtod (argument args 1))
      (1000 / strtod (argument args 0))).map (↑)
  | .E => (DistroLetter.E.law (1000 / strtod (argument args 0)) 0).map (↑)
  | .O => (DistroLetter.O.law (strtod (argument args 0)) 0).map
      fun n => if n = 0 then ⊤ else ((1000 / n : ℝ) : WithTop ℝ)
  | letter => (letter.law (strtod (argument args 0)) (strtod (argument args 1))).map (↑)

/-- The law of the sizes, and of the periods, that an option asks for. -/
noncomputable def optionLaw (args : List Argument) (letter : DistroLetter) : Measure ℝ :=
  letter.law (strtod (argument args 0)) (strtod (argument args 1))

theorem DistroReader.of_run_one {read : Argument → Option (Distribution ℝ)} {args : List Argument}
    {d : Distribution ℝ} (h : (one read).run args = some d) : read (argument args 0) = some d := by
  cases args with
  | nil => cases h
  | cons x args => exact h

theorem DistroReader.of_run_two {read : Argument → Argument → Option (Distribution ℝ)}
    {args : List Argument} {d : Distribution ℝ} (h : (two read).run args = some d) :
    read (argument args 0) (argument args 1) = some d := by
  rcases args with _ | ⟨x, _ | ⟨y, args⟩⟩
  · cases h
  · cases h
  · exact h

/-- The parameters of a distribution have passed its check. -/
theorem of_guard {p : Prop} [Decidable p] {d d' : Distribution ℝ}
    (h : (if p then none else some d') = some d) : ¬p ∧ d' = d := by
  split_ifs at h with hp
  exact ⟨hp, Option.some_inj.1 h⟩

theorem pos_of_not_le {x : ℝ} (h : ¬CDouble.Le x ((0 : ℤ) : ℝ)) : 0 < x := by
  rw [DiscreteGen.le_iff, Int.cast_zero] at h
  exact not_le.1 h

theorem lt_of_not_le {x y : ℝ} (h : ¬CDouble.Le x y) : y < x := not_le.1 (mt DiscreteGen.le_iff.2 h)

variable {strtod}

theorem intArriv_law {letter : DistroLetter} {args : List Argument} {d : Distribution ℝ}
    (h : (intArriv strtod letter).run args = some d) :
    d.random.valueLaw = timesLaw strtod args letter := by
  cases letter with
  | C =>
    obtain ⟨-, rfl⟩ := of_guard (DistroReader.of_run_one h)
    simp only [Int.cast_ofNat]
    exact congrArg (Measure.map _) (law_constant _ 0)
  | U =>
    obtain ⟨hxy, rfl⟩ := of_guard (DistroReader.of_run_two h)
    obtain ⟨hx, hlt⟩ := not_or.1 hxy
    simp only [Int.cast_ofNat]
    exact congrArg (Measure.map _) (law_uniform
      (div_lt_div_of_pos_left (by norm_num) (pos_of_not_le hx) (lt_of_not_le hlt)))
  | E =>
    obtain ⟨hx, rfl⟩ := of_guard (DistroReader.of_run_one h)
    simp only [Int.cast_ofNat]
    exact congrArg (Measure.map _) (law_exponential (div_pos (by norm_num) (pos_of_not_le hx)) 0)
  | V =>
    obtain ⟨hxy, rfl⟩ := of_guard (DistroReader.of_run_two h)
    exact congrArg (Measure.map _) (law_pareto (pos_of_not_le (not_or.1 hxy).2))
  | Y =>
    obtain ⟨hy, rfl⟩ := of_guard (DistroReader.of_run_two h)
    exact congrArg (Measure.map _) (law_cauchy (pos_of_not_le hy))
  | N =>
    obtain rfl := Option.some_inj.1 (DistroReader.of_run_two h)
    exact congrArg (Measure.map _) (law_normal _ _)
  | O =>
    obtain ⟨-, rfl⟩ := of_guard (DistroReader.of_run_one h)
    have hquotient : quotient (((1000 : ℤ) : ℝ)) =
        fun n : ℝ => if n = 0 then ⊤ else ((1000 / n : ℝ) : WithTop ℝ) := by
      funext n
      rw [quotient, Int.cast_zero, Int.cast_ofNat]
    exact congrArg (fun k => Measure.map k _) hquotient
  | G =>
    obtain ⟨hxy, rfl⟩ := of_guard (DistroReader.of_run_two h)
    exact congrArg (Measure.map _) (law_gamma (pos_of_not_le (not_or.1 hxy).2))
  | W =>
    obtain ⟨-, rfl⟩ := of_guard (DistroReader.of_run_two h)
    exact congrArg (Measure.map _) (law_weibull _ _)

/-- The numbers that the code reads as integers are integers. -/
def WholeNumbers (strtod : Argument → ℝ) (args : List Argument) (arity : ℕ) : Prop :=
  ∀ i < arity, (atoi (argument args i) : ℝ) = strtod (argument args i)

/-- The letters whose sizes are read as integers. -/
def DistroLetter.atoiSize (letter : DistroLetter) : Bool := letter ∉ [.V, .G, .W]

theorem pktSize_law {letter : DistroLetter} {args : List Argument} {d : Distribution ℝ}
    (hwhole : letter.atoiSize → WholeNumbers strtod args (pktSize strtod letter).arity)
    (h : (pktSize strtod letter).run args = some d) :
    d.random.valueLaw = (optionLaw strtod args letter).map (↑) := by
  rw [optionLaw]
  cases letter with
  | C =>
    obtain ⟨-, rfl⟩ := of_guard (DistroReader.of_run_one h)
    rw [← hwhole rfl 0 Nat.one_pos]
    exact congrArg (Measure.map _) (law_constant _ _)
  | U =>
    obtain ⟨hxy, rfl⟩ := of_guard (DistroReader.of_run_two h)
    rw [← hwhole rfl 0 Nat.two_pos, ← hwhole rfl 1 Nat.one_lt_two]
    exact congrArg (Measure.map _) (law_uniform (Int.cast_lt.2 (not_le.1 (not_or.1 hxy).2)))
  | E =>
    obtain ⟨hx, rfl⟩ := of_guard (DistroReader.of_run_one h)
    rw [← hwhole rfl 0 Nat.one_pos]
    exact congrArg (Measure.map _) (law_exponential (Int.cast_pos.2 (by omega)) _)
  | V =>
    obtain ⟨hy, rfl⟩ := of_guard (DistroReader.of_run_two h)
    exact congrArg (Measure.map _) (law_pareto (pos_of_not_le hy))
  | Y =>
    obtain ⟨hy, rfl⟩ := of_guard (DistroReader.of_run_two h)
    rw [← hwhole rfl 0 Nat.two_pos, ← hwhole rfl 1 Nat.one_lt_two]
    exact congrArg (Measure.map _) (law_cauchy (Int.cast_pos.2 (not_le.1 hy)))
  | N =>
    obtain rfl := Option.some_inj.1 (DistroReader.of_run_two h)
    rw [← hwhole rfl 0 Nat.two_pos, ← hwhole rfl 1 Nat.one_lt_two]
    exact congrArg (Measure.map _) (law_normal _ _)
  | O =>
    obtain ⟨-, rfl⟩ := of_guard (DistroReader.of_run_one h)
    rw [← hwhole rfl 0 Nat.one_pos]
    exact congrArg (Measure.map _) (law_scaled_one _)
  | G =>
    obtain ⟨hy, rfl⟩ := of_guard (DistroReader.of_run_two h)
    exact congrArg (Measure.map _) (law_gamma (pos_of_not_le hy))
  | W =>
    obtain ⟨-, rfl⟩ := of_guard (DistroReader.of_run_two h)
    exact congrArg (Measure.map _) (law_weibull _ _)

theorem period_law {letter : DistroLetter} {args : List Argument} {d : Distribution ℝ}
    (hwhole : letter = .C → WholeNumbers strtod args (period strtod letter).arity)
    (h : (period strtod letter).run args = some d) :
    d.random.valueLaw = (optionLaw strtod args letter).map (↑) := by
  rw [optionLaw]
  cases letter with
  | C =>
    obtain ⟨-, rfl⟩ := of_guard (DistroReader.of_run_one h)
    rw [← hwhole rfl 0 Nat.one_pos]
    exact congrArg (Measure.map _) (law_constant _ _)
  | U =>
    obtain ⟨hxy, rfl⟩ := of_guard (DistroReader.of_run_two h)
    exact congrArg (Measure.map _) (law_uniform_neg (lt_of_not_le (not_or.1 hxy).2))
  | E =>
    obtain ⟨hx, rfl⟩ := of_guard (DistroReader.of_run_one h)
    exact congrArg (Measure.map _) (law_exponential (pos_of_not_le hx) _)
  | V =>
    obtain ⟨hxy, rfl⟩ := of_guard (DistroReader.of_run_two h)
    exact congrArg (Measure.map _) (law_pareto (pos_of_not_le (not_or.1 hxy).2))
  | Y =>
    obtain ⟨hy, rfl⟩ := of_guard (DistroReader.of_run_two h)
    exact congrArg (Measure.map _) (law_cauchy (pos_of_not_le hy))
  | N =>
    obtain rfl := Option.some_inj.1 (DistroReader.of_run_two h)
    exact congrArg (Measure.map _) (law_normal _ _)
  | O =>
    obtain ⟨-, rfl⟩ := of_guard (DistroReader.of_run_one h)
    exact congrArg (Measure.map _) (law_scaled_one _)
  | G =>
    obtain ⟨hxy, rfl⟩ := of_guard (DistroReader.of_run_two h)
    exact congrArg (Measure.map _) (law_gamma (pos_of_not_le (not_or.1 hxy).2))
  | W =>
    obtain ⟨-, rfl⟩ := of_guard (DistroReader.of_run_two h)
    exact congrArg (Measure.map _) (law_weibull _ _)

/-- What `flowSender` draws from: `PktSize`, `IntArriv`, `OnPeriod` and `OffPeriod`. -/
inductive Source
  | PktSize
  | IntArriv
  | OnPeriod
  | OffPeriod
  deriving DecidableEq

/-- The option for it. -/
noncomputable def Source.reader (strtod : Argument → ℝ) : Source → DistroLetter → DistroReader ℝ
  | .PktSize => pktSize strtod
  | .IntArriv => intArriv strtod
  | .OnPeriod => period strtod
  | .OffPeriod => period strtod

/-- The law that the option asks for. -/
noncomputable def Source.law (strtod : Argument → ℝ) (args : List Argument) :
    Source → DistroLetter → Measure (WithTop ℝ)
  | .IntArriv, letter => timesLaw strtod args letter
  | .PktSize, letter | .OnPeriod, letter | .OffPeriod, letter =>
    (optionLaw strtod args letter).map (↑)

/-- The parameters are read as integers. -/
def Source.readsInts : Source → DistroLetter → Bool
  | .PktSize, letter => letter.atoiSize
  | .IntArriv, _ => false
  | .OnPeriod, letter | .OffPeriod, letter => letter = .C

/-- Parameters that are read as integers are integers. -/
def Source.Whole (strtod : Argument → ℝ) (args : List Argument) (source : Source)
    (letter : DistroLetter) : Prop :=
  source.readsInts letter → WholeNumbers strtod args (source.reader strtod letter).arity

theorem Source.law_eq {source : Source} {letter : DistroLetter} {args : List Argument}
    {d : Distribution ℝ} (hwhole : source.Whole strtod args letter)
    (h : (source.reader strtod letter).run args = some d) :
    d.random.valueLaw = source.law strtod args letter := by
  cases source with
  | PktSize => exact pktSize_law hwhole h
  | IntArriv => exact intArriv_law h
  | OnPeriod => exact period_law (fun hletter => hwhole (decide_eq_true hletter)) h
  | OffPeriod => exact period_law (fun hletter => hwhole (decide_eq_true hletter)) h

/-- In whatever order a flow draws sizes, times and periods: they are independent, and have the laws
    that its options ask for. -/
theorem flow_draws {options : Source → DistroLetter × List Argument}
    {d : Source → Distribution ℝ} {n : ℕ} (order : Fin n → Source)
    (h : ∀ i, ((order i).reader strtod (options (order i)).1).run (options (order i)).2 =
      some (d (order i)))
    (hwhole : ∀ i, (order i).Whole strtod (options (order i)).2 (options (order i)).1)
    (hvalid : ∀ i, (d (order i)).random.ValueValid) :
    Draws unitLaw (sequence fun i => (d (order i)).random.value) (Measure.pi fun i =>
      (order i).law strtod (options (order i)).2 (options (order i)).1) := by
  refine .sequence fun i => ?_
  rw [← Source.law_eq (hwhole i) (h i)]
  exact RandomVar.draws_value (hvalid i)

end Options

/-- `-u 100 200 -E 50 -B C 2000 C 1000`: two sizes, a time, and a period. -/
theorem flow_draws_uniform_exponential :
    let strtod (arg : Argument) : ℝ := atoi arg
    let options (source : Source) : DistroLetter × List Argument := match source with
      | .PktSize => (.U, [chars "100", chars "200"])
      | .IntArriv => (.E, [chars "50"])
      | .OnPeriod => (.C, [chars "2000"])
      | .OffPeriod => (.C, [chars "1000"])
    let order : Fin 4 → Source := ![.PktSize, .PktSize, .IntArriv, .OnPeriod]
    ∃ d : Source → Distribution ℝ,
      Draws unitLaw (sequence fun i => (d (order i)).random.value) (Measure.pi fun i =>
        (order i).law strtod (options (order i)).2 (options (order i)).1) := by
  intro strtod options order
  have hpos (arg : Argument) (h : 0 < atoi arg) : ¬CDouble.Le (strtod arg) ((0 : ℤ) : ℝ) := by
    rw [DiscreteGen.le_iff, Int.cast_le]
    exact h.not_ge
  obtain ⟨size, hsize, hsize'⟩ : ∃ d,
      (pktSize strtod .U).run [chars "100", chars "200"] = some d ∧ d.random.ValueValid :=
    ⟨_, rfl, trivial⟩
  obtain ⟨time, htime, htime'⟩ : ∃ d,
      (intArriv strtod .E).run [chars "50"] = some d ∧ d.random.ValueValid :=
    ⟨_, if_neg (hpos _ (by decide)),
      by norm_num [RandomVar.ValueValid, RandomVar.Valid, standardExponential]⟩
  obtain ⟨on, hon, hon'⟩ : ∃ d,
      (period strtod .C).run [chars "2000"] = some d ∧ d.random.ValueValid :=
    ⟨_, if_neg (hpos _ (by decide)), trivial⟩
  let d (source : Source) : Distribution ℝ := match source with
    | .PktSize => size
    | .IntArriv => time
    | .OnPeriod | .OffPeriod => on
  have hread (i : Fin 4) : ((order i).reader strtod (options (order i)).1).run
      (options (order i)).2 = some (d (order i)) := by
    fin_cases i
    · exact hsize
    · exact hsize
    · exact htime
    · exact hon
  have hvalid (i : Fin 4) : (d (order i)).random.ValueValid := by
    fin_cases i
    · exact hsize'
    · exact hsize'
    · exact htime'
    · exact hon'
  exact ⟨d, flow_draws order hread (fun i _ k _ => rfl) hvalid⟩

end Ditg
