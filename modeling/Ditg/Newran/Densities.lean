import Ditg.Library.Densities
import Ditg.Newran.DiscreteGen
import Mathlib.Probability.Distributions.Cauchy
import Mathlib.Probability.Distributions.Exponential
import Mathlib.Probability.Distributions.Gaussian.Real
import Mathlib.Probability.Distributions.Pareto
import Mathlib.Probability.Distributions.Poisson.Basic

/-!
# Densities

The densities that the automatic generators draw from, and the laws they stand for. They are
all cut off where they are small: the densities of `Gamma` and `Poisson` are zero below
`exp(-40)`.

* They decrease from the mode on, in both directions, as the generators take for granted.
* With `exp`, `log` and so on of the reals, the laws with these densities are the ones that are
  named like them, under the condition that the value is not where the density is cut
  off (`normalized_normalDensity`, `normalized_cauchyDensity`, `map_normalized_gamma1Density`,
  `normalized_gamma2Density`, `map_normalized_poisson1Density`).
-/

namespace Ditg

/-- What the code does with doubles, with the functions of `math.h`, and with `ln_gamma`. -/
class CMath (F : Type) extends CDouble F where
  neg : F → F
  log : F → F
  exp : F → F
  sqrt : F → F
  pow : F → F → F
  lnGamma : F → F

section Model

variable {F : Type} [CMath F] [DecidableEq F]

/-- `exp(l)`, or 0 if it is too small. -/
def expOrZero (l : F) : F := if l < ((-40 : ℤ) : F) then ((0 : ℤ) : F) else CMath.exp l

/-- `Normal::Density`. -/
def normalDensity (x : F) : F :=
  if ((8 : ℤ) : F) < CDouble.fabs x then ((0 : ℤ) : F)
  else literal 398942280 1000000000 * CMath.exp (CMath.neg x * x / ((2 : ℤ) : F))

/-- `Cauchy::Density`. -/
def cauchyDensity (x : F) : F :=
  if ((1000000000000000 : ℤ) : F) < CDouble.fabs x then ((0 : ℤ) : F)
  else literal 31830988618 100000000000 / (((1 : ℤ) : F) + x * x)

/-- `Gamma1::Density`. -/
def gamma1Density (alpha x : F) : F :=
  expOrZero (CMath.neg (CMath.pow x (((1 : ℤ) : F) / alpha)) -
    CMath.lnGamma (alpha + ((1 : ℤ) : F)))

/-- `Gamma2::Density`. -/
def gamma2Density (alpha x : F) : F :=
  if CDouble.Le x ((0 : ℤ) : F) then ((0 : ℤ) : F)
  else expOrZero ((alpha - ((1 : ℤ) : F)) * CMath.log x - x - CMath.lnGamma alpha)

/-- `Poisson1::Density`. -/
def poisson1Density (mu x : F) : F :=
  if x < ((0 : ℤ) : F) then ((0 : ℤ) : F)
  else
    let ix := CDouble.floor x
    expOrZero (CMath.log mu * ix - mu - CMath.lnGamma (((1 : ℤ) : F) + ix))

/-- The probabilities of `Poisson2`. -/
def poisson2Prob (mu : F) : ℕ → F
  | 0 => CMath.exp (CMath.neg mu)
  | i + 1 => poisson2Prob mu i * mu / (((i + 1 : ℕ) : ℤ) : F)

end Model

/-! ## Real numbers -/

open MeasureTheory ProbabilityTheory Set Density

/-- Exact arithmetic, with the functions of the reals. -/
noncomputable instance realCMath : CMath ℝ where
  toCDouble := realCDouble
  neg x := -x
  log := Real.log
  exp := Real.exp
  sqrt := Real.sqrt
  pow x y := x ^ y
  lnGamma x := Real.log (Real.Gamma x)

theorem expOrZero_eq (l : ℝ) : expOrZero l = if l < -40 then 0 else Real.exp l := by
  simp only [expOrZero, Int.cast_neg, Int.cast_ofNat, Int.cast_zero]
  rfl

theorem expOrZero_nonneg (l : ℝ) : 0 ≤ expOrZero l := by
  rw [expOrZero_eq]
  split_ifs
  · exact le_rfl
  · exact (Real.exp_pos l).le

theorem monotone_expOrZero : Monotone (expOrZero : ℝ → ℝ) := fun x y hxy => by
  rw [expOrZero_eq x]
  split_ifs with hx
  · exact expOrZero_nonneg y
  · rw [expOrZero_eq, if_neg (by linarith)]
    exact Real.exp_le_exp.2 hxy

/-- A density that is cut off below `exp(-40)`. -/
noncomputable def cutOff (p : ℝ) : ℝ := if Real.exp (-40) ≤ p then p else 0

theorem cutOff_nonneg (p : ℝ) : 0 ≤ cutOff p := by
  rw [cutOff]
  split_ifs with h
  · exact (Real.exp_pos _).le.trans h
  · exact le_rfl

theorem monotone_cutOff : Monotone cutOff := fun p q hpq => by
  rw [cutOff]
  split_ifs with h
  · rw [cutOff, if_pos (h.trans hpq)]
    exact hpq
  · exact cutOff_nonneg q

/-- What is cut off, by the value itself. -/
theorem expOrZero_sub_log {l c : ℝ} (hc : 0 < c) :
    expOrZero (l - Real.log c) = cutOff (Real.exp l / c) := by
  have heq : Real.exp l / c = Real.exp (l - Real.log c) := by rw [Real.exp_sub, Real.exp_log hc]
  simp only [expOrZero_eq, cutOff, heq, Real.exp_le_exp, ← not_le]
  exact ite_not _ _ _

/-- The law with a density that is cut off. -/
theorem normalized_cutOff {α : Type*} [MeasurableSpace α] {μ : Measure α} {p : α → ℝ}
    (hp : Measurable p) : normalized μ (fun a => ENNReal.ofReal (cutOff (p a))) =
      cond (μ.withDensity fun a => ENNReal.ofReal (p a)) {a | Real.exp (-40) ≤ p a} := by
  refine normalized_eq_cond (measurableSet_le measurable_const hp) one_ne_zero ENNReal.one_ne_top
    (fun a ha => ?_) fun a ha => ?_
  · rw [cutOff, if_pos (mem_ofPred.1 ha), one_mul]
  · rw [cutOff, if_neg (mt mem_ofPred.2 ha), ENNReal.ofReal_zero]

/-! ## Normal and Cauchy -/

/-- Where the density of `Normal` is cut off. -/
def normalBound : ℝ := 8

/-- Where the density of `Cauchy` is cut off. -/
def cauchyBound : ℝ := 10 ^ 15

theorem normalDensity_eq (x : ℝ) : normalDensity x =
    if |x| ≤ normalBound then 0.398942280 * Real.exp (-x * x / 2) else 0 := by
  have hliteral : (literal 398942280 1000000000 : ℝ) = 0.398942280 := by norm_num [literal]
  have hbound : ((8 : ℤ) : ℝ) = normalBound := by norm_num [normalBound]
  simp only [normalDensity, hliteral, hbound, Int.cast_ofNat, Int.cast_zero, ← not_le]
  exact ite_not _ _ _

theorem cauchyDensity_eq (x : ℝ) : cauchyDensity x =
    if |x| ≤ cauchyBound then 0.31830988618 / (1 + x * x) else 0 := by
  have hliteral : (literal 31830988618 100000000000 : ℝ) = 0.31830988618 := by norm_num [literal]
  have hbound : ((1000000000000000 : ℤ) : ℝ) = cauchyBound := by norm_num [cauchyBound]
  simp only [cauchyDensity, hliteral, hbound, Int.cast_one, Int.cast_zero, ← not_le]
  exact ite_not _ _ _

theorem normalDensity_abs (x : ℝ) : normalDensity |x| = normalDensity x := by
  simp only [normalDensity_eq, abs_abs, neg_mul, abs_mul_abs_self]

theorem cauchyDensity_abs (x : ℝ) : cauchyDensity |x| = cauchyDensity x := by
  simp only [cauchyDensity_eq, abs_abs, abs_mul_abs_self]

theorem antitoneOn_normalDensity : AntitoneOn (normalDensity : ℝ → ℝ) (Ici 0) := by
  intro x hx y hy hxy
  have hx₀ := mem_Ici.1 hx
  have hy₀ := mem_Ici.1 hy
  rw [normalDensity_eq, normalDensity_eq, abs_of_nonneg hx₀, abs_of_nonneg hy₀]
  split_ifs with hy' hx'
  · refine mul_le_mul_of_nonneg_left (Real.exp_le_exp.2 ?_) (by norm_num)
    have := mul_self_le_mul_self hx₀ hxy
    linarith
  · exact absurd (hxy.trans hy') hx'
  · positivity
  · exact le_rfl

theorem antitoneOn_cauchyDensity : AntitoneOn (cauchyDensity : ℝ → ℝ) (Ici 0) := by
  intro x hx y hy hxy
  have hx₀ := mem_Ici.1 hx
  have hy₀ := mem_Ici.1 hy
  rw [cauchyDensity_eq, cauchyDensity_eq, abs_of_nonneg hx₀, abs_of_nonneg hy₀]
  split_ifs with hy' hx'
  · refine div_le_div_of_nonneg_left (by norm_num) (by positivity) ?_
    have := mul_self_le_mul_self hx₀ hxy
    linarith
  · exact absurd (hxy.trans hy') hx'
  · positivity
  · exact le_rfl

/-- What `Normal` draws. -/
noncomputable def normalLaw : Measure ℝ := cond (gaussianReal 0 1) (Icc (-normalBound) normalBound)

/-- What `Cauchy` draws. -/
noncomputable def cauchyLaw : Measure ℝ := cond (cauchyMeasure 0 1) (Icc (-cauchyBound) cauchyBound)

theorem normalized_normalDensity :
    normalized volume (fun x => ENNReal.ofReal (normalDensity x)) = normalLaw := by
  have hpi : 0 < √(2 * Real.pi) := Real.sqrt_pos.2 Real.two_pi_pos
  rw [normalLaw, gaussianReal_of_var_ne_zero 0 one_ne_zero]
  refine normalized_eq_cond (c := ENNReal.ofReal (0.398942280 * √(2 * Real.pi))) measurableSet_Icc
    (ENNReal.ofReal_pos.2 (by positivity)).ne' ENNReal.ofReal_ne_top (fun x hx => ?_) fun x hx => ?_
  · rw [normalDensity_eq, if_pos (abs_le.2 hx), gaussianPDF, gaussianPDFReal,
      ← ENNReal.ofReal_mul (by positivity)]
    congr 1
    rw [NNReal.coe_one, mul_one, mul_one, sub_zero, mul_mul_mul_comm, mul_assoc,
      inv_mul_cancel_left₀ hpi.ne']
    ring_nf
  · rw [normalDensity_eq, if_neg (mt abs_le.1 hx), ENNReal.ofReal_zero]

theorem normalized_cauchyDensity :
    normalized volume (fun x => ENNReal.ofReal (cauchyDensity x)) = cauchyLaw := by
  have hpi := Real.pi_pos
  rw [cauchyLaw, cauchyMeasure_of_scale_ne_zero 0 one_ne_zero]
  refine normalized_eq_cond (c := ENNReal.ofReal (0.31830988618 * Real.pi)) measurableSet_Icc
    (ENNReal.ofReal_pos.2 (by positivity)).ne' ENNReal.ofReal_ne_top (fun x hx => ?_) fun x hx => ?_
  · rw [cauchyDensity_eq, if_pos (abs_le.2 hx), cauchyPDF, cauchyPDFReal_def',
      ← ENNReal.ofReal_mul (by positivity)]
    congr 1
    simp only [NNReal.coe_one, sub_zero, div_one, inv_one, mul_one]
    field_simp
  · rw [cauchyDensity_eq, if_neg (mt abs_le.1 hx), ENNReal.ofReal_zero]

/-! ## Gamma -/

theorem gamma1Density_eq (alpha x : ℝ) : gamma1Density alpha x =
    expOrZero (-x ^ (1 / alpha) - Real.log (Real.Gamma (alpha + 1))) := by
  simp only [gamma1Density, Int.cast_one]
  rfl

theorem gamma2Density_eq (alpha x : ℝ) : gamma2Density alpha x = if x ≤ 0 then 0
    else expOrZero ((alpha - 1) * Real.log x - x - Real.log (Real.Gamma alpha)) := by
  simp only [gamma2Density, DiscreteGen.le_iff, Int.cast_one, Int.cast_zero]
  rfl

theorem antitoneOn_gamma1Density {alpha : ℝ} (h : 0 < alpha) :
    AntitoneOn (gamma1Density alpha) (Ici 0) := by
  intro x hx y hy hxy
  have hpow : x ^ (1 / alpha) ≤ y ^ (1 / alpha) := by
    have hx₀ := mem_Ici.1 hx
    gcongr
  rw [gamma1Density_eq, gamma1Density_eq]
  exact monotone_expOrZero (by linarith)

/-- The logarithm of the density increases up to `alpha - 1`, and decreases from there on. -/
theorem log_gamma2_le {a x y : ℝ} (ha : 0 ≤ a) (hx : 0 < x) (hy : 0 < y)
    (h : 0 ≤ (a - y) * (y - x)) : a * Real.log x - x ≤ a * Real.log y - y := by
  have hlog : Real.log x - Real.log y ≤ (x - y) / y := by
    rw [← Real.log_div hx.ne' hy.ne', sub_div, div_self hy.ne']
    exact Real.log_le_sub_one_of_pos (div_pos hx hy)
  have hdiff : a * ((x - y) / y) ≤ x - y := by
    rw [mul_div_assoc', div_le_iff₀ hy]
    linarith
  linarith [mul_le_mul_of_nonneg_left hlog ha]

theorem monotoneOn_gamma2Density {alpha : ℝ} (h : 1 < alpha) :
    MonotoneOn (gamma2Density alpha) (Iic (alpha - 1)) := by
  intro x hx y hy hxy
  rw [gamma2Density_eq, gamma2Density_eq]
  split_ifs with hx' hy' hy'
  · exact le_rfl
  · exact expOrZero_nonneg _
  · exact absurd (hxy.trans hy') hx'
  · refine monotone_expOrZero (sub_le_sub_right ?_ _)
    exact log_gamma2_le (sub_nonneg.2 h.le) (not_le.1 hx') (not_le.1 hy')
      (mul_nonneg (sub_nonneg.2 (mem_Iic.1 hy)) (sub_nonneg.2 hxy))

theorem antitoneOn_gamma2Density {alpha : ℝ} (h : 1 < alpha) :
    AntitoneOn (gamma2Density alpha) (Ici (alpha - 1)) := by
  intro x hx y hy hxy
  have hx₀ : 0 < x := (sub_pos.2 h).trans_le (mem_Ici.1 hx)
  rw [gamma2Density_eq, gamma2Density_eq, if_neg (not_le.2 hx₀),
    if_neg (not_le.2 (hx₀.trans_le hxy))]
  refine monotone_expOrZero (sub_le_sub_right ?_ _)
  exact log_gamma2_le (sub_nonneg.2 h.le) (hx₀.trans_le hxy) hx₀
    (mul_nonneg_of_nonpos_of_nonpos (sub_nonpos.2 (mem_Ici.1 hx)) (sub_nonpos.2 hxy))

/-- Where the density of `Gamma` is not cut off. -/
noncomputable def gammaRange (alpha : ℝ) : Set ℝ :=
  if alpha < 1 then {x | Real.exp (-40) ≤ Real.exp (-x) / Real.Gamma (alpha + 1)}
  else if alpha = 1 then univ
  else {x | Real.exp (-40) ≤ gammaPDFReal alpha 1 x}

/-- What `Gamma` draws. -/
noncomputable def gammaLaw (alpha : ℝ) : Measure ℝ := cond (gammaMeasure alpha 1) (gammaRange alpha)

theorem gammaPDFReal_of_pos (alpha : ℝ) {x : ℝ} (hx : 0 < x) :
    gammaPDFReal alpha 1 x = Real.exp ((alpha - 1) * Real.log x - x) / Real.Gamma alpha := by
  rw [gammaPDFReal, if_pos hx.le, Real.one_rpow, one_mul, Real.exp_sub, Real.exp_neg,
    Real.rpow_def_of_pos hx, mul_comm (Real.log x)]
  field_simp

theorem gammaPDFReal_of_nonpos {alpha : ℝ} (h : alpha ≠ 1) {x : ℝ} (hx : x ≤ 0) :
    gammaPDFReal alpha 1 x = 0 := by
  rcases hx.lt_or_eq with hx | rfl
  · exact if_neg (not_le.2 hx)
  · rw [gammaPDFReal, if_pos le_rfl, Real.zero_rpow (sub_ne_zero.2 h), mul_zero, zero_mul]

theorem gamma2Density_eq_cutOff {alpha : ℝ} (h : 1 < alpha) (x : ℝ) :
    gamma2Density alpha x = cutOff (gammaPDFReal alpha 1 x) := by
  by_cases hx : x ≤ 0
  · rw [gamma2Density_eq, if_pos hx, gammaPDFReal_of_nonpos h.ne' hx, cutOff,
      if_neg (not_le.2 (Real.exp_pos _))]
  · rw [gamma2Density_eq, if_neg hx, expOrZero_sub_log (Real.Gamma_pos_of_pos (by linarith)),
      gammaPDFReal_of_pos alpha (not_le.1 hx)]

theorem normalized_gamma2Density {alpha : ℝ} (h : 1 < alpha) :
    normalized volume (fun x => ENNReal.ofReal (gamma2Density alpha x)) = gammaLaw alpha := by
  simp only [gamma2Density_eq_cutOff h]
  rw [normalized_cutOff (measurable_gammaPDFReal alpha 1), gammaLaw, gammaRange, if_neg h.not_gt,
    if_neg h.ne']
  rfl

/-- The density behind the transform of `Gamma1::Next`. -/
theorem gamma1Density_rpow {alpha : ℝ} (h : 0 < alpha) {x : ℝ} (hx : 0 < x) :
    |alpha * x ^ (alpha - 1)| * gamma1Density alpha (x ^ alpha) =
      if Real.exp (-40) ≤ Real.exp (-x) / Real.Gamma (alpha + 1) then gammaPDFReal alpha 1 x
      else 0 := by
  have hgamma := Real.Gamma_pos_of_pos h
  have habs : |alpha * x ^ (alpha - 1)| = alpha * x ^ (alpha - 1) := abs_of_nonneg (by positivity)
  rw [gamma1Density_eq, expOrZero_sub_log (Real.Gamma_pos_of_pos (by linarith)), one_div,
    Real.rpow_rpow_inv hx.le h.ne', cutOff, mul_ite, mul_zero, habs, gammaPDFReal, if_pos hx.le,
    Real.Gamma_add_one h.ne', Real.one_rpow, one_mul]
  congr 1
  field_simp

/-- The transform of `Gamma1::Next`. -/
theorem map_normalized_gamma1Density {alpha : ℝ} (h : 0 < alpha) (h₁ : alpha < 1) :
    (normalized volume ((Ici 0).indicator fun x => ENNReal.ofReal (gamma1Density alpha x))).map
      (fun x => x ^ (1 / alpha)) = gammaLaw alpha := by
  have himage : (fun x : ℝ => x ^ alpha) '' Ioi 0 = Ioi 0 := by
    ext x
    constructor
    · rintro ⟨y, hy, rfl⟩
      exact Real.rpow_pos_of_pos hy alpha
    · intro hx
      exact ⟨x ^ alpha⁻¹, Real.rpow_pos_of_pos hx _, Real.rpow_inv_rpow (mem_Ioi.1 hx).le h.ne'⟩
  have hderiv : ∀ x ∈ Ioi (0 : ℝ),
      HasDerivWithinAt (fun x => x ^ alpha) (alpha * x ^ (alpha - 1)) (Ioi 0) x := fun x hx =>
    (Real.hasDerivAt_rpow_const (.inl (mem_Ioi.1 hx).ne')).hasDerivWithinAt
  have hmap := map_normalized_image (G := fun x => x ^ (1 / alpha)) measurableSet_Ioi hderiv
    (fun x hx => by rw [one_div, Real.rpow_rpow_inv (mem_Ioi.1 hx).le h.ne'])
    (by fun_prop) fun x => ENNReal.ofReal (gamma1Density alpha x)
  rw [himage] at hmap
  rw [normalized_restrict measurableSet_Ici, ← Measure.restrict_congr_set Ioi_ae_eq_Ici, hmap,
    ← normalized_restrict measurableSet_Ioi, gammaLaw, gammaRange, if_pos h₁, gammaMeasure]
  have hmeas : MeasurableSet {x | Real.exp (-40) ≤ Real.exp (-x) / Real.Gamma (alpha + 1)} :=
    measurableSet_le (by fun_prop) (by fun_prop)
  refine normalized_eq_cond hmeas one_ne_zero ENNReal.one_ne_top (fun x hx => ?_) fun x hx => ?_
  · by_cases hpos : 0 < x
    · rw [indicator_of_mem (mem_Ioi.2 hpos), ← ENNReal.ofReal_mul (abs_nonneg _),
        gamma1Density_rpow h hpos, if_pos (mem_ofPred.1 hx), one_mul, gammaPDF]
    · rw [indicator_of_notMem (mt mem_Ioi.1 hpos), one_mul, gammaPDF,
        gammaPDFReal_of_nonpos h₁.ne (not_lt.1 hpos), ENNReal.ofReal_zero]
  · by_cases hpos : 0 < x
    · rw [indicator_of_mem (mem_Ioi.2 hpos), ← ENNReal.ofReal_mul (abs_nonneg _),
        gamma1Density_rpow h hpos, if_neg (mt mem_ofPred.2 hx), ENNReal.ofReal_zero]
    · rw [indicator_of_notMem (mt mem_Ioi.1 hpos)]

/-! ## Poisson -/

/-- The probability of a Poisson variable. -/
noncomputable def poissonMass (mu : ℝ) (n : ℕ) : ℝ := Real.exp (-mu) * mu ^ n / n.factorial

theorem poissonMass_nonneg {mu : ℝ} (h : 0 ≤ mu) (n : ℕ) : 0 ≤ poissonMass mu n := by
  rw [poissonMass]
  positivity

theorem poissonMass_succ (mu : ℝ) (n : ℕ) :
    poissonMass mu (n + 1) = poissonMass mu n * (mu / (n + 1)) := by
  rw [poissonMass, poissonMass, Nat.factorial_succ, pow_succ]
  push_cast
  field_simp

theorem poisson2Prob_eq (mu : ℝ) (n : ℕ) : poisson2Prob mu n = poissonMass mu n := by
  induction n with
  | zero =>
    rw [poissonMass, pow_zero, Nat.factorial_zero, Nat.cast_one, mul_one, div_one]
    rfl
  | succ n ih =>
    rw [poissonMass_succ, poisson2Prob, ih]
    push_cast
    ring

theorem poissonMass_le_of_le {mu : ℝ} (h : 0 ≤ mu) {m n : ℕ} (hmn : m ≤ n) (hn : n ≤ mu) :
    poissonMass mu m ≤ poissonMass mu n := by
  induction n, hmn using Nat.le_induction with
  | base => exact le_rfl
  | succ n hmn ih =>
    push_cast at hn
    rw [poissonMass_succ]
    refine (ih (by linarith)).trans (le_mul_of_one_le_right (poissonMass_nonneg h n) ?_)
    rwa [one_le_div (by positivity)]

theorem poissonMass_le_of_ge {mu : ℝ} (h : 0 ≤ mu) {m n : ℕ} (hmn : m ≤ n) (hm : mu < m + 1) :
    poissonMass mu n ≤ poissonMass mu m := by
  induction n, hmn using Nat.le_induction with
  | base => exact le_rfl
  | succ n hmn ih =>
    have hcast : (m : ℝ) ≤ n := Nat.cast_le.2 hmn
    rw [poissonMass_succ]
    refine (mul_le_of_le_one_right (poissonMass_nonneg h n) ?_).trans ih
    rw [div_le_one (by positivity)]
    linarith

theorem poisson1Density_eq {mu : ℝ} (h : 0 < mu) (x : ℝ) : poisson1Density mu x =
    if x < 0 then 0 else cutOff (poissonMass mu ⌊x⌋₊) := by
  simp only [poisson1Density, Int.cast_zero, Int.cast_one]
  split_ifs with hx
  · rfl
  · have hfloor : CDouble.floor x = (⌊x⌋₊ : ℝ) :=
      (natCast_floor_eq_intCast_floor (not_lt.1 hx)).symm
    have hgamma : CMath.lnGamma (1 + (⌊x⌋₊ : ℝ)) = Real.log (⌊x⌋₊.factorial : ℝ) := by
      rw [← Real.Gamma_nat_eq_factorial, add_comm]
      rfl
    have hlog : CMath.log mu = Real.log mu := rfl
    rw [hfloor, hgamma, hlog, expOrZero_sub_log (by positivity), poissonMass, Real.exp_sub,
      mul_comm (Real.log mu), Real.exp_nat_mul, Real.exp_log h, Real.exp_neg]
    congr 2
    ring

theorem monotoneOn_poisson1Density {mu : ℝ} (h : 0 < mu) :
    MonotoneOn (poisson1Density mu) (Iic mu) := by
  intro x hx y hy hxy
  rw [poisson1Density_eq h, poisson1Density_eq h]
  split_ifs with hx' hy' hy'
  · exact le_rfl
  · exact cutOff_nonneg _
  · exact absurd (hxy.trans_lt hy') hx'
  · refine monotone_cutOff (poissonMass_le_of_le h.le (Nat.floor_mono hxy) ?_)
    exact (Nat.floor_le (not_lt.1 hy')).trans (mem_Iic.1 hy)

theorem antitoneOn_poisson1Density {mu : ℝ} (h : 0 < mu) :
    AntitoneOn (poisson1Density mu) (Ici mu) := by
  intro x hx y hy hxy
  rw [poisson1Density_eq h, poisson1Density_eq h, if_neg (not_lt.2 (h.le.trans (mem_Ici.1 hx))),
    if_neg (not_lt.2 (h.le.trans (mem_Ici.1 hy)))]
  refine monotone_cutOff (poissonMass_le_of_ge h.le (Nat.floor_mono hxy) ?_)
  exact (mem_Ici.1 hx).trans_lt (Nat.lt_floor_add_one x)

/-- What `Poisson` draws, if the mean is larger than 8. -/
noncomputable def poissonLaw (mu : ℝ) : Measure ℝ :=
  (cond (poissonMeasure mu.toNNReal) {n | Real.exp (-40) ≤ poissonMass mu n}).map Nat.cast

theorem poissonMeasure_eq {mu : ℝ} (h : 0 ≤ mu) : poissonMeasure mu.toNNReal =
    Measure.count.withDensity fun n => ENNReal.ofReal (poissonMass mu n) := by
  refine Measure.ext_of_singleton fun n => ?_
  rw [poissonMeasure_singleton, withDensity_apply _ (measurableSet_singleton n),
    Measure.restrict_singleton, Measure.count_singleton, one_smul, lintegral_dirac,
    Real.coe_toNNReal mu h, poissonMass]

/-- The integer part that `Poisson1::Next` takes. -/
theorem map_normalized_poisson1Density {mu : ℝ} (h : 0 < mu) :
    (normalized volume fun x => ENNReal.ofReal (poisson1Density mu x)).map
      (fun x => ((⌊x⌋ : ℤ) : ℝ)) = poissonLaw mu := by
  have hdensity : (fun x => ENNReal.ofReal (poisson1Density mu x)) =
      (Ici 0).indicator fun x => ENNReal.ofReal (cutOff (poissonMass mu ⌊x⌋₊)) := by
    funext x
    by_cases hx : 0 ≤ x
    · rw [indicator_of_mem (mem_Ici.2 hx), poisson1Density_eq h, if_neg (not_lt.2 hx)]
    · rw [indicator_of_notMem (mt mem_Ici.1 hx), poisson1Density_eq h, if_pos (not_le.1 hx),
        ENNReal.ofReal_zero]
  rw [hdensity, normalized_restrict measurableSet_Ici]
  have hfloor : (fun x : ℝ => ((⌊x⌋ : ℤ) : ℝ)) =ᵐ[normalized (volume.restrict (Ici 0))
      fun x => ENNReal.ofReal (cutOff (poissonMass mu ⌊x⌋₊))] (Nat.cast ∘ Nat.floor) := by
    refine normalized_absolutelyContinuous.ae_le ?_
    filter_upwards [ae_restrict_mem measurableSet_Ici] with x hx
    exact (natCast_floor_eq_intCast_floor (mem_Ici.1 hx)).symm
  rw [Measure.map_congr hfloor, ← Measure.map_map (measurable_from_top) Nat.measurable_floor,
    map_normalized_comp (k := fun n => ENNReal.ofReal (cutOff (poissonMass mu n)))
      Nat.measurable_floor measurable_from_top, map_floor, normalized_cutOff measurable_from_top,
    poissonLaw, poissonMeasure_eq h.le]

/-! ## Inversion -/

/-- A uniform number. -/
noncomputable def unitLaw : Measure ℝ := volume.restrict (Ico 0 1)

instance unitLaw_isProbabilityMeasure : IsProbabilityMeasure unitLaw where
  measure_univ := by simp [unitLaw]

/-- What is drawn with the inverse of a function. -/
theorem map_unitLaw {s : Set ℝ} {F F' G : ℝ → ℝ} (hs : MeasurableSet s)
    (hF : ∀ x ∈ s, HasDerivAt F (F' x) x) (hmaps : MapsTo F s (Ioo 0 1))
    (hmaps' : MapsTo G (Ioo 0 1) s) (hinv : InvOn G F s (Ioo 0 1)) (hG : Measurable G) :
    unitLaw.map G = volume.withDensity (s.indicator fun x => ENNReal.ofReal |F' x|) := by
  have hmap := map_image hs (fun x hx => (hF x hx).hasDerivWithinAt) hinv.1 hG
  rw [(hinv.bijOn hmaps hmaps').image_eq] at hmap
  rw [unitLaw, ← Measure.restrict_congr_set Ioo_ae_eq_Ico, hmap, withDensity_indicator hs]

/-- A density that is not known at one point. -/
theorem withDensity_indicator_Ioi {c : ℝ} {f g : ℝ → ENNReal} (h : ∀ x, c < x → f x = g x)
    (h' : ∀ x, x < c → f x = 0) :
    volume.withDensity ((Ioi c).indicator g) = volume.withDensity f := by
  refine withDensity_congr_ae ?_
  filter_upwards [Measure.ae_ne volume c] with x hx
  rcases lt_or_gt_of_ne hx with hlt | hgt
  · rw [indicator_of_notMem (mt mem_Ioi.1 (not_lt.2 hlt.le)), h' x hlt]
  · rw [indicator_of_mem (mem_Ioi.2 hgt), h x hgt]

theorem map_exponential {mean : ℝ} (h : 0 < mean) :
    unitLaw.map (fun u => mean * Real.log (1 / (1 - u))) = expMeasure (1 / mean) := by
  have hr : 0 < 1 / mean := one_div_pos.2 h
  have hF (x : ℝ) : HasDerivAt (fun x => 1 - Real.exp (-(1 / mean * x)))
      (1 / mean * Real.exp (-(1 / mean * x))) x := by
    simpa [sub_eq_add_neg] using hasDerivAt_neg_exp_mul_exp.const_add 1
  have hmaps : MapsTo (fun x => 1 - Real.exp (-(1 / mean * x))) (Ioi 0) (Ioo 0 1) := by
    intro x hx
    have hexp := Real.exp_lt_one_iff.2 (neg_neg_of_pos (mul_pos hr (mem_Ioi.1 hx)))
    exact ⟨sub_pos.2 hexp, sub_lt_self 1 (Real.exp_pos _)⟩
  have hmaps' : MapsTo (fun u => mean * Real.log (1 / (1 - u))) (Ioo 0 1) (Ioi 0) := by
    intro u hu
    have hlt : 0 < 1 - u := sub_pos.2 hu.2
    exact mul_pos h (Real.log_pos ((one_lt_div hlt).2 (by linarith [hu.1])))
  have hinv : InvOn (fun u => mean * Real.log (1 / (1 - u)))
      (fun x => 1 - Real.exp (-(1 / mean * x))) (Ioi 0) (Ioo 0 1) := by
    constructor
    · intro x _
      simp only [sub_sub_cancel, one_div, Real.log_inv, Real.log_exp]
      field_simp
    · intro u hu
      have hlt : 0 < 1 - u := sub_pos.2 hu.2
      simp only [one_div, Real.log_inv]
      rw [mul_neg, mul_neg, neg_neg, inv_mul_cancel_left₀ h.ne', Real.exp_log hlt, sub_sub_cancel]
  rw [map_unitLaw measurableSet_Ioi (fun x _ => hF x) hmaps hmaps' hinv (by fun_prop)]
  refine withDensity_indicator_Ioi (fun x hx => ?_) fun x hx => gammaPDF_of_neg hx
  rw [abs_of_pos (mul_pos hr (Real.exp_pos _))]
  exact exponentialPDF_of_nonneg hx.le

theorem map_pareto {shape : ℝ} (h : 0 < shape) :
    unitLaw.map (fun u => u ^ (-1 / shape)) = paretoMeasure 1 shape := by
  have hF (x : ℝ) (hx : x ∈ Ioi 1) :
      HasDerivAt (fun x => x ^ (-shape)) (-shape * x ^ (-shape - 1)) x :=
    Real.hasDerivAt_rpow_const (.inl (zero_lt_one.trans (mem_Ioi.1 hx)).ne')
  have hmaps : MapsTo (fun x : ℝ => x ^ (-shape)) (Ioi 1) (Ioo 0 1) := by
    intro x hx
    exact ⟨Real.rpow_pos_of_pos (zero_lt_one.trans (mem_Ioi.1 hx)) _,
      Real.rpow_lt_one_of_one_lt_of_neg hx (neg_neg_of_pos h)⟩
  have hmaps' : MapsTo (fun u : ℝ => u ^ (-1 / shape)) (Ioo 0 1) (Ioi 1) := by
    intro u hu
    exact Real.one_lt_rpow_of_pos_of_lt_one_of_neg hu.1 hu.2 (div_neg_of_neg_of_pos (by simp) h)
  have hinv : InvOn (fun u : ℝ => u ^ (-1 / shape)) (fun x : ℝ => x ^ (-shape)) (Ioi 1)
      (Ioo 0 1) := by
    constructor
    · intro x hx
      have hx₀ : 0 < x := zero_lt_one.trans (mem_Ioi.1 hx)
      simp only [← Real.rpow_mul hx₀.le]
      rw [neg_mul, mul_div_cancel₀ _ h.ne', neg_neg, Real.rpow_one]
    · intro u hu
      simp only [← Real.rpow_mul hu.1.le]
      rw [mul_neg, div_mul_cancel₀ _ h.ne', neg_neg, Real.rpow_one]
  rw [map_unitLaw measurableSet_Ioi hF hmaps hmaps' hinv (by fun_prop)]
  refine withDensity_indicator_Ioi (fun x hx => ?_) fun x hx => paretoPDF_of_lt hx
  rw [paretoPDF_of_le hx.le, Real.one_rpow, mul_one, neg_add', abs_mul, abs_neg, abs_of_pos h,
    abs_of_pos (Real.rpow_pos_of_pos (zero_lt_one.trans hx) _)]

/-- The exponential variable in `Weibull::Next`. -/
theorem map_weibull : unitLaw.map (fun u => Real.log (1 / u)) = expMeasure 1 := by
  have hF (x : ℝ) : HasDerivAt (fun x => Real.exp (-x)) (-Real.exp (-x)) x := by
    simpa using (hasDerivAt_neg x).exp
  have hmaps : MapsTo (fun x => Real.exp (-x)) (Ioi 0) (Ioo 0 1) := fun x hx =>
    ⟨Real.exp_pos _, Real.exp_lt_one_iff.2 (neg_neg_of_pos hx)⟩
  have hmaps' : MapsTo (fun u => Real.log (1 / u)) (Ioo 0 1) (Ioi 0) := fun u hu =>
    Real.log_pos ((one_lt_div hu.1).2 hu.2)
  have hinv : InvOn (fun u => Real.log (1 / u)) (fun x => Real.exp (-x)) (Ioi 0) (Ioo 0 1) := by
    constructor
    · intro x _
      simp only [one_div, Real.log_inv, Real.log_exp, neg_neg]
    · intro u hu
      simp only [one_div, Real.log_inv, neg_neg, Real.exp_log hu.1]
  rw [map_unitLaw measurableSet_Ioi (fun x _ => hF x) hmaps hmaps' hinv (by fun_prop)]
  refine withDensity_indicator_Ioi (fun x hx => ?_) fun x hx => gammaPDF_of_neg hx
  rw [abs_neg, abs_of_pos (Real.exp_pos _)]
  exact (exponentialPDF_of_nonneg hx.le).trans (by rw [one_mul, one_mul])

end Ditg
