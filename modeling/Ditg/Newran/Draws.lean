import Ditg.Library.Sampler
import Ditg.Newran.Densities
import Ditg.Newran.Strips

/-!
# What random variables draw

The random variables of a flow (`RandomVar`) draw their values with the numbers of the generator,
which they take one after the other: one of them for most values, two for a discrete variable, and
three for every turn of an automatic generator (`RandomVar.next`). A variable that is made from
others draws from these.

* `RandomVar.law`: the law of the values, put together as the variable is;
* `RandomVar.Valid`: the parameters for which there is a distribution, and nothing throws;
* `RandomVar.draws`: for independent uniform numbers, almost surely a value is drawn, with this law,
  and the numbers that follow it are independent uniform numbers again, and independent of
  the value. So are the values that are drawn one after the other (`draws_sequence`);
* `RandomVar.draws_value`: so are those of a reciprocal that may be infinite.

Doubles are the reals here.
-/

namespace Ditg

open Sampler

section Model

variable {F : Type} [CMath F] [DecidableEq F]

/-- A program that throws. -/
def throws {α : Type} : Sampler F α := ofOption none

/-- Two numbers. -/
def twoNumbers : Sampler F (F × F) := do
  let r₁ ← number
  let r₂ ← number
  pure (r₁, r₂)

/-- Three numbers. -/
def threeNumbers : Sampler F (F × F × F) := do
  let r₁ ← number
  let r ← twoNumbers
  pure (r₁, r)

/-! ## Generators -/

/-- A turn of the loop of an automatic generator. -/
def turnOf (turn : F × F × F → Option (F × Bool)) : Sampler F (F × Bool) :=
  threeNumbers >>= fun r => ofOption (turn r)

/-- `PosGen::Next`. The arrays are built once, and are the same at any time. -/
def posNext (density : F → F) : Sampler F F :=
  match PosGen.build density false with
  | .error _ => throws
  | .ok g => doWhile (turnOf (g.turn density))

/-- `SymGen::Next`. -/
def symNext (density : F → F) : Sampler F F :=
  match PosGen.build density true with
  | .error _ => throws
  | .ok g => doWhile (turnOf (SymGen.turn density g))

/-- `AsymGen::Next`. -/
def asymNext (density : F → F) (mode : F) : Sampler F F :=
  match AsymGen.build density mode with
  | .error _ => throws
  | .ok g => doWhile (turnOf (g.turn density))

/-- The index that `DiscreteGen::Next` draws. -/
def indexNext {n : ℕ} (prob : Fin n → F) : Sampler F (Fin n) :=
  match DiscreteGen.gen prob with
  | .error _ => throws
  | .ok t => twoNumbers >>= fun u => ofOption (DiscreteGen.draw t u.1 u.2)

/-- `DiscreteGen::Next`. -/
def discreteNext {n : ℕ} (prob : Fin n → F) (val : Option (Fin n → F)) : Sampler F F :=
  indexNext prob >>= fun i => pure (DiscreteGen.value val i)

/-! ## Random variables -/

/-- `Exponential::Next`. -/
def exponentialNext (mean : F) : Sampler F F := do
  let rnd ← number
  pure (mean * CMath.log (((1 : ℤ) : F) / (((1 : ℤ) : F) - rnd)))

/-- `Gamma::Next`, for the generator that `Gamma::Gamma` chooses. -/
def gammaNext (alpha : F) : Sampler F F :=
  if alpha < ((1 : ℤ) : F) then
    posNext (gamma1Density alpha) >>= fun x => pure (CMath.pow x (((1 : ℤ) : F) / alpha))
  else if alpha = ((1 : ℤ) : F) then exponentialNext ((1 : ℤ) : F)
  else asymNext (gamma2Density alpha) (alpha - ((1 : ℤ) : F))

/-- `Poisson::Next`, for the generator that `Poisson::Poisson` chooses. -/
def poissonNext (mu : F) : Sampler F F :=
  if CDouble.Le mu ((8 : ℤ) : F) then discreteNext (fun i : Fin 40 => poisson2Prob mu i) none
  else asymNext (poisson1Density mu) mu >>= fun x => pure (CDouble.floor x)

/-- `Next()`. The constructor of `Pareto` throws when the shape is not positive. -/
def RandomVar.next : RandomVar F → Sampler F F
  | .constant value => pure value
  | .uniform => number
  | .exponential mean => exponentialNext mean
  | .pareto shape =>
    if CDouble.Le shape ((0 : ℤ) : F) then throws
    else number >>= fun u => pure (CMath.pow u (((-1 : ℤ) : F) / shape))
  | .cauchy => symNext cauchyDensity
  | .normal => symNext normalDensity
  | .poisson mean => poissonNext mean
  | .gamma shape => gammaNext shape
  | .weibull scale shape =>
    number >>= fun rnd =>
      pure (scale * CMath.pow (CMath.log (((1 : ℤ) : F) / rnd)) (((1 : ℤ) : F) / shape))
  | .student mu sigma nu => do
    let rnd1 ← gammaNext (nu * literal 5 10)
    let rnd2 ← symNext normalDensity
    pure (mu + sigma * (rnd2 * CMath.sqrt (nu / (((2 : ℤ) : F) * rnd1))))
  | .discrete prob val =>
    discreteNext (fun i : Fin prob.length => prob.get i)
      (val.map fun val i => val.getD i ((0 : ℤ) : F))
  | .mixed prob₁ prob₂ rv₁ rv₂ =>
    indexNext ![prob₁, prob₂] >>= ![rv₁.next, rv₂.next]
  | .scaled a rv => rv.next >>= fun x => pure (x * a)
  | .shifted rv b => rv.next >>= fun x => pure (x + b)
  -- The reciprocal of 0 is infinite, and no number.
  | .divided a rv =>
    rv.next >>= fun x => ofOption (if x = ((0 : ℤ) : F) then none else some (a / x))

/-- `a / x` for a positive `a`, which may be infinite. -/
def quotient (a x : F) : WithTop F := if x = ((0 : ℤ) : F) then ⊤ else ((a / x : F) : WithTop F)

/-- `Next()` of what a flow draws from, whose value may be infinite. -/
def RandomVar.value : RandomVar F → Sampler F (WithTop F)
  | .divided a rv => rv.next >>= fun x => pure (quotient a x)
  | rv => rv.next >>= fun x => pure (x : WithTop F)

end Model

/-! ## Generators, with real numbers -/

section Laws

open MeasureTheory ProbabilityTheory Set Density Staircase

/-- Two uniform numbers. -/
theorem draws_twoNumbers :
    Draws unitLaw twoNumbers (volume.restrict (Ico (0 : ℝ) 1 ×ˢ Ico (0 : ℝ) 1)) := by
  have hnumber : Draws unitLaw number unitLaw := draws_number
  have h := hnumber.map₂ hnumber (k := Prod.mk) measurable_id
  rw [Measure.volume_eq_prod, ← Measure.prod_restrict]
  simp only [Prod.mk.eta, Measure.map_id'] at h
  exact h

theorem draws_threeNumbers : Draws unitLaw threeNumbers uniformCube := by
  have h := draws_number.map₂ draws_twoNumbers (k := Prod.mk) measurable_id
  rw [uniformCube, Strips.cube, Measure.volume_eq_prod, ← Measure.prod_restrict]
  simp only [Prod.mk.eta, Measure.map_id'] at h
  exact h

/-- A loop of an automatic generator. -/
theorem Turns.draws {turn : ℝ × ℝ × ℝ → Option (ℝ × Bool)} {q : ENNReal} {f : ℝ → ENNReal}
    (h : Turns turn q f) : Draws unitLaw (doWhile (turnOf turn)) (normalized volume f) := by
  obtain ⟨A, hA, hturn⟩ := h
  exact draws_threeNumbers.reject hA hturn

theorem draws_posNext {density : ℝ → ℝ} (hanti : AntitoneOn density (Ici 0))
    (h : ∃ g, PosGen.build density false = .ok g) : Draws unitLaw (posNext density)
      (normalized volume ((Ici 0).indicator fun v => ENNReal.ofReal (density v))) := by
  obtain ⟨g, hg⟩ := h
  rw [posNext, hg]
  exact (posGen_turns hanti hg).draws

theorem draws_symNext {density : ℝ → ℝ} (hanti : AntitoneOn density (Ici 0))
    (h : ∃ g, PosGen.build density true = .ok g) : Draws unitLaw (symNext density)
      (normalized volume fun v => ENNReal.ofReal (density |v|)) := by
  obtain ⟨g, hg⟩ := h
  rw [symNext, hg]
  exact (symGen_turns hanti hg).draws

theorem draws_asymNext {density : ℝ → ℝ} {mode : ℝ} (hleft : MonotoneOn density (Iic mode))
    (hright : AntitoneOn density (Ici mode)) (h : ∃ g, AsymGen.build density mode = .ok g) :
    Draws unitLaw (asymNext density mode)
      (normalized volume fun v => ENNReal.ofReal (density v)) := by
  obtain ⟨g, hg⟩ := h
  rw [asymNext, hg]
  exact (asymGen_turns hleft hright hg).draws

/-- The law of the index that is drawn with an alias table. -/
noncomputable def indexLaw {n : ℕ} (prob : Fin n → ℝ) : Measure (Fin n) :=
  match DiscreteGen.gen prob with
  | .error _ => 0
  | .ok t => ∑ k, ENNReal.ofReal (t.mass k) • Measure.dirac k

theorem draws_indexNext {n : ℕ} {prob : Fin n → ℝ} (hn : 0 < n)
    (h : ∃ t, DiscreteGen.gen prob = .ok t) : Draws unitLaw (indexNext prob) (indexLaw prob) := by
  obtain ⟨t, ht⟩ := h
  have hn' : (0 : ℝ) < n := Nat.cast_pos.2 hn
  obtain ⟨-, -, -, hrest, -⟩ := DiscreteGen.of_gen_eq_ok hn ht
  have hS : MeasurableSet (Ico (0 : ℝ) 1 ×ˢ Ico (0 : ℝ) 1) :=
    measurableSet_Ico.prod measurableSet_Ico
  have hmeas (k : Fin n) :
      MeasurableSet {u ∈ Ico (0 : ℝ) 1 ×ˢ Ico (0 : ℝ) 1 | DiscreteGen.draw t u.1 u.2 = some k} := by
    rw [DiscreteGen.draw_eq_some_eq]
    exact t.measurableSet_pick hn' k
  have hmass (k : Fin n) : volume.restrict (Ico (0 : ℝ) 1 ×ˢ Ico (0 : ℝ) 1)
      {u ∈ Ico (0 : ℝ) 1 ×ˢ Ico (0 : ℝ) 1 | DiscreteGen.draw t u.1 u.2 = some k} =
        ENNReal.ofReal (t.mass k) := by
    rw [Measure.restrict_apply (hmeas k), inter_eq_left.2 (sep_subset _ _),
      DiscreteGen.draw_eq_some_eq, t.volume_pick hn']
  have hdraws := draws_twoNumbers.choose (g := fun u => DiscreteGen.draw t u.1 u.2) hS
    (ae_restrict_mem hS) hmeas fun u hu => by
      rw [DiscreteGen.draw_eq_pick hu]
      exact t.exists_pick hn' hrest hu
  simp only [hmass] at hdraws
  rw [indexNext, indexLaw, ht]
  exact hdraws

/-! ## Random variables -/

/-- The parameters of `Gamma` for which there is a distribution, and the arrays can be built. -/
def GammaValid (alpha : ℝ) : Prop :=
  0 < alpha ∧ (alpha < 1 → ∃ g, PosGen.build (gamma1Density alpha) false = .ok g) ∧
    (1 < alpha → ∃ g, AsymGen.build (gamma2Density alpha) (alpha - 1) = .ok g)

/-- Those of `Poisson`. -/
def PoissonValid (mu : ℝ) : Prop :=
  if mu ≤ ((8 : ℤ) : ℝ) then ∃ t, DiscreteGen.gen (fun i : Fin 40 => poisson2Prob mu i) = .ok t
  else ∃ g, AsymGen.build (poisson1Density mu) mu = .ok g

/-- The arrays of `Normal` can be built. -/
def NormalValid : Prop := ∃ g, PosGen.build (normalDensity : ℝ → ℝ) true = .ok g

/-- Those of `Cauchy`. -/
def CauchyValid : Prop := ∃ g, PosGen.build (cauchyDensity : ℝ → ℝ) true = .ok g

/-- The law of the values. -/
noncomputable def RandomVar.law : RandomVar ℝ → Measure ℝ
  | .constant value => Measure.dirac value
  | .uniform => unitLaw
  | .exponential mean => expMeasure (1 / mean)
  | .pareto shape => paretoMeasure 1 shape
  | .cauchy => cauchyLaw
  | .normal => normalLaw
  | .poisson mean =>
    if mean ≤ ((8 : ℤ) : ℝ) then
      (indexLaw fun i : Fin 40 => poissonMass mean i).map fun i : Fin 40 => ((i : ℕ) : ℝ)
    else poissonLaw mean
  | .gamma shape => gammaLaw shape
  | .weibull scale shape => (expMeasure 1).map fun x => scale * x ^ (1 / shape)
  | .student mu sigma nu => ((gammaLaw (nu * literal 5 10)).prod normalLaw).map
      fun p => mu + sigma * (p.2 * √(nu / (((2 : ℤ) : ℝ) * p.1)))
  | .discrete prob val => (indexLaw fun i => prob.get i).map
      (DiscreteGen.value (val.map fun val i => val.getD i 0))
  | .mixed prob₁ prob₂ rv₁ rv₂ =>
    indexLaw ![prob₁, prob₂] {0} • rv₁.law + indexLaw ![prob₁, prob₂] {1} • rv₂.law
  | .scaled a rv => rv.law.map (· * a)
  | .shifted rv b => rv.law.map (· + b)
  | .divided a rv => rv.law.map (a / ·)

/-- The parameters for which there is a distribution, and nothing throws. A variable with a
    reciprocal is almost surely not 0. -/
def RandomVar.Valid : RandomVar ℝ → Prop
  | .constant _ => True
  | .uniform => True
  | .exponential mean => 0 < mean
  | .pareto shape => 0 < shape
  | .cauchy => CauchyValid
  | .normal => NormalValid
  | .poisson mean => PoissonValid mean
  | .gamma shape => GammaValid shape
  | .weibull _ _ => True
  | .student _ _ nu => GammaValid (nu * literal 5 10) ∧ NormalValid
  | .discrete prob _ => prob ≠ [] ∧ ∃ t, DiscreteGen.gen (fun i => prob.get i) = .ok t
  | .mixed prob₁ prob₂ rv₁ rv₂ =>
    (∃ t, DiscreteGen.gen ![prob₁, prob₂] = .ok t) ∧ rv₁.Valid ∧ rv₂.Valid
  | .scaled _ rv => rv.Valid
  | .shifted rv _ => rv.Valid
  | .divided _ rv => rv.Valid ∧ rv.law {0} = 0

theorem draws_normal (h : NormalValid) : Draws unitLaw (symNext normalDensity) normalLaw := by
  have hdraws := draws_symNext antitoneOn_normalDensity h
  simpa only [normalDensity_abs, normalized_normalDensity] using hdraws

theorem draws_cauchy (h : CauchyValid) : Draws unitLaw (symNext cauchyDensity) cauchyLaw := by
  have hdraws := draws_symNext antitoneOn_cauchyDensity h
  simpa only [cauchyDensity_abs, normalized_cauchyDensity] using hdraws

theorem draws_exponential {mean : ℝ} (h : 0 < mean) :
    Draws unitLaw (exponentialNext mean) (expMeasure (1 / mean)) := by
  have hnumber : Draws unitLaw number unitLaw := draws_number
  have hdraws := hnumber.map (k := fun u => mean * Real.log (1 / (1 - u))) (by fun_prop)
  rw [map_exponential h] at hdraws
  simp only [exponentialNext, Int.cast_one]
  exact hdraws

theorem draws_gamma {alpha : ℝ} (h : GammaValid alpha) :
    Draws unitLaw (gammaNext alpha) (gammaLaw alpha) := by
  obtain ⟨hpos, hbuild, hbuild'⟩ := h
  simp only [gammaNext, Int.cast_one]
  rcases lt_trichotomy alpha 1 with hlt | rfl | hgt
  · rw [if_pos hlt, ← map_normalized_gamma1Density hpos hlt]
    exact (draws_posNext (antitoneOn_gamma1Density hpos) (hbuild hlt)).map
      (k := fun x => x ^ (1 / alpha)) (by fun_prop)
  · rw [if_neg (lt_irrefl 1), if_pos rfl]
    have hprob := isProbabilityMeasure_gammaMeasure one_pos one_pos
    rw [gammaLaw, gammaRange, if_neg (lt_irrefl 1), if_pos rfl, cond_univ]
    have hdraws := draws_exponential one_pos
    rwa [div_one] at hdraws
  · rw [if_neg hgt.not_gt, if_neg hgt.ne', ← normalized_gamma2Density hgt]
    exact draws_asymNext (monotoneOn_gamma2Density hgt) (antitoneOn_gamma2Density hgt) (hbuild' hgt)

theorem draws_discrete {n : ℕ} {prob : Fin n → ℝ} (hn : 0 < n)
    (h : ∃ t, DiscreteGen.gen prob = .ok t) (val : Option (Fin n → ℝ)) :
    Draws unitLaw (discreteNext prob val) ((indexLaw prob).map (DiscreteGen.value val)) :=
  (draws_indexNext hn h).map measurable_from_top

theorem draws_poisson {mu : ℝ} (h : PoissonValid mu) :
    Draws unitLaw (poissonNext mu) (RandomVar.poisson mu).law := by
  simp only [poissonNext, RandomVar.law, DiscreteGen.le_iff]
  rw [PoissonValid] at h
  split_ifs at h ⊢ with hmu
  · have hdraws := draws_discrete (by decide) h none
    simp only [poisson2Prob_eq] at hdraws ⊢
    exact hdraws
  · have hpos : 0 < mu := lt_trans (by norm_num) (not_le.1 hmu)
    have hdraws := (draws_asymNext (monotoneOn_poisson1Density hpos)
      (antitoneOn_poisson1Density hpos) h).map (k := fun x => ((⌊x⌋ : ℤ) : ℝ)) (by fun_prop)
    rw [map_normalized_poisson1Density hpos] at hdraws
    exact hdraws

/-- What a random variable draws. -/
theorem RandomVar.draws {rv : RandomVar ℝ} (h : rv.Valid) : Draws unitLaw rv.next rv.law := by
  have hnumber : Draws unitLaw number unitLaw := draws_number
  induction rv with
  | constant value => exact draws_pure value
  | uniform => exact hnumber
  | exponential mean => exact draws_exponential h
  | pareto shape =>
    have hdraws := hnumber.map (k := fun u => u ^ (-1 / shape)) (by fun_prop)
    rw [map_pareto h] at hdraws
    have hpos : ¬CDouble.Le shape 0 := mt DiscreteGen.le_iff.1 (not_le.2 h)
    simp only [next, Int.cast_zero, Int.cast_neg, Int.cast_one, if_neg hpos]
    exact hdraws
  | cauchy => exact draws_cauchy h
  | normal => exact draws_normal h
  | poisson mean => exact draws_poisson h
  | gamma shape => exact draws_gamma h
  | weibull scale shape =>
    have hdraws := hnumber.map (k := fun u => scale * Real.log (1 / u) ^ (1 / shape)) (by fun_prop)
    have hcomp : (fun u => scale * Real.log (1 / u) ^ (1 / shape)) =
        (fun x => scale * x ^ (1 / shape)) ∘ fun u => Real.log (1 / u) := rfl
    rw [hcomp, ← Measure.map_map (by fun_prop) (by fun_prop), map_weibull] at hdraws
    simp only [next, Int.cast_one]
    exact hdraws
  | student mu sigma nu =>
    exact (draws_gamma h.1).map₂ (draws_normal h.2)
      (k := fun g n => mu + sigma * (n * √(nu / (((2 : ℤ) : ℝ) * g)))) (by fun_prop)
  | discrete prob val =>
    have hdraws := draws_discrete (List.length_pos_iff.2 h.1) h.2
      (val.map fun val i => val.getD i 0)
    simp only [next, Int.cast_zero]
    exact hdraws
  | mixed prob₁ prob₂ rv₁ rv₂ ih₁ ih₂ =>
    have hgen : ∃ t, DiscreteGen.gen ![prob₁, prob₂] = .ok t := h.1
    have hlaws : ∀ i, Draws unitLaw (![rv₁.next, rv₂.next] i) (![rv₁.law, rv₂.law] i) :=
      Fin.forall_fin_two.2 ⟨ih₁ h.2.1, ih₂ h.2.2⟩
    have hdraws := (draws_indexNext (by decide) hgen).bind hlaws
    rw [Fin.sum_univ_two] at hdraws
    exact hdraws
  | scaled a rv ih => exact (ih h).map (measurable_mul_const a)
  | shifted rv b ih => exact (ih h).map (measurable_add_const b)
  | divided a rv ih =>
    refine (ih h.1).ofOption (measurable_const.div measurable_id) ?_
    filter_upwards [measure_eq_zero_iff_ae_notMem.1 h.2] with x hx
    rw [Int.cast_zero, if_neg (mt mem_singleton_iff.2 hx)]

/-- The parameters for which a flow can draw from a variable. -/
def RandomVar.ValueValid : RandomVar ℝ → Prop
  | .divided a rv => 0 < a ∧ rv.Valid
  | rv => rv.Valid

/-- The law of what it draws. -/
noncomputable def RandomVar.valueLaw : RandomVar ℝ → Measure (WithTop ℝ)
  | .divided a rv => rv.law.map (quotient a)
  | rv => rv.law.map (↑)

theorem measurable_quotient (a : ℝ) : Measurable (quotient a) := by
  refine Measurable.ite ?_ measurable_const ?_
  · rw [Int.cast_zero]
    exact measurableSet_singleton 0
  · exact (measurable_const.div measurable_id).withTop_coe

theorem RandomVar.draws_value {rv : RandomVar ℝ} (h : rv.ValueValid) :
    Draws unitLaw rv.value rv.valueLaw := by
  cases rv with
  | divided a rv => exact (RandomVar.draws h.2).map (measurable_quotient a)
  | _ => exact (RandomVar.draws h).map WithTop.measurable_coe

/-- Whatever variables are drawn from, in whatever order: the values are independent, and every one
    has the law of its variable. -/
theorem draws_sequence {n : ℕ} {rv : Fin n → RandomVar ℝ} (h : ∀ i, (rv i).Valid) :
    Draws unitLaw (sequence fun i => (rv i).next) (Measure.pi fun i => (rv i).law) :=
  .sequence fun i => RandomVar.draws (h i)

/-- A size for `DNS`, and a time for `Quake3`. -/
theorem draws_sequence_dns_quake : Draws unitLaw
    (sequence fun i => (![dnsParser.PktSize.random, QuakeParser.IntArriv.random] i).next)
    (Measure.pi fun i => (![dnsParser.PktSize.random, QuakeParser.IntArriv.random] i).law) := by
  refine draws_sequence (Fin.forall_fin_two.2 ⟨trivial, ?_, ?_, trivial⟩)
  · have hnonneg : ∀ k, 0 ≤ ![(literal 6 10 : ℝ), literal 4 10] k :=
      Fin.forall_fin_two.2 ⟨by norm_num [literal], by norm_num [literal]⟩
    obtain ⟨t, ht, -⟩ := DiscreteGen.exists_gen_exact hnonneg
      (by norm_num [Fin.sum_univ_two, literal])
    exact ⟨t, ht⟩
  · norm_num [RandomVar.Valid, literal]

end Laws

end Ditg
