import Mathlib.MeasureTheory.Constructions.BorelSpace.Order
import Mathlib.MeasureTheory.Constructions.Pi
import Mathlib.MeasureTheory.Function.Floor
import Mathlib.MeasureTheory.Integral.Lebesgue.Map
import Mathlib.MeasureTheory.Measure.Lebesgue.Basic
import Mathlib.Tactic.FieldSimp
import Mathlib.Tactic.Linarith

/-!
# Drawing by rejection

A value with a given density is drawn by attempts, until one of them gives a value.

* `Rejection.measure_draws`: what is drawn by at most `N` independent attempts, if an
  attempt may fail.
* `Rejection.Law`: what is drawn has a density, which need not be normalised. It has, if what an
  attempt gives has (`Rejection.Attempts.law`).
* `Strips`: strips of the same area, which together cover the region below a density. An
  attempt chooses a strip, and a point in it, and gives the abscissa of the point if the point is
  below the density (`Strips.attempt`); it does so with the density, over the area
  of the strips (`Strips.volume_attempt`).
-/

open Filter MeasureTheory Set Topology

namespace Rejection

variable {Ω β : Type*} {A : Ω → Option β}

/-- The attempts that give a value of `B`. -/
def Gives (A : Ω → Option β) (B : Set β) : Set Ω := {ω | ∃ v ∈ B, A ω = some v}

/-- The attempts that fail. -/
def Fails (A : Ω → Option β) : Set Ω := {ω | A ω = none}

/-- An attempt gives a value or fails. -/
theorem fails_eq_compl : Fails A = compl (Gives A univ) := by
  ext ω
  cases h : A ω <;> simp [Fails, Gives, h]

variable [MeasurableSpace Ω] {μ : Measure Ω} [IsProbabilityMeasure μ]

theorem measure_fails (h : MeasurableSet (Gives A univ)) : μ (Fails A) = 1 - μ (Gives A univ) := by
  rw [fails_eq_compl, prob_compl_eq_one_sub h]

/-- The numbers of `N` attempts for which a value of `B` is drawn. -/
def Draws (A : Ω → Option β) (B : Set β) (N : ℕ) : Set (Fin N → Ω) :=
  {ω | ∃ v ∈ B, (List.ofFn ω).findSome? A = some v}

omit [MeasurableSpace Ω] in
/-- The first attempt gives the value, or it fails and the others give it. -/
theorem mem_draws_succ {B : Set β} {N : ℕ} {ω : Fin (N + 1) → Ω} : ω ∈ Draws A B (N + 1) ↔
    ω 0 ∈ Gives A B ∨ ω 0 ∈ Fails A ∧ (fun i => ω (Fin.succAbove 0 i)) ∈ Draws A B N := by
  simp only [Draws, Gives, Fails, mem_ofPred_eq, List.ofFn_succ, List.findSome?_cons,
    Fin.succAbove_zero]
  cases A (ω 0) with
  | none => simp
  | some v => simp

/-- The probability that at most `N` attempts draw a value of `B`, if one attempt does with the
    probability `p B`: all attempts before it have failed. -/
noncomputable def upTo (p : Set β → ENNReal) (N : ℕ) (B : Set β) : ENNReal :=
  (∑ k ∈ Finset.range N, (1 - p univ) ^ k) * p B

/-- What the first of `N` independent attempts that does not fail gives. -/
theorem measure_draws {B : Set β} (hB : MeasurableSet (Gives A B))
    (h : MeasurableSet (Gives A univ)) (N : ℕ) :
    Measure.pi (fun _ : Fin N => μ) (Draws A B N) = upTo (fun B => μ (Gives A B)) N B := by
  unfold upTo
  induction N with
  | zero => simp [Draws]
  | succ N ih =>
    have he := measurePreserving_piFinSuccAbove (fun _ : Fin (N + 1) => μ) 0
    have hsplit : Draws A B (N + 1) = preimage (MeasurableEquiv.piFinSuccAbove (fun _ => Ω) 0)
        (Gives A B ×ˢ univ ∪ Fails A ×ˢ Draws A B N) := by
      ext ω
      rw [mem_draws_succ, mem_preimage, mem_union, mem_prod, mem_prod]
      simp only [mem_univ, and_true]
      rfl
    have hdisj : Disjoint (Gives A B ×ˢ (univ : Set (Fin N → Ω))) (Fails A ×ˢ Draws A B N) := by
      refine disjoint_left.2 ?_
      rintro ω ⟨⟨v, -, hv⟩, -⟩ ⟨hfail, -⟩
      exact Option.some_ne_none v (hv.symm.trans hfail)
    rw [hsplit, he.measure_preimage_equiv, measure_union' hdisj (hB.prod .univ), Measure.prod_prod,
      Measure.prod_prod, measure_univ, mul_one, ih, measure_fails h, Finset.sum_range_succ',
      pow_zero, add_mul, one_mul, add_comm]
    congr 1
    rw [← mul_assoc, Finset.mul_sum]
    simp only [pow_succ']

/-- With more and more attempts. -/
theorem tendsto_upTo {p : Set β → ENNReal} (h : p univ ≤ 1) (B : Set β) :
    Tendsto (fun N => upTo p N B) atTop (𝓝 (p B / p univ)) := by
  have hgeom := ENNReal.tendsto_nat_tsum fun k => (1 - p univ) ^ k
  rw [ENNReal.tsum_geometric, ENNReal.sub_sub_cancel ENNReal.one_ne_top h] at hgeom
  rw [ENNReal.div_eq_inv_mul]
  have hne : (p univ)⁻¹ ≠ 0 := ENNReal.inv_ne_zero.2 (ne_top_of_le_ne_top ENNReal.one_ne_top h)
  exact ENNReal.Tendsto.mul_const hgeom (.inl hne)

/-- `P N` is the law of what at most `N` attempts draw: an attempt gives a value with probability
    `q * ∫⁻ v, f v`, and the values have the density `f`, but for a constant. -/
structure Law (P : ℕ → Set ℝ → ENNReal) (q : ENNReal) (f : ℝ → ENNReal) : Prop where
  ne_zero : ∫⁻ v, f v ≠ 0
  ne_top : ∫⁻ v, f v ≠ ⊤
  eq_upTo : ∀ N {B}, MeasurableSet B → P N B = upTo (fun B => q * ∫⁻ v in B, f v) N B
  tendsto : ∀ {B}, MeasurableSet B →
    Tendsto (fun N => P N B) atTop (𝓝 ((∫⁻ v in B, f v) / ∫⁻ v, f v))

/-- An attempt gives a value with the density `f`, but for the factor `q`. -/
structure Attempts (μ : Measure Ω) (A : Ω → Option ℝ) (q : ENNReal) (f : ℝ → ENNReal) :
    Prop where
  ne_zero : ∫⁻ v, f v ≠ 0
  factor_ne_zero : q ≠ 0
  factor_ne_top : q ≠ ⊤
  measurable : ∀ {B}, MeasurableSet B → MeasurableSet (Gives A B)
  gives : ∀ {B}, MeasurableSet B → μ (Gives A B) = q * ∫⁻ v in B, f v

section Attempts

variable {A : Ω → Option ℝ} {q : ENNReal} {f : ℝ → ENNReal}

theorem Attempts.le_one (h : Attempts μ A q f) : q * ∫⁻ v, f v ≤ 1 := by
  rw [← setLIntegral_univ, ← h.gives .univ]
  exact prob_le_one

theorem Attempts.ne_top (h : Attempts μ A q f) : ∫⁻ v, f v ≠ ⊤ := fun htop => by
  have hle := h.le_one
  rw [htop, ENNReal.mul_top h.factor_ne_zero] at hle
  exact absurd hle (not_le.2 ENNReal.one_lt_top)

omit [IsProbabilityMeasure μ] in
theorem Attempts.measurable_isSome (h : Attempts μ A q f) : Measurable fun ω => (A ω).isSome := by
  refine measurable_to_bool ?_
  convert h.measurable .univ using 1
  ext ω
  simp [Gives, Option.isSome_iff_exists]

omit [IsProbabilityMeasure μ] in
theorem Attempts.measurable_getD (h : Attempts μ A q f) (d : ℝ) :
    Measurable fun ω => (A ω).getD d := fun B hB => by
  by_cases hd : d ∈ B
  · convert (h.measurable hB).union (h.measurable .univ).compl using 1
    ext ω
    cases hA : A ω <;> simp [Gives, hA, hd]
  · convert h.measurable hB using 1
    ext ω
    cases hA : A ω <;> simp [Gives, hA, hd]

/-- The law in the limit comes from those of finitely many attempts. -/
theorem Attempts.law (h : Attempts μ A q f) {P : ℕ → Set ℝ → ENNReal}
    (hP : ∀ N B, P N B = Measure.pi (fun _ : Fin N => μ) (Draws A B N)) : Law P q f := by
  have heq : ∀ N {B}, MeasurableSet B → P N B = upTo (fun B => q * ∫⁻ v in B, f v) N B := by
    intro N B hB
    rw [hP, measure_draws (h.measurable hB) (h.measurable .univ), upTo, upTo, h.gives hB,
      h.gives .univ]
  refine ⟨h.ne_zero, h.ne_top, heq, fun {B} hB => ?_⟩
  have hle : q * ∫⁻ v in univ, f v ≤ 1 := by
    rw [setLIntegral_univ]
    exact h.le_one
  have hlim := tendsto_upTo (p := fun B => q * ∫⁻ v in B, f v) hle B
  simp only [ENNReal.mul_div_mul_left _ _ h.factor_ne_zero h.factor_ne_top,
    setLIntegral_univ] at hlim
  simpa only [heq _ hB] using hlim

end Attempts

/-! ## Strips -/

/-- One of `n` numbers, all alike, for a number of the unit interval. -/
noncomputable def column (n : ℕ) (r : ℝ) : Option (Fin n) :=
  if h : ⌊n * r⌋₊ < n then some ⟨⌊n * r⌋₊, h⟩ else none

theorem column_eq_some {n : ℕ} {r : ℝ} (hr : 0 ≤ r) {k : Fin n} :
    column n r = some k ↔ r ∈ Ico ((k : ℕ) / n : ℝ) (((k : ℕ) + 1) / n) := by
  have hn : (0 : ℝ) < n := Nat.cast_pos.2 k.pos
  have hfloor : ⌊n * r⌋₊ = k ↔ r ∈ Ico ((k : ℕ) / n : ℝ) (((k : ℕ) + 1) / n) := by
    rw [Nat.floor_eq_iff (mul_nonneg hn.le hr), mem_Ico, div_le_iff₀' hn, lt_div_iff₀' hn]
  rw [← hfloor, column]
  constructor
  · intro h
    split_ifs at h
    exact congrArg Fin.val (Option.some_inj.1 h)
  · intro h
    rw [dif_pos (h ▸ k.isLt)]
    exact congrArg some (Fin.ext h)

/-- For a number of the unit interval, there is a column. -/
theorem exists_column {n : ℕ} (hn : 0 < n) {r : ℝ} (hr : r ∈ Ico (0 : ℝ) 1) :
    ∃ k, column n r = some k ∧ ⌊n * r⌋ = k := by
  have hn' : (0 : ℝ) < n := Nat.cast_pos.2 hn
  have hnonneg : 0 ≤ (n : ℝ) * r := mul_nonneg hn'.le hr.1
  have hlt : ⌊n * r⌋₊ < n := (Nat.floor_lt hnonneg).2 (by nlinarith [hr.2])
  refine ⟨⟨⌊n * r⌋₊, hlt⟩, dif_pos hlt, ?_⟩
  exact (Int.natCast_floor_eq_floor hnonneg).symm

theorem measurableSet_column (n : ℕ) (k : Fin n) {f : ℝ → ℝ} (hf : Measurable f) :
    MeasurableSet {r | column n (f r) = some k} := by
  have heq : {r | column n (f r) = some k} = preimage (fun r => ⌊n * f r⌋₊) {(k : ℕ)} := by
    ext r
    simp only [mem_ofPred_eq, mem_preimage, mem_singleton_iff, column]
    constructor
    · intro h
      split_ifs at h
      exact congrArg Fin.val (Option.some_inj.1 h)
    · intro h
      rw [dif_pos (h ▸ k.isLt)]
      exact congrArg some (Fin.ext h)
  rw [heq]
  exact (Nat.measurable_floor.comp (hf.const_mul _)) (measurableSet_singleton _)

/-- All columns have the same probability. -/
theorem volume_column (n : ℕ) (k : Fin n) :
    volume {r ∈ Ico (0 : ℝ) 1 | column n r = some k} = ENNReal.ofReal (1 / n) := by
  have hn : (0 : ℝ) < n := Nat.cast_pos.2 k.pos
  have hk : ((k : ℕ) : ℝ) + 1 ≤ n := by exact_mod_cast k.isLt
  have heq : {r ∈ Ico (0 : ℝ) 1 | column n r = some k} =
      Ico ((k : ℕ) / n : ℝ) (((k : ℕ) + 1) / n) := by
    ext r
    constructor
    · rintro ⟨hr, h⟩
      exact (column_eq_some hr.1).1 h
    · intro h
      have hr₀ : 0 ≤ r := (div_nonneg (Nat.cast_nonneg _) hn.le).trans h.1
      exact ⟨⟨hr₀, h.2.trans_le ((div_le_one hn).2 hk)⟩, (column_eq_some hr₀).2 h⟩
  rw [heq, Real.volume_Ico, ← sub_div, add_sub_cancel_left]

end Rejection

/-- Strips of the same area: the strip `i` goes from `x i` to `x i + w i`, in either
    direction, and has the height `h i`. -/
structure Strips (ι : Type*) where
  x : ι → ℝ
  w : ι → ℝ
  h : ι → ℝ
  area : ℝ
  area_pos : 0 < area
  h_pos : ∀ i, 0 < h i
  abs_w_mul_h : ∀ i, |w i| * h i = area

namespace Strips

variable {ι : Type*} (S : Strips ι)

/-- The abscissa of a point of a strip, for a number of the unit interval. -/
def point (i : ι) (r : ℝ) : ℝ := S.x i + S.w i * r

/-- The abscissas of a strip. -/
def interval (i : ι) : Set ℝ := {v | (v - S.x i) / S.w i ∈ Ico (0 : ℝ) 1}

/-- An attempt: `c` chooses the strip for the first number, the other ones are for the point,
    and `d i` is the density in the strip `i`. -/
noncomputable def attempt (c : ℝ → Option ι) (d : ι → ℝ → ℝ) (r : ℝ × ℝ × ℝ) : Option ℝ :=
  (c r.1).bind fun i =>
    if S.h i * r.2.2 < d i (S.point i r.2.1) then some (S.point i r.2.1) else none

theorem w_ne_zero (i : ι) : S.w i ≠ 0 := fun hw => by
  have := S.abs_w_mul_h i
  rw [hw, abs_zero, zero_mul] at this
  exact S.area_pos.ne this

theorem measurableSet_interval (i : ι) : MeasurableSet (S.interval i) :=
  measurableSet_Ico.preimage (by fun_prop)

/-- The points of a strip are above its interval. -/
theorem point_mem_interval {i : ι} {r : ℝ} : S.point i r ∈ S.interval i ↔ r ∈ Ico (0 : ℝ) 1 := by
  rw [interval, mem_ofPred_eq, point, add_sub_cancel_left, mul_div_cancel_left₀ _ (S.w_ne_zero i)]

/-- A uniform number gives a uniform point of a strip. -/
theorem lintegral_point (i : ι) {f : ℝ → ENNReal} (hf : Measurable f) :
    ∫⁻ r, f (S.point i r) = ENNReal.ofReal |(S.w i)⁻¹| * ∫⁻ v, f v := by
  have hmap : Measure.map (S.point i) volume = ENNReal.ofReal |(S.w i)⁻¹| • volume := by
    have hcomp : S.point i = (S.x i + ·) ∘ (S.w i * ·) := rfl
    rw [hcomp, ← Measure.map_map (by fun_prop) (by fun_prop),
      Real.map_volume_mul_left (S.w_ne_zero i), Measure.map_smul, map_add_left_eq_self]
  rw [← lintegral_map hf (by unfold point; fun_prop), hmap, lintegral_smul_measure, smul_eq_mul]

section Attempt

variable {c : ℝ → Option ι} {B : Set ℝ}

/-- The pairs of numbers for which a point of the strip is accepted, with its abscissa in `B`. -/
def accepted (d : ℝ → ℝ) (B : Set ℝ) (i : ι) : Set (ℝ × ℝ) :=
  {r ∈ Ico (0 : ℝ) 1 ×ˢ Ico (0 : ℝ) 1 |
    S.point i r.1 ∈ B ∧ S.h i * r.2 < d (S.point i r.1)}

theorem measurableSet_accepted {d : ℝ → ℝ} (hd : Measurable d) (hB : MeasurableSet B) (i : ι) :
    MeasurableSet (S.accepted d B i) := by
  have hpoint : Measurable fun r : ℝ × ℝ => S.point i r.1 := by unfold point; fun_prop
  refine (measurableSet_Ico.prod measurableSet_Ico).inter ((hB.preimage hpoint).inter ?_)
  exact measurableSet_lt (by fun_prop) (hd.comp hpoint)

/-- The probability that a point of the strip is accepted, with its abscissa in `B`. -/
theorem volume_accepted {d : ℝ → ℝ} (hd : Measurable d) (hB : MeasurableSet B) (i : ι)
    (hle : ∀ v ∈ S.interval i, d v ≤ S.h i) : volume (S.accepted d B i) =
      ENNReal.ofReal S.area⁻¹ * ∫⁻ v in B ∩ S.interval i, ENNReal.ofReal (d v) := by
  have hslice (r : ℝ) : volume (preimage (Prod.mk r) (S.accepted d B i)) =
      (B ∩ S.interval i).indicator (fun v => ENNReal.ofReal (d v / S.h i)) (S.point i r) := by
    by_cases hr : S.point i r ∈ B ∩ S.interval i
    · have hle' := hle _ hr.2
      have hmem := S.point_mem_interval.1 hr.2
      have hdiv : d (S.point i r) / S.h i ≤ 1 := (div_le_one (S.h_pos i)).2 hle'
      have : preimage (Prod.mk r) (S.accepted d B i) = Ico 0 (d (S.point i r) / S.h i) := by
        ext y
        constructor
        · rintro ⟨⟨-, hy⟩, -, hlt⟩
          exact ⟨hy.1, (lt_div_iff₀' (S.h_pos i)).2 hlt⟩
        · rintro ⟨hy, hlt⟩
          exact ⟨⟨hmem, hy, hlt.trans_le hdiv⟩, hr.1, (lt_div_iff₀' (S.h_pos i)).1 hlt⟩
      rw [this, indicator_of_mem hr, Real.volume_Ico, sub_zero]
    · have : preimage (Prod.mk r) (S.accepted d B i) = ∅ := by
        refine eq_empty_of_forall_notMem ?_
        rintro y ⟨⟨hr', -⟩, hB, -⟩
        exact hr ⟨hB, S.point_mem_interval.2 hr'⟩
      rw [this, indicator_of_notMem hr, measure_empty]
  have hmeas : MeasurableSet (B ∩ S.interval i) := hB.inter (S.measurableSet_interval i)
  have hf : Measurable fun v => ENNReal.ofReal (d v / S.h i) := by fun_prop
  rw [Measure.volume_eq_prod, Measure.prod_apply (S.measurableSet_accepted hd hB i)]
  simp only [hslice]
  rw [S.lintegral_point i (hf.indicator hmeas), lintegral_indicator hmeas]
  simp only [div_eq_inv_mul, ENNReal.ofReal_mul (inv_nonneg.2 (S.h_pos i).le)]
  rw [lintegral_const_mul _ (by fun_prop), ← mul_assoc, ← ENNReal.ofReal_mul (abs_nonneg _),
    ← S.abs_w_mul_h i, mul_inv, abs_inv]

/-- The attempts that give a value of `B`, by the strip that is chosen. -/
theorem gives_eq_iUnion (c : ℝ → Option ι) (d : ι → ℝ → ℝ) (B : Set ℝ) :
    Rejection.Gives (S.attempt c d) B = ⋃ i, {r | c r = some i} ×ˢ
      {r | S.point i r.1 ∈ B ∧ S.h i * r.2 < d i (S.point i r.1)} := by
  ext r
  simp only [Rejection.Gives, attempt, mem_ofPred_eq, mem_iUnion, mem_prod,
    Option.bind_eq_some_iff]
  constructor
  · rintro ⟨v, hv, i, hi, hif⟩
    split_ifs at hif with hlt
    obtain rfl := Option.some_inj.1 hif
    exact ⟨i, hi, hv, hlt⟩
  · rintro ⟨i, hi, hv, hlt⟩
    exact ⟨_, hv, i, hi, if_pos hlt⟩

/-- The unit cube. -/
def cube : Set (ℝ × ℝ × ℝ) := Ico 0 1 ×ˢ (Ico 0 1 ×ˢ Ico 0 1)

theorem gives_inter_cube (c : ℝ → Option ι) (d : ι → ℝ → ℝ) (B : Set ℝ) :
    Rejection.Gives (S.attempt c d) B ∩ cube =
      ⋃ i, {r ∈ Ico (0 : ℝ) 1 | c r = some i} ×ˢ S.accepted (d i) B i := by
  rw [gives_eq_iUnion, iUnion_inter]
  refine iUnion_congr fun i => ?_
  rw [cube, prod_inter_prod]
  congr 1
  · exact inter_comm _ _
  · exact inter_comm _ _

variable [Fintype ι] {d : ι → ℝ → ℝ} {q : ENNReal}

theorem measurableSet_gives (hc : ∀ i, MeasurableSet {r | c r = some i})
    (hd : ∀ i, Measurable (d i)) (hB : MeasurableSet B) :
    MeasurableSet (Rejection.Gives (S.attempt c d) B) := by
  rw [gives_eq_iUnion]
  refine .iUnion fun i => (hc i).prod ?_
  have hpoint : Measurable fun r : ℝ × ℝ => S.point i r.1 := by unfold point; fun_prop
  exact (hB.preimage hpoint).inter (measurableSet_lt (by fun_prop) ((hd i).comp hpoint))

/-- An attempt gives a value of `B` with the density, over the area of all strips, if all strips are
    chosen with the same probability. -/
theorem volume_attempt (hc : ∀ i, MeasurableSet {r | c r = some i})
    (hq : ∀ i, volume {r ∈ Ico (0 : ℝ) 1 | c r = some i} = q) (hd : ∀ i, Measurable (d i))
    (hB : MeasurableSet B) (hle : ∀ i, ∀ v ∈ S.interval i, d i v ≤ S.h i) :
    volume (Rejection.Gives (S.attempt c d) B ∩ cube) =
      q * ENNReal.ofReal S.area⁻¹ * ∑ i, ∫⁻ v in B ∩ S.interval i, ENNReal.ofReal (d i v) := by
  have hdisj : Pairwise (Function.onFun Disjoint fun i =>
      {r ∈ Ico (0 : ℝ) 1 | c r = some i} ×ˢ S.accepted (d i) B i) := by
    intro i j hij
    refine disjoint_left.2 ?_
    rintro r ⟨⟨-, hi⟩, -⟩ ⟨⟨-, hj⟩, -⟩
    exact hij (Option.some_inj.1 (hi.symm.trans hj))
  rw [gives_inter_cube, measure_iUnion hdisj fun i =>
    (measurableSet_Ico.inter (hc i)).prod (S.measurableSet_accepted (hd i) hB i), tsum_fintype,
    Finset.mul_sum]
  refine Finset.sum_congr rfl fun i _ => ?_
  rw [Measure.volume_eq_prod, Measure.prod_prod, hq, S.volume_accepted (hd i) hB i (hle i),
    mul_assoc]

end Attempt

end Strips
