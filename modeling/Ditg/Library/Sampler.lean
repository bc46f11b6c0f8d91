import Ditg.Library.Densities
import Ditg.Library.Rejection
import Mathlib.Probability.ProductMeasure

/-!
# Programs that draw numbers

A program (`Sampler`) takes numbers from a generator, one after the other, and gives a value. It
may have no result: because it fails, or because its loops need more turns than there is fuel for.

* `Sampler.Draws`: if the numbers are independent, all with the law `μ`, then the program almost
  surely ends; its values have the law `ν`, and the numbers that are left are independent numbers
  with the law `μ` again, and independent of the value.
* `Draws.map`, `Draws.bind`, `Draws.map₂`, `Draws.doWhile`: what programs put together from
  others draw. A loop draws what a turn does that ends it.
* `Draws.reject`: what a loop draws whose turns are attempts (`Rejection.Attempts`).
* `Draws.sequence`: what is drawn one after the other is independent.
-/

open Filter MeasureTheory Set

universe u v

/-- A program that draws numbers, for its fuel and the numbers: its value and the numbers left. -/
def Sampler (Ω : Type u) (α : Type v) := ℕ → (ℕ → Ω) → Option (α × (ℕ → Ω))

namespace Sampler

section Programs

variable {Ω : Type u} {α β : Type v}

/-- The first number, and the others. -/
def split (ω : ℕ → Ω) : Ω × (ℕ → Ω) := (ω 0, fun n => ω (n + 1))

/-- The next number. -/
def number : Sampler Ω Ω := fun _ ω => some (split ω)

/-- A value that there may be. -/
def ofOption (x : Option α) : Sampler Ω α := fun _ ω => x.map (·, ω)

instance instMonad : Monad (Sampler.{u, v} Ω) where
  pure a := fun _ ω => some (a, ω)
  bind s t := fun N ω => (s N ω).bind fun r => t r.1 N r.2

/-- So many turns of a loop, until one of them ends it. -/
def turns (turn : Sampler Ω (α × Bool)) (N : ℕ) : ℕ → (ℕ → Ω) → Option (α × (ℕ → Ω))
  | 0, _ => none
  | n + 1, ω => (turn N ω).bind fun r => if r.1.2 then some (r.1.1, r.2) else turns turn N n r.2

/-- A loop, which gives the value of the turn that ends it. -/
def doWhile (turn : Sampler Ω (α × Bool)) : Sampler Ω α := fun N ω => turns turn N N ω

/-- The values of programs, one after the other. -/
def sequence : {n : ℕ} → (Fin n → Sampler Ω α) → Sampler Ω (Fin n → α)
  | 0, _ => pure Fin.elim0
  | _ + 1, s => do
    let a ← s 0
    let as ← sequence fun i => s i.succ
    pure (Fin.cons a as)

theorem bind_apply (s : Sampler Ω α) (t : α → Sampler Ω β) (N : ℕ) (ω : ℕ → Ω) :
    (s >>= t) N ω = (s N ω).bind fun r => t r.1 N r.2 := rfl

end Programs

/-! ## Independent numbers -/

section Numbers

variable {Ω : Type u} [MeasurableSpace Ω] (μ : Measure Ω) [IsProbabilityMeasure μ]

/-- Independent numbers, all with the law `μ`. -/
noncomputable def numbers : Measure (ℕ → Ω) := Measure.infinitePi fun _ => μ

instance instIsProbabilityMeasureNumbers : IsProbabilityMeasure (numbers μ) :=
  inferInstanceAs (IsProbabilityMeasure (Measure.infinitePi fun _ => μ))

/-- It is enough to know the first numbers. -/
theorem eq_numbers {ν : Measure (ℕ → Ω)} (h : ∀ n (t : ℕ → Set Ω), (∀ i, MeasurableSet (t i)) →
    ν {ω | ∀ i < n, ω i ∈ t i} = ∏ i ∈ Finset.range n, μ (t i)) : ν = numbers μ := by
  classical
  refine Measure.eq_infinitePi _ fun s t ht => ?_
  obtain ⟨n, hn⟩ := s.exists_nat_subset_range
  -- The other numbers may be anything.
  have hall := h n (fun i => if i ∈ s then t i else univ) fun i => by
    split_ifs
    · exact ht i
    · exact .univ
  have heq : {ω : ℕ → Ω | ∀ i < n, ω i ∈ if i ∈ s then t i else univ} = Set.pi s t := by
    ext ω
    simp only [mem_ofPred_eq, Set.mem_pi, Finset.mem_coe]
    refine ⟨fun hω i hi => ?_, fun hω i _ => ?_⟩
    · simpa [hi] using hω i (Finset.mem_range.1 (hn hi))
    · split_ifs with hi
      · exact hω i hi
      · exact mem_univ _
  rw [heq] at hall
  rw [hall, ← Finset.prod_subset hn fun i _ hi => by rw [if_neg hi, measure_univ]]
  exact Finset.prod_congr rfl fun i hi => by rw [if_pos hi]

theorem measurable_split : Measurable (split : (ℕ → Ω) → Ω × (ℕ → Ω)) :=
  (measurable_pi_apply 0).prodMk (measurable_pi_lambda _ fun n => measurable_pi_apply (n + 1))

/-- Numbers, with one put in front of them. -/
def join (p : Ω × (ℕ → Ω)) : ℕ → Ω
  | 0 => p.1
  | n + 1 => p.2 n

theorem measurable_join : Measurable (join : Ω × (ℕ → Ω) → ℕ → Ω) := by
  refine measurable_pi_lambda _ fun n => ?_
  cases n with
  | zero => exact measurable_fst
  | succ n => exact (measurable_pi_apply n).comp measurable_snd

/-- One more number is independent of the others. -/
theorem map_join : Measure.map join (μ.prod (numbers μ)) = numbers μ := by
  refine eq_numbers μ fun n t ht => ?_
  have hmeas : MeasurableSet {ω : ℕ → Ω | ∀ i < n, ω i ∈ t i} := by
    simp only [ofPred_forall]
    exact .iInter fun i => .iInter fun _ => measurable_pi_apply i (ht i)
  rw [Measure.map_apply measurable_join hmeas]
  cases n with
  | zero => simp
  | succ n =>
    have heq : preimage join {ω : ℕ → Ω | ∀ i < n + 1, ω i ∈ t i} =
        t 0 ×ˢ Set.pi (Finset.range n) fun i => t (i + 1) := by
      ext p
      simp only [mem_preimage, mem_ofPred_eq, Nat.forall_lt_succ_left, mem_prod, Set.mem_pi,
        Finset.coe_range, mem_Iio]
      rfl
    rw [heq, Measure.prod_prod, numbers, Measure.infinitePi_pi _ fun i _ => ht (i + 1),
      Finset.prod_range_succ', mul_comm]

/-- The first number and the others are independent. -/
theorem measurePreserving_split :
    MeasurePreserving split (numbers μ) (μ.prod (numbers μ)) := by
  refine ⟨measurable_split, ?_⟩
  conv_lhs => rw [← map_join μ]
  rw [Measure.map_map measurable_split measurable_join]
  exact Measure.map_id

end Numbers

/-! ## What programs draw -/

section Laws

variable {Ω : Type u} [MeasurableSpace Ω] {μ : Measure Ω} [IsProbabilityMeasure μ]
  {α β γ : Type v} [MeasurableSpace α] [MeasurableSpace β] [MeasurableSpace γ]
  {s : Sampler Ω α} {ν : Measure α} {κ : Measure β}

variable (μ) in
/-- For independent numbers with the law `μ`, the program almost surely ends, and gives values with
    the law `ν`; the numbers left are independent again, and independent of the value. -/
def Draws (s : Sampler Ω α) (ν : Measure α) : Prop :=
  ∃ f : (ℕ → Ω) → α × (ℕ → Ω), MeasurePreserving f (numbers μ) (ν.prod (numbers μ)) ∧
    ∀ᵐ ω ∂numbers μ, ∀ᶠ N in atTop, s N ω = some (f ω)

/-- A law is that of a value. -/
theorem Draws.isProbabilityMeasure (h : Draws μ s ν) : IsProbabilityMeasure ν := by
  obtain ⟨f, hf, -⟩ := h
  have huniv : numbers μ univ = ν univ * numbers μ univ := by
    rw [← Measure.prod_prod, univ_prod_univ,
      ← hf.measure_preimage MeasurableSet.univ.nullMeasurableSet, preimage_univ]
  rw [measure_univ, mul_one] at huniv
  exact ⟨huniv.symm⟩

/-- A number has the law `μ`. -/
theorem draws_number {μ : Measure Ω} [IsProbabilityMeasure μ] : Draws μ (number : Sampler Ω Ω) μ :=
  ⟨split, measurePreserving_split μ, .of_forall fun _ => .of_forall fun _ => rfl⟩

/-- A value that does not depend on the numbers. -/
theorem draws_pure (a : α) : Draws μ (pure a) (Measure.dirac a) := by
  refine ⟨fun ω => (a, ω), ⟨measurable_prodMk_left, ?_⟩,
    .of_forall fun _ => .of_forall fun _ => rfl⟩
  rw [Measure.dirac_prod]

/-- A function of the value. -/
theorem Draws.ofOption (h : Draws μ s ν) {g : α → Option β} {k : α → β} (hk : Measurable k)
    (hg : ∀ᵐ a ∂ν, g a = some (k a)) :
    Draws μ (s >>= fun a => Sampler.ofOption (g a)) (ν.map k) := by
  have hν := h.isProbabilityMeasure
  obtain ⟨f, hf, hs⟩ := h
  refine ⟨Prod.map k id ∘ f, ((hk.measurePreserving ν).prod (.id _)).comp hf, ?_⟩
  have hfst : ∀ᵐ ω ∂numbers μ, g (f ω).1 = some (k (f ω).1) :=
    (measurePreserving_fst.comp hf).quasiMeasurePreserving.ae hg
  filter_upwards [hs, hfst] with ω hω hgω
  filter_upwards [hω] with N hN
  rw [bind_apply, hN, Option.bind_some, Sampler.ofOption, hgω]
  rfl

theorem Draws.map (h : Draws μ s ν) {k : α → β} (hk : Measurable k) :
    Draws μ (s >>= fun a => pure (k a)) (ν.map k) :=
  h.ofOption hk (.of_forall fun _ => rfl)

/-- Values of two programs, one after the other. -/
theorem Draws.map₂ (h : Draws μ s ν) {t : Sampler Ω β} (h' : Draws μ t κ) {k : α → β → γ}
    (hk : Measurable fun p : α × β => k p.1 p.2) :
    Draws μ (do let a ← s; let b ← t; pure (k a b)) ((ν.prod κ).map fun p => k p.1 p.2) := by
  have hν := h.isProbabilityMeasure
  have hκ := h'.isProbabilityMeasure
  obtain ⟨f, hf, hs⟩ := h
  obtain ⟨g, hg, ht⟩ := h'
  have hassoc := (measurePreserving_prodAssoc ν κ (numbers μ)).symm MeasurableEquiv.prodAssoc
  have hboth := hassoc.comp (((MeasurePreserving.id ν).prod hg).comp hf)
  refine ⟨_, ((hk.measurePreserving (ν.prod κ)).prod (.id _)).comp hboth, ?_⟩
  have hsnd : ∀ᵐ ω ∂numbers μ, ∀ᶠ N in atTop, t N (f ω).2 = some (g (f ω).2) :=
    (measurePreserving_snd.comp hf).quasiMeasurePreserving.ae ht
  filter_upwards [hs, hsnd] with ω hω htω
  filter_upwards [hω, htω] with N hN hN'
  rw [bind_apply, hN, Option.bind_some, bind_apply, hN']
  rfl

/-- A program that depends on the value of another one, which has finitely many values. -/
theorem Draws.bind [Fintype α] [MeasurableSingletonClass α] (h : Draws μ s ν)
    {t : α → Sampler Ω β} {κ : α → Measure β} (h' : ∀ a, Draws μ (t a) (κ a)) :
    Draws μ (s >>= t) (∑ a, ν {a} • κ a) := by
  have hν := h.isProbabilityMeasure
  have hκ a := (h' a).isProbabilityMeasure
  obtain ⟨f, hf, hs⟩ := h
  choose g hg ht using h'
  have hmeas : Measurable fun p : α × (ℕ → Ω) => g p.1 p.2 :=
    measurable_from_prod_countable_right fun a => (hg a).measurable
  refine ⟨fun ω => g (f ω).1 (f ω).2, ⟨hmeas.comp hf.measurable, ?_⟩, ?_⟩
  · have hcomp : (fun ω => g (f ω).1 (f ω).2) = (fun p : α × (ℕ → Ω) => g p.1 p.2) ∘ f := rfl
    ext E hE
    rw [hcomp, ← Measure.map_map hmeas hf.measurable, hf.map_eq, Measure.map_apply hmeas hE,
      Measure.prod_apply (hmeas hE), lintegral_fintype, Measure.prod_apply hE,
      lintegral_finsetSum_measure]
    refine Finset.sum_congr rfl fun a _ => ?_
    rw [lintegral_smul_measure, ← Measure.prod_apply hE, ← (hg a).map_eq,
      Measure.map_apply (hg a).measurable hE, smul_eq_mul, mul_comm]
    rfl
  · have hsnd : ∀ᵐ ω ∂numbers μ, ∀ a, ∀ᶠ N in atTop, t a N (f ω).2 = some (g a (f ω).2) :=
      (measurePreserving_snd.comp hf).quasiMeasurePreserving.ae (ae_all_iff.2 ht)
    filter_upwards [hs, hsnd] with ω hω htω
    filter_upwards [hω, htω (f ω).1] with N hN hN'
    rw [bind_apply, hN, Option.bind_some, hN']

theorem sum_dirac_singleton {ι : Type*} [Fintype ι] [MeasurableSpace ι]
    [MeasurableSingletonClass ι] (w : ι → ENNReal) (j : ι) :
    (∑ i, w i • Measure.dirac i) {j} = w j := by
  classical
  rw [Measure.finsetSum_apply, Finset.sum_eq_single j]
  · rw [Measure.smul_apply, Measure.dirac_apply_of_mem (mem_singleton j), smul_eq_mul, mul_one]
  · intro i _ hij
    rw [Measure.smul_apply, Measure.dirac_apply' i (measurableSet_singleton j),
      indicator_of_notMem (mt mem_singleton_iff.1 hij), smul_zero]
  · exact fun hj => absurd (Finset.mem_univ j) hj

/-- One of finitely many values, for the numbers of a set in which they almost surely are. -/
theorem Draws.choose {α ι : Type v} [MeasurableSpace α] [MeasurableSpace ι] [Fintype ι]
    [MeasurableSingletonClass ι] {s : Sampler Ω α} {ν : Measure α} (h : Draws μ s ν)
    {g : α → Option ι} {S : Set α} (hS : MeasurableSet S) (hν : ∀ᵐ a ∂ν, a ∈ S)
    (hmeas : ∀ i, MeasurableSet {a ∈ S | g a = some i}) (hg : ∀ a ∈ S, ∃ i, g a = some i) :
    Draws μ (s >>= fun a => Sampler.ofOption (g a))
      (∑ i, ν {a ∈ S | g a = some i} • Measure.dirac i) := by
  classical
  have := h.isProbabilityMeasure
  obtain ⟨a₀, ha₀⟩ := hν.exists
  obtain ⟨i₀, -⟩ := hg a₀ ha₀
  let k (a : α) : ι := if a ∈ S then (g a).getD i₀ else i₀
  have hmem (a : α) (ha : a ∈ S) (i : ι) : k a = i ↔ g a = some i := by
    obtain ⟨j, hj⟩ := hg a ha
    simp [k, ha, hj]
  have hk : Measurable k := measurable_to_countable' fun i => by
    have hpre : preimage k {i} = {a ∈ S | g a = some i} ∪ (compl S ∩ {_a | i₀ = i}) := by
      ext a
      by_cases ha : a ∈ S
      · simp [ha, hmem a ha]
      · simp [ha, k]
    rw [hpre]
    exact (hmeas i).union (hS.compl.inter (.const _))
  have hsome : ∀ᵐ a ∂ν, g a = some (k a) := hν.mono fun a ha => (hmem a ha (k a)).1 rfl
  convert h.ofOption hk hsome using 1
  refine Measure.ext_of_singleton fun j => ?_
  rw [Measure.map_apply hk (measurableSet_singleton j), sum_dirac_singleton]
  refine measure_congr (hν.mono fun a ha => propext ?_)
  exact (and_iff_right ha).trans (hmem a ha j).symm

end Laws

/-! ## Loops -/

section Turns

variable {Ω : Type u} {α : Type v}

/-- The turns that end a loop. -/
def ends : Set (α × Bool) := {r | r.2 = true}

variable (f : (ℕ → Ω) → (α × Bool) × (ℕ → Ω))

/-- The numbers before a turn, which takes them as `f`. -/
def before (k : ℕ) (ω : ℕ → Ω) : ℕ → Ω := (fun ω => (f ω).2)^[k] ω

/-- The turn ends the loop. -/
def EndsAt (ω : ℕ → Ω) (k : ℕ) : Prop := (f (before f k ω)).1 ∈ ends

theorem before_succ (k : ℕ) (ω : ℕ → Ω) : before f (k + 1) ω = before f k (f ω).2 :=
  Function.iterate_succ_apply ..

theorem endsAt_succ (ω : ℕ → Ω) (k : ℕ) : EndsAt f ω (k + 1) ↔ EndsAt f (f ω).2 k := by
  rw [EndsAt, before_succ, EndsAt]

theorem exists_lastTurn (ω : ℕ → Ω) : ∃ k, EndsAt f ω k ∨ ∀ j, ¬EndsAt f ω j := by
  by_cases h : ∃ k, EndsAt f ω k
  · exact h.imp fun _ => .inl
  · exact ⟨0, .inr (not_exists.1 h)⟩

open Classical in
/-- The turn that ends the loop, if there is one. -/
noncomputable def lastTurn (ω : ℕ → Ω) : ℕ := Nat.find (exists_lastTurn f ω)

/-- What the loop gives. -/
noncomputable def loop (ω : ℕ → Ω) : α × (ℕ → Ω) :=
  let r := f (before f (lastTurn f ω) ω)
  (r.1.1, r.2)

variable {f} {ω : ℕ → Ω}

theorem lastTurn_eq {k : ℕ} (h : EndsAt f ω k) (hlt : ∀ j < k, ¬EndsAt f ω j) :
    lastTurn f ω = k := by
  classical
  refine (Nat.find_eq_iff _).2 ⟨.inl h, fun j hj => ?_⟩
  rintro (hends | hnever)
  · exact hlt j hj hends
  · exact hnever k h

/-- The first turn may end the loop. -/
theorem loop_of_mem (h : (f ω).1 ∈ ends) : loop f ω = ((f ω).1.1, (f ω).2) := by
  rw [loop, lastTurn_eq (k := 0) h fun j hj => absurd hj (Nat.not_lt_zero j)]
  rfl

/-- If it does not, the loop goes on. -/
theorem loop_of_notMem (h : (f ω).1 ∉ ends) (hex : ∃ k, EndsAt f ω k) :
    loop f ω = loop f (f ω).2 := by
  classical
  obtain ⟨k, hk, hlt⟩ : ∃ k, EndsAt f ω k ∧ ∀ j < k, ¬EndsAt f ω j :=
    ⟨Nat.find hex, Nat.find_spec hex, fun _ => Nat.find_min hex⟩
  cases k with
  | zero => exact absurd hk h
  | succ k =>
    have hlt' (j : ℕ) (hj : j < k) : ¬EndsAt f (f ω).2 j := fun hj' =>
      hlt (j + 1) (Nat.succ_lt_succ hj) ((endsAt_succ f ω j).2 hj')
    rw [loop, lastTurn_eq hk hlt, before_succ, loop,
      lastTurn_eq ((endsAt_succ f ω k).1 hk) hlt']

theorem turns_succ {turn : Sampler Ω (α × Bool)} {N : ℕ} {r : (α × Bool) × (ℕ → Ω)}
    (h : turn N ω = some r) (n : ℕ) :
    turns turn N (n + 1) ω = if r.1.2 then some (r.1.1, r.2) else turns turn N n r.2 := by
  rw [turns, h, Option.bind_some]

/-- With enough fuel, the turns of the program give what the loop gives. -/
theorem turns_eq {turn : Sampler Ω (α × Bool)} {N k n : ℕ} (hn : k < n)
    (hturn : ∀ j ≤ k, turn N (before f j ω) = some (f (before f j ω))) (h : EndsAt f ω k)
    (hlt : ∀ j < k, ¬EndsAt f ω j) : turns turn N n ω = some (loop f ω) := by
  induction k generalizing n ω with
  | zero =>
    obtain ⟨n, rfl⟩ := Nat.exists_eq_succ_of_ne_zero hn.ne'
    have hfirst : (f ω).1 ∈ ends := h
    rw [loop_of_mem hfirst]
    exact (turns_succ (hturn 0 le_rfl) n).trans (if_pos hfirst)
  | succ k ih =>
    obtain ⟨n, rfl⟩ := Nat.exists_eq_succ_of_ne_zero (Nat.ne_zero_of_lt hn)
    have hfirst : (f ω).1 ∉ ends := hlt 0 (Nat.succ_pos k)
    rw [loop_of_notMem hfirst ⟨_, h⟩]
    refine ((turns_succ (hturn 0 (Nat.zero_le _)) n).trans (if_neg hfirst)).trans ?_
    refine ih (Nat.lt_of_succ_lt_succ hn) (fun j hj => ?_) ((endsAt_succ f ω k).1 h)
      fun j hj hj' => hlt (j + 1) (Nat.succ_lt_succ hj) ((endsAt_succ f ω j).2 hj')
    rw [← before_succ]
    exact hturn (j + 1) (Nat.succ_le_succ hj)

end Turns

section Loops

variable {Ω : Type u} [MeasurableSpace Ω] {μ : Measure Ω} [IsProbabilityMeasure μ]
  {α : Type v} [MeasurableSpace α] {κ : Measure (α × Bool)}

/-- What a turn gives when it ends the loop. -/
noncomputable def ending (κ : Measure (α × Bool)) : Measure α :=
  (ProbabilityTheory.cond κ ends).map Prod.fst

theorem measurableSet_ends : MeasurableSet (ends : Set (α × Bool)) :=
  measurable_snd (measurableSet_singleton true)

theorem ending_apply (κ : Measure (α × Bool)) {B : Set α} (hB : MeasurableSet B) :
    ending κ B = (κ ends)⁻¹ * κ (preimage Prod.fst B ∩ ends) := by
  rw [ending, Measure.map_apply measurable_fst hB,
    ProbabilityTheory.cond_apply measurableSet_ends, inter_comm]

variable {f : (ℕ → Ω) → (α × Bool) × (ℕ → Ω)}

theorem measurable_before (hf : Measurable f) (k : ℕ) : Measurable (before f k) :=
  (measurable_snd.comp hf).iterate k

theorem measurableSet_endsAt (hf : Measurable f) (k : ℕ) : MeasurableSet {ω | EndsAt f ω k} :=
  (measurable_fst.comp (hf.comp (measurable_before hf k))) measurableSet_ends

theorem measurableSet_never (hf : Measurable f) : MeasurableSet {ω | ∀ k, ¬EndsAt f ω k} := by
  simp only [ofPred_forall]
  exact .iInter fun k => (measurableSet_endsAt hf k).compl

theorem measurable_lastTurn (hf : Measurable f) : Measurable (lastTurn f) := by
  classical
  exact measurable_find (exists_lastTurn f) fun k =>
    (measurableSet_endsAt hf k).union (measurableSet_never hf)

theorem measurable_loop (hf : Measurable f) : Measurable (loop f) := by
  have hall : Measurable fun p : ℕ × (ℕ → Ω) =>
      (((f (before f p.1 p.2)).1.1, (f (before f p.1 p.2)).2) : α × (ℕ → Ω)) :=
    measurable_from_prod_countable_right fun k =>
      ((measurable_fst.comp measurable_fst).prodMk measurable_snd).comp
        (hf.comp (measurable_before hf k))
  exact hall.comp ((measurable_lastTurn hf).prodMk measurable_id)

variable [IsProbabilityMeasure κ]

/-- The loop goes on with the numbers that the first turn leaves. -/
theorem measure_goesOn (hf : MeasurePreserving f (numbers μ) (κ.prod (numbers μ)))
    {E : Set (ℕ → Ω)} (hE : MeasurableSet E) :
    numbers μ {ω | (f ω).1 ∉ ends ∧ (f ω).2 ∈ E} = (1 - κ ends) * numbers μ E := by
  have hrect : {ω | (f ω).1 ∉ ends ∧ (f ω).2 ∈ E} = preimage f (compl ends ×ˢ E) := rfl
  rw [hrect, hf.measure_preimage (measurableSet_ends.compl.prod hE).nullMeasurableSet,
    Measure.prod_prod, prob_compl_eq_one_sub measurableSet_ends]

/-- A probability that comes from the first turn, or from the turns behind it. -/
theorem eq_of_goesOn {p x a : ENNReal} (hp : p ≠ 0) (hp' : p ≤ 1) (hx : x ≠ ⊤)
    (h : x = a + (1 - p) * x) : x = p⁻¹ * a := by
  have htop : (1 - p) * x ≠ ⊤ := ENNReal.mul_ne_top (ENNReal.sub_ne_top ENNReal.one_ne_top) hx
  have hsum : p * x + (1 - p) * x = a + (1 - p) * x := by
    rw [← add_mul, add_tsub_cancel_of_le hp', one_mul]
    exact h
  rw [← (ENNReal.add_left_inj htop).1 hsum, ← mul_assoc,
    ENNReal.inv_mul_cancel hp (ne_top_of_le_ne_top ENNReal.one_ne_top hp'), one_mul]

/-- If a turn may end the loop, then almost surely one does. -/
theorem ae_exists_endsAt (hf : MeasurePreserving f (numbers μ) (κ.prod (numbers μ)))
    (h : κ ends ≠ 0) : ∀ᵐ ω ∂numbers μ, ∃ k, EndsAt f ω k := by
  have heq : {ω | ∀ k, ¬EndsAt f ω k} =
      {ω | (f ω).1 ∉ ends ∧ (f ω).2 ∈ {ω | ∀ k, ¬EndsAt f ω k}} := by
    ext ω
    simp only [mem_ofPred_eq]
    constructor
    · exact fun hnever => ⟨hnever 0, fun k hk => hnever (k + 1) ((endsAt_succ f ω k).2 hk)⟩
    · rintro ⟨hfirst, hnever⟩ (_ | k) hk
      · exact hfirst hk
      · exact hnever k ((endsAt_succ f ω k).1 hk)
  have hgoes := measure_goesOn hf (measurableSet_never hf.measurable)
  rw [← heq, ← zero_add ((1 - κ ends) * _)] at hgoes
  have hzero := eq_of_goesOn h prob_le_one (measure_ne_top _ _) hgoes
  rw [mul_zero] at hzero
  simpa only [ae_iff, not_exists] using hzero

/-- What a loop gives, and the numbers that it leaves. -/
theorem measurePreserving_loop (hf : MeasurePreserving f (numbers μ) (κ.prod (numbers μ)))
    (h : κ ends ≠ 0) : MeasurePreserving (loop f) (numbers μ) ((ending κ).prod (numbers μ)) := by
  have hmeas := measurable_loop hf.measurable
  refine ⟨hmeas, Measure.ext_prod fun {B C} hB hC => ?_⟩
  have hE := hmeas (hB.prod hC)
  rw [Measure.map_apply hmeas (hB.prod hC), Measure.prod_prod, ending_apply κ hB, mul_assoc]
  refine eq_of_goesOn h prob_le_one (measure_ne_top _ _) ?_
  -- The first turn ends the loop with a value of `B`, or the loop goes on.
  have hfirst : numbers μ {ω | (f ω).1 ∈ preimage Prod.fst B ∩ ends ∧ (f ω).2 ∈ C} =
      κ (preimage Prod.fst B ∩ ends) * numbers μ C := by
    have hrect : {ω | (f ω).1 ∈ preimage Prod.fst B ∩ ends ∧ (f ω).2 ∈ C} =
        preimage f ((preimage Prod.fst B ∩ ends) ×ˢ C) := rfl
    have hmem : MeasurableSet (preimage Prod.fst B ∩ ends : Set (α × Bool)) :=
      (measurable_fst hB).inter measurableSet_ends
    rw [hrect, hf.measure_preimage (hmem.prod hC).nullMeasurableSet, Measure.prod_prod]
  have hnext : MeasurableSet {ω | (f ω).1 ∉ ends ∧ (f ω).2 ∈ preimage (loop f) (B ×ˢ C)} :=
    hf.measurable (measurableSet_ends.compl.prod hE)
  have hdisj : Disjoint {ω | (f ω).1 ∈ preimage Prod.fst B ∩ ends ∧ (f ω).2 ∈ C}
      {ω | (f ω).1 ∉ ends ∧ (f ω).2 ∈ preimage (loop f) (B ×ˢ C)} :=
    disjoint_left.2 fun ω hω hω' => hω'.1 hω.1.2
  rw [← hfirst, ← measure_goesOn hf hE, ← measure_union hdisj hnext]
  refine measure_congr ?_
  filter_upwards [ae_exists_endsAt hf h] with ω hω
  refine propext ?_
  change loop f ω ∈ B ×ˢ C ↔ ((f ω).1 ∈ preimage Prod.fst B ∩ ends ∧ (f ω).2 ∈ C) ∨
    ((f ω).1 ∉ ends ∧ loop f (f ω).2 ∈ B ×ˢ C)
  by_cases hends : (f ω).1 ∈ ends
  · rw [loop_of_mem hends]
    simp [hends]
  · rw [loop_of_notMem hends hω]
    simp [hends]

end Loops

section Rules

variable {Ω : Type u} [MeasurableSpace Ω] {μ : Measure Ω} [IsProbabilityMeasure μ]
  {α : Type v} [MeasurableSpace α]

/-- A loop whose turns may end it. -/
theorem Draws.doWhile {turn : Sampler Ω (α × Bool)} {κ : Measure (α × Bool)}
    (h : Draws μ turn κ) (hends : κ ends ≠ 0) : Draws μ (Sampler.doWhile turn) (ending κ) := by
  have hκ := h.isProbabilityMeasure
  obtain ⟨f, hf, hturn⟩ := h
  refine ⟨loop f, measurePreserving_loop hf hends, ?_⟩
  have hrest : MeasurePreserving (fun ω => (f ω).2) (numbers μ) (numbers μ) :=
    measurePreserving_snd.comp hf
  have hall : ∀ᵐ ω ∂numbers μ, ∀ j, ∀ᶠ N in atTop,
      turn N (before f j ω) = some (f (before f j ω)) :=
    ae_all_iff.2 fun j => (hrest.iterate j).quasiMeasurePreserving.ae hturn
  filter_upwards [hall, ae_exists_endsAt hf hends] with ω hω hex
  classical
  obtain ⟨k, hk, hlt⟩ : ∃ k, EndsAt f ω k ∧ ∀ j < k, ¬EndsAt f ω j :=
    ⟨Nat.find hex, Nat.find_spec hex, fun _ => Nat.find_min hex⟩
  -- There is fuel for the turns up to the last one, and for what they do.
  have hfuel : ∀ᶠ N in atTop, ∀ j ≤ k, turn N (before f j ω) = some (f (before f j ω)) :=
    (eventually_all_finite (finite_Iic k)).2 fun j _ => hω j
  filter_upwards [hfuel, eventually_gt_atTop k] with N hN hlt'
  exact turns_eq hlt' hN hk hlt

/-- Values that are drawn one after the other are independent. -/
theorem Draws.sequence {n : ℕ} {s : Fin n → Sampler Ω α} {ν : Fin n → Measure α}
    (h : ∀ i, Draws μ (s i) (ν i)) : Draws μ (Sampler.sequence s) (Measure.pi ν) := by
  induction n with
  | zero =>
    rw [Measure.pi_of_empty _ Fin.elim0]
    exact draws_pure _
  | succ n ih =>
    have hν i := (h i).isProbabilityMeasure
    have hcons := (measurePreserving_piFinSuccAbove ν 0).symm
      (MeasurableEquiv.piFinSuccAbove (fun _ => α) 0)
    have heq : (fun p : α × (Fin n → α) => (Fin.cons p.1 p.2 : Fin (n + 1) → α)) =
        (MeasurableEquiv.piFinSuccAbove (fun _ => α) 0).symm := by
      funext p
      exact (Fin.insertNth_zero' p.1 p.2).symm
    have hboth := (h 0).map₂ (ih fun i => h i.succ)
      (k := fun a as => (Fin.cons a as : Fin (n + 1) → α)) (heq ▸ hcons.measurable)
    rw [heq] at hboth
    exact hcons.map_eq ▸ hboth

end Rules

/-! ## Rejection -/

section Reject

/-- The value of a turn that ends the loop. The value of another one is not looked at. -/
def settle {α : Type v} (d : α) (r : α × Bool) : α × Bool := if r.2 then r else (d, false)

theorem doWhile_settle {Ω : Type u} {α : Type v} (turn : Sampler Ω (α × Bool)) (d : α) :
    doWhile (turn >>= fun r => pure (settle d r)) = doWhile turn := by
  have hturns (N n : ℕ) (ω : ℕ → Ω) :
      turns (turn >>= fun r => pure (settle d r)) N n ω = turns turn N n ω := by
    induction n generalizing ω with
    | zero => rfl
    | succ n ih =>
      rw [turns, turns, bind_apply]
      cases turn N ω with
      | none => rfl
      | some r =>
        obtain ⟨⟨v, b⟩, ω'⟩ := r
        cases b with
        | true => rfl
        | false => exact ih ω'
  funext N ω
  exact hturns N N ω

theorem bind_settle {Ω : Type u} {α β : Type v} (s : Sampler Ω α) (turn : α → Option (β × Bool))
    (d : β) : (s >>= fun a => Sampler.ofOption (turn a)) >>= (fun r => pure (settle d r)) =
      s >>= fun a => Sampler.ofOption ((turn a).map (settle d)) := by
  funext N ω
  simp only [bind_apply, Sampler.ofOption]
  cases s N ω with
  | none => rfl
  | some r =>
    rw [Option.bind_some, Option.bind_some]
    cases turn r.1 <;> rfl

variable {Ω : Type u} [MeasurableSpace Ω] {μ : Measure Ω} [IsProbabilityMeasure μ]
  {α : Type} [MeasurableSpace α] {s : Sampler Ω α} {ν : Measure α}

open Density Rejection in
/-- A loop whose turns are attempts. -/
theorem Draws.reject {A : α → Option ℝ} {q : ENNReal} {f : ℝ → ENNReal}
    {turn : α → Option (ℝ × Bool)} (h : Draws μ s ν) (hA : Attempts ν A q f)
    (hturn : ∀ᵐ a ∂ν, ∃ v b, turn a = some (v, b) ∧ A a = if b then some v else none) :
    Draws μ (Sampler.doWhile (s >>= fun a => Sampler.ofOption (turn a))) (normalized volume f) := by
  have hν := h.isProbabilityMeasure
  have hk := (hA.measurable_getD 0).prodMk hA.measurable_isSome
  have hsettle : ∀ᵐ a ∂ν, (turn a).map (settle 0) = some ((A a).getD 0, (A a).isSome) := by
    filter_upwards [hturn] with a ha
    obtain ⟨v, b, hv, hb⟩ := ha
    rw [hv, hb]
    cases b <;> rfl
  have hdraws := h.ofOption hk hsettle
  have hends (B : Set ℝ) (hB : MeasurableSet B) :
      ν.map (fun a => ((A a).getD 0, (A a).isSome)) (preimage Prod.fst B ∩ ends) =
        q * ∫⁻ v in B, f v := by
    rw [Measure.map_apply hk ((measurable_fst hB).inter measurableSet_ends), ← hA.gives hB]
    congr 1
    ext a
    cases ha : A a <;> simp [Gives, ends, ha]
  have hall := hends univ .univ
  rw [preimage_univ, univ_inter, setLIntegral_univ] at hall
  have hne : q * ∫⁻ v, f v ≠ 0 := mul_ne_zero hA.factor_ne_zero hA.ne_zero
  have hloop := hdraws.doWhile (hall ▸ hne)
  have hlaw : ending (ν.map fun a => ((A a).getD 0, (A a).isSome)) = normalized volume f := by
    ext B hB
    rw [ending_apply _ hB, hends B hB, hall, normalized_apply f hB,
      ENNReal.mul_inv (.inl hA.factor_ne_zero) (.inl hA.factor_ne_top), mul_mul_mul_comm,
      ENNReal.inv_mul_cancel hA.factor_ne_zero hA.factor_ne_top, one_mul]
  rw [← doWhile_settle _ 0, bind_settle]
  exact hlaw ▸ hloop

end Reject

end Sampler
