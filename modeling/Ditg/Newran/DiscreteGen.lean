import Ditg.Library.Alias
import Ditg.Sender.Distributions

/-!
# Discrete random variables

`DiscreteGen` draws one of `n` values from a table with the probabilities it is
constructed with (`DiscreteGen::Gen`, `DiscreteGen::Next`). What `Gen` fills is an alias
table (`AliasTable`): of the columns whose entry of `ialt` is still `-1`, each round
closes the one that is short of the least, and the one that is short of the most
gives it the rest (`round_eq_ok`).

* Probabilities none of which is negative and that add up to 1 are accepted, and every
  value is drawn with its probability (`gen_exact`).
* Whatever is accepted adds up to 1 but for `0.00001`, and every value is drawn with its
  probability but for `0.00001` (`gen_sound`).

Doubles are the reals here, and the numbers drawn are uniform on the unit interval.
-/

namespace Ditg

open MeasureTheory Set

/-- Exact arithmetic, with all the reals. -/
noncomputable instance realCDouble : CDouble ℝ where
  decLt := inferInstance
  floor x := ⌊x⌋
  fabs x := |x|
  trunc x := if x < 0 then ⌈x⌉ else ⌊x⌋

namespace DiscreteGen

section Gen

variable {F : Type} [CDouble F] [DecidableEq F] {n : ℕ}

/-- What the inner loop has found: the smallest and the largest difference, and where. -/
structure Scan (n : ℕ) (F : Type) where
  pmin : F
  pmax : F
  jmin : Option (Fin n)
  jmax : Option (Fin n)

/-- One step of the inner loop. An entry of `ialt` that is `-1` is `none`. -/
def Scan.visit (prob : Fin n → F) (t : AliasTable n F) (s : Scan n F) (j : Fin n) : Scan n F :=
  match t.ialt j with
  | some _ => s
  | none =>
    let px := prob j - t.p j
    let s := if CDouble.Le s.pmax px then { s with pmax := px, jmax := some j } else s
    if CDouble.Le px s.pmin then { s with pmin := px, jmin := some j } else s

/-- The inner loop. -/
def scan (prob : Fin n → F) (t : AliasTable n F) : Scan n F :=
  (List.finRange n).foldl (Scan.visit prob t)
    { pmin := ((1 : ℤ) : F), pmax := ((-1 : ℤ) : F), jmin := none, jmax := none }

/-- One round of the outer loop: the arrays and `px` afterwards. -/
def round (prob : Fin n → F) (t : AliasTable n F) : Except String (AliasTable n F × F) :=
  let s := scan prob t
  match s.jmax, s.jmin with
  | some jmax, some jmin =>
    let rn := ((1 : ℤ) : F) / ((n : ℤ) : F)
    let px := rn - s.pmin
    let p := Function.update t.p jmax (t.p jmax + px)
    let px := px * ((n : ℤ) : F)
    let p := Function.update p jmin px
    if literal 100001 100000 < px ∨ px < literal (-1) 100000 then
      .error "Newran: probs don't add to 1 (a)"
    else
      .ok ({ p, ialt := Function.update t.ialt jmin (some jmax) }, px)
  | _, _ => .error "Newran: method fails"

/-- So many rounds. -/
def rounds (prob : Fin n → F) : ℕ → AliasTable n F × F → Except String (AliasTable n F × F)
  | 0, s => .ok s
  | m + 1, s => (rounds prob m s).bind fun s => round prob s.1

/-- `DiscreteGen::Gen`. -/
def gen (prob : Fin n → F) : Except String (AliasTable n F) :=
  (rounds prob n ({ p := fun _ => ((0 : ℤ) : F), ialt := fun _ => none }, ((0 : ℤ) : F))).bind
    fun s =>
      if literal 1 100000 < s.2 then .error "Newran: probs don't add to 1 (b)" else .ok s.1

/-- The index that `DiscreteGen::Next` draws for the next two numbers of the generator, if
    it is inside the arrays. -/
def draw (t : AliasTable n F) (u₁ u₂ : F) : Option (Fin n) :=
  let i := CDouble.trunc (((n : ℤ) : F) * u₁)
  if h : 0 ≤ i ∧ i.toNat < n then
    if u₂ < t.p ⟨i.toNat, h.2⟩ then t.ialt ⟨i.toNat, h.2⟩ else some ⟨i.toNat, h.2⟩
  else none

/-- The value with an index: the index itself, or what `val` has there. -/
def value (val : Option (Fin n → F)) (i : Fin n) : F :=
  match val with
  | none => ((i : ℤ) : F)
  | some val => val i

end Gen
end DiscreteGen

/-- `class DiscreteGen`, with `p` and `ialt` in one table. -/
structure DiscreteGen (n : ℕ) (F : Type) where
  table : AliasTable n F
  val : Option (Fin n → F)
  mean : F
  var : F

namespace DiscreteGen

section Gen

variable {F : Type} [CDouble F] [DecidableEq F] {n : ℕ}

/-- The constructors of `DiscreteGen`. -/
def new (prob : Fin n → F) (val : Option (Fin n → F)) : Except String (DiscreteGen n F) :=
  (gen prob).map fun table =>
    let mean := (List.finRange n).foldl (fun mean i => mean + value val i * prob i) ((0 : ℤ) : F)
    let var := (List.finRange n).foldl
      (fun var i => var + (value val i - mean) * (value val i - mean) * prob i) ((0 : ℤ) : F)
    { table, val, mean, var }

/-- `DiscreteGen::Next`. -/
def next (g : DiscreteGen n F) (u₁ u₂ : F) : Option F := (draw g.table u₁ u₂).map (value g.val)

end Gen

/-! ## The inner loop -/

section Scan

variable {n : ℕ} {prob : Fin n → ℝ} {t : AliasTable n ℝ}

theorem le_iff {x y : ℝ} : CDouble.Le x y ↔ x ≤ y := le_iff_lt_or_eq.symm

/-- What a loop has found that keeps the last of the best entries, `R` saying which are
    better, if it is as good as `bound`. -/
structure Best (R : ℝ → ℝ → Prop) (r : Fin n → ℝ) (rest : Finset (Fin n)) (bound : ℝ)
    (l : List (Fin n)) (v : ℝ) (j : Option (Fin n)) : Prop where
  best : ∀ k ∈ l, k ∈ rest → R v (r k)
  of_some : ∀ k, j = some k → k ∈ l ∧ k ∈ rest ∧ v = r k
  of_none : j = none → v = bound ∧ ∀ k ∈ l, k ∈ rest → ¬R (r k) bound
  last : (∀ i ∈ l, ∀ k ∈ l, i ∈ rest → k ∈ rest → r i = r k) → ∀ k, j = some k →
    (l.filter (· ∈ rest)).getLast? = some k

variable {R : ℝ → ℝ → Prop} {r : Fin n → ℝ} {rest : Finset (Fin n)} {bound v : ℝ}
  {l : List (Fin n)} {j : Option (Fin n)} {k : Fin n}

theorem Best.start : Best R r rest bound [] bound none where
  best _ hk := absurd hk List.not_mem_nil
  of_some k hk := absurd hk.symm (Option.some_ne_none k)
  of_none _ := ⟨rfl, fun _ hk => absurd hk List.not_mem_nil⟩
  last _ k hk := absurd hk.symm (Option.some_ne_none k)

/-- An entry that does not count. -/
theorem Best.skip (h : Best R r rest bound l v j) (hk : k ∉ rest) :
    Best R r rest bound (l ++ [k]) v j where
  best := List.forall_mem_append.2 ⟨h.best, List.forall_mem_singleton.2 fun hmem => absurd hmem hk⟩
  of_some i hi := (h.of_some i hi).imp_left (List.mem_append_left _)
  of_none hj := (h.of_none hj).imp_right fun hl => List.forall_mem_append.2
    ⟨hl, List.forall_mem_singleton.2 fun hmem => absurd hmem hk⟩
  last hall i hi := by
    have hfilter : [k].filter (· ∈ rest) = [] := by simp [hk]
    rw [List.filter_append, hfilter, List.append_nil]
    exact h.last (fun a ha b hb =>
      hall a (List.mem_append_left _ ha) b (List.mem_append_left _ hb)) i hi

/-- An entry that is as good as the best one so far. -/
theorem Best.take (htrans : ∀ x y z, R x y → R y z → R x z) (hrefl : ∀ x, R x x)
    (h : Best R r rest bound l v j) (hk : k ∈ rest) (hR : R (r k) v) :
    Best R r rest bound (l ++ [k]) (r k) (some k) where
  best := List.forall_mem_append.2 ⟨fun i hi hmem => htrans _ _ _ hR (h.best i hi hmem),
    List.forall_mem_singleton.2 fun _ => hrefl _⟩
  of_some i hi := by
    obtain rfl := Option.some_inj.1 hi
    exact ⟨List.mem_append_right _ (List.mem_singleton_self _), hk, rfl⟩
  of_none hj := absurd hj (Option.some_ne_none k)
  last _ i hi := by
    have hfilter : [k].filter (· ∈ rest) = [k] := by simp [hk]
    rw [List.filter_append, hfilter, List.getLast?_concat, hi]

/-- An entry that is not. -/
theorem Best.keep (hrefl : ∀ x, R x x) (htotal : ∀ x y, R x y ∨ R y x)
    (h : Best R r rest bound l v j) (hk : k ∈ rest) (hR : ¬R (r k) v) :
    Best R r rest bound (l ++ [k]) v j where
  best := List.forall_mem_append.2
    ⟨h.best, List.forall_mem_singleton.2 fun _ => (htotal _ _).resolve_right hR⟩
  of_some i hi := (h.of_some i hi).imp_left (List.mem_append_left _)
  of_none hj := (h.of_none hj).imp_right fun hl => List.forall_mem_append.2
    ⟨hl, List.forall_mem_singleton.2 fun _ => (h.of_none hj).1 ▸ hR⟩
  last hall i hi := by
    obtain ⟨hl, hrest, hv⟩ := h.of_some i hi
    have heq : r k = r i := hall k (List.mem_append_right _ (List.mem_singleton_self _)) i
      (List.mem_append_left _ hl) hk hrest
    rw [heq, hv] at hR
    exact absurd (hrefl _) hR

/-- Both loops, up to the entries `l`. -/
structure Seen (prob : Fin n → ℝ) (t : AliasTable n ℝ) (l : List (Fin n)) (s : Scan n ℝ) :
    Prop where
  min : Best (· ≤ ·) (t.residual prob) t.rest 1 l s.pmin s.jmin
  max : Best (· ≥ ·) (t.residual prob) t.rest (-1) l s.pmax s.jmax

theorem Seen.visit {s : Scan n ℝ} (h : Seen prob t l s) (k : Fin n) :
    Seen prob t (l ++ [k]) (s.visit prob t k) := by
  unfold Scan.visit
  split
  · next hk =>
    have hrest : k ∉ t.rest := fun hmem => by simp [AliasTable.mem_rest.1 hmem] at hk
    exact ⟨h.min.skip hrest, h.max.skip hrest⟩
  · next hk =>
    have hrest : k ∈ t.rest := AliasTable.mem_rest.2 hk
    have hmin : Best (· ≤ ·) (t.residual prob) t.rest 1 (l ++ [k])
        (if t.residual prob k ≤ s.pmin then t.residual prob k else s.pmin)
        (if t.residual prob k ≤ s.pmin then some k else s.jmin) := by
      split_ifs with hR
      · exact h.min.take (fun _ _ _ => le_trans) le_refl hrest hR
      · exact h.min.keep le_refl le_total hrest hR
    have hmax : Best (· ≥ ·) (t.residual prob) t.rest (-1) (l ++ [k])
        (if s.pmax ≤ t.residual prob k then t.residual prob k else s.pmax)
        (if s.pmax ≤ t.residual prob k then some k else s.jmax) := by
      split_ifs with hR
      · exact h.max.take (fun _ _ _ => ge_trans) le_refl hrest hR
      · exact h.max.keep le_refl (fun x y => le_total y x) hrest hR
    have hr : t.residual prob k = prob k - t.p k := rfl
    rw [hr] at hmin hmax
    simp only [le_iff]
    split_ifs at hmin hmax ⊢ <;> exact ⟨hmin, hmax⟩

theorem seen_scan (prob : Fin n → ℝ) (t : AliasTable n ℝ) :
    Seen prob t (List.finRange n) (scan prob t) := by
  have hfold (l : List (Fin n)) : Seen prob t l
      (l.foldl (Scan.visit prob t)
        { pmin := ((1 : ℤ) : ℝ), pmax := ((-1 : ℤ) : ℝ), jmin := none, jmax := none }) := by
    induction l using List.reverseRecOn with
    | nil => exact ⟨by simpa using Best.start, by simpa using Best.start⟩
    | append_singleton l k ih =>
      rw [List.foldl_append]
      exact ih.visit k
  exact hfold _

/-- The inner loop finds the smallest and the largest residual. -/
theorem chosen_of_scan {lo hi : Fin n} (hlo : (scan prob t).jmin = some lo)
    (hhi : (scan prob t).jmax = some hi) :
    t.Chosen prob lo hi ∧ (scan prob t).pmin = t.residual prob lo := by
  have h := seen_scan prob t
  obtain ⟨-, hlo_mem, hpmin⟩ := h.min.of_some lo hlo
  obtain ⟨-, hhi_mem, hpmax⟩ := h.max.of_some hi hhi
  refine ⟨⟨hlo_mem, hhi_mem, fun k hk => hpmin ▸ h.min.best k (List.mem_finRange k) hk,
    fun k hk => hpmax ▸ h.max.best k (List.mem_finRange k) hk, fun heven => ?_⟩, hpmin⟩
  have hall : ∀ i ∈ List.finRange n, ∀ k ∈ List.finRange n, i ∈ t.rest → k ∈ t.rest →
      t.residual prob i = t.residual prob k :=
    fun i _ k _ hi hk => (heven i hi).trans (heven k hk).symm
  exact Option.some_inj.1 ((h.max.last hall hi hhi).symm.trans (h.min.last hall lo hlo))

end Scan

/-! ## The rounds -/

section Rounds

open AliasTable

variable {n : ℕ} {prob : Fin n → ℝ} {t t' : AliasTable n ℝ} {px px' : ℝ} {lo hi : Fin n}

/-- A round closes the column that is short of the least, if what it keeps is in the interval. -/
theorem round_of_scan (hlo : (scan prob t).jmin = some lo) (hhi : (scan prob t).jmax = some hi) :
    round prob t =
      if 1 + 1 / 100000 < (1 / n - t.residual prob lo) * n ∨
          (1 / n - t.residual prob lo) * n < -(1 / 100000) then
        .error "Newran: probs don't add to 1 (a)"
      else .ok (t.give lo hi (t.residual prob lo), (1 / n - t.residual prob lo) * n) := by
  have hbound : (literal 100001 100000 : ℝ) = 1 + 1 / 100000 := by norm_num [literal]
  have hbound' : (literal (-1) 100000 : ℝ) = -(1 / 100000) := by norm_num [literal]
  simp only [round, hlo, hhi, (chosen_of_scan hlo hhi).2, hbound, hbound', Int.cast_one,
    Int.cast_natCast]
  rfl

/-- A round that succeeds. -/
theorem of_round_eq_ok (h : round prob t = .ok (t', px')) : ∃ lo hi, t.Chosen prob lo hi ∧
    t' = t.give lo hi (t.residual prob lo) ∧ px' = (1 / n - t.residual prob lo) * n ∧
      -(1 / 100000) ≤ px' ∧ px' ≤ 1 + 1 / 100000 := by
  cases hlo : (scan prob t).jmin with
  | none =>
    cases hhi : (scan prob t).jmax <;> simp [round, hlo, hhi] at h
  | some lo =>
    cases hhi : (scan prob t).jmax with
    | none => simp [round, hlo, hhi] at h
    | some hi =>
      rw [round_of_scan hlo hhi] at h
      split_ifs at h with hbad
      simp only [Except.ok.injEq, Prod.mk.injEq] at h
      obtain ⟨rfl, rfl⟩ := h
      rw [not_or, not_lt, not_lt] at hbad
      exact ⟨lo, hi, (chosen_of_scan hlo hhi).1, rfl, rfl, hbad.2, hbad.1⟩

/-- With exact probabilities, a round succeeds, and the last one keeps nothing. -/
theorem Exact.round (h : t.Exact prob) (hn : 0 < n) (hrest : t.rest.Nonempty) :
    ∃ t' px', round prob t = .ok (t', px') ∧ t'.Exact prob ∧ t'.rest.card + 1 = t.rest.card ∧
      (t'.rest = ∅ → px' = 0) := by
  have hn' : (0 : ℝ) < n := Nat.cast_pos.2 hn
  have hn₁ : (1 : ℝ) / n ≤ 1 := (div_le_one hn').2 (Nat.one_le_cast.2 hn)
  have hseen := seen_scan prob t
  obtain ⟨lo, hlo⟩ : ∃ lo, (scan prob t).jmin = some lo := by
    refine Option.ne_none_iff_exists'.1 fun hnone => ?_
    have hsum : ∑ k ∈ t.rest, t.residual prob k ≤ ∑ k ∈ t.rest, (1 / n : ℝ) := by
      rw [h.sum_residual, Finset.sum_const, nsmul_eq_mul, mul_one_div]
    obtain ⟨k, hk, hle⟩ := Finset.exists_le_of_sum_le hrest hsum
    exact (hseen.min.of_none hnone).2 k (List.mem_finRange k) hk (hle.trans hn₁)
  obtain ⟨hi, hhi⟩ : ∃ hi, (scan prob t).jmax = some hi := by
    refine Option.ne_none_iff_exists'.1 fun hnone => ?_
    obtain ⟨k, hk⟩ := hrest
    have := h.nonneg k hk
    exact (hseen.max.of_none hnone).2 k (List.mem_finRange k) hk (by linarith)
  have hc := (chosen_of_scan hlo hhi).1
  have hexact := h.give hn' hc
  -- What the closed column keeps is its share.
  have hshare := hexact.share lo (by simp [rest_give])
  rw [give_p_self] at hshare
  refine ⟨_, _, (round_of_scan hlo hhi).trans (if_neg ?_), hexact, ?_, fun hempty => ?_⟩
  · rw [not_or, not_lt, not_lt]
    constructor <;> linarith [hshare.1, hshare.2]
  · rw [rest_give, Finset.card_erase_add_one hc.lo_mem]
  · have heq : hi = lo := by
      by_contra hne
      have hmem : hi ∈ t.rest.erase lo := Finset.mem_erase.2 ⟨hne, hc.hi_mem⟩
      rw [← rest_give (t.residual prob lo), hempty] at hmem
      exact Finset.notMem_empty _ hmem
    rw [h.residual_of_eq hc heq, sub_self, zero_mul]

/-- The arrays before the first round. -/
theorem start_eq : ({ p := fun _ => ((0 : ℤ) : ℝ), ialt := fun _ => none } : AliasTable n ℝ) =
    AliasTable.empty n ℝ := by
  simp only [Int.cast_zero]
  rfl

/-- With exact probabilities, all rounds succeed. -/
theorem rounds_exact (hn : 0 < n) (hnonneg : ∀ k, 0 ≤ prob k) (hsum : ∑ k, prob k = 1) (m : ℕ)
    (hm : m ≤ n) : ∃ t px, rounds prob m (AliasTable.empty n ℝ, 0) = .ok (t, px) ∧ t.Exact prob ∧
      t.rest.card + m = n ∧ (t.rest = ∅ → px = 0) := by
  have hn' : (n : ℝ) ≠ 0 := Nat.cast_ne_zero.2 hn.ne'
  induction m with
  | zero =>
    refine ⟨_, _, rfl, exact_empty hn' hnonneg hsum, ?_, fun _ => rfl⟩
    rw [rest_empty, Finset.card_univ, Fintype.card_fin, add_zero]
  | succ m ih =>
    obtain ⟨t, px, hrounds, hexact, hcard, -⟩ := ih (Nat.le_of_succ_le hm)
    have hrest : t.rest.Nonempty := Finset.card_pos.1 (by omega)
    obtain ⟨t', px', hround, hexact', hcard', hpx'⟩ := Exact.round hexact hn hrest
    refine ⟨t', px', ?_, hexact', by omega, hpx'⟩
    rw [rounds, hrounds]
    exact hround

/-- What the rounds that succeed have made of the arrays. -/
theorem of_rounds_eq_ok (hn : 0 < n) (m : ℕ) (hm : m ≤ n)
    (h : rounds prob m (AliasTable.empty n ℝ, 0) = .ok (t, px)) :
    t.Balanced prob ∧ t.Even prob px ∧ t.rest.card + m = n ∧
      (∀ k ∉ t.rest, -(1 / 100000) ≤ t.p k ∧ t.p k ≤ 1 + 1 / 100000) ∧
        -(1 / 100000) ≤ px := by
  have hn' : (n : ℝ) ≠ 0 := Nat.cast_ne_zero.2 hn.ne'
  induction m generalizing t px with
  | zero =>
    obtain ⟨rfl, rfl⟩ := Prod.mk.inj (Except.ok.inj h)
    refine ⟨balanced_empty, even_empty hn' _, ?_, fun k hk => ?_, by norm_num⟩
    · rw [rest_empty, Finset.card_univ, Fintype.card_fin, add_zero]
    · exact absurd (rest_empty (K := ℝ) ▸ Finset.mem_univ k) hk
  | succ m ih =>
    rw [rounds] at h
    cases hrounds : rounds prob m (AliasTable.empty n ℝ, 0) with
    | error e =>
      rw [hrounds] at h
      cases h
    | ok s =>
      rw [hrounds] at h
      obtain ⟨hbal, heven, hcard, hp, -⟩ := ih (Nat.le_of_succ_le hm) hrounds
      obtain ⟨lo, hi, hc, rfl, hpx, hge, hle⟩ := of_round_eq_ok h
      refine ⟨hbal.give hn' hc.lo_mem hc.hi_mem, hpx ▸ heven.give hc, ?_, fun k hk => ?_, hge⟩
      · have := Finset.card_erase_add_one hc.lo_mem
        rw [rest_give]
        omega
      · rcases eq_or_ne k lo with rfl | hne
        · rw [give_p_self, ← hpx]
          exact ⟨hge, hle⟩
        · rw [rest_give, Finset.mem_erase, not_and] at hk
          rw [hc.give_p_of_closed (hk hne)]
          exact hp k (hk hne)

/-- For numbers of the unit interval, `Next` draws from the alias table. -/
theorem draw_eq_pick {u : ℝ × ℝ} (hu : u ∈ Ico (0 : ℝ) 1 ×ˢ Ico (0 : ℝ) 1) :
    draw t u.1 u.2 = t.pick u := by
  have hnonneg : 0 ≤ (n : ℝ) * u.1 := mul_nonneg (Nat.cast_nonneg n) hu.1.1
  have htrunc : CDouble.trunc (((n : ℤ) : ℝ) * u.1) = ⌊(n : ℝ) * u.1⌋ := by
    rw [Int.cast_natCast]
    exact if_neg (not_lt.2 hnonneg)
  have hfloor : 0 ≤ ⌊(n : ℝ) * u.1⌋ := Int.floor_nonneg.2 hnonneg
  simp only [draw, htrunc, pick, column, hfloor, true_and, Int.floor_toNat]

end Rounds

/-! ## What is drawn -/

section Law

open AliasTable

variable {n : ℕ} {prob : Fin n → ℝ} {t : AliasTable n ℝ} {val : Option (Fin n → ℝ)}

/-- Exact probabilities are accepted, and the table is exact. -/
theorem exists_gen_exact (hnonneg : ∀ k, 0 ≤ prob k) (hsum : ∑ k, prob k = 1) :
    ∃ t, gen prob = .ok t ∧ 0 < n ∧ ∀ k, t.mass k = prob k := by
  have hn : 0 < n := Nat.pos_of_ne_zero fun hn => by
    subst hn
    simp at hsum
  obtain ⟨t, px, hrounds, hexact, hcard, hpx⟩ := rounds_exact hn hnonneg hsum n le_rfl
  have hrest : t.rest = ∅ := Finset.card_eq_zero.1 (by omega)
  refine ⟨t, ?_, hn, hexact.mass_eq (Nat.cast_ne_zero.2 hn.ne') hrest⟩
  rw [gen, start_eq, Int.cast_zero, hrounds, hpx hrest]
  exact if_neg (by norm_num [literal])

theorem draw_eq_some_eq (t : AliasTable n ℝ) (k : Fin n) :
    {u ∈ Ico (0 : ℝ) 1 ×ˢ Ico (0 : ℝ) 1 | draw t u.1 u.2 = some k} =
      {u ∈ Ico (0 : ℝ) 1 ×ˢ Ico (0 : ℝ) 1 | t.pick u = some k} := by
  ext u
  exact and_congr_right fun hu => by rw [draw_eq_pick hu]

/-- The mean of a function of the index that is drawn. -/
theorem integral_next (hn : 0 < n) (g : DiscreteGen n ℝ) (f : ℝ → ℝ) :
    ∫ u in Ico (0 : ℝ) 1 ×ˢ Ico (0 : ℝ) 1, ((g.next u.1 u.2).map f).getD 0 =
      ∑ k, g.table.mass k * f (value g.val k) := by
  have hdraw : ∀ u ∈ Ico (0 : ℝ) 1 ×ˢ Ico (0 : ℝ) 1, ((g.next u.1 u.2).map f).getD 0 =
      ((g.table.pick u).map fun k => f (value g.val k)).getD 0 := by
    intro u hu
    rw [next, draw_eq_pick hu, Option.map_map]
    rfl
  rw [setIntegral_congr_fun (measurableSet_Ico.prod measurableSet_Ico) hdraw]
  exact g.table.integral_pick (Nat.cast_pos.2 hn) _

theorem foldl_add_eq_sum (f : Fin n → ℝ) :
    (List.finRange n).foldl (fun s i => s + f i) ((0 : ℤ) : ℝ) = ∑ i, f i := by
  rw [Int.cast_zero, ← List.sum_ofFn, List.ofFn_eq_map, List.sum_eq_foldl, List.foldl_map]

/-- Probabilities none of which is negative and that add up to 1 are accepted; every index is
    drawn with its probability, and `Mean()` and `Variance()` are the mean and the variance
    of what `Next()` draws. -/
theorem new_exact (val : Option (Fin n → ℝ)) (hnonneg : ∀ k, 0 ≤ prob k)
    (hsum : ∑ k, prob k = 1) : ∃ g, new prob val = .ok g ∧
      (∀ k, volume {u ∈ Ico (0 : ℝ) 1 ×ˢ Ico (0 : ℝ) 1 | draw g.table u.1 u.2 = some k} =
        ENNReal.ofReal (prob k)) ∧
      ∫ u in Ico (0 : ℝ) 1 ×ˢ Ico (0 : ℝ) 1, (g.next u.1 u.2).getD 0 = g.mean ∧
      ∫ u in Ico (0 : ℝ) 1 ×ˢ Ico (0 : ℝ) 1,
        ((g.next u.1 u.2).map fun x => (x - g.mean) ^ 2).getD 0 = g.var := by
  obtain ⟨t, hgen, hn, hmass⟩ := exists_gen_exact hnonneg hsum
  refine ⟨_, by rw [new, hgen]; rfl, fun k => ?_, ?_, ?_⟩
  · rw [draw_eq_some_eq, t.volume_pick (Nat.cast_pos.2 hn), hmass]
  · have := integral_next hn { table := t, val, mean := 0, var := 0 } id
    simp only [Option.map_id, id_eq, hmass] at this
    simp only [foldl_add_eq_sum, mul_comm (value val _)]
    exact this
  · simp only [integral_next hn, hmass, foldl_add_eq_sum]
    exact Finset.sum_congr rfl fun k _ => by ring

/-- Two numbers with the probabilities 1/4 and 3/4. -/
theorem new_exact_pair : ∃ g, new ![(1 / 4 : ℝ), 3 / 4] (some ![10, 20]) = .ok g ∧
    (∀ k, volume {u ∈ Ico (0 : ℝ) 1 ×ˢ Ico (0 : ℝ) 1 | draw g.table u.1 u.2 = some k} =
      ENNReal.ofReal (![(1 / 4 : ℝ), 3 / 4] k)) ∧
    ∫ u in Ico (0 : ℝ) 1 ×ˢ Ico (0 : ℝ) 1, (g.next u.1 u.2).getD 0 = g.mean ∧
    ∫ u in Ico (0 : ℝ) 1 ×ˢ Ico (0 : ℝ) 1,
      ((g.next u.1 u.2).map fun x => (x - g.mean) ^ 2).getD 0 = g.var :=
  new_exact _ (by intro k; fin_cases k <;> norm_num) (by norm_num [Fin.sum_univ_two])

/-- The tables that are accepted. -/
theorem of_gen_eq_ok (hn : 0 < n) (h : gen prob = .ok t) : ∃ px, t.Balanced prob ∧
    t.Even prob px ∧ t.rest = ∅ ∧ |px| ≤ 1 / 100000 ∧
      ∀ k, -(1 / 100000) ≤ t.p k ∧ t.p k ≤ 1 + 1 / 100000 := by
  rw [gen, start_eq, Int.cast_zero] at h
  cases hrounds : rounds prob n (AliasTable.empty n ℝ, 0) with
  | error e =>
    rw [hrounds] at h
    cases h
  | ok s =>
    rw [hrounds] at h
    obtain ⟨hbal, heven, hcard, hp, hge⟩ := of_rounds_eq_ok hn n le_rfl hrounds
    change (if literal 1 100000 < s.2 then _ else _) = _ at h
    split_ifs at h with hle
    obtain rfl := Except.ok.inj h
    have hrest : s.1.rest = ∅ := Finset.card_eq_zero.1 (by omega)
    have hpx : |s.2| ≤ 1 / 100000 := abs_le.2 ⟨hge, not_lt.1 (by simpa [literal] using hle)⟩
    exact ⟨s.2, hbal, heven, hrest, hpx, fun k => hp k (hrest ▸ Finset.notMem_empty k)⟩

/-- What is accepted adds up to 1 but for `0.00001`, and every index is drawn with its
    probability but for `0.00001`. -/
theorem gen_sound (hn : 0 < n) (h : gen prob = .ok t) : |1 - ∑ k, prob k| ≤ 1 / 100000 ∧
    ∀ k, |(volume {u ∈ Ico (0 : ℝ) 1 ×ˢ Ico (0 : ℝ) 1 | draw t u.1 u.2 = some k}).toReal -
      prob k| ≤ 1 / 100000 := by
  have hn' : (0 : ℝ) < n := Nat.cast_pos.2 hn
  obtain ⟨px, hbal, heven, hrest, hpx, hp⟩ := of_gen_eq_ok hn h
  obtain ⟨hsum, hown⟩ := heven.abs_le hn' hrest
  refine ⟨hsum.trans hpx, fun k => ?_⟩
  rw [draw_eq_some_eq, t.volume_pick hn', ENNReal.toReal_ofReal (t.mass_nonneg k)]
  exact hbal.abs_mass_sub_le hn' hrest (by norm_num) hp (fun i hi => (hown i hi).trans hpx) k

/-- A table that is accepted. -/
theorem gen_sound_pair : ∃ t, gen ![(1 / 4 : ℝ), 3 / 4] = .ok t ∧
    |1 - ∑ k, ![(1 / 4 : ℝ), 3 / 4] k| ≤ 1 / 100000 ∧
    ∀ k, |(volume {u ∈ Ico (0 : ℝ) 1 ×ˢ Ico (0 : ℝ) 1 | draw t u.1 u.2 = some k}).toReal -
      ![(1 / 4 : ℝ), 3 / 4] k| ≤ 1 / 100000 := by
  have hnonneg : ∀ k, 0 ≤ ![(1 / 4 : ℝ), 3 / 4] k := by
    intro k
    fin_cases k <;> norm_num
  obtain ⟨t, hgen, hn, -⟩ := exists_gen_exact hnonneg (by norm_num [Fin.sum_univ_two])
  exact ⟨t, hgen, gen_sound hn hgen⟩

end Law

end DiscreteGen
end Ditg
