import Ditg.Sender.Distributions
import Mathlib.Algebra.Order.BigOperators.Group.List
import Mathlib.Tactic.Linarith

/-!
# The uniform generator

`MotherOfAll`, which every flow sets up with its seed: two multiply-with-carry generators
on arrays of `short`, each with its carry in front, whose results make up one number of
32 bits (`MotherOfAll::Mother`).

The words that `unsigned long` has (`w` bits, 32 or 64) and the last entries of the
arrays, which the constructor leaves as they are in memory, are parameters.

* The numbers do not depend on `w` and on the memory (`mother_congr`).
* A number is strictly between 0 and 1, and it is never 1/2 (`next_mem`).
-/

namespace Ditg

/-- An array of `MotherOfAll`: the carry, the 8 last numbers, and the one they push out. -/
abbrev MotherArray := Fin 10 → Int16

/-- `class MotherOfAll`. -/
structure MotherOfAll where
  mother1 : MotherArray
  mother2 : MotherArray
  mStart : Bool
  seed : ℕ

namespace MotherOfAll

/-- An `unsigned long` of `w` bits. -/
def ulong (w : ℕ) (z : ℤ) : ℕ := (z % 2 ^ w).toNat

/-- So many 16-bit numbers, from `sNumber` and `number`. -/
def fill (w : ℕ) : ℕ → ℕ → ℕ → List ℕ
  | 0, _, _ => []
  | n + 1, sNumber, number =>
    let number := ulong w (30903 * sNumber + number / 65536)
    let sNumber := number % 65536
    sNumber :: fill w n sNumber number

/-- The first 9 entries of an array; the last one stays as it is. -/
def filled (numbers : List ℕ) (m : MotherArray) : MotherArray := fun i =>
  match numbers[(i : ℕ)]? with
  | some x => Int16.ofInt x
  | none => m i

/-- The carry without its highest bit. -/
def maskCarry (m : MotherArray) : MotherArray := Function.update m 0 (m 0 &&& 0x7FFF)

/-- What happens first, once. -/
def start (w : ℕ) (g : MotherOfAll) : MotherOfAll :=
  let numbers := fill w 18 (g.seed % 65536) (g.seed % 2147483648)
  { g with
    mother1 := maskCarry (filled (numbers.take 9) g.mother1)
    mother2 := maskCarry (filled (numbers.drop 9) g.mother2)
    mStart := false }

/-- `memmove` of the elements 1 to 8 to 2 to 9. -/
def move (m : MotherArray) : MotherArray := fun i => if 2 ≤ i then m (i - 1) else m i

/-- The coefficients of the first generator, for the elements 2 to 9. -/
def coefficients1 : List ℤ := [1941, 1860, 1812, 1776, 1492, 1215, 1066, 12013]

/-- The coefficients of the second generator. -/
def coefficients2 : List ℤ := [1111, 2222, 3333, 4444, 5555, 6666, 7777, 9272]

/-- The linear combination of the elements 2 to 9, as `int`s. The coefficients add up to 23175 and
    to 40380, so that no sum of products with `short`s gets to `2 ^ 31`. -/
def combine (a : List ℤ) (m : MotherArray) : ℤ :=
  (List.zipWith (fun a i => a * (m i).toInt) a [2, 3, 4, 5, 6, 7, 8, 9]).sum

/-- One step of a generator. -/
def advance (w : ℕ) (a : List ℤ) (m : MotherArray) : MotherArray :=
  let m := move m
  let number := ulong w (ulong w (m 0).toInt + combine a m)
  Function.update (Function.update m 0 (Int16.ofInt (number / 65536 : ℕ))) 1
    (Int16.ofInt (number % 65536 : ℕ))

/-- `MotherOfAll::Mother`. -/
def mother (w : ℕ) (g : MotherOfAll) : MotherOfAll :=
  let g := if g.mStart then start w g else g
  let mother1 := advance w coefficients1 g.mother1
  let mother2 := advance w coefficients2 g.mother2
  { g with
    mother1, mother2
    seed := ulong w ((mother1 1).toInt * 65536 + (mother2 1).toInt) % 4294967296 }

section Real

variable {F : Type} [CDouble F] [DecidableEq F]

/-- The constructor, with the arrays as they are in memory. -/
def new (w : ℕ) (mother1 mother2 : MotherArray) (s : F) : Except String MotherOfAll :=
  if CDouble.Le ((1 : ℤ) : F) s ∨ CDouble.Le s ((0 : ℤ) : F) then
    .error "Newran: seed out of range"
  else
    let seed := ulong w (CDouble.trunc (s * ((2147483648 : ℤ) : F)))
    if 2147483647 < seed ∨ seed = 0 then .error "Newran: seed out of range"
    else .ok { mother1, mother2, mStart := true, seed }

omit [DecidableEq F] in
/-- `MotherOfAll::Next`: the number, and the generator afterwards. -/
def next (w : ℕ) (g : MotherOfAll) : F × MotherOfAll :=
  let g := mother w g
  ((((g.seed : ℤ) : F) + literal 5 10) / ((4294967296 : ℤ) : F), g)

end Real

/-! ## Words -/

/-- A conversion to `short` keeps the lower 16 bits. -/
theorem ofInt_congr {x y : ℤ} (h : x % 65536 = y % 65536) : Int16.ofInt x = Int16.ofInt y :=
  Int16.toInt_inj.1 (by rw [Int16.toInt_ofInt, Int16.toInt_ofInt, Int.bmod_def, Int.bmod_def,
    Int16.size, Nat.cast_ofNat, h])

section Words

variable {w w' : ℕ}

/-- The number of words of 32 bits in an `unsigned long`. -/
theorem exists_pow_eq (hw : 32 ≤ w) : ∃ k : ℤ, (2 : ℤ) ^ w = k * 4294967296 :=
  ⟨2 ^ (w - 32), by rw [show (4294967296 : ℤ) = 2 ^ 32 from rfl, ← pow_add, Nat.sub_add_cancel hw]⟩

theorem coe_ulong (w : ℕ) (z : ℤ) : (ulong w z : ℤ) = z % 2 ^ w :=
  Int.toNat_of_nonneg (Int.emod_nonneg _ (by positivity))

/-- The lower 32 bits of a word are those of the number. -/
theorem ulong_mod (hw : 32 ≤ w) (z : ℤ) : (ulong w z : ℤ) % 4294967296 = z % 4294967296 := by
  obtain ⟨k, hk⟩ := exists_pow_eq hw
  rw [coe_ulong, hk, Int.emod_emod_of_dvd _ (Dvd.intro_left k rfl)]

/-- A small number is its word. -/
theorem ulong_of_lt (hw : 32 ≤ w) {z : ℤ} (h₀ : 0 ≤ z) (h : z < 4294967296) :
    (ulong w z : ℤ) = z := by
  obtain ⟨k, hk⟩ := exists_pow_eq hw
  have hpos : (0 : ℤ) < 2 ^ w := by positivity
  rw [coe_ulong, Int.emod_eq_of_lt h₀]
  have : 1 ≤ k := by nlinarith
  nlinarith

/-- A step of a generator, whatever an `unsigned long` is. -/
theorem advance_eq (hw : 32 ≤ w) (a : List ℤ) (m : MotherArray) : advance w a m =
    Function.update (Function.update (move m) 0
      (Int16.ofInt (((m 0).toInt + combine a (move m)) % 4294967296 / 65536))) 1
      (Int16.ofInt ((m 0).toInt + combine a (move m))) := by
  have hmove : move m 0 = m 0 := rfl
  have hnumber := ulong_mod hw ((ulong w (m 0).toInt : ℤ) + combine a (move m))
  have hcarry := ulong_mod hw (m 0).toInt
  simp only [advance, hmove]
  congr 1
  · congr 1
    refine ofInt_congr ?_
    push_cast
    omega
  · refine ofInt_congr ?_
    push_cast
    omega

/-- The number made up of the two generators, whatever an `unsigned long` is. -/
theorem seed_eq (hw : 32 ≤ w) (z : ℤ) :
    ulong w z % 4294967296 = (z % 4294967296).toNat := by
  have := ulong_mod hw z
  omega

/-- The first entries of the arrays, whatever an `unsigned long` is. -/
theorem fill_congr (hw : 32 ≤ w) (hw' : 32 ≤ w') (n : ℕ) {sNumber number : ℕ}
    (hs : sNumber < 65536) (hnumber : number < 2147483648) :
    fill w n sNumber number = fill w' n sNumber number := by
  induction n generalizing sNumber number with
  | zero => rfl
  | succ n ih =>
    have heq {w : ℕ} (hw : 32 ≤ w) : ulong w (30903 * (sNumber : ℤ) + number / 65536) =
        30903 * sNumber + number / 65536 := by
      have := ulong_of_lt hw (z := 30903 * (sNumber : ℤ) + number / 65536) (by omega) (by omega)
      omega
    simp only [fill, heq hw, heq hw']
    rw [ih (Nat.mod_lt _ (by decide)) (by omega)]

end Words

/-! ## The generators -/

/-- The arrays are the same but for the entries behind the last number. -/
def SameNumbers (m m' : MotherArray) : Prop := ∀ i, i ≠ 9 → m i = m' i

/-- What the first entries are filled with. -/
theorem filled_same {numbers : List ℕ} (h : numbers.length = 9) (m m' : MotherArray) :
    SameNumbers (filled numbers m) (filled numbers m') := by
  intro i hi
  have hlt : (i : ℕ) < numbers.length := by
    rw [h]
    omega
  simp [filled, List.getElem?_eq_getElem hlt]

theorem maskCarry_same {m m' : MotherArray} (h : SameNumbers m m') :
    SameNumbers (maskCarry m) (maskCarry m') := by
  intro i hi
  rcases eq_or_ne i 0 with rfl | h₀
  · simp [maskCarry, h 0 (by decide)]
  · simp [maskCarry, h₀, h i hi]

/-- The entry behind the last number is overwritten before it is read. -/
theorem move_eq {m m' : MotherArray} (h : SameNumbers m m') : move m = move m' := by
  funext i
  unfold move
  split_ifs with hi
  · exact h _ (by omega)
  · exact h _ (by omega)

theorem advance_congr {w w' : ℕ} (hw : 32 ≤ w) (hw' : 32 ≤ w') (a : List ℤ) {m m' : MotherArray}
    (h : SameNumbers m m') : advance w a m = advance w' a m' := by
  rw [advance_eq hw, advance_eq hw', move_eq h, h 0 (by decide)]

theorem length_fill (w n sNumber number : ℕ) : (fill w n sNumber number).length = n := by
  induction n generalizing sNumber number with
  | zero => rfl
  | succ n ih => simp [fill, ih]

/-- Two generators that will draw the same numbers. -/
structure Same (g g' : MotherOfAll) : Prop where
  mStart : g.mStart = g'.mStart
  seed : g.mStart = true → g.seed = g'.seed
  mother1 : g.mStart = false → SameNumbers g.mother1 g'.mother1
  mother2 : g.mStart = false → SameNumbers g.mother2 g'.mother2

/-- The numbers do not depend on the width of `unsigned long`, and not on what the arrays
    had in memory. -/
theorem mother_congr {w w' : ℕ} (hw : 32 ≤ w) (hw' : 32 ≤ w') {g g' : MotherOfAll}
    (h : Same g g') : mother w g = mother w' g' := by
  obtain ⟨hstart, hseed, h₁, h₂⟩ := h
  have hstarted : SameNumbers (if g.mStart then start w g else g).mother1
      (if g'.mStart then start w' g' else g').mother1 ∧
      SameNumbers (if g.mStart then start w g else g).mother2
      (if g'.mStart then start w' g' else g').mother2 ∧
      (if g.mStart then start w g else g).mStart = false ∧
      (if g'.mStart then start w' g' else g').mStart = false := by
    cases hg : g.mStart with
    | true =>
      have hfill := fill_congr hw hw' 18 (Nat.mod_lt g.seed (by decide : 0 < 65536))
        (Nat.mod_lt g.seed (by decide : 0 < 2147483648))
      rw [← hstart, hg, if_pos rfl, if_pos rfl]
      refine ⟨maskCarry_same ?_, maskCarry_same ?_, rfl, rfl⟩
      · rw [← hseed hg, ← hfill]
        exact filled_same (by simp [length_fill]) _ _
      · rw [← hseed hg, ← hfill]
        exact filled_same (by simp [length_fill]) _ _
    | false =>
      rw [← hstart, hg]
      exact ⟨h₁ hg, h₂ hg, hg, hstart ▸ hg⟩
  obtain ⟨h₁, h₂, hfalse, hfalse'⟩ := hstarted
  simp only [mother, advance_congr hw hw' _ h₁, advance_congr hw hw' _ h₂, seed_eq hw, seed_eq hw',
    hfalse, hfalse']

/-! ## The numbers -/

/-- The number drawn after `n` others. -/
def number (w : ℕ) (g : MotherOfAll) (n : ℕ) : ℚ := (next w ((mother w)^[n] g)).1

theorem Same.refl (g : MotherOfAll) : Same g g :=
  ⟨rfl, fun _ => rfl, fun _ _ _ => rfl, fun _ _ _ => rfl⟩

theorem number_congr {w w' : ℕ} (hw : 32 ≤ w) (hw' : 32 ≤ w') {g g' : MotherOfAll}
    (h : Same g g') (n : ℕ) : number w g n = number w' g' n := by
  have hiterate : Same ((mother w)^[n] g) ((mother w')^[n] g') := by
    induction n with
    | zero => exact h
    | succ n ih =>
      rw [Function.iterate_succ_apply', Function.iterate_succ_apply', mother_congr hw hw' ih]
      exact .refl _
  rw [number, number, next, next, mother_congr hw hw' hiterate]

/-- A number is strictly between 0 and 1, and it is never 1/2. -/
theorem number_mem (w : ℕ) (g : MotherOfAll) (n : ℕ) :
    0 < number w g n ∧ number w g n < 1 ∧ number w g n ≠ 1 / 2 := by
  obtain ⟨x, hx, heq⟩ : ∃ x : ℕ, x < 4294967296 ∧
      number w g n = ((x : ℚ) + 1 / 2) / 4294967296 :=
    ⟨(mother w ((mother w)^[n] g)).seed, Nat.mod_lt _ (by decide), by
      norm_num [number, next, literal]⟩
  have hx' : (x : ℚ) + 1 ≤ 4294967296 := by exact_mod_cast hx
  rw [heq]
  refine ⟨by positivity, (div_lt_one (by norm_num)).2 (by linarith), fun h => ?_⟩
  rw [div_eq_iff (by norm_num)] at h
  have : ((2 * x + 1 : ℕ) : ℚ) = (4294967296 : ℕ) := by
    push_cast
    linarith
  have := Nat.cast_injective this
  omega

/-- Whether the constructor accepts a seed, whatever an `unsigned long` is. -/
theorem new_eq {w : ℕ} (hw : 32 ≤ w) (mother1 mother2 : MotherArray) (s : ℚ) :
    new w mother1 mother2 s =
      if 1 / 2147483648 ≤ s ∧ s < 1 then
        .ok { mother1, mother2, mStart := true, seed := ⌊s * 2147483648⌋.toNat }
      else .error "Newran: seed out of range" := by
  have hle : CDouble.Le ((1 : ℤ) : ℚ) s ∨ CDouble.Le s ((0 : ℤ) : ℚ) ↔ 1 ≤ s ∨ s ≤ 0 := by
    simp [CDouble.Le, le_iff_lt_or_eq]
  simp only [new, hle]
  by_cases hs : 1 ≤ s ∨ s ≤ 0
  · rw [if_pos hs, if_neg]
    rintro ⟨h₀, h₁⟩
    rcases hs with hs | hs
    · exact absurd h₁ (not_lt.2 hs)
    · linarith
  · rw [if_neg hs]
    rw [not_or, not_le, not_le] at hs
    obtain ⟨h₁, h₀⟩ := hs
    have htrunc : CDouble.trunc (s * ((2147483648 : ℤ) : ℚ)) = ⌊s * 2147483648⌋ :=
      if_neg (not_lt.2 (by positivity))
    have hnonneg : 0 ≤ ⌊s * 2147483648⌋ := Int.floor_nonneg.2 (by positivity)
    have hlt : ⌊s * 2147483648⌋ < 2147483648 := Int.floor_lt.2 (by norm_num; linarith)
    have hulong := ulong_of_lt hw hnonneg (hlt.trans (by decide))
    have hzero : ⌊s * 2147483648⌋ < 1 ↔ ¬1 / 2147483648 ≤ s := by
      rw [Int.floor_lt, Int.cast_one, not_le, lt_div_iff₀ (by norm_num)]
    rw [htrunc]
    split_ifs with hbad hs hs
    · exact absurd (hzero.1 (by omega)) (not_not.2 hs.1)
    · rfl
    · rw [show ulong w ⌊s * 2147483648⌋ = ⌊s * 2147483648⌋.toNat by omega]
    · have := hzero.2 fun h => hs ⟨h, h₁⟩
      omega

/-- What the arrays have in memory does not matter. -/
theorem same_of_seed (mother1 mother2 mother1' mother2' : MotherArray) (seed : ℕ) :
    Same { mother1, mother2, mStart := true, seed }
      { mother1 := mother1', mother2 := mother2', mStart := true, seed } :=
  ⟨rfl, fun _ => rfl, fun h => absurd h.symm Bool.false_ne_true,
    fun h => absurd h.symm Bool.false_ne_true⟩

/-- A seed of at least `2⁻³¹` and below 1 determines the numbers, which are strictly between
    0 and 1 and never 1/2; for any other seed the constructor throws. -/
theorem numbers_of_seed {w w' : ℕ} (hw : 32 ≤ w) (hw' : 32 ≤ w')
    (mother1 mother2 mother1' mother2' : MotherArray) (s : ℚ) :
    if 1 / 2147483648 ≤ s ∧ s < 1 then
      ∃ g g', new w mother1 mother2 s = .ok g ∧ new w' mother1' mother2' s = .ok g' ∧
        ∀ n, number w g n = number w' g' n ∧
          0 < number w g n ∧ number w g n < 1 ∧ number w g n ≠ 1 / 2
    else new w mother1 mother2 s = .error "Newran: seed out of range" := by
  split_ifs with hs
  · refine ⟨_, _, (new_eq hw mother1 mother2 s).trans (if_pos hs),
      (new_eq hw' mother1' mother2' s).trans (if_pos hs), fun n => ?_⟩
    exact ⟨number_congr hw hw' (same_of_seed ..) n, number_mem w _ n⟩
  · rw [new_eq hw, if_neg hs]

/-- The default seed, with `unsigned long`s of 32 and of 64 bits. -/
theorem numbers_of_seed_default : ∃ g g',
    new 32 (fun _ => 0) (fun _ => 0) (15 / 16 : ℚ) = .ok g ∧
      new 64 (fun _ => 1) (fun _ => 2) (15 / 16 : ℚ) = .ok g' ∧
        ∀ n, number 32 g n = number 64 g' n ∧
          0 < number 32 g n ∧ number 32 g n < 1 ∧ number 32 g n ≠ 1 / 2 := by
  have h := numbers_of_seed (show 32 ≤ 32 from le_rfl) (show 32 ≤ 64 by decide)
    (fun _ => 0) (fun _ => 0) (fun _ => 1) (fun _ => 2) (15 / 16)
  rwa [if_pos ⟨by norm_num, by norm_num⟩] at h

end MotherOfAll
end Ditg
