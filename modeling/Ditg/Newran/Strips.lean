import Ditg.Library.Staircase
import Ditg.Newran.DiscreteGen

/-!
# Automatic generators

`PosGen`, `SymGen` and `AsymGen` draw from a density (`Density`) by rejection. `Build` cuts the
region below it into strips of the same area; `Next` chooses a strip and a point in
it, until the point is below the density. The density is only computed for points
that are not below the next edge of the strip.

What has been written to the arrays `sx` and `sfx` are the lists here, and an index outside
of them has no entry. `Next` takes the numbers of the generator in threes.

* `symGen_law`, `asymGen_law`: what `Next` draws has the given density, and it never
  leaves the arrays, if the density decreases from the mode on;
* the turns of the loop have the same probability to end it.
-/

namespace Ditg

open MeasureTheory Set

section Model

variable {F : Type} [CDouble F] [DecidableEq F]

/-- An index of `sx` and `sfx`, with what is written there. -/
structure Edge (F : Type) where
  sx : F
  sfx : F

/-- A loop of `Build`, which may write so many entries; `next` is how `sxi` changes. There is
    no result if it writes all of them. -/
def buildLoop (density : F → F) (next : F → F → F) : ℕ → F → Option (List (Edge F))
  | 0, _ => none
  | n + 1, sxi =>
    let f1 := density sxi
    if CDouble.Le f1 ((0 : ℤ) : F) then some [{ sx := sxi, sfx := f1 }]
    else (buildLoop density next n (next sxi f1)).map ({ sx := sxi, sfx := f1 } :: ·)

/-- One turn of the loop of `Next`, with the entries of the strip and of the next one: the
    point, and whether the loop ends. -/
def turn (density : F → F) (e e' : Option (Edge F)) (r₂ r₃ : F) : Option (F × Bool) :=
  e.bind fun e => e'.map fun e' =>
    let ak := e.sx + (e'.sx - e.sx) * r₂
    let y := e.sfx * r₃
    (ak, !decide (CDouble.Le e'.sfx y ∧ CDouble.Le (density ak) y))

/-- The loop of `Next`, for the numbers of the generator. It has no result if it needs more
    of them, or if it leaves the arrays. -/
def drawLoop (turn : F × F × F → Option (F × Bool)) : List (F × F × F) → Option F
  | [] => none
  | r :: rs =>
    match turn r with
    | none => none
    | some (ak, true) => some ak
    | some (_, false) => drawLoop turn rs

/-- The entry with an index, which is an `int`. -/
def entry (edges : List (Edge F)) (i : ℤ) : Option (Edge F) :=
  if 0 ≤ i then edges[i.toNat]? else none

/-- `class PosGen`, once it is built. -/
structure PosGen (F : Type) where
  xi : F
  edges : List (Edge F)

/-- `PosGen::Build`. -/
def PosGen.build (density : F → F) (sym : Bool) : Except String (PosGen F) :=
  let inc : F := if sym then literal 1 100 else literal 2 100
  match buildLoop density (fun sxi f1 => sxi + inc / f1) 60 ((0 : ℤ) : F) with
  | none => .error "Newran: area too large"
  | some edges =>
    let i : ℤ := edges.length - 1
    if i < 50 then .error "Newran: area too small"
    else .ok { xi := ((if sym then 2 * i else i : ℤ) : F), edges }

/-- A turn of `PosGen::Next`. -/
def PosGen.turn (density : F → F) (g : PosGen F) (r : F × F × F) : Option (F × Bool) :=
  let ir := CDouble.trunc (r.1 * g.xi)
  Ditg.turn density (entry g.edges ir) (entry g.edges (ir + 1)) r.2.1 r.2.2

/-- A turn of `SymGen::Next`. -/
def SymGen.turn (density : F → F) (g : PosGen F) (r : F × F × F) : Option (F × Bool) :=
  let sr : F × F :=
    if literal 5 10 < r.1 then (((-1 : ℤ) : F), ((1 : ℤ) : F) - r.1) else (((1 : ℤ) : F), r.1)
  let ir := CDouble.trunc (sr.2 * g.xi)
  (Ditg.turn density (entry g.edges ir) (entry g.edges (ir + 1)) r.2.1 r.2.2).map fun p =>
    (sr.1 * p.1, p.2)

/-- `SymGen::Next`. -/
def SymGen.next (density : F → F) (g : PosGen F) : List (F × F × F) → Option F :=
  drawLoop (turn density g)

/-- `class AsymGen`, once it is built. The entry with the index 120 is on its own. -/
structure AsymGen (F : Type) where
  xi : F
  ic : ℤ
  edges : List (Edge F)
  top : Edge F

/-- `AsymGen::Build`. -/
def AsymGen.build (density : F → F) (mode : F) : Except String (AsymGen F) :=
  match buildLoop density (fun sxi f1 => sxi + literal 1 100 / f1) 120 mode with
  | none => .error "Newran: area too large (a)"
  | some right =>
    let i := right.length - 1
    -- The last entry is moved to the end, and the left side begins in its place.
    let top : Edge F :=
      { sx := (right.getLast?.map Edge.sx).getD mode, sfx := ((0 : ℤ) : F) }
    match buildLoop density (fun sxi f1 => sxi - literal 1 100 / f1) (120 - i) mode with
    | none => .error "Newran: area too large (b)"
    | some left =>
      let edges := right.dropLast ++ left
      if (edges.length : ℤ) - 1 < 100 then .error "Newran: area too small"
      else .ok { xi := (((edges.length : ℤ) - 1 : ℤ) : F), ic := (i : ℤ) - 1, edges, top }

/-- A turn of `AsymGen::Next`. -/
def AsymGen.turn (density : F → F) (g : AsymGen F) (r : F × F × F) : Option (F × Bool) :=
  let ir := CDouble.trunc (r.1 * g.xi)
  Ditg.turn density (entry g.edges ir)
    (if ir = g.ic then some g.top else entry g.edges (ir + 1)) r.2.1 r.2.2

/-- `AsymGen::Next`. -/
def AsymGen.next (density : F → F) (g : AsymGen F) : List (F × F × F) → Option F :=
  drawLoop (g.turn density)

end Model

/-! ## The loops -/

open Staircase Rejection

/-- A turn ends the loop with a point where an attempt gives it, and goes on where it fails. -/
def Agrees (turn : ℝ × ℝ × ℝ → Option (ℝ × Bool)) (A : ℝ × ℝ × ℝ → Option ℝ) (r : ℝ × ℝ × ℝ) :
    Prop :=
  ∃ v b, turn r = some (v, b) ∧ A r = if b then some v else none

theorem drawLoop_eq_findSome {turn : ℝ × ℝ × ℝ → Option (ℝ × Bool)} {A : ℝ × ℝ × ℝ → Option ℝ}
    {rs : List (ℝ × ℝ × ℝ)} (h : ∀ r ∈ rs, Agrees turn A r) :
    drawLoop turn rs = rs.findSome? A := by
  induction rs with
  | nil => rfl
  | cons r rs ih =>
    obtain ⟨v, b, hturn, hA⟩ := h r List.mem_cons_self
    rw [drawLoop, hturn, List.findSome?_cons, hA]
    cases b with
    | true => rfl
    | false => exact ih fun r hr => h r (List.mem_cons_of_mem _ hr)

/-- The probability that a loop with the numbers of `N` turns gives a value of `B`. -/
noncomputable def drawn (next : List (ℝ × ℝ × ℝ) → Option ℝ) (N : ℕ) (B : Set ℝ) : ENNReal :=
  Measure.pi (fun _ : Fin N => uniformCube) {ω | ∃ v ∈ B, next (List.ofFn ω) = some v}

/-- What is drawn by turns that almost always agree with attempts. -/
theorem measure_drawLoop {turn : ℝ × ℝ × ℝ → Option (ℝ × Bool)} {A : ℝ × ℝ × ℝ → Option ℝ}
    (h : ∀ᵐ r ∂uniformCube, Agrees turn A r) (N : ℕ) (B : Set ℝ) :
    drawn (drawLoop turn) N B =
      Measure.pi (fun _ : Fin N => uniformCube) (Rejection.Draws A B N) := by
  have hall : ∀ᵐ ω ∂Measure.pi (fun _ : Fin N => uniformCube), ∀ k, Agrees turn A (ω k) :=
    ae_all_iff.2 fun k => (Measure.quasiMeasurePreserving_eval _ k).ae h
  refine measure_congr (hall.mono fun ω hω => propext ?_)
  have hofFn : ∀ r ∈ List.ofFn ω, Agrees turn A r := List.forall_mem_ofFn_iff.2 hω
  change (∃ v ∈ B, drawLoop turn (List.ofFn ω) = some v) ↔ ∃ v ∈ B, _
  rw [drawLoop_eq_findSome hofFn]

/-- A turn ends the loop with a point that has the density `f`, but for the factor `q`. -/
def Turns (turn : ℝ × ℝ × ℝ → Option (ℝ × Bool)) (q : ENNReal) (f : ℝ → ENNReal) : Prop :=
  ∃ A, Attempts uniformCube A q f ∧ ∀ᵐ r ∂uniformCube, Agrees turn A r

theorem Turns.law {turn : ℝ × ℝ × ℝ → Option (ℝ × Bool)} {q : ENNReal} {f : ℝ → ENNReal}
    (h : Turns turn q f) : Law (drawn (drawLoop turn)) q f := by
  obtain ⟨A, hA, hturn⟩ := h
  exact hA.law (measure_drawLoop hturn)

/-- The loop ends exactly with a point below the density, if no point is below the next edge that
    is not below the density. -/
theorem turn_of_imp {density : ℝ → ℝ} {e e' : Edge ℝ} {r₂ r₃ : ℝ}
    (h : e.sfx * r₃ < e'.sfx → e.sfx * r₃ < density (e.sx + (e'.sx - e.sx) * r₂)) :
    turn density (some e) (some e') r₂ r₃ = some (e.sx + (e'.sx - e.sx) * r₂,
      decide (e.sfx * r₃ < density (e.sx + (e'.sx - e.sx) * r₂))) := by
  have hdecide : (CDouble.Le e'.sfx (e.sfx * r₃) ∧
      CDouble.Le (density (e.sx + (e'.sx - e.sx) * r₂)) (e.sfx * r₃)) ↔
        density (e.sx + (e'.sx - e.sx) * r₂) ≤ e.sfx * r₃ := by
    rw [DiscreteGen.le_iff, DiscreteGen.le_iff]
    exact ⟨fun hle => hle.2, fun hle => ⟨not_lt.1 fun hlt => not_lt.2 hle (h hlt), hle⟩⟩
  simp only [turn, Option.bind_some, Option.map_some, hdecide, ← decide_not, not_le]

/-! ## The strips that are built -/

/-- The entries a loop of `Build` writes are the edges of a staircase, on one side of `m`. -/
theorem buildLoop_eq_some {density d : ℝ → ℝ} {next : ℝ → ℝ → ℝ} {m σ a : ℝ}
    (hnext : ∀ sxi f1, next sxi f1 = sxi + σ * (a / f1))
    (hd : ∀ z, 0 ≤ z → d z = density (m + σ * z)) (ha : 0 < a) (n j : ℕ) (hj : 0 ≤ edge d a j)
    {edges : List (Edge ℝ)} (h : buildLoop density next n (m + σ * edge d a j) = some edges) :
    ∃ i, j ≤ i ∧ i < j + n ∧ (∀ k, j ≤ k → k < i → 0 < d (edge d a k)) ∧ d (edge d a i) ≤ 0 ∧
      edges = (List.range' j (i + 1 - j)).map fun k =>
        { sx := m + σ * edge d a k, sfx := d (edge d a k) } := by
  induction n generalizing j edges with
  | zero => exact absurd h.symm (Option.some_ne_none _)
  | succ n ih =>
    simp only [buildLoop, DiscreteGen.le_iff, Int.cast_zero, ← hd _ hj] at h
    split_ifs at h with hle
    · obtain rfl := Option.some_inj.1 h
      refine ⟨j, le_rfl, by omega, fun k hk hk' => absurd hk (by omega), hle, ?_⟩
      simp
    · obtain ⟨rest, hrest, rfl⟩ := Option.map_eq_some_iff.1 h
      have hpos : 0 < d (edge d a j) := not_le.1 hle
      have hedge : next (m + σ * edge d a j) (d (edge d a j)) = m + σ * edge d a (j + 1) := by
        rw [hnext, edge_succ]
        ring
      have hj' : 0 ≤ edge d a (j + 1) := by
        rw [edge_succ]
        positivity
      rw [hedge] at hrest
      obtain ⟨i, hji, hi, hall, hlast, rfl⟩ := ih (j + 1) hj' hrest
      refine ⟨i, by omega, by omega, fun k hk hk' => ?_, hlast, ?_⟩
      · rcases Nat.eq_or_lt_of_le hk with rfl | hlt
        · exact hpos
        · exact hall k hlt hk'
      · rw [show i + 1 - j = (i + 1 - (j + 1)) + 1 by omega, List.range'_succ, List.map_cons]

/-- The density on one side of `m`, by the distance. -/
def side (density : ℝ → ℝ) (m σ z : ℝ) : ℝ := density (m + σ * max 0 z)

theorem side_of_nonneg (density : ℝ → ℝ) (m σ : ℝ) {z : ℝ} (hz : 0 ≤ z) :
    side density m σ z = density (m + σ * z) := by rw [side, max_eq_right hz]

theorem antitone_side_right {density : ℝ → ℝ} {m : ℝ} (h : AntitoneOn density (Ici m)) :
    Antitone (side density m 1) := fun x y hxy => by
  have hx := le_max_left 0 x
  have hy := le_max_left 0 y
  refine h (mem_Ici.2 ?_) (mem_Ici.2 ?_) ?_
  · linarith
  · linarith
  · linarith [max_le_max_left 0 hxy]

theorem antitone_side_left {density : ℝ → ℝ} {m : ℝ} (h : MonotoneOn density (Iic m)) :
    Antitone (side density m (-1)) := fun x y hxy => by
  have hx := le_max_left 0 x
  have hy := le_max_left 0 y
  refine h (mem_Iic.2 ?_) (mem_Iic.2 ?_) ?_
  · linarith
  · linarith
  · linarith [max_le_max_left 0 hxy]

/-- The entry of an edge. -/
noncomputable def edgeAt (density : ℝ → ℝ) (m σ a : ℝ) (k : ℕ) : Edge ℝ where
  sx := m + σ * edge (side density m σ) a k
  sfx := side density m σ (edge (side density m σ) a k)

/-- What a loop of `Build` builds on one side of `m`. -/
theorem built_of_buildLoop {density : ℝ → ℝ} {next : ℝ → ℝ → ℝ} {m a : ℝ} (σ : ℝ)
    (hnext : ∀ sxi f1, next sxi f1 = sxi + σ * (a / f1)) (hanti : Antitone (side density m σ))
    (ha : 0 < a) {n : ℕ} {edges : List (Edge ℝ)} (h : buildLoop density next n m = some edges) :
    ∃ i, Built (side density m σ) a i ∧
      edges = (List.range (i + 1)).map (edgeAt density m σ a) := by
  have hm : m = m + σ * edge (side density m σ) a 0 := by rw [edge_zero, mul_zero, add_zero]
  rw [hm] at h
  obtain ⟨i, -, -, hpos, hlast, hedges⟩ :=
    buildLoop_eq_some hnext (fun z => side_of_nonneg density m σ) ha n 0 le_rfl h
  refine ⟨i, ⟨hanti, fun k => hpos k (Nat.zero_le k), hlast⟩, ?_⟩
  rw [hedges, Nat.sub_zero, ← List.range_eq_range']
  rfl

theorem entry_natCast (edges : List (Edge ℝ)) (k : ℕ) : entry edges k = edges[k]? :=
  if_pos (Int.natCast_nonneg k)

theorem entry_map_range {f : ℕ → Edge ℝ} {n k : ℕ} (hk : k < n) :
    entry ((List.range n).map f) k = some (f k) := by
  rw [entry_natCast, List.getElem?_map, List.getElem?_range hk, Option.map_some]

/-! ## Turns and attempts -/

section Turns

variable {density : ℝ → ℝ} {m σ a : ℝ} {n k : ℕ}

/-- The distance of a point of a strip, for a number of the unit interval. -/
noncomputable def distance (d : ℝ → ℝ) (a : ℝ) (k : ℕ) (r : ℝ) : ℝ :=
  edge d a k + (edge d a (k + 1) - edge d a k) * r

/-- A point of a strip is between its edges. -/
theorem distance_mem {d : ℝ → ℝ} (h : Built d a n) (ha : 0 < a) (hk : k < n) {r : ℝ}
    (hr : r ∈ Ico (0 : ℝ) 1) : distance d a k r ∈ Ico (edge d a k) (edge d a (k + 1)) := by
  have hlt := sub_pos.2 (h.edge_lt ha hk)
  constructor
  · exact le_add_of_nonneg_right (mul_nonneg hlt.le hr.1)
  · have := mul_lt_of_lt_one_right hlt hr.2
    rw [distance]
    linarith

/-- A turn with the strip between two edges. -/
theorem turn_edgeAt (h : Built (side density m σ) a n) (ha : 0 < a) (hk : k < n) {r₂ r₃ : ℝ}
    (hr₂ : r₂ ∈ Ico (0 : ℝ) 1) (hr₃ : 0 ≤ r₃) {e' : Edge ℝ}
    (hsx : e'.sx = m + σ * edge (side density m σ) a (k + 1))
    (hsfx : e'.sfx = side density m σ (edge (side density m σ) a (k + 1)) ∨ e'.sfx = 0) :
    turn density (some (edgeAt density m σ a k)) (some e') r₂ r₃ =
      some (m + σ * distance (side density m σ) a k r₂,
        decide (side density m σ (edge (side density m σ) a k) * r₃ <
          side density m σ (distance (side density m σ) a k r₂))) := by
  have hz := distance_mem h ha hk hr₂
  have hz₀ := (h.edge_nonneg ha hk.le).trans hz.1
  have hpoint : (edgeAt density m σ a k).sx + (e'.sx - (edgeAt density m σ a k).sx) * r₂ =
      m + σ * distance (side density m σ) a k r₂ := by
    rw [hsx, edgeAt, distance]
    ring
  have himp : (edgeAt density m σ a k).sfx * r₃ < e'.sfx → (edgeAt density m σ a k).sfx * r₃ <
      density ((edgeAt density m σ a k).sx + (e'.sx - (edgeAt density m σ a k).sx) * r₂) := by
    intro hlt
    rw [hpoint, ← side_of_nonneg density m σ hz₀]
    rcases hsfx with hsfx | hsfx
    · exact hlt.trans_le (hsfx ▸ (h.le_of_mem hz).1)
    · exact absurd hlt (not_lt.2 (hsfx ▸ mul_nonneg (h.pos k hk).le hr₃))
  rw [turn_of_imp himp, hpoint, ← side_of_nonneg density m σ hz₀]
  rfl

/-- A turn with the strip between two entries that follow each other. -/
theorem turn_edgeAt_succ (h : Built (side density m σ) a n) (ha : 0 < a) (hk : k < n) {r₂ r₃ : ℝ}
    (hr₂ : r₂ ∈ Ico (0 : ℝ) 1) (hr₃ : 0 ≤ r₃) :
    turn density (some (edgeAt density m σ a k)) (some (edgeAt density m σ a (k + 1))) r₂ r₃ =
      some (m + σ * distance (side density m σ) a k r₂,
        decide (side density m σ (edge (side density m σ) a k) * r₃ <
          side density m σ (distance (side density m σ) a k r₂))) :=
  turn_edgeAt h ha hk hr₂ hr₃ rfl (.inl rfl)

variable {d₁ d₂ : ℝ → ℝ} {n₁ n₂ : ℕ} (ha : 0 < a) (h₁ : Built d₁ a n₁) (h₂ : Built d₂ a n₂)
  {c : ℝ → Option (Fin n₁ ⊕ Fin n₂)} {r : ℝ × ℝ × ℝ} {t : ℝ × ℝ × ℝ → Option (ℝ × Bool)}

/-- A turn on the right side agrees with an attempt there. -/
theorem agrees_right {k : Fin n₁} (hc : c r.1 = some (.inl k)) (ht : t r =
    some (m + distance d₁ a k r.2.1,
      decide (d₁ (edge d₁ a k) * r.2.2 < d₁ (distance d₁ a k r.2.1)))) :
    Agrees t ((strips m ha h₁ h₂).attempt c (sideDensity m d₁ d₂)) r := by
  have hpoint : (strips m ha h₁ h₂).point (.inl k) r.2.1 = m + distance d₁ a k r.2.1 :=
    add_assoc _ _ _
  refine ⟨_, _, ht, ?_⟩
  rw [Strips.attempt, hc, Option.bind_some, hpoint, sideDensity, Sum.elim_inl, add_sub_cancel_left]
  simp only [decide_eq_true_eq]
  rfl

/-- A turn on the left side agrees with an attempt there. -/
theorem agrees_left {k : Fin n₂} (hc : c r.1 = some (.inr k)) (ht : t r =
    some (m - distance d₂ a k r.2.1,
      decide (d₂ (edge d₂ a k) * r.2.2 < d₂ (distance d₂ a k r.2.1)))) :
    Agrees t ((strips m ha h₁ h₂).attempt c (sideDensity m d₁ d₂)) r := by
  have hpoint : (strips m ha h₁ h₂).point (.inr k) r.2.1 = m - distance d₂ a k r.2.1 := by
    simp only [Strips.point, strips, Sum.elim_inr, distance]
    ring
  refine ⟨_, _, ht, ?_⟩
  rw [Strips.attempt, hc, Option.bind_some, hpoint, sideDensity, Sum.elim_inr, sub_sub_cancel]
  simp only [decide_eq_true_eq]
  rfl

end Turns

/-! ## What is drawn -/

section Laws

variable {density : ℝ → ℝ}

/-- The index of a strip, for a number of the unit interval. -/
theorem trunc_eq {n : ℕ} {x y : ℝ} {k : ℤ} (hx : x = n * y) (hy : 0 ≤ y) (hk : ⌊n * y⌋ = k) :
    CDouble.trunc x = k := by
  have hnonneg : ¬x < 0 := not_lt.2 (hx ▸ mul_nonneg (Nat.cast_nonneg n) hy)
  rw [← hk, ← hx]
  exact if_neg hnonneg

/-- What `PosGen::Build` builds. -/
theorem of_posGen_build (sym : Bool) {a : ℝ} (ha : a = if sym then 1 / 100 else 2 / 100)
    (hanti : AntitoneOn density (Ici 0)) {g : PosGen ℝ} (h : PosGen.build density sym = .ok g) :
    ∃ n, 1 < n ∧ Built (side density 0 1) a n ∧ g.xi = (if sym then 2 * n else n : ℝ) ∧
      g.edges = (List.range (n + 1)).map (edgeAt density 0 1 a) := by
  have hpos : 0 < a := by
    rw [ha]
    split_ifs <;> norm_num
  have hinc : (if sym then literal 1 100 else literal 2 100 : ℝ) = a := by
    rw [ha]
    split_ifs <;> norm_num [literal]
  simp only [PosGen.build, hinc, Int.cast_zero] at h
  split at h
  · cases h
  · next edges hedges =>
    obtain ⟨n, hbuilt, rfl⟩ := built_of_buildLoop 1 (fun sxi f1 => by ring)
      (antitone_side_right hanti) hpos hedges
    rw [List.length_map, List.length_range] at h
    by_cases hsmall : ((n + 1 : ℕ) : ℤ) - 1 < 50
    · rw [if_pos hsmall] at h
      cases h
    · rw [if_neg hsmall] at h
      obtain rfl := Except.ok.inj h
      refine ⟨n, by omega, hbuilt, ?_, rfl⟩
      cases sym <;> simp

/-- There is nothing on the other side. -/
theorem built_zero (a : ℝ) : Built (fun _ => 0) a 0 where
  antitone := antitone_const
  pos k hk := absurd hk (Nat.not_lt_zero k)
  last := le_rfl

/-- The turns of `PosGen::Next` are attempts. -/
theorem posGen_agrees {a : ℝ} (ha : 0 < a) {n : ℕ} (hn : 0 < n)
    (hbuilt : Built (side density 0 1) a n) {g : PosGen ℝ} (hxi : g.xi = n)
    (hedges : g.edges = (List.range (n + 1)).map (edgeAt density 0 1 a)) {r : ℝ × ℝ × ℝ}
    (hr : r ∈ Strips.cube) : Agrees (g.turn density)
      ((strips 0 ha hbuilt (built_zero a)).attempt (columns n 0)
        (sideDensity 0 (side density 0 1) fun _ => 0)) r := by
  obtain ⟨hr₁, hr₂, hr₃⟩ := hr
  obtain ⟨k, hk, hfloor⟩ := exists_column hn hr₁
  have htrunc : CDouble.trunc (r.1 * g.xi) = (k : ℕ) :=
    trunc_eq (by rw [hxi, mul_comm]) hr₁.1 hfloor
  have hentry : entry g.edges (k : ℕ) = some (edgeAt density 0 1 a k) := by
    rw [hedges]
    exact entry_map_range (by omega)
  have hentry' : entry g.edges ((k : ℕ) + 1) = some (edgeAt density 0 1 a (k + 1)) := by
    rw [hedges]
    exact_mod_cast entry_map_range (show (k : ℕ) + 1 < n + 1 by omega)
  refine agrees_right ha hbuilt (built_zero a) (columns_zero.2 hk) ?_
  rw [PosGen.turn, htrunc, hentry, hentry', turn_edgeAt_succ hbuilt ha k.isLt hr₂ hr₃.1, one_mul]

theorem posGen_turns (hanti : AntitoneOn density (Ici 0)) {g : PosGen ℝ}
    (h : PosGen.build density false = .ok g) :
    Turns (g.turn density) (ENNReal.ofReal (1 / g.xi / (2 / 100)))
      ((Ici 0).indicator fun v => ENNReal.ofReal (density v)) := by
  have ha : (0 : ℝ) < 2 / 100 := by norm_num
  obtain ⟨n, hn, hbuilt, hxi, hedges⟩ := of_posGen_build false rfl hanti h
  rw [if_neg Bool.false_ne_true] at hxi hbuilt hedges
  have hagrees : ∀ᵐ r ∂uniformCube, Agrees (g.turn density)
      ((strips 0 ha hbuilt (built_zero (2 / 100))).attempt (columns n 0)
        (sideDensity 0 (side density 0 1) fun _ => 0)) r :=
    (ae_restrict_mem measurableSet_cube).mono fun r =>
      posGen_agrees ha (Nat.zero_lt_of_lt hn) hbuilt hxi hedges
  have hdensity (v : ℝ) : ENNReal.ofReal (twoSided 0 (side density 0 1) (fun _ => 0) v) =
      (Ici 0).indicator (fun v => ENNReal.ofReal (density v)) v := by
    by_cases hv : 0 ≤ v
    · rw [indicator_of_mem (mem_Ici.2 hv), twoSided, if_pos hv, sub_zero, side_of_nonneg _ _ _ hv,
        one_mul, zero_add]
    · rw [indicator_of_notMem (mt mem_Ici.1 hv), twoSided, if_neg hv, ENNReal.ofReal_zero]
  have hpos : (0 : ℝ) < 1 / (n + 0 : ℕ) := by
    have := Nat.zero_lt_of_lt hn
    positivity
  have hattempts := attempts_strips 0 ha hbuilt (built_zero _) (.inl hn) hpos measurableSet_columns
    volume_columns
  simp only [hdensity, add_zero, ← hxi] at hattempts
  exact ⟨_, hattempts, hagrees⟩

/-- The turns of `SymGen::Next` are attempts, but for 1/2. -/
theorem symGen_agrees {a : ℝ} (ha : 0 < a) {n : ℕ} (hn : 0 < n)
    (hbuilt : Built (side density 0 1) a n) {g : PosGen ℝ} (hxi : g.xi = 2 * n)
    (hedges : g.edges = (List.range (n + 1)).map (edgeAt density 0 1 a)) {r : ℝ × ℝ × ℝ}
    (hr : r ∈ Strips.cube) (hhalf : r.1 ≠ 1 / 2) : Agrees (SymGen.turn density g)
      ((strips 0 ha hbuilt hbuilt).attempt (mirrored n)
        (sideDensity 0 (side density 0 1) (side density 0 1))) r := by
  obtain ⟨hr₁, hr₂, hr₃⟩ := hr
  have hentry (k : Fin n) : entry g.edges (k : ℕ) = some (edgeAt density 0 1 a k) := by
    rw [hedges]
    exact entry_map_range (by omega)
  have hentry' (k : Fin n) :
      entry g.edges ((k : ℕ) + 1) = some (edgeAt density 0 1 a (k + 1)) := by
    rw [hedges]
    exact_mod_cast entry_map_range (show (k : ℕ) + 1 < n + 1 by omega)
  have hliteral : (literal 5 10 : ℝ) = 1 / 2 := by norm_num [literal]
  by_cases hlt : 1 / 2 < r.1
  · obtain ⟨k, hk, hfloor⟩ := exists_column hn
      (r := 2 * (1 - r.1)) ⟨by linarith [hr₁.2], by linarith⟩
    have htrunc : CDouble.trunc ((((1 : ℤ) : ℝ) - r.1) * g.xi) = (k : ℕ) := by
      refine trunc_eq ?_ (by linarith [hr₁.2]) hfloor
      rw [hxi, Int.cast_one]
      ring
    refine agrees_left ha hbuilt hbuilt (mirrored_inr.2 ⟨hlt, hk⟩) ?_
    simp only [SymGen.turn, hliteral, if_pos hlt, htrunc, hentry, hentry',
      turn_edgeAt_succ hbuilt ha k.isLt hr₂ hr₃.1, Option.map_some]
    rw [Int.cast_neg, Int.cast_one, zero_add, one_mul, neg_one_mul, zero_sub]
  · obtain ⟨k, hk, hfloor⟩ := exists_column hn (r := 2 * r.1)
      ⟨by linarith [hr₁.1], by linarith [lt_of_le_of_ne (not_lt.1 hlt) hhalf]⟩
    have htrunc : CDouble.trunc (r.1 * g.xi) = (k : ℕ) := by
      refine trunc_eq ?_ (by linarith [hr₁.1]) hfloor
      rw [hxi]
      ring
    refine agrees_right ha hbuilt hbuilt (mirrored_inl.2 ⟨not_lt.1 hlt, hk⟩) ?_
    simp only [SymGen.turn, hliteral, if_neg hlt, htrunc, hentry, hentry',
      turn_edgeAt_succ hbuilt ha k.isLt hr₂ hr₃.1, Option.map_some]
    rw [Int.cast_one, one_mul, one_mul]

theorem symGen_turns (hanti : AntitoneOn density (Ici 0)) {g : PosGen ℝ}
    (h : PosGen.build density true = .ok g) :
    Turns (SymGen.turn density g) (ENNReal.ofReal (1 / g.xi / (1 / 100)))
      fun v => ENNReal.ofReal (density |v|) := by
  have ha : (0 : ℝ) < 1 / 100 := by norm_num
  obtain ⟨n, hn, hbuilt, hxi, hedges⟩ := of_posGen_build true rfl hanti h
  rw [if_pos rfl] at hxi hbuilt hedges
  have hhalf : ∀ᵐ r ∂uniformCube, r.1 ≠ 1 / 2 := by
    refine ae_restrict_of_ae ?_
    rw [Measure.volume_eq_prod]
    exact Measure.quasiMeasurePreserving_fst.ae (Measure.ae_ne volume (1 / 2))
  have hagrees : ∀ᵐ r ∂uniformCube, Agrees (SymGen.turn density g)
      ((strips 0 ha hbuilt hbuilt).attempt (mirrored n)
        (sideDensity 0 (side density 0 1) (side density 0 1))) r := by
    filter_upwards [ae_restrict_mem measurableSet_cube, hhalf] with r hr hr'
    exact symGen_agrees ha (Nat.zero_lt_of_lt hn) hbuilt hxi hedges hr hr'
  have hdensity (v : ℝ) :
      twoSided 0 (side density 0 1) (side density 0 1) v = density |v| := by
    unfold twoSided
    split_ifs with hv
    · rw [sub_zero, side_of_nonneg _ _ _ hv, one_mul, zero_add, abs_of_nonneg hv]
    · rw [zero_sub, side_of_nonneg _ _ _ (by linarith), one_mul, zero_add, abs_of_neg (not_le.1 hv)]
  have hpos : 0 < 1 / (2 * n : ℝ) := by
    have := Nat.zero_lt_of_lt hn
    positivity
  have hattempts := attempts_strips 0 ha hbuilt hbuilt (.inl hn) hpos measurableSet_mirrored
    volume_mirrored
  simp only [hdensity, ← hxi] at hattempts
  exact ⟨_, hattempts, hagrees⟩

/-- `SymGen::Next` draws from a density that decreases from 0 on, and with either sign. -/
theorem symGen_law (hanti : AntitoneOn density (Ici 0)) {g : PosGen ℝ}
    (h : PosGen.build density true = .ok g) :
    Law (drawn (SymGen.next density g)) (ENNReal.ofReal (1 / g.xi / (1 / 100)))
      fun v => ENNReal.ofReal (density |v|) :=
  (symGen_turns hanti h).law

/-- A density that is constant on both sides of 0. -/
noncomputable def box (w h : ℝ) (x : ℝ) : ℝ := if |x| < w then h else 0

theorem box_antitoneOn {w h : ℝ} (hh : 0 ≤ h) : AntitoneOn (box w h) (Ici 0) := by
  intro x hx y hy hxy
  rw [box, box, abs_of_nonneg (mem_Ici.1 hx), abs_of_nonneg (mem_Ici.1 hy)]
  split_ifs with hy' hx' hx'
  · exact le_rfl
  · exact absurd (hxy.trans_lt hy') hx'
  · exact hh
  · exact le_rfl

theorem box_neg (w h x : ℝ) : box w h (-x) = box w h x := by rw [box, box, abs_neg]

theorem box_monotoneOn {w h : ℝ} (hh : 0 ≤ h) : MonotoneOn (box w h) (Iic 0) := fun x hx y hy hxy =>
  box_neg w h x ▸ box_neg w h y ▸ box_antitoneOn hh (mem_Ici.2 (neg_nonneg.2 hy))
    (mem_Ici.2 (neg_nonneg.2 hx)) (neg_le_neg hxy)

/-- `Build` finds as many strips as fit below a constant density. -/
theorem buildLoop_box (next : ℝ → ℝ → ℝ) {w h step : ℝ} (hh : 0 < h)
    (hnext : ∀ x, next x h = x + step) {n N : ℕ} (hN : n < N) {x : ℝ}
    (hin : ∀ k < n, |x + k * step| < w) (hout : w ≤ |x + n * step|) :
    ∃ edges, buildLoop (box w h) next N x = some edges ∧ edges.length = n + 1 := by
  induction n generalizing N x with
  | zero =>
    obtain ⟨N, rfl⟩ := Nat.exists_eq_add_of_lt hN
    have hx : box w h x = 0 := if_neg (not_lt.2 (by simpa using hout))
    refine ⟨[{ sx := x, sfx := 0 }], ?_, rfl⟩
    simp [buildLoop, hx, DiscreteGen.le_iff]
  | succ n ih =>
    obtain ⟨N, rfl⟩ := Nat.exists_eq_succ_of_ne_zero (Nat.ne_zero_of_lt hN)
    have hx : box w h x = h := if_pos (by simpa using hin 0 (Nat.succ_pos n))
    have hshift (k : ℕ) : x + step + k * step = x + (k + 1 : ℕ) * step := by
      push_cast
      ring
    obtain ⟨edges, hedges, hlength⟩ := ih (Nat.lt_of_succ_lt_succ hN) (x := x + step)
      (fun k hk => hshift k ▸ hin (k + 1) (Nat.succ_lt_succ hk)) (hshift n ▸ hout)
    refine ⟨{ sx := x, sfx := h } :: edges, ?_, by rw [List.length_cons, hlength]⟩
    simp [buildLoop, hx, DiscreteGen.le_iff, not_le.2 hh, hnext, hedges]

/-- A number between -1 and 1. -/
theorem symGen_law_box : ∃ g, PosGen.build (box 1 (1 / 2)) true = .ok g ∧
    Law (drawn (SymGen.next (box 1 (1 / 2)) g)) (ENNReal.ofReal (1 / g.xi / (1 / 100)))
      fun v => ENNReal.ofReal (box 1 (1 / 2) |v|) := by
  have hin (k : ℕ) (hk : k < 50) : |(0 : ℝ) + k * (1 / 50)| < 1 := by
    have : (k : ℝ) + 1 ≤ 50 := by exact_mod_cast hk
    rw [zero_add, abs_of_nonneg (by positivity)]
    linarith
  obtain ⟨edges, hedges, hlength⟩ := buildLoop_box (h := 1 / 2)
    (fun sxi f1 => sxi + literal 1 100 / f1) (by norm_num) (fun x => by norm_num [literal])
    (by decide : 50 < 60) hin (by norm_num)
  have hbuild : PosGen.build (box 1 (1 / 2)) true =
      .ok { xi := ((2 * ((50 + 1 : ℕ) - 1 : ℤ) : ℤ) : ℝ), edges } := by
    simp only [PosGen.build, if_true, Int.cast_zero, hedges, hlength]
    rfl
  exact ⟨_, hbuild, symGen_law (box_antitoneOn (by norm_num)) hbuild⟩

/-- What `AsymGen::Build` builds: both sides, one behind the other. -/
theorem of_asymGen_build {mode : ℝ} (hleft : MonotoneOn density (Iic mode))
    (hright : AntitoneOn density (Ici mode)) {g : AsymGen ℝ}
    (h : AsymGen.build density mode = .ok g) :
    ∃ n₁ n₂, (1 < n₁ ∨ 1 < n₂) ∧ Built (side density mode 1) (1 / 100) n₁ ∧
      Built (side density mode (-1)) (1 / 100) n₂ ∧ g.xi = (n₁ + n₂ : ℕ) ∧ g.ic = (n₁ : ℤ) - 1 ∧
      g.edges = (List.range n₁).map (edgeAt density mode 1 (1 / 100)) ++
        (List.range (n₂ + 1)).map (edgeAt density mode (-1) (1 / 100)) ∧
      g.top = { sx := mode + edge (side density mode 1) (1 / 100) n₁, sfx := 0 } := by
  have ha : (0 : ℝ) < 1 / 100 := by norm_num
  have hliteral : (literal 1 100 : ℝ) = 1 / 100 := by norm_num [literal]
  simp only [AsymGen.build, hliteral, Int.cast_zero] at h
  split at h
  · cases h
  · next right hr =>
    obtain ⟨n₁, hbuilt₁, rfl⟩ := built_of_buildLoop 1 (fun sxi f1 => by ring)
      (antitone_side_right hright) ha hr
    split at h
    · cases h
    · next left hl =>
      obtain ⟨n₂, hbuilt₂, rfl⟩ := built_of_buildLoop (-1) (fun sxi f1 => by ring)
        (antitone_side_left hleft) ha hl
      have hlength : (((List.range (n₁ + 1)).map (edgeAt density mode 1 (1 / 100))).dropLast ++
          (List.range (n₂ + 1)).map (edgeAt density mode (-1) (1 / 100))).length =
            n₁ + n₂ + 1 := by
        simp [add_assoc]
      rw [hlength] at h
      split_ifs at h with hsmall
      obtain rfl := Except.ok.inj h
      refine ⟨n₁, n₂, by omega, hbuilt₁, hbuilt₂, ?_, ?_, ?_, ?_⟩
      · push_cast
        ring
      · simp
      · simp [List.range_succ]
      · simp [List.range_succ, edgeAt]

/-- The turns of `AsymGen::Next` are attempts. -/
theorem asymGen_agrees {a mode : ℝ} (ha : 0 < a) {n₁ n₂ : ℕ} (hn : 0 < n₁ + n₂)
    (h₁ : Built (side density mode 1) a n₁) (h₂ : Built (side density mode (-1)) a n₂)
    {g : AsymGen ℝ} (hxi : g.xi = (n₁ + n₂ : ℕ)) (hic : g.ic = (n₁ : ℤ) - 1)
    (hedges : g.edges = (List.range n₁).map (edgeAt density mode 1 a) ++
      (List.range (n₂ + 1)).map (edgeAt density mode (-1) a))
    (htop : g.top = { sx := mode + edge (side density mode 1) a n₁, sfx := 0 })
    {r : ℝ × ℝ × ℝ} (hr : r ∈ Strips.cube) : Agrees (g.turn density)
      ((strips mode ha h₁ h₂).attempt (columns n₁ n₂)
        (sideDensity mode (side density mode 1) (side density mode (-1)))) r := by
  obtain ⟨hr₁, hr₂, hr₃⟩ := hr
  obtain ⟨k, hk, hfloor⟩ := exists_column hn hr₁
  have htrunc : CDouble.trunc (r.1 * g.xi) = (k : ℕ) :=
    trunc_eq (by rw [hxi, mul_comm]) hr₁.1 hfloor
  have hentry₁ {i : ℕ} (hi : i < n₁) : entry g.edges i = some (edgeAt density mode 1 a i) := by
    rw [hedges, entry_natCast, List.getElem?_append_left (by simpa using hi), ← entry_natCast]
    exact entry_map_range hi
  have hentry₂ {i : ℕ} (hi : i ≤ n₂) :
      entry g.edges ((n₁ + i : ℕ) : ℤ) = some (edgeAt density mode (-1) a i) := by
    rw [hedges, entry_natCast, List.getElem?_append_right (by simp), List.length_map,
      List.length_range, Nat.add_sub_cancel_left, ← entry_natCast]
    exact entry_map_range (Nat.lt_succ_of_le hi)
  obtain ⟨i, rfl⟩ := finSumFinEquiv.surjective k
  rcases i with i | i
  · have hval : ((finSumFinEquiv (.inl i : Fin n₁ ⊕ Fin n₂) : Fin (n₁ + n₂)) : ℕ) = i := rfl
    refine agrees_right ha h₁ h₂ (columns_eq_some.2 hk) ?_
    have hnext : ∃ e', (if ((i : ℕ) : ℤ) = g.ic then some g.top
        else entry g.edges (((i : ℕ) : ℤ) + 1)) = some e' ∧
        e'.sx = mode + 1 * edge (side density mode 1) a (i + 1) ∧
        (e'.sfx = side density mode 1 (edge (side density mode 1) a (i + 1)) ∨ e'.sfx = 0) := by
      by_cases hlast : ((i : ℕ) : ℤ) = g.ic
      · have hi : (i : ℕ) + 1 = n₁ := by omega
        exact ⟨g.top, if_pos hlast, by rw [htop, hi, one_mul], .inr (by rw [htop])⟩
      · refine ⟨edgeAt density mode 1 a (i + 1), ?_, rfl, .inl rfl⟩
        rw [if_neg hlast]
        exact_mod_cast hentry₁ (show (i : ℕ) + 1 < n₁ by omega)
    obtain ⟨e', he', hsx, hsfx⟩ := hnext
    rw [AsymGen.turn, htrunc, hval, hentry₁ i.isLt, he',
      turn_edgeAt h₁ ha i.isLt hr₂ hr₃.1 hsx hsfx, one_mul]
  · have hval : ((finSumFinEquiv (.inr i : Fin n₁ ⊕ Fin n₂) : Fin (n₁ + n₂)) : ℕ) = n₁ + i := rfl
    refine agrees_left ha h₁ h₂ (columns_eq_some.2 hk) ?_
    have hne : ((n₁ + i : ℕ) : ℤ) ≠ g.ic := by omega
    have hnext : entry g.edges (((n₁ + i : ℕ) : ℤ) + 1) =
        some (edgeAt density mode (-1) a (i + 1)) := by
      exact_mod_cast hentry₂ (show (i : ℕ) + 1 ≤ n₂ by omega)
    rw [AsymGen.turn, htrunc, hval, hentry₂ i.isLt.le, if_neg hne, hnext,
      turn_edgeAt_succ h₂ ha i.isLt hr₂ hr₃.1, neg_one_mul, ← sub_eq_add_neg]

theorem asymGen_turns {mode : ℝ} (hleft : MonotoneOn density (Iic mode))
    (hright : AntitoneOn density (Ici mode)) {g : AsymGen ℝ}
    (h : AsymGen.build density mode = .ok g) :
    Turns (g.turn density) (ENNReal.ofReal (1 / g.xi / (1 / 100)))
      fun v => ENNReal.ofReal (density v) := by
  have ha : (0 : ℝ) < 1 / 100 := by norm_num
  obtain ⟨n₁, n₂, hn, h₁, h₂, hxi, hic, hedges, htop⟩ := of_asymGen_build hleft hright h
  have hagrees : ∀ᵐ r ∂uniformCube, Agrees (g.turn density)
      ((strips mode ha h₁ h₂).attempt (columns n₁ n₂)
        (sideDensity mode (side density mode 1) (side density mode (-1)))) r :=
    (ae_restrict_mem measurableSet_cube).mono fun r =>
      asymGen_agrees ha (by omega) h₁ h₂ hxi hic hedges htop
  have hdensity (v : ℝ) :
      twoSided mode (side density mode 1) (side density mode (-1)) v = density v := by
    unfold twoSided
    split_ifs with hv
    · rw [side_of_nonneg _ _ _ (sub_nonneg.2 hv), one_mul, add_sub_cancel]
    · rw [side_of_nonneg _ _ _ (sub_nonneg.2 (not_le.1 hv).le)]
      congr 1
      ring
  have hpos : (0 : ℝ) < 1 / (n₁ + n₂ : ℕ) := by
    have : 0 < n₁ + n₂ := by omega
    positivity
  have hattempts := attempts_strips mode ha h₁ h₂ hn hpos measurableSet_columns volume_columns
  simp only [hdensity, ← hxi] at hattempts
  exact ⟨_, hattempts, hagrees⟩

/-- `AsymGen::Next` draws from a density that increases up to the mode and decreases from
    there on. -/
theorem asymGen_law {mode : ℝ} (hleft : MonotoneOn density (Iic mode))
    (hright : AntitoneOn density (Ici mode)) {g : AsymGen ℝ}
    (h : AsymGen.build density mode = .ok g) :
    Law (drawn (g.next density)) (ENNReal.ofReal (1 / g.xi / (1 / 100)))
      fun v => ENNReal.ofReal (density v) :=
  (asymGen_turns hleft hright h).law

/-- A number between -1/2 and 1/2. -/
theorem asymGen_law_box : ∃ g, AsymGen.build (box (1 / 2) 1) 0 = .ok g ∧
    Law (drawn (AsymGen.next (box (1 / 2) 1) g)) (ENNReal.ofReal (1 / g.xi / (1 / 100)))
      fun v => ENNReal.ofReal (box (1 / 2) 1 v) := by
  have hin (k : ℕ) (hk : k < 50) : |(0 : ℝ) + k * (1 / 100)| < 1 / 2 := by
    have : (k : ℝ) + 1 ≤ 50 := by exact_mod_cast hk
    rw [zero_add, abs_of_nonneg (by positivity)]
    linarith
  have hin' (k : ℕ) (hk : k < 50) : |(0 : ℝ) + k * (-(1 / 100))| < 1 / 2 := by
    rw [← abs_neg, neg_add, neg_zero, ← mul_neg, neg_neg]
    exact hin k hk
  obtain ⟨right, hr, hlength⟩ := buildLoop_box (h := 1) (fun sxi f1 => sxi + literal 1 100 / f1)
    zero_lt_one (fun x => by norm_num [literal]) (by decide : 50 < 120) hin (by norm_num)
  obtain ⟨left, hl, hlength'⟩ := buildLoop_box (h := 1) (fun sxi f1 => sxi - literal 1 100 / f1)
    zero_lt_one (fun x => by norm_num [literal, sub_eq_add_neg]) (by decide : 50 < 70) hin'
    (by norm_num)
  obtain ⟨g, hbuild⟩ : ∃ g, AsymGen.build (box (1 / 2) 1) 0 = .ok g := by
    simp only [AsymGen.build, hr, hlength, Nat.add_sub_cancel, hl, List.length_append,
      List.length_dropLast, hlength']
    exact ⟨_, rfl⟩
  exact ⟨g, hbuild, asymGen_law (box_monotoneOn zero_le_one) (box_antitoneOn zero_le_one) hbuild⟩

end Laws

end Ditg
