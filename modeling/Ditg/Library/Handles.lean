import Mathlib.Algebra.Notation.Defs
import Mathlib.Logic.Function.Basic

/-!
# Handles

Holders that have handles: descriptors, pages, identifiers. A holder that has none has `0`.

* `Exclusive`: no two holders have the same handle. This is so still when a holder drops its
  handle (`drop`), is given a fresh one (`fresh`), or passes it to another holder (`pass`).
-/

namespace Handles

variable {H N : Type*} [Zero N] {held : H → N} {x y : H} {n : N}

/-- No two holders have the same handle. -/
def Exclusive (held : H → N) : Prop := ∀ x y, held x ≠ 0 → held x = held y → x = y

theorem Exclusive.ne (h : Exclusive held) (hx : held x ≠ 0) (hxy : x ≠ y) : held x ≠ held y :=
  fun heq => hxy (h x y hx heq)

section Update

variable [DecidableEq H]

/-- A holder drops its handle. -/
theorem Exclusive.drop (h : Exclusive held) (x : H) : Exclusive (Function.update held x 0) := by
  intro y z hy hyz
  have hyx : y ≠ x := by
    rintro rfl
    exact hy (Function.update_self ..)
  rw [Function.update_of_ne hyx] at hy hyz
  have hzx : z ≠ x := by
    rintro rfl
    exact hy (hyz.trans (Function.update_self ..))
  rw [Function.update_of_ne hzx] at hyz
  exact h y z hy hyz

/-- A holder is given a handle that no other has. -/
theorem Exclusive.fresh (h : Exclusive held) (hn : ∀ y, held y ≠ n) (x : H) :
    Exclusive (Function.update held x n) := by
  intro y z hy hyz
  by_cases hyx : y = x
  · subst hyx
    by_contra hne
    rw [Function.update_self, Function.update_of_ne (Ne.symm hne)] at hyz
    exact hn z hyz.symm
  · rw [Function.update_of_ne hyx] at hy hyz
    have hzx : z ≠ x := by
      rintro rfl
      exact hn y (hyz.trans (Function.update_self ..))
    rw [Function.update_of_ne hzx] at hyz
    exact h y z hy hyz

/-- A holder passes its handle to another one. -/
theorem Exclusive.pass (h : Exclusive held) (x y : H) :
    Exclusive (Function.update (Function.update held x 0) y (held x)) := by
  by_cases hx : held x = 0
  · rw [hx]
    exact (h.drop x).drop y
  · refine (h.drop x).fresh (fun z hz => ?_) y
    by_cases hzx : z = x
    · subst hzx
      exact hx (hz.symm.trans (Function.update_self ..))
    · rw [Function.update_of_ne hzx] at hz
      exact h.ne hx (Ne.symm hzx) hz.symm

end Update

end Handles
