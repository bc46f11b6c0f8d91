import Mathlib.Data.List.Nodup
import Mathlib.Data.List.Perm.Subperm

/-!
# Tables of slots

A table with a fixed number of slots, every one of which holds a key; the slots
that hold the key `free` are free. A key gets the first free slot, and its slot
is free again when the key is given up.

* `SlotTable.Holds`: the table holds some live keys, every one of them in one
  slot, and the other slots are free;
* `Holds.fill`, `Holds.clear`: giving a slot to a new key, or freeing the one of
  a live key, does so for these keys;
* `SlotTable.used`: the number of slots that are not free; `countP_set` says what
  becomes of such a number when a slot is set.
-/

namespace SlotTable

variable {K : Type*} {free x y : K} {slots live : List K} {k : ℕ}

/-- Every live key has one slot, and the other slots are free. -/
structure Holds (free : K) (slots live : List K) : Prop where
  free_notMem : free ∉ live
  mem_iff : ∀ x, x ≠ free → (x ∈ slots ↔ x ∈ live)
  inj : ∀ (j k : ℕ) x, x ≠ free → slots[j]? = some x → slots[k]? = some x → j = k

namespace Holds

/-- A table whose slots are all free. -/
theorem replicate (n : ℕ) : Holds free (List.replicate n free) [] := by
  refine ⟨List.not_mem_nil, fun x hx => ?_, fun j k x hx hj _ => ?_⟩
  · exact ⟨fun hmem => absurd (List.eq_of_mem_replicate hmem) hx,
      fun hmem => absurd hmem List.not_mem_nil⟩
  · exact absurd (List.eq_of_mem_replicate (List.mem_of_getElem? hj)) hx

theorem exists_unique (h : Holds free slots live) (hx : x ∈ live) :
    ∃! k : ℕ, slots[k]? = some x := by
  have hne : x ≠ free := fun heq => h.free_notMem (heq ▸ hx)
  obtain ⟨k, hk⟩ := List.mem_iff_getElem?.1 ((h.mem_iff x hne).2 hx)
  exact ⟨k, hk, fun j hj => h.inj j k x hne hj hk⟩

theorem eq_free_of_notMem (h : Holds free slots live) (hx : x ∈ slots) (hlive : x ∉ live) :
    x = free :=
  by_contra fun hne => hlive ((h.mem_iff x hne).1 hx)

/-- With fewer live keys than slots, a slot is free. -/
theorem free_mem (h : Holds free slots live) (hlt : live.length < slots.length) :
    free ∈ slots := by
  by_contra hfree
  have hne {x : K} (hx : x ∈ slots) : x ≠ free := fun heq => hfree (heq ▸ hx)
  have hnodup : slots.Nodup := List.nodup_iff_injective_get.2 fun i j hij => by
    have hj : slots[j.1]? = some (slots.get j) := List.getElem?_eq_getElem j.2
    have hi : slots[i.1]? = some (slots.get j) := hij ▸ List.getElem?_eq_getElem i.2
    exact Fin.ext (h.inj i j _ (hne (List.get_mem slots j)) hi hj)
  have hsub : slots ⊆ live := fun x hx => (h.mem_iff x (hne hx)).1 hx
  exact absurd (hnodup.subperm hsub).length_le (Nat.not_le.2 hlt)

/-- A new key gets a free slot. -/
theorem fill (h : Holds free slots live) (hk : slots[k]? = some free) (hx : x ∉ live)
    (hne : x ≠ free) : Holds free (slots.set k x) (x :: live) := by
  obtain ⟨hlt, hfree⟩ := List.getElem?_eq_some_iff.1 hk
  have hget {j : ℕ} {y : K} (hy : y ≠ free) : (slots.set k x)[j]? = some y ↔
      j = k ∧ y = x ∨ slots[j]? = some y := by
    rw [List.getElem?_set]
    split_ifs with hjk
    · subst hjk
      rw [Option.some.injEq, hk, Option.some.injEq]
      exact ⟨fun h => .inl ⟨rfl, h.symm⟩, fun h => h.elim (·.2.symm) fun h => absurd h.symm hy⟩
    · exact ⟨.inr, fun h => h.resolve_left fun h => hjk h.1.symm⟩
  refine ⟨?_, fun y hy => ?_, fun i j y hy hi hj => ?_⟩
  · exact fun hmem => (List.mem_cons.1 hmem).elim (fun heq => hne heq.symm) h.free_notMem
  · rw [List.mem_iff_getElem?, List.mem_cons, ← h.mem_iff y hy, List.mem_iff_getElem?]
    simp only [hget hy]
    constructor
    · rintro ⟨j, ⟨-, heq⟩ | hj⟩
      · exact .inl heq
      · exact .inr ⟨j, hj⟩
    · rintro (heq | ⟨j, hj⟩)
      · exact ⟨k, .inl ⟨rfl, heq⟩⟩
      · exact ⟨j, .inr hj⟩
  · -- The key is new, so that no other slot has it.
    have hnew {j : ℕ} (hj : slots[j]? = some x) : False :=
      hx ((h.mem_iff x hne).1 (List.mem_of_getElem? hj))
    rcases (hget hy).1 hi with ⟨rfl, rfl⟩ | hi'
    · rcases (hget hy).1 hj with ⟨rfl, -⟩ | hj'
      · rfl
      · exact (hnew hj').elim
    · rcases (hget hy).1 hj with ⟨rfl, rfl⟩ | hj'
      · exact (hnew hi').elim
      · exact h.inj i j y hy hi' hj'

end Holds

/-- The slots with a property, after one is set. -/
theorem countP_set (P : K → Prop) [DecidablePred P] (y : K) (hk : slots[k]? = some x) :
    (slots.set k y).countP (P ·) + (if P x then 1 else 0) =
      slots.countP (P ·) + if P y then 1 else 0 := by
  obtain ⟨hlt, rfl⟩ := List.getElem?_eq_some_iff.1 hk
  rw [List.countP_set hlt]
  simp only [decide_eq_true_eq]
  by_cases hP : P slots[k]
  · have hpos : 0 < slots.countP (P ·) :=
      List.countP_pos_iff.2 ⟨_, List.getElem_mem hlt, decide_eq_true hP⟩
    rw [if_pos hP]
    omega
  · simp [hP]

section Find

variable [DecidableEq K]

/-- The slot of a live key is freed. -/
theorem Holds.clear (h : Holds free slots live) (hk : slots[k]? = some x) (hne : x ≠ free) :
    Holds free (slots.set k free) (live.filter (· ≠ x)) := by
  have hget {j : ℕ} {y : K} (hy : y ≠ free) : (slots.set k free)[j]? = some y ↔
      j ≠ k ∧ slots[j]? = some y := by
    obtain ⟨hlt, -⟩ := List.getElem?_eq_some_iff.1 hk
    rw [List.getElem?_set]
    split_ifs with hjk
    · exact ⟨fun heq => absurd (Option.some.inj heq).symm hy, fun h => absurd hjk.symm h.1⟩
    · exact ⟨fun hj => ⟨Ne.symm hjk, hj⟩, And.right⟩
  refine ⟨fun hmem => h.free_notMem (List.mem_of_mem_filter hmem), fun y hy => ?_,
    fun i j y hy hi hj => ?_⟩
  · rw [List.mem_iff_getElem?, List.mem_filter, ← h.mem_iff y hy, decide_eq_true_iff]
    simp only [hget hy]
    constructor
    · rintro ⟨j, hjk, hj⟩
      refine ⟨List.mem_of_getElem? hj, ?_⟩
      rintro rfl
      exact hjk (h.inj j k y hy hj hk)
    · rintro ⟨hmem, hyx⟩
      obtain ⟨j, hj⟩ := List.mem_iff_getElem?.1 hmem
      refine ⟨j, ?_, hj⟩
      rintro rfl
      exact hyx (Option.some.inj (hj.symm.trans hk))
  · exact h.inj i j y hy ((hget hy).1 hi).2 ((hget hy).1 hj).2

/-- The first slot with a key. -/
def find (slots : List K) (x : K) : Option ℕ := slots.findIdx? (· = x)

/-- The number of slots that are not free. -/
def used (free : K) (slots : List K) : ℕ := slots.countP (· ≠ free)

theorem find_eq_some (h : find slots x = some k) : slots[k]? = some x := by
  obtain ⟨hk, hx, -⟩ := List.findIdx?_eq_some_iff_getElem.1 h
  rw [List.getElem?_eq_getElem hk, of_decide_eq_true hx]

theorem find_eq_none : find slots x = none ↔ x ∉ slots := by
  rw [find, List.findIdx?_eq_none_iff]
  simp only [decide_eq_false_iff_not]
  exact ⟨fun h hx => h x hx rfl, fun h y hy heq => h (heq ▸ hy)⟩

/-- A key with a slot is found. -/
theorem exists_find_eq (h : x ∈ slots) : ∃ k, find slots x = some k := by
  rcases hfind : find slots x with _ | k
  · exact absurd h (find_eq_none.1 hfind)
  · exact ⟨k, rfl⟩

/-- The slots that are not free, after one is set. -/
theorem used_set (free y : K) (hk : slots[k]? = some x) :
    used free (slots.set k y) + (if x ≠ free then 1 else 0) =
      used free slots + if y ≠ free then 1 else 0 :=
  countP_set (· ≠ free) y hk

/-- The slots of a key, after one is set. -/
theorem count_set (y z : K) (hk : slots[k]? = some x) :
    (slots.set k y).count z + (if x = z then 1 else 0) =
      slots.count z + if y = z then 1 else 0 := by
  have hcount (l : List K) : l.count z = l.countP (· = z) :=
    List.countP_congr fun a _ => by simp
  rw [hcount, hcount]
  exact countP_set (· = z) y hk

end Find

end SlotTable
