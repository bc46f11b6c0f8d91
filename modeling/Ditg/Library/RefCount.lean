import Ditg.Library.SlotTable
import Mathlib.Data.Fintype.Card
import Mathlib.Data.List.Perm.Basic

/-!
# Counting the users of a slot

A table with a fixed number of slots, each of which is free or has a key and counts its users.
Those who acquire a key share one slot, the first free one when the key has none, which is
free again when the last of them releases it.

* `RefCount.Counts`: the users of a key have one slot, no other key has it, its count is the
  number of its users, and the slots without users are free. This is so at the start
  (`Counts.replicate`), and stays so (`Counts.acquire`, `Counts.release`);
* `Counts.exists_acquire`: a key can be acquired unless the slots are all taken by others.
-/

namespace RefCount

/-- A slot: free, or a key and the number of its users. -/
abbrev Slot (K : Type*) := Option (K × ℕ)

/-- A user of a key, with its slot. -/
structure User (K : Type*) where
  key : K
  slot : ℕ
  deriving DecidableEq, Repr

/-- The slots are those of the users. -/
structure Counts {K : Type*} (slots : List (Slot K)) (users : List (User K)) : Prop where
  slot_eq : ∀ u ∈ users,
    slots[u.slot]? = some (some (u.key, users.countP (·.slot = u.slot)))
  exists_user : ∀ (k : ℕ) x, slots[k]? = some (some x) → ∃ u ∈ users, u.slot = k
  inj : ∀ u ∈ users, ∀ v ∈ users, u.key = v.key → u.slot = v.slot

variable {K : Type*} {slots slots' : List (Slot K)} {users : List (User K)} {x : K} {k : ℕ}
  {u v : User K}

/-! ## The slots of the users -/

theorem Counts.replicate (n : ℕ) : Counts (List.replicate n (none : Slot K)) [] where
  slot_eq := nofun
  exists_user _ _ h := nomatch List.eq_of_mem_replicate (List.mem_of_getElem? h)
  inj := nofun

namespace Counts

variable (h : Counts slots users)

include h

/-- Users have the same slot if and only if they have the same key. -/
theorem slot_eq_iff (hu : u ∈ users) (hv : v ∈ users) : u.slot = v.slot ↔ u.key = v.key := by
  refine ⟨fun heq => ?_, h.inj u hu v hv⟩
  have hslot := h.slot_eq u hu
  rw [heq, h.slot_eq v hv, Option.some.injEq, Option.some.injEq, Prod.mk.injEq] at hslot
  exact hslot.1.symm

/-- A slot that is not free counts its users. -/
theorem count_eq {n : ℕ} (hk : slots[k]? = some (some (x, n))) :
    n = users.countP (·.slot = k) ∧ 0 < n := by
  obtain ⟨u, hu, rfl⟩ := h.exists_user k _ hk
  have hslot := h.slot_eq u hu
  rw [hk, Option.some.injEq, Option.some.injEq, Prod.mk.injEq] at hslot
  refine ⟨hslot.2, hslot.2 ▸ List.countP_pos_iff.2 ⟨u, hu, by simp⟩⟩

/-- The slot of a user counts it. -/
theorem slot_eq_succ (hu : u ∈ users) :
    ∃ n, slots[u.slot]? = some (some (u.key, n + 1)) := by
  have hslot := h.slot_eq u hu
  obtain ⟨n, hn⟩ := Nat.exists_eq_succ_of_ne_zero (h.count_eq hslot).2.ne'
  exact ⟨n, by rw [hslot, hn]⟩

/-- A free slot has no user. -/
theorem count_eq_zero (hk : slots[k]? = some none) : users.countP (·.slot = k) = 0 := by
  rw [List.countP_eq_zero]
  intro u hu hslot
  have hu := h.slot_eq u hu
  rw [of_decide_eq_true hslot, hk] at hu
  exact absurd (Option.some.inj hu) nofun

end Counts

/-! ## Acquiring and releasing -/

theorem modify_eq_set {α : Type*} {l : List α} {a : α} (hk : l[k]? = some a) (f : α → α) :
    l.modify k f = l.set k (f a) := by
  rw [List.modify_eq_set_getElem?, hk]
  rfl

variable [DecidableEq K]

/-- The slot of a key. -/
def find (slots : List (Slot K)) (x : K) : Option ℕ := slots.findIdx? (·.any (·.1 = x))

/-- A key is acquired: its slot, or else the first free one. -/
def acquire (slots : List (Slot K)) (x : K) : Option (ℕ × List (Slot K)) :=
  match find slots x with
  | some k => some (k, slots.modify k (·.map fun s => (s.1, s.2 + 1)))
  | none => (SlotTable.find slots none).map fun k => (k, slots.set k (some (x, 1)))

/-- A user releases a slot, which is free when no user is left. -/
def release (slots : List (Slot K)) (k : ℕ) : List (Slot K) :=
  slots.modify k (·.bind fun s => if s.2 = 1 then none else some (s.1, s.2 - 1))

theorem find_eq_some (hk : find slots x = some k) : ∃ n, slots[k]? = some (some (x, n)) := by
  obtain ⟨hlt, hany, -⟩ := List.findIdx?_eq_some_iff_getElem.1 hk
  obtain ⟨⟨y, n⟩, hslot, hy⟩ := (Option.any_eq_true ..).1 hany
  obtain rfl : y = x := of_decide_eq_true hy
  exact ⟨n, List.getElem?_eq_some_iff.2 ⟨hlt, hslot⟩⟩

theorem find_eq_none (hx : find slots x = none) {n : ℕ} : slots[k]? ≠ some (some (x, n)) := by
  intro hk
  have hany := List.findIdx?_eq_none_iff.1 hx _ (List.mem_of_getElem? hk)
  simp at hany

/-- A key with a user is found in its slot. -/
theorem Counts.find_eq_some_iff (h : Counts slots users) (hu : u ∈ users) :
    find slots x = some u.slot ↔ u.key = x := by
  constructor
  · intro hx
    obtain ⟨n, hn⟩ := find_eq_some hx
    rw [h.slot_eq u hu, Option.some.injEq, Option.some.injEq, Prod.mk.injEq] at hn
    exact hn.1
  · rintro rfl
    rcases hx : find slots u.key with _ | k
    · exact absurd (h.slot_eq u hu) (find_eq_none hx)
    · obtain ⟨n, hn⟩ := find_eq_some hx
      obtain ⟨v, hv, rfl⟩ := h.exists_user k _ hn
      rw [h.slot_eq v hv, Option.some.injEq, Option.some.injEq, Prod.mk.injEq] at hn
      rw [h.inj v hv u hu hn.1]

/-- A key without a slot has no user. -/
theorem Counts.find_eq_none_iff (h : Counts slots users) :
    find slots x = none ↔ ∀ u ∈ users, u.key ≠ x := by
  constructor
  · intro hx u hu heq
    rw [(h.find_eq_some_iff hu).2 heq] at hx
    exact absurd hx nofun
  · intro hx
    rcases hk : find slots x with _ | k
    · rfl
    · obtain ⟨n, hn⟩ := find_eq_some hk
      obtain ⟨u, hu, rfl⟩ := h.exists_user k _ hn
      exact absurd ((h.find_eq_some_iff hu).1 hk) (hx u hu)

/-- What acquiring a key does: there is one user more of its slot, or the first one. -/
theorem acquire_cases (h : acquire slots x = some (k, slots')) :
    (∃ n, find slots x = some k ∧ slots[k]? = some (some (x, n)) ∧
      slots' = slots.set k (some (x, n + 1))) ∨
    find slots x = none ∧ slots[k]? = some none ∧ slots' = slots.set k (some (x, 1)) := by
  rw [acquire] at h
  rcases hx : find slots x with _ | j
  · rw [hx] at h
    obtain ⟨j, hj, heq⟩ := Option.map_eq_some_iff.1 h
    obtain ⟨rfl, rfl⟩ := Prod.mk.inj heq
    exact .inr ⟨rfl, SlotTable.find_eq_some hj, rfl⟩
  · rw [hx] at h
    obtain ⟨rfl, rfl⟩ := Prod.mk.inj (Option.some.inj h)
    obtain ⟨n, hn⟩ := find_eq_some hx
    exact .inl ⟨n, rfl, hn, modify_eq_set hn _⟩

omit [DecidableEq K] in
@[simp] theorem length_release (slots : List (Slot K)) (k : ℕ) :
    (release slots k).length = slots.length := List.length_modify ..

theorem length_acquire (h : acquire slots x = some (k, slots')) :
    slots'.length = slots.length := by
  rcases acquire_cases h with ⟨n, -, -, rfl⟩ | ⟨-, -, rfl⟩ <;> exact List.length_set

omit [DecidableEq K] in
/-- Releasing a slot, which has a user less, or none. -/
theorem release_eq {n : ℕ} (hk : slots[k]? = some (some (x, n + 1))) :
    release slots k = slots.set k (if n = 0 then none else some (x, n)) := by
  rw [release, modify_eq_set hk, Option.bind_some]
  simp

namespace Counts

variable (h : Counts slots users)

include h

omit [DecidableEq K] in
/-- A user more of a slot that is set. -/
theorem cons_set {n : ℕ} (hk : slots[k]?.isSome) (hn : n = users.countP (·.slot = k))
    (hkey : ∀ u ∈ users, u.slot = k ↔ u.key = x) :
    Counts (slots.set k (some (x, n + 1))) (⟨x, k⟩ :: users) := by
  obtain ⟨y, hy⟩ := Option.isSome_iff_exists.1 hk
  obtain ⟨hlt, -⟩ := List.getElem?_eq_some_iff.1 hy
  refine ⟨fun u hu => ?_, fun j y hj => ?_, ?_⟩
  · rcases List.mem_cons.1 hu with rfl | hu
    · rw [List.getElem?_set_self hlt, List.countP_cons_of_pos (by simp), hn]
    · by_cases hslot : u.slot = k
      · rw [hslot, List.getElem?_set_self hlt, List.countP_cons_of_pos (by simp), hn,
          (hkey u hu).1 hslot]
      · rw [List.getElem?_set_ne (Ne.symm hslot), h.slot_eq u hu,
          List.countP_cons_of_neg (by simpa using Ne.symm hslot)]
  · by_cases hjk : j = k
    · exact ⟨_, List.mem_cons_self, hjk.symm⟩
    · rw [List.getElem?_set_ne (Ne.symm hjk)] at hj
      obtain ⟨u, hu, hslot⟩ := h.exists_user j y hj
      exact ⟨u, List.mem_cons_of_mem _ hu, hslot⟩
  · have hnew (u : User K) (hu : u ∈ users) (heq : x = u.key) : k = u.slot :=
      ((hkey u hu).2 heq.symm).symm
    intro u hu v hv heq
    rcases List.mem_cons.1 hu with rfl | hu <;> rcases List.mem_cons.1 hv with rfl | hv
    · rfl
    · exact hnew v hv heq
    · exact (hnew u hu heq.symm).symm
    · exact h.inj u hu v hv heq

/-- Who acquires a key is a user of it. -/
theorem acquire (hx : acquire slots x = some (k, slots')) :
    Counts slots' (⟨x, k⟩ :: users) := by
  rcases acquire_cases hx with ⟨n, hfind, hk, rfl⟩ | ⟨hfind, hk, rfl⟩
  · refine h.cons_set (by simp [hk]) (h.count_eq hk).1 fun u hu => ?_
    rw [← h.find_eq_some_iff hu, hfind, Option.some.injEq, eq_comm]
  · have hzero := h.count_eq_zero hk
    refine h.cons_set (n := 0) (by simp [hk]) hzero.symm fun u hu => ?_
    have hslot : u.slot ≠ k := by
      simpa using List.countP_eq_zero.1 hzero u hu
    exact iff_of_false hslot (h.find_eq_none_iff.1 hfind u hu)

omit [DecidableEq K] in
theorem perm {users' : List (User K)} (hperm : users.Perm users') : Counts slots users' where
  slot_eq u hu := by
    rw [← hperm.countP_eq]
    exact h.slot_eq u (hperm.mem_iff.2 hu)
  exists_user k x hk := by
    obtain ⟨u, hu, hslot⟩ := h.exists_user k x hk
    exact ⟨u, hperm.mem_iff.1 hu, hslot⟩
  inj u hu v hv := h.inj u (hperm.mem_iff.2 hu) v (hperm.mem_iff.2 hv)

omit h [DecidableEq K] in
/-- The first user releases its slot. -/
theorem release_cons (h : Counts slots (u :: users)) : Counts (release slots u.slot) users := by
  have hslot := h.slot_eq u List.mem_cons_self
  have hlt := (List.getElem?_eq_some_iff.1 hslot).1
  rw [List.countP_cons_of_pos (by simp)] at hslot
  rw [release_eq hslot]
  refine ⟨fun v hv => ?_, fun j y hj => ?_, fun v hv w hw => ?_⟩
  · have hv' := h.slot_eq v (List.mem_cons_of_mem _ hv)
    by_cases heq : v.slot = u.slot
    · have hpos : users.countP (·.slot = u.slot) ≠ 0 :=
        (List.countP_pos_iff.2 ⟨v, hv, by simpa using heq⟩).ne'
      have hkey : v.key = u.key :=
        (h.slot_eq_iff (List.mem_cons_of_mem _ hv) List.mem_cons_self).1 heq
      rw [heq, List.getElem?_set_self hlt, if_neg hpos, hkey]
    · rw [List.getElem?_set_ne (Ne.symm heq), hv',
        List.countP_cons_of_neg (by simpa using Ne.symm heq)]
  · by_cases heq : j = u.slot
    · subst heq
      rw [List.getElem?_set_self hlt, Option.some.injEq] at hj
      by_cases hzero : users.countP (·.slot = u.slot) = 0
      · rw [if_pos hzero] at hj
        exact absurd hj nofun
      · obtain ⟨v, hv, hslot⟩ := List.countP_pos_iff.1 (Nat.pos_of_ne_zero hzero)
        exact ⟨v, hv, of_decide_eq_true hslot⟩
    · rw [List.getElem?_set_ne (Ne.symm heq)] at hj
      obtain ⟨v, hv, hvj⟩ := h.exists_user j y hj
      rcases List.mem_cons.1 hv with rfl | hv
      · exact absurd hvj.symm heq
      · exact ⟨v, hv, hvj⟩
  · exact h.inj v (List.mem_cons_of_mem _ hv) w (List.mem_cons_of_mem _ hw)

/-- A user that releases its slot is no user any more. -/
theorem release (hu : u ∈ users) : Counts (release slots u.slot) (users.erase u) :=
  (h.perm (List.perm_cons_erase hu)).release_cons

/-- A key can be acquired when, with it, there are no more keys than slots. -/
theorem exists_acquire (hcard : (insert x (users.map (·.key)).toFinset).card ≤ slots.length) :
    ∃ k slots', RefCount.acquire slots x = some (k, slots') := by
  rw [RefCount.acquire]
  rcases hx : find slots x with _ | k
  · rcases hfree : SlotTable.find slots none with _ | k
    · -- Every slot has a key of its own, none of which is `x`.
      exfalso
      have hkey (k : Fin slots.length) : ∃ u ∈ users, u.slot = k := by
        rcases hk : slots[k] with _ | y
        · exact absurd (hk ▸ List.getElem_mem k.2) (SlotTable.find_eq_none.1 hfree)
        · exact h.exists_user k y (List.getElem?_eq_some_iff.2 ⟨k.2, hk⟩)
      choose user hmem hslot using hkey
      have hinj : Function.Injective fun k => (user k).key := fun j k heq =>
        Fin.ext (by rw [← hslot j, ← hslot k, (h.slot_eq_iff (hmem j) (hmem k)).2 heq])
      have hsub : Finset.univ.image (fun k => (user k).key) ⊆ (users.map (·.key)).toFinset := by
        intro y hy
        obtain ⟨k, -, rfl⟩ := Finset.mem_image.1 hy
        exact List.mem_toFinset.2 (List.mem_map_of_mem (hmem k))
      have hle := Finset.card_le_card hsub
      rw [Finset.card_image_of_injective _ hinj, Finset.card_univ, Fintype.card_fin] at hle
      have hnew : x ∉ (users.map (·.key)).toFinset := by
        rw [List.mem_toFinset, List.mem_map]
        rintro ⟨u, hu, hux⟩
        exact h.find_eq_none_iff.1 hx u hu hux
      rw [Finset.card_insert_of_notMem hnew] at hcard
      omega
    · exact ⟨k, _, rfl⟩
  · exact ⟨k, _, rfl⟩

end Counts

/-! ## Holders -/

section Holders

variable {α : Type*} {user? : α → Option (User K)} {xs : List α} {i : ℕ} {a b : α}

/-- Of the holders, which may be users, one changes. -/
theorem filterMap_set_perm {β : Type*} (f : α → Option β) (hi : xs[i]? = some a) (b : α) :
    ((xs.set i b).filterMap f).Perm ((f b).toList ++ (xs.eraseIdx i).filterMap f) := by
  obtain ⟨hlt, -⟩ := List.getElem?_eq_some_iff.1 hi
  have hlt' : i < (xs.set i b).length := by rwa [List.length_set]
  have hperm := ((List.getElem_cons_eraseIdx_perm hlt').symm.filterMap f)
  rw [List.getElem_set_self, List.eraseIdx_set_eq, List.filterMap_cons] at hperm
  cases hb : f b with
  | none => rwa [hb] at hperm
  | some u => rwa [hb] at hperm

/-- The users are those among the holders. -/
def Held (user? : α → Option (User K)) (xs : List α) (users : List (User K)) : Prop :=
  users.Perm (xs.filterMap user?)

omit [DecidableEq K]

namespace Held

variable (h : Held user? xs users)

include h

theorem perm_cons (hi : xs[i]? = some a) :
    users.Perm ((user? a).toList ++ (xs.eraseIdx i).filterMap user?) := by
  obtain ⟨hlt, rfl⟩ := List.getElem?_eq_some_iff.1 hi
  have hset := filterMap_set_perm user? hi xs[i]
  rw [List.set_getElem_self] at hset
  exact h.trans hset

/-- A holder that is a user as before. -/
theorem set (hi : xs[i]? = some a) (heq : user? b = user? a) : Held user? (xs.set i b) users := by
  refine (h.perm_cons hi).trans ?_
  rw [← heq]
  exact (filterMap_set_perm user? hi b).symm

/-- A holder more, which is no user. -/
theorem concat (ha : user? a = none) : Held user? (xs ++ [a]) users := by
  rw [Held, List.filterMap_append, List.filterMap_cons_none ha, List.filterMap_nil,
    List.append_nil]
  exact h

/-- A holder becomes a user. -/
theorem acquire (hi : xs[i]? = some a) (ha : user? a = none) (hb : user? b = some u) :
    Held user? (xs.set i b) (u :: users) := by
  have hperm := h.perm_cons hi
  have hset := filterMap_set_perm user? hi b
  rw [ha] at hperm
  rw [hb] at hset
  exact (hperm.cons u).trans hset.symm

/-- A user is one no more. -/
theorem release [DecidableEq K] (hi : xs[i]? = some a) (ha : user? a = some u)
    (hb : user? b = none) : Held user? (xs.set i b) (users.erase u) := by
  have hperm := h.perm_cons hi
  have hset := filterMap_set_perm user? hi b
  rw [ha] at hperm
  rw [hb] at hset
  have herase := hperm.erase u
  rw [Option.toList_some, List.singleton_append, List.erase_cons_head] at herase
  exact herase.trans hset.symm

theorem mem (hi : xs[i]? = some a) (ha : user? a = some u) : u ∈ users :=
  h.mem_iff.2 (List.mem_filterMap.2 ⟨a, List.mem_of_getElem? hi, ha⟩)

/-- With a holder that is no user, there are fewer users than holders. -/
theorem length_lt (hi : xs[i]? = some a) (ha : user? a = none) : users.length < xs.length := by
  rw [h.length_eq]
  refine (List.length_filterMap_le user? xs).lt_of_ne fun heq => ?_
  have hall := List.filterMap_length_eq_length.1 heq a (List.mem_of_getElem? hi)
  rw [ha] at hall
  exact Bool.false_ne_true hall

end Held

end Holders

end RefCount
