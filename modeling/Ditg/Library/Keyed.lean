import Mathlib.Algebra.BigOperators.Group.List.Basic
import Mathlib.Data.List.Induction
import Mathlib.Data.List.Nodup

/-!
# Keyed tables

A table accumulating a stream of records by key: a record whose key has an
entry updates it, and any other record starts a new entry at the end of the
table. What such a table holds does not depend on how the records of different
keys are interleaved:

* every key of the stream has exactly one entry (`nodup_keys`, `mem_keys_table`);
* the entries of a key are those of the table built from the records of that
  key alone, in their order (`table_filter`), so that an entry can be computed
  by itself (`table_of_mem`) and reasoned about by induction (`table_induction`);
* a measure that every record adds its weight to adds up to the weights of all
  records (`sum_table`).

An implementation that looks an entry up by its index updates the same table
(`modify_eq_update`), as at most one entry has the key.
-/

/-- How records of type `β` accumulate in entries of type `α`, by keys `K`. -/
structure Keyed (K α β : Type*) where
  /-- The key of an entry. -/
  key : α → K
  /-- The key of a record. -/
  keyOf : β → K
  /-- The entry a record starts. -/
  new : β → α
  /-- The entry after a further record of its key. -/
  upd : α → β → α
  key_new : ∀ r, key (new r) = keyOf r
  key_upd : ∀ e r, key (upd e r) = key e

namespace Keyed

variable {K α β : Type*} [DecidableEq K] (a : Keyed K α β)

/-- The table with the entries of the key of `r` updated. -/
def update (tbl : List α) (r : β) : List α :=
  tbl.map fun e => if a.key e = a.keyOf r then a.upd e r else e

/-- The table after a record. -/
def insert (tbl : List α) (r : β) : List α :=
  if a.keyOf r ∈ tbl.map a.key then a.update tbl r else tbl ++ [a.new r]

/-- The table of a stream of records. -/
def table (rs : List β) : List α := rs.foldl a.insert []

@[simp] theorem map_key_update (tbl : List α) (r : β) :
    (a.update tbl r).map a.key = tbl.map a.key := by
  rw [update, List.map_map]
  apply List.map_congr_left
  intro e _
  simp only [Function.comp_apply]
  split_ifs <;> simp [a.key_upd]

/-! ## Keys -/

theorem map_key_insert (tbl : List α) (r : β) : (a.insert tbl r).map a.key =
    if a.keyOf r ∈ tbl.map a.key then tbl.map a.key else tbl.map a.key ++ [a.keyOf r] := by
  rw [insert]
  split_ifs <;> simp [a.key_new]

theorem nodup_insert {tbl : List α} (h : (tbl.map a.key).Nodup) (r : β) :
    ((a.insert tbl r).map a.key).Nodup := by
  rw [map_key_insert]
  split_ifs with hr
  · exact h
  · exact List.nodup_append.2 ⟨h, List.nodup_singleton _, fun k hk k' hk' heq =>
      hr (List.mem_singleton.1 hk' ▸ heq ▸ hk)⟩

theorem mem_keys_insert (tbl : List α) (r : β) (k : K) :
    k ∈ (a.insert tbl r).map a.key ↔ k ∈ tbl.map a.key ∨ k = a.keyOf r := by
  rw [map_key_insert]
  split_ifs with hr
  · exact ⟨.inl, fun h => h.elim id fun hk => hk ▸ hr⟩
  · rw [List.mem_append, List.mem_singleton]

theorem table_concat (rs : List β) (r : β) : a.table (rs ++ [r]) = a.insert (a.table rs) r :=
  List.foldl_concat ..

/-- Keys in the order in which they come first. -/
def firsts (ks : List K) : List K := ks.foldl (fun l k => if k ∈ l then l else l ++ [k]) []

theorem firsts_concat (ks : List K) (k : K) :
    firsts (ks ++ [k]) = if k ∈ firsts ks then firsts ks else firsts ks ++ [k] :=
  List.foldl_concat ..

/-- The entries stand in the order of the first records of their keys. -/
theorem map_key_table (rs : List β) : (a.table rs).map a.key = firsts (rs.map a.keyOf) := by
  induction rs using List.reverseRecOn with
  | nil => rfl
  | append_singleton rs r ih =>
    rw [table_concat, map_key_insert, ih, List.map_append, List.map_singleton, firsts_concat]

/-- Different entries have different keys. -/
theorem nodup_keys (rs : List β) : ((a.table rs).map a.key).Nodup := by
  induction rs using List.reverseRecOn with
  | nil => exact List.nodup_nil
  | append_singleton rs r ih =>
    rw [table_concat]
    exact a.nodup_insert ih r

/-- The keys with an entry are those of the stream. -/
theorem mem_keys_table (rs : List β) (k : K) :
    k ∈ (a.table rs).map a.key ↔ k ∈ rs.map a.keyOf := by
  induction rs using List.reverseRecOn with
  | nil => simp [table]
  | append_singleton rs r ih =>
    rw [table_concat, mem_keys_insert, List.map_append, List.mem_append]
    exact or_congr ih List.mem_singleton.symm

/-! ## The entries of one key -/

/-- Updating the entries of a key leaves those of another one. -/
theorem filter_update_of_ne (tbl : List α) {r : β} {k : K} (hr : a.keyOf r ≠ k) :
    (a.update tbl r).filter (a.key · = k) = tbl.filter (a.key · = k) := by
  induction tbl with
  | nil => rfl
  | cons e tbl ih =>
    rw [update, List.map_cons, ← update]
    by_cases he : a.key e = a.keyOf r
    · have hk : a.key e ≠ k := fun h => hr (he ▸ h)
      rw [if_pos he, List.filter_cons_of_neg (by simpa [a.key_upd] using hk),
        List.filter_cons_of_neg (by simpa using hk), ih]
    · rw [if_neg he, List.filter_cons, List.filter_cons, ih]

/-- A record changes no entry of another key. -/
theorem filter_insert_of_ne (tbl : List α) {r : β} {k : K} (hr : a.keyOf r ≠ k) :
    (a.insert tbl r).filter (a.key · = k) = tbl.filter (a.key · = k) := by
  rw [insert]
  split_ifs
  · exact a.filter_update_of_ne tbl hr
  · simp [a.key_new, hr]

/-- A record changes the entries of its key as if it were alone. -/
theorem filter_insert_of_eq (tbl : List α) {r : β} {k : K} (hr : a.keyOf r = k) :
    (a.insert tbl r).filter (a.key · = k) = a.insert (tbl.filter (a.key · = k)) r := by
  have hmem : a.keyOf r ∈ (tbl.filter (a.key · = k)).map a.key ↔ a.keyOf r ∈ tbl.map a.key := by
    simp only [List.mem_map, List.mem_filter, decide_eq_true_eq]
    exact ⟨fun ⟨e, he, hk⟩ => ⟨e, he.1, hk⟩, fun ⟨e, he, hk⟩ => ⟨e, ⟨he, hk.trans hr⟩, hk⟩⟩
  by_cases hin : a.keyOf r ∈ tbl.map a.key
  · rw [insert, insert, if_pos hin, if_pos (hmem.2 hin), update, update, List.filter_map]
    congr 1
    apply List.filter_congr
    intro e _
    by_cases he : a.key e = a.keyOf r <;> simp [he, a.key_upd]
  · rw [insert, insert, if_neg hin, if_neg fun h => hin (hmem.1 h), List.filter_append]
    simp [a.key_new, hr]

/-- The entries of a key are those of the records of that key alone: other
    records, wherever they stand in the stream, do not matter. -/
theorem table_filter (rs : List β) (k : K) :
    (a.table rs).filter (a.key · = k) = a.table (rs.filter (a.keyOf · = k)) := by
  induction rs using List.reverseRecOn with
  | nil => rfl
  | append_singleton rs r ih =>
    rw [table_concat, List.filter_append]
    by_cases hr : a.keyOf r = k
    · rw [a.filter_insert_of_eq _ hr, ih]
      simp [table, hr, List.foldl_append]
    · rw [a.filter_insert_of_ne _ hr, ih]
      simp [hr]

/-- In a table, an entry is the only one of its key. -/
theorem filter_key_of_mem {tbl : List α} (h : (tbl.map a.key).Nodup) {e : α} (he : e ∈ tbl) :
    tbl.filter (a.key · = a.key e) = [e] := by
  induction tbl with
  | nil => exact absurd he List.not_mem_nil
  | cons x tbl ih =>
    rw [List.map_cons, List.nodup_cons] at h
    rcases List.mem_cons.1 he with rfl | he'
    · have hnil : tbl.filter (a.key · = a.key e) = [] := by
        rw [List.filter_eq_nil_iff]
        intro y hy hk
        exact h.1 (List.mem_map.2 ⟨y, hy, of_decide_eq_true hk⟩)
      rw [List.filter_cons_of_pos (by simp), hnil]
    · have hx : a.key x ≠ a.key e := fun hk => h.1 (hk ▸ List.mem_map_of_mem he')
      rw [List.filter_cons_of_neg (by simpa using hx), ih h.2 he']

/-- An entry is computed by the records of its key alone, in their order. -/
theorem table_of_mem {rs : List β} {e : α} (he : e ∈ a.table rs) :
    a.table (rs.filter (a.keyOf · = a.key e)) = [e] := by
  rw [← a.table_filter, a.filter_key_of_mem (a.nodup_keys rs) he]

/-- What holds of an entry after its first record, and is kept by every further one of its key,
    holds of every entry of a table, with the records of its key. -/
theorem table_induction {P : α → List β → Prop} (hnew : ∀ r, P (a.new r) [r])
    (hupd : ∀ e rs r, a.key e = a.keyOf r → P e rs → P (a.upd e r) (rs ++ [r])) {rs : List β}
    {e : α} (he : e ∈ a.table rs) : P e (rs.filter (a.keyOf · = a.key e)) := by
  have hone (k : K) (rs : List β) (hk : ∀ r ∈ rs, a.keyOf r = k) :
      ∀ e ∈ a.table rs, a.table rs = [e] ∧ a.key e = k ∧ P e rs := by
    induction rs using List.reverseRecOn with
    | nil => simp [table]
    | append_singleton rs r ih =>
      have ih := ih fun x hx => hk x (List.mem_append_left _ hx)
      have hr : a.keyOf r = k := hk r (by simp)
      have hmem : k ∈ (a.table rs).map a.key ↔ k ∈ rs.map a.keyOf := a.mem_keys_table rs k
      rw [table_concat, insert, hr]
      by_cases hnil : rs = []
      · subst hnil
        simp [table, hnew, a.key_new, hr]
      · obtain ⟨x, hx⟩ := List.exists_mem_of_ne_nil rs hnil
        have hin : k ∈ (a.table rs).map a.key :=
          hmem.2 (hk x (List.mem_append_left _ hx) ▸ List.mem_map_of_mem hx)
        obtain ⟨e, he, -⟩ := List.mem_map.1 hin
        obtain ⟨htable, hkey, hP⟩ := ih e he
        rw [if_pos hin, htable, update, List.map_singleton, if_pos (hkey.trans hr.symm)]
        intro e' he'
        obtain rfl := List.mem_singleton.1 he'
        exact ⟨rfl, (a.key_upd e r).trans hkey, hupd e rs r (hkey.trans hr.symm) hP⟩
  have htable := a.table_of_mem he
  have hk : ∀ r ∈ rs.filter (a.keyOf · = a.key e), a.keyOf r = a.key e := fun r hr =>
    of_decide_eq_true (List.mem_filter.1 hr).2
  exact (hone (a.key e) _ hk e (htable ▸ List.mem_singleton_self e)).2.2

/-! ## Measures -/

variable {M : Type*} [AddCommMonoid M] {m : α → M} {w : β → M}

/-- A record adds its weight to the table, once. -/
theorem sum_insert (hnew : ∀ r, m (a.new r) = w r) (hupd : ∀ e r, m (a.upd e r) = m e + w r)
    {tbl : List α} (h : (tbl.map a.key).Nodup) (r : β) :
    ((a.insert tbl r).map m).sum = (tbl.map m).sum + w r := by
  rw [insert]
  split_ifs with hin
  · induction tbl with
    | nil => exact absurd hin List.not_mem_nil
    | cons e tbl ih =>
      rw [List.map_cons, List.nodup_cons] at h
      rw [List.map_cons, List.mem_cons] at hin
      by_cases he : a.key e = a.keyOf r
      · -- The first entry is the one updated, and no other has its key.
        have htl : a.update tbl r = tbl := by
          rw [update]
          conv_rhs => rw [← List.map_id tbl]
          apply List.map_congr_left
          intro x hx
          have hne : a.key x ≠ a.keyOf r := fun hk =>
            h.1 (he.trans hk.symm ▸ List.mem_map_of_mem hx)
          rw [if_neg hne, id]
        rw [update, List.map_cons, if_pos he, ← update, htl, List.map_cons, List.sum_cons,
          hupd, List.map_cons, List.sum_cons, add_right_comm]
      · have hin' : a.keyOf r ∈ tbl.map a.key := hin.resolve_left (Ne.symm he)
        rw [update, List.map_cons, if_neg he, ← update, List.map_cons, List.sum_cons,
          ih h.2 hin', List.map_cons, List.sum_cons, add_assoc]
  · rw [List.map_append, List.sum_append, List.map_singleton, List.sum_singleton, hnew]

/-- The measure of the table is the weight of all records. -/
theorem sum_table (hnew : ∀ r, m (a.new r) = w r) (hupd : ∀ e r, m (a.upd e r) = m e + w r)
    (rs : List β) : ((a.table rs).map m).sum = (rs.map w).sum := by
  induction rs using List.reverseRecOn with
  | nil => rfl
  | append_singleton rs r ih =>
    rw [table_concat, a.sum_insert hnew hupd (a.nodup_keys rs), ih,
      List.map_append, List.sum_append, List.map_singleton, List.sum_singleton]

/-! ## Tables with an index -/

/-- Updating the entry at an index whose key is that of the record updates the
    entries of that key, as there is only one. -/
theorem modify_eq_update {tbl : List α} (h : (tbl.map a.key).Nodup) {r : β} {i : ℕ}
    (hi : i < tbl.length) (hk : a.key tbl[i] = a.keyOf r) :
    tbl.modify i (a.upd · r) = a.update tbl r := by
  apply List.ext_getElem
  · simp [update]
  · intro j hj hj'
    have hjt : j < tbl.length := by simpa using hj
    rw [List.getElem_modify]
    simp only [update, List.getElem_map]
    by_cases hij : i = j
    · subst hij
      rw [if_pos rfl, if_pos hk]
    · have hne : a.key tbl[j] ≠ a.keyOf r := by
        intro hk'
        have hi' : i < (tbl.map a.key).length := by simpa using hi
        have hj' : j < (tbl.map a.key).length := by simpa using hjt
        have hkey : (tbl.map a.key)[i] = (tbl.map a.key)[j] := by
          rw [List.getElem_map, List.getElem_map, hk, hk']
        exact hij ((h.getElem_inj_iff).1 hkey)
      rw [if_neg hij, if_neg hne]

end Keyed
