import Mathlib.Algebra.BigOperators.Group.Finset.Basic
import Mathlib.Data.Finset.Lattice.Fold
import Mathlib.Data.List.Induction
import Mathlib.Order.Interval.Finset.Nat
import Mathlib.Order.Lattice.Nat

/-!
# Arrivals of numbered packets

Packets numbered from `1` on arrive in some order, some of them not at all and
some of them more than once. A receiver that does not remember which numbers it
has seen can still compare the number of packets with the greatest number: what
it has more of are duplicates.

* `top l`: the greatest number;
* `excess l`: the duplicates known for sure, the greatest excess of the packets
  over the greatest number, at any time from the second packet on. It is at most
  the number of repetitions (`excess_le`);
* `missed l`: the numbers that are missing, as far as these duplicates tell. It is
  at most the number of values that are missing (`missed_le`), and exact if no
  value is repeated (`missed_eq`);
* `gaps l` and `fills l`: how often numbers were skipped, and how often a packet
  came late and took the place of a missing one;
* `runs S`: the maximal runs of consecutive numbers of a set. Of packets whose numbers
  increase, those skip numbers that come behind a run of missing ones
  (`Increasing.counts`).

The excess depends on the order of the packets, and `excess_perm_iff` says when it
does not.
-/

namespace Arrivals

/-- The greatest number. -/
def top (l : List ℕ) : ℕ := l.toFinset.sup id

/-- The greatest excess of the packets over the greatest number, in the first two
    packets or more. -/
def excess (l : List ℕ) : ℕ := (Finset.Icc 2 l.length).sup fun i => i - top (l.take i)

/-- The numbers that are missing, as far as the excess tells: none of the numbers
    before the first packet is. -/
def missed (l : List ℕ) : ℕ := if l.length < 2 then 0 else top l + excess l - l.length

/-- The values that are missing. -/
def absent (l : List ℕ) : Finset ℕ := Finset.Icc 1 (top l) \ l.toFinset

/-- A packet of number `s` after `l` skips numbers. -/
def IsGap (l : List ℕ) (s : ℕ) : Prop :=
  if l.length < 2 then l.length = 1 ∧ 2 < s else top l + excess l + 1 < s

/-- A packet of number `s` after `l` comes late, while numbers are missing. -/
def IsFill (l : List ℕ) (s : ℕ) : Prop :=
  2 ≤ l.length ∧ s ≤ top l ∧ l.length < top l + excess l

instance (l : List ℕ) (s : ℕ) : Decidable (IsGap l s) := by
  unfold IsGap
  infer_instance

instance (l : List ℕ) (s : ℕ) : Decidable (IsFill l s) := by
  unfold IsFill
  infer_instance

/-- The packets that satisfy `P` after the packets before them. -/
def occurrences (P : List ℕ → ℕ → Prop) [∀ l s, Decidable (P l s)] (l : List ℕ) : ℕ :=
  (List.range l.length).countP fun i => P (l.take i) (l.getD i 0)

/-- The packets that skipped numbers. -/
def gaps (l : List ℕ) : ℕ := occurrences IsGap l

/-- The packets that came late. -/
def fills (l : List ℕ) : ℕ := occurrences IsFill l

variable {l : List ℕ}

/-! ## One more packet -/

theorem top_append (l l' : List ℕ) : top (l ++ l') = max (top l) (top l') := by
  rw [top, List.toFinset_append, Finset.sup_union]
  rfl

theorem top_concat (l : List ℕ) (s : ℕ) : top (l ++ [s]) = max (top l) s := by
  rw [top_append]
  simp [top]

theorem le_top {s : ℕ} (h : s ∈ l) : s ≤ top l :=
  Finset.le_sup (f := id) (List.mem_toFinset.2 h)

theorem top_le {m : ℕ} (h : ∀ s ∈ l, s ≤ m) : top l ≤ m :=
  Finset.sup_le fun s hs => h s (List.mem_toFinset.1 hs)

/-- The greatest number is that of a packet. -/
theorem top_mem (h : l ≠ []) : top l ∈ l := by
  have hne : l.toFinset.Nonempty := (List.toFinset_nonempty_iff l).2 h
  obtain ⟨s, hs, htop⟩ := Finset.exists_mem_eq_sup _ hne id
  rw [top, htop]
  exact List.mem_toFinset.1 hs

theorem top_pos (h : l ≠ []) (hpos : ∀ s ∈ l, 0 < s) : 0 < top l := hpos _ (top_mem h)

theorem top_perm {l' : List ℕ} (h : l.Perm l') : top l = top l' := by
  rw [top, top, List.toFinset_eq_of_perm _ _ h]

/-- The excess is a bound for the packets at any time. -/
theorem excess_le_iff {d : ℕ} :
    excess l ≤ d ↔ ∀ i, 2 ≤ i → i ≤ l.length → i ≤ top (l.take i) + d := by
  rw [excess, Finset.sup_le_iff]
  constructor
  · intro h i hi hl
    have hd := h i (Finset.mem_Icc.2 ⟨hi, hl⟩)
    omega
  · intro h i hi
    rw [Finset.mem_Icc] at hi
    have hd := h i hi.1 hi.2
    omega

theorem excess_concat (h : l ≠ []) (s : ℕ) :
    excess (l ++ [s]) = max (excess l) (l.length + 1 - max (top l) s) := by
  have hlen : 0 < l.length := List.length_pos_of_ne_nil h
  have hIcc : Finset.Icc 2 (l.length + 1) = insert (l.length + 1) (Finset.Icc 2 l.length) := by
    ext i
    rw [Finset.mem_insert, Finset.mem_Icc, Finset.mem_Icc]
    omega
  have hlast : (l ++ [s]).take (l.length + 1) = l ++ [s] := List.take_of_length_le (by simp)
  have hinit : ∀ i ∈ Finset.Icc 2 l.length, i - top ((l ++ [s]).take i) = i - top (l.take i) := by
    intro i hi
    rw [List.take_append_of_le_length (Finset.mem_Icc.1 hi).2]
  rw [excess, List.length_append, List.length_singleton, hIcc, Finset.sup_insert, hlast,
    top_concat, Finset.sup_congr rfl hinit, ← excess, max_comm]

/-- The excess does not go down. -/
theorem excess_le_concat (h : l ≠ []) (s : ℕ) : excess l ≤ excess (l ++ [s]) :=
  excess_concat h s ▸ le_max_left _ _

theorem excess_singleton (s : ℕ) : excess [s] = 0 := rfl

theorem excess_le_length (l : List ℕ) : excess l ≤ l.length :=
  excess_le_iff.2 fun _ _ hi => hi.trans (Nat.le_add_left _ _)

/-- From the second packet on, the packets are not more than the numbers and the
    duplicates. -/
theorem length_le (h : 2 ≤ l.length) : l.length ≤ top l + excess l := by
  have hle := excess_le_iff.1 le_rfl l.length h le_rfl
  rwa [List.take_length] at hle

/-- The packets missed are the ones that make the counts agree. -/
theorem length_add_missed (h : 2 ≤ l.length) : l.length + missed l = top l + excess l := by
  rw [missed, if_neg (by omega)]
  have hle := length_le h
  omega

/-- Nothing is known after the first packet. -/
theorem missed_cases (h : l ≠ []) : (l.length = 1 ∧ missed l = 0 ∧ excess l = 0) ∨
    (2 ≤ l.length ∧ l.length + missed l = top l + excess l) := by
  have hlen : 0 < l.length := List.length_pos_of_ne_nil h
  rcases Nat.lt_or_ge l.length 2 with h2 | h2
  · refine .inl ⟨by omega, if_pos h2, Nat.le_zero.1 ?_⟩
    rw [excess_le_iff]
    omega
  · exact .inr ⟨h2, length_add_missed h2⟩

theorem missed_concat (h : l ≠ []) (s : ℕ) : missed (l ++ [s]) =
    max (top l) s + max (excess l) (l.length + 1 - max (top l) s) - (l.length + 1) := by
  have hlen : 0 < l.length := List.length_pos_of_ne_nil h
  have hlen' : (l ++ [s]).length = l.length + 1 := List.length_append
  rw [missed, if_neg (by omega), top_concat, excess_concat h, hlen']

/-- A packet skips numbers if it is above those missed and those that came. -/
theorem isGap_iff (h : l ≠ []) (s : ℕ) : IsGap l s ↔ missed l + (l.length + 1) < s := by
  have hlen : 0 < l.length := List.length_pos_of_ne_nil h
  rw [IsGap, missed]
  split_ifs with h2
  · omega
  · have hall := length_le (not_lt.1 h2)
    omega

/-- A packet that comes late makes fewer packets missed. -/
theorem isFill_iff (l : List ℕ) (s : ℕ) :
    IsFill l s ↔ l.length + 1 ≤ max (top l) s + excess l ∧
      max (top l) s + excess l < l.length + 1 + missed l := by
  rw [IsFill, missed]
  split_ifs <;> omega

theorem occurrences_concat (P : List ℕ → ℕ → Prop) [∀ l s, Decidable (P l s)] (l : List ℕ)
    (s : ℕ) : occurrences P (l ++ [s]) = occurrences P l + if P l s then 1 else 0 := by
  have hinit : ∀ i ∈ List.range l.length, decide (P ((l ++ [s]).take i) ((l ++ [s]).getD i 0)) =
      decide (P (l.take i) (l.getD i 0)) := by
    intro i hi
    have hi' : i < l.length := List.mem_range.1 hi
    have hget : (l ++ [s]).getD i 0 = l.getD i 0 := by
      rw [List.getD_eq_getElem?_getD, List.getElem?_append_left hi', ← List.getD_eq_getElem?_getD]
    rw [List.take_append_of_le_length hi'.le, hget]
  rw [occurrences, List.length_append, List.length_singleton, List.range_succ, List.countP_append,
    List.countP_congr fun i hi => by rw [hinit i hi], ← occurrences, List.countP_singleton]
  simp

theorem occurrences_le_length (P : List ℕ → ℕ → Prop) [∀ l s, Decidable (P l s)] (l : List ℕ) :
    occurrences P l ≤ l.length :=
  List.countP_le_length.trans_eq List.length_range

theorem gaps_concat (l : List ℕ) (s : ℕ) :
    gaps (l ++ [s]) = gaps l + if IsGap l s then 1 else 0 := occurrences_concat _ _ _

theorem fills_concat (l : List ℕ) (s : ℕ) :
    fills (l ++ [s]) = fills l + if IsFill l s then 1 else 0 := occurrences_concat _ _ _

/-! ## What the counts say -/

theorem toFinset_subset (hpos : ∀ s ∈ l, 0 < s) : l.toFinset ⊆ Finset.Icc 1 (top l) := by
  intro s hs
  have hs := List.mem_toFinset.1 hs
  exact Finset.mem_Icc.2 ⟨hpos s hs, le_top hs⟩

theorem card_absent (hpos : ∀ s ∈ l, 0 < s) :
    (absent l).card + l.toFinset.card = top l := by
  rw [absent, Finset.card_sdiff_add_card_eq_card (toFinset_subset hpos), Nat.card_Icc,
    Nat.add_sub_cancel]

/-- What is in excess has been repeated. -/
theorem excess_le (hpos : ∀ s ∈ l, 0 < s) : excess l + l.toFinset.card ≤ l.length := by
  have hcard : l.toFinset.card ≤ l.length := List.toFinset_card_le l
  have hle : excess l ≤ l.length - l.toFinset.card := by
    rw [excess_le_iff]
    intro i _ hi
    -- The distinct values of the first packets are numbers up to the greatest one.
    have htake : (l.take i).toFinset.card ≤ top (l.take i) :=
      (card_absent fun s hs => hpos s (List.mem_of_mem_take hs)) ▸ Nat.le_add_left _ _
    have hdrop : (l.drop i).toFinset.card ≤ l.length - i :=
      List.length_drop ▸ List.toFinset_card_le (l.drop i)
    have hsplit : l.toFinset.card ≤ (l.take i).toFinset.card + (l.drop i).toFinset.card := by
      conv_lhs => rw [← List.take_append_drop i l, List.toFinset_append]
      exact Finset.card_union_le _ _
    omega
  omega

theorem missed_le (hpos : ∀ s ∈ l, 0 < s) : missed l ≤ (absent l).card := by
  have habsent := card_absent hpos
  have hexcess := excess_le hpos
  rw [missed]
  split_ifs
  · exact Nat.zero_le _
  · omega

/-- Without repetitions there is no excess, ... -/
theorem excess_eq_zero (hpos : ∀ s ∈ l, 0 < s) (hl : l.Nodup) : excess l = 0 := by
  have hexcess := excess_le hpos
  rw [List.toFinset_card_of_nodup hl] at hexcess
  omega

/-- ... and the packets missed are those that are missing. -/
theorem missed_eq (hpos : ∀ s ∈ l, 0 < s) (hl : l.Nodup) (h : 2 ≤ l.length) :
    missed l = (absent l).card := by
  have habsent := card_absent hpos
  have hmissed := length_add_missed h
  rw [excess_eq_zero hpos hl] at hmissed
  rw [List.toFinset_card_of_nodup hl] at habsent
  omega

/-! ## Orders of arrival -/

/-- A greatest number that comes first is the greatest number from then on. -/
theorem top_take_cons {m : ℕ} (h : ∀ s ∈ l, s ≤ m) {i : ℕ} (hi : 0 < i) :
    top ((m :: l).take i) = m := by
  obtain ⟨i, rfl⟩ := Nat.exists_eq_succ_of_ne_zero hi.ne'
  rw [List.take_succ_cons]
  apply le_antisymm
  · apply top_le
    intro s hs
    rcases List.mem_cons.1 hs with rfl | hs
    · exact le_rfl
    · exact h s (List.mem_of_mem_take hs)
  · exact le_top List.mem_cons_self

/-- The excess is at least that of all packets, ... -/
theorem length_sub_top_le (h : 2 ≤ l.length) : l.length - top l ≤ excess l := by
  have hle := length_le h
  omega

/-- ... and no more if the greatest number comes first. -/
theorem exists_perm_excess_eq (h : 2 ≤ l.length) :
    ∃ l', l'.Perm l ∧ excess l' = l.length - top l := by
  have hm : top l ∈ l := top_mem (List.length_pos_iff.1 (by omega))
  have hperm : (top l :: l.erase (top l)).Perm l := (List.perm_cons_erase hm).symm
  refine ⟨_, hperm, le_antisymm ?_ ?_⟩
  · rw [excess_le_iff]
    intro i hi hlen
    rw [top_take_cons (fun s hs => le_top (List.mem_of_mem_erase hs)) (by omega)]
    rw [hperm.length_eq] at hlen
    omega
  · have hle := length_sub_top_le (hperm.length_eq.symm ▸ h)
    rwa [hperm.length_eq, top_perm hperm] at hle

/-- In every order, the packets in excess are so among those up to some number. -/
theorem excess_le_of_count {l' : List ℕ} (hperm : l'.Perm l) {d : ℕ}
    (h : ∀ v, l.countP (· ≤ v) ≤ v + d) : excess l' ≤ d := by
  rw [excess_le_iff]
  intro i _ hi
  have hfirst : (l'.take i).countP (· ≤ top (l'.take i)) = i := by
    rw [List.countP_eq_length.2 fun s hs => decide_eq_true (le_top hs), List.length_take,
      min_eq_left hi]
  calc i = (l'.take i).countP (· ≤ top (l'.take i)) := hfirst.symm
    _ ≤ l'.countP (· ≤ top (l'.take i)) := (List.take_sublist i l').countP_le
    _ = l.countP (· ≤ top (l'.take i)) := hperm.countP_eq _
    _ ≤ top (l'.take i) + d := h _

/-- Conversely, the packets up to some number can come first, the greatest of them
    before the others, as many of them as make an excess of `d`. If all packets
    together have less, the excess is then `d`. -/
theorem exists_perm_excess {v d : ℕ} (hpos : ∀ s ∈ l, 0 < s) (hd : l.length - top l < d)
    (hv : v + d ≤ l.countP (· ≤ v)) : ∃ l', l'.Perm l ∧ excess l' = d := by
  have hsplit := List.filter_append_perm (· ≤ v) l
  set low := l.filter (· ≤ v) with hlow
  set high := l.filter (fun s => !decide (s ≤ v)) with hhigh
  have hlen : v + d ≤ low.length := by rwa [hlow, ← List.countP_eq_length_filter]
  have hlowpos : ∀ s ∈ low, 0 < s := fun s hs => hpos s (List.mem_filter.1 hs).1
  have hlowne : low ≠ [] := List.length_pos_iff.1 (by omega)
  have htop : top low ≤ v := top_le fun s hs => of_decide_eq_true (List.mem_filter.1 hs).2
  have htoppos : 0 < top low := top_pos hlowne hlowpos
  -- The greatest number of all is not among them.
  have hmv : v < top l := by
    by_contra hle
    have hall : l.countP (· ≤ v) ≤ l.length := List.countP_le_length
    omega
  have hlne : l ≠ [] := fun h => hlowne (by rw [hlow, h, List.filter_nil])
  have hm : top l ∈ high := List.mem_filter.2 ⟨top_mem hlne, by simpa using hmv⟩
  have hlowperm : low.Perm (top low :: low.erase (top low)) := List.perm_cons_erase (top_mem hlowne)
  set first := (top low :: low.erase (top low)).take (top low + d) with hfirst
  set others := (top low :: low.erase (top low)).drop (top low + d) with hothers
  have hfirstlen : first.length = top low + d := by
    rw [hfirst, List.length_take, ← hlowperm.length_eq]
    omega
  have htopfirst : ∀ i, 0 < i → i ≤ first.length → top (first.take i) = top low := by
    intro i hi hlt
    rw [hfirst, List.take_take, min_eq_left (hfirstlen ▸ hlt)]
    exact top_take_cons (fun s hs => le_top (List.mem_of_mem_erase hs)) hi
  have hperm : (first ++ (top l :: (others ++ high.erase (top l)))).Perm l := by
    calc List.Perm (first ++ (top l :: (others ++ high.erase (top l))))
          (first ++ (others ++ (top l :: high.erase (top l)))) :=
        List.Perm.append_left _ List.perm_middle.symm
      List.Perm _ (low ++ high) := by
        rw [← List.append_assoc, hfirst, hothers, List.take_append_drop]
        exact hlowperm.symm.append (List.perm_cons_erase hm).symm
      List.Perm _ l := hsplit
  refine ⟨_, hperm, le_antisymm ?_ ?_⟩
  · rw [excess_le_iff]
    intro i hi hlt
    rw [hperm.length_eq] at hlt
    rcases le_or_gt i first.length with hi' | hi'
    · rw [List.take_append_of_le_length hi', htopfirst i (by omega) hi']
      omega
    · -- The greatest number of all is there.
      have hmem : top l ∈ (first ++ (top l :: (others ++ high.erase (top l)))).take i := by
        obtain ⟨k, rfl⟩ := Nat.exists_eq_add_of_lt hi'
        rw [Nat.add_assoc, List.take_length_add_append, List.take_succ_cons]
        exact List.mem_append_right _ List.mem_cons_self
      have hle := le_top hmem
      omega
  · have hlt : first.length ≤ (first ++ (top l :: (others ++ high.erase (top l)))).length := by
      rw [List.length_append]
      exact Nat.le_add_right _ _
    have hle := excess_le_iff.1 le_rfl first.length (by omega) hlt
    have htop := htopfirst first.length (by omega) le_rfl
    rw [List.take_length] at htop
    rw [List.take_left, htop] at hle
    omega

/-! ## Runs of missing numbers -/

/-- The maximal runs of consecutive numbers of a set, by their first and last number. -/
def runs (S : Finset ℕ) : Finset (ℕ × ℕ) :=
  (S ×ˢ S).filter fun r =>
    r.1 ≤ r.2 ∧ Finset.Icc r.1 r.2 ⊆ S ∧ (r.1 = 0 ∨ r.1 - 1 ∉ S) ∧ r.2 + 1 ∉ S

/-- How many numbers are in a run. -/
def runLength (r : ℕ × ℕ) : ℕ := r.2 + 1 - r.1

section Runs

variable {S : Finset ℕ} {m s : ℕ}

theorem mem_runs {a b : ℕ} : (a, b) ∈ runs S ↔
    a ≤ b ∧ (∀ x, a ≤ x → x ≤ b → x ∈ S) ∧ (a = 0 ∨ a - 1 ∉ S) ∧ b + 1 ∉ S := by
  simp only [runs, Finset.mem_filter, Finset.mem_product, Finset.subset_iff, Finset.mem_Icc]
  constructor
  · rintro ⟨-, hab, hS, hrest⟩
    exact ⟨hab, fun x hax hxb => hS ⟨hax, hxb⟩, hrest⟩
  · rintro ⟨hab, hS, hrest⟩
    exact ⟨⟨hS a le_rfl hab, hS b hab le_rfl⟩, hab, fun x hx => hS x hx.1 hx.2, hrest⟩

/-- Numbers above a number that is not in the set, and above all that are, make one
    more run. -/
theorem runs_union (hS : ∀ x ∈ S, x < m) (h : m + 1 < s) :
    runs (S ∪ Finset.Ioo m s) = insert (m + 1, s - 1) (runs S) := by
  ext ⟨a, b⟩
  simp only [Finset.mem_insert, mem_runs, Finset.mem_union, Finset.mem_Ioo, Prod.mk.injEq]
  constructor
  · rintro ⟨hab, hin, hleft, hright⟩
    have ha := hin a le_rfl hab
    rcases Nat.lt_or_ge a m with ham | ham
    · -- A run that begins below the number ends below it.
      right
      have hbm : b < m := by
        by_contra hmb
        have hm := hin m ham.le (not_lt.1 hmb)
        have hlt := hS m
        grind
      refine ⟨hab, fun x hax hxb => ?_, ?_, fun hb => hright (.inl hb)⟩
      · have hx := hin x hax hxb
        grind
      · exact hleft.imp_right fun hnot hmem => hnot (.inl hmem)
    · left
      have hlt := hS a
      have hb := hin b hab le_rfl
      have hltb := hS b
      grind
  · rintro (⟨rfl, rfl⟩ | ⟨hab, hin, hleft, hright⟩)
    · refine ⟨by omega, fun x hax hxb => .inr (by omega), .inr fun hmem => ?_, fun hmem => ?_⟩
      · have hlt := hS m
        grind
      · have hlt := hS (s - 1 + 1)
        grind
    · have hb := hS b (hin b hab le_rfl)
      refine ⟨hab, fun x hax hxb => .inl (hin x hax hxb), ?_, ?_⟩
      · grind
      · grind

theorem notMem_runs (hS : ∀ x ∈ S, x < m) : (m + 1, s - 1) ∉ runs S := by
  rw [mem_runs]
  rintro ⟨hab, hin, -⟩
  have hlt := hS (m + 1) (hin (m + 1) le_rfl hab)
  omega

end Runs

/-! ## Increasing numbers -/

/-- A greater number makes the numbers in between missing. -/
theorem absent_concat {s : ℕ} (h : top l < s) :
    absent (l ++ [s]) = absent l ∪ Finset.Ioo (top l) s := by
  ext x
  have hle : x ∈ l → x ≤ top l := le_top
  simp only [absent, top_concat, List.toFinset_append, Finset.mem_sdiff, Finset.mem_Icc,
    Finset.mem_union, Finset.mem_Ioo, List.mem_toFinset, List.mem_singleton]
  grind

theorem lt_top_of_mem_absent (hl : l ≠ []) : ∀ x ∈ absent l, x < top l := by
  intro x hx
  obtain ⟨hx, hnot⟩ := Finset.mem_sdiff.1 hx
  refine lt_of_le_of_ne (Finset.mem_Icc.1 hx).2 ?_
  rintro rfl
  exact hnot (List.mem_toFinset.2 (top_mem hl))

/-- Numbers that increase, from 1 on. -/
def Increasing (l : List ℕ) : Prop := l.head? = some 1 ∧ l.Pairwise (· < ·)

theorem Increasing.pos (h : Increasing l) : ∀ s ∈ l, 0 < s := by
  obtain ⟨l, rfl⟩ := List.head?_eq_some_iff.1 h.1
  intro s hs
  rcases List.mem_cons.1 hs with rfl | hs
  · exact Nat.one_pos
  · exact Nat.one_pos.trans ((List.pairwise_cons.1 h.2).1 s hs)

/-- Without repetitions, all numbers up to the greatest have come or are missed. -/
theorem Increasing.length_add_missed (h : Increasing l) :
    excess l = 0 ∧ l.length + missed l = top l := by
  have hexcess := excess_eq_zero h.pos (h.2.imp fun hlt => hlt.ne)
  obtain ⟨l, rfl⟩ := List.head?_eq_some_iff.1 h.1
  rcases missed_cases (List.cons_ne_nil 1 l) with ⟨hlen, hmissed, -⟩ | ⟨-, hsum⟩
  · obtain rfl : l = [] := List.length_eq_zero_iff.1 (by simpa using hlen)
    exact ⟨hexcess, rfl⟩
  · exact ⟨hexcess, by rw [hsum, hexcess, Nat.add_zero]⟩

/-- When the numbers increase, the packets that skip numbers are those behind a run of
    missing ones, and no packet comes late. -/
theorem Increasing.counts (h : Increasing l) :
    fills l = 0 ∧ gaps l = (runs (absent l)).card ∧
      missed l = ∑ r ∈ runs (absent l), runLength r := by
  induction l using List.reverseRecOn with
  | nil => simp [Increasing] at h
  | append_singleton l s ih =>
    by_cases hl : l = []
    · subst hl
      obtain rfl : s = 1 := by simpa [Increasing] using h
      decide
    · obtain ⟨hincr, -, hlt⟩ := List.pairwise_append.1 h.2
      have hinit : Increasing l := by
        refine ⟨?_, hincr⟩
        rw [← h.1, List.head?_append, List.head?_eq_some_head hl, Option.some_or]
      have hs : top l < s := hlt _ (top_mem hl) s (List.mem_singleton_self s)
      obtain ⟨hexcess, hall⟩ := hinit.length_add_missed
      obtain ⟨-, hall'⟩ := h.length_add_missed
      obtain ⟨hfills, hgaps, hmissed⟩ := ih hinit
      rw [top_concat, max_eq_right hs.le, List.length_append, List.length_singleton] at hall'
      have hfill : ¬ IsFill l s := fun hfill => hs.not_ge hfill.2.1
      have hgap : IsGap l s ↔ top l + 1 < s := by
        rw [isGap_iff hl, ← hall]
        omega
      rw [fills_concat, gaps_concat, if_neg hfill, if_congr hgap rfl rfl, absent_concat hs]
      refine ⟨hfills, ?_⟩
      by_cases hskip : top l + 1 < s
      · -- The numbers skipped are one more run.
        have hbelow := lt_top_of_mem_absent hl
        rw [runs_union hbelow hskip, if_pos hskip,
          Finset.card_insert_of_notMem (notMem_runs hbelow),
          Finset.sum_insert (notMem_runs hbelow), ← hmissed, runLength]
        omega
      · have hnone : Finset.Ioo (top l) s = ∅ := by
          rw [Finset.eq_empty_iff_forall_notMem]
          intro x hx
          rw [Finset.mem_Ioo] at hx
          omega
        rw [hnone, Finset.union_empty, if_neg hskip, ← hmissed]
        omega

/-- Increasing numbers, wherever they start: there is an excess only if they begin with `0`,
    which takes no place among the numbers from 1 on, and with `1`. -/
theorem excess_of_pairwise (hl : l ≠ []) (hincr : l.Pairwise (· < ·)) :
    excess l = (if [0, 1] <+: l then 1 else 0) ∧ l.length ≤ top l + 1 ∧
      (l.length = 1 ∨ [0, 1] <+: l ∨ l.length ≤ top l) := by
  induction l using List.reverseRecOn with
  | nil => exact absurd rfl hl
  | append_singleton l s ih =>
    by_cases hnil : l = []
    · subst hnil
      simp [excess_singleton]
    · obtain ⟨hincr, -, hlt⟩ := List.pairwise_append.1 hincr
      obtain ⟨hexcess, hlen, hcases⟩ := ih hnil hincr
      have hs : top l < s := hlt _ (top_mem hnil) s (List.mem_singleton_self s)
      have hpre : l <+: l ++ [s] := List.prefix_append l [s]
      rw [excess_concat hnil, hexcess, top_concat, max_eq_right hs.le, List.length_append,
        List.length_singleton]
      by_cases h01 : [0, 1] <+: l
      · rw [if_pos h01, if_pos (h01.trans hpre)]
        exact ⟨by omega, by omega, .inr (.inl (h01.trans hpre))⟩
      · rw [if_neg h01]
        by_cases hone : l.length = 1
        · -- The second number.
          obtain ⟨a, rfl⟩ := List.length_eq_one_iff.1 hone
          have htop : top [a] = a := by simp [top]
          rw [htop] at hs
          have hiff : [0, 1] <+: [a] ++ [s] ↔ s = 1 := by
            simp only [List.singleton_append, List.cons_prefix_cons, List.nil_prefix, and_true]
            omega
          simp only [hiff, hone]
          split_ifs <;> omega
        · have htwo : [0, 1].length ≤ l.length := by
            have := List.length_pos_iff.2 hnil
            simp only [List.length_cons, List.length_nil]
            omega
          have hiff : ¬ [0, 1] <+: l ++ [s] := fun h =>
            h01 (List.prefix_of_prefix_length_le h hpre htwo)
          have hle : l.length ≤ top l := (hcases.resolve_left hone).resolve_left h01
          rw [if_neg hiff]
          exact ⟨by omega, by omega, .inr (.inr (by omega))⟩

end Arrivals
