import Mathlib.Data.Nat.Digits.Lemmas

/-!
# Decimal numbers

The decimal digits of a number as the characters of a text (`decimal`), and the
number that digits stand for (`value`).
-/

namespace Text

/-- `isdigit` of `ctype.h`. -/
def isDigit (c : UInt8) : Bool := 48 ≤ c ∧ c ≤ 57

/-- The character of a digit. -/
def digitChar (d : ℕ) : UInt8 := UInt8.ofNat (48 + d)

/-- The decimal digits of a number, without leading zeros. -/
def decimal (n : ℕ) : List UInt8 :=
  if n = 0 then [digitChar 0] else (Nat.digits 10 n).reverse.map digitChar

/-- The number that decimal digits stand for. -/
def value (s : List UInt8) : ℕ := s.foldl (fun n c => 10 * n + (c.toNat - 48)) 0

theorem toNat_digitChar {d : ℕ} (hd : d < 10) : (digitChar d).toNat = 48 + d := by
  rw [digitChar, UInt8.toNat_ofNat_of_lt']
  rw [UInt8.size]
  omega

theorem isDigit_digitChar {d : ℕ} (hd : d < 10) : isDigit (digitChar d) := by
  have hnat := toNat_digitChar hd
  simp only [isDigit, UInt8.le_iff_toNat_le, hnat, decide_eq_true_eq, UInt8.toNat_ofNat]
  omega

/-- A decimal number consists of digits. -/
theorem isDigit_of_mem_decimal {n : ℕ} {c : UInt8} (h : c ∈ decimal n) : isDigit c := by
  rw [decimal] at h
  split_ifs at h
  · rw [List.mem_singleton.1 h]
    exact isDigit_digitChar (by decide)
  · obtain ⟨d, hd, rfl⟩ := List.mem_map.1 h
    exact isDigit_digitChar (Nat.digits_lt_base (by decide) (List.mem_reverse.1 hd))

theorem decimal_ne_nil (n : ℕ) : decimal n ≠ [] := by
  rw [decimal]
  split_ifs with h
  · exact List.cons_ne_nil _ _
  · intro hnil
    rw [List.map_eq_nil_iff, List.reverse_eq_nil_iff] at hnil
    exact h (Nat.digits_eq_nil_iff_eq_zero.1 hnil)

theorem value_concat (s : List UInt8) (c : UInt8) :
    value (s ++ [c]) = 10 * value s + (c.toNat - 48) := List.foldl_concat ..

/-- Of a number of `k` digits, the value is below `10 ^ k`. -/
theorem value_lt {s : List UInt8} (h : ∀ c ∈ s, isDigit c) : value s < 10 ^ s.length := by
  induction s using List.reverseRecOn with
  | nil => decide
  | append_singleton s c ih =>
    have hs := ih fun d hd => h d (List.mem_append_left _ hd)
    have hc : c.toNat ≤ 57 := by
      have hdigit := h c (List.mem_append_right _ List.mem_cons_self)
      simp only [isDigit, UInt8.le_iff_toNat_le, decide_eq_true_eq, UInt8.toNat_ofNat] at hdigit
      exact hdigit.2
    rw [value_concat, List.length_append, List.length_singleton, pow_succ]
    omega

/-- Digits, the last one first, stand for their number. -/
theorem value_reverse_map {l : List ℕ} (h : ∀ d ∈ l, d < 10) :
    value (l.reverse.map digitChar) = Nat.ofDigits 10 l := by
  induction l with
  | nil => rfl
  | cons d l ih =>
    rw [List.reverse_cons, List.map_append, List.map_singleton, value_concat,
      ih fun x hx => h x (List.mem_cons_of_mem _ hx), toNat_digitChar (h d List.mem_cons_self),
      Nat.ofDigits_cons]
    omega

@[simp] theorem value_decimal (n : ℕ) : value (decimal n) = n := by
  rw [decimal]
  split_ifs with h
  · rw [h]
    rfl
  · rw [value_reverse_map fun d hd => Nat.digits_lt_base (by decide) hd, Nat.ofDigits_digits]

theorem decimal_injective : Function.Injective decimal := fun n m h => by
  rw [← value_decimal n, h, value_decimal]

/-- A number ends where its digits do. -/
theorem decimal_append_inj {n m : ℕ} {c : UInt8} (hc : ¬ isDigit c) {s t : List UInt8} :
    decimal n ++ c :: s = decimal m ++ c :: t ↔ n = m ∧ s = t := by
  have hspan : ∀ (k : ℕ) (r : List UInt8),
      (decimal k ++ c :: r).takeWhile isDigit = decimal k := by
    intro k r
    rw [List.takeWhile_append_of_pos fun d hd => isDigit_of_mem_decimal hd,
      List.takeWhile_cons_of_neg hc, List.append_nil]
  constructor
  · intro h
    have hnm : n = m := decimal_injective (by rw [← hspan n s, h, hspan])
    subst hnm
    exact ⟨rfl, (List.cons_injective (List.append_cancel_left h))⟩
  · rintro ⟨rfl, rfl⟩
    rfl

/-- A number of `k` digits is below `10 ^ k`. -/
theorem length_decimal_le_iff {n k : ℕ} (hk : 0 < k) : (decimal n).length ≤ k ↔ n < 10 ^ k := by
  rw [decimal]
  split_ifs with h
  · rw [h, List.length_singleton]
    exact ⟨fun _ => Nat.pos_of_ne_zero (by positivity), fun _ => hk⟩
  · rw [List.length_map, List.length_reverse, Nat.digits_length_le_iff (by decide)]

end Text
