import Ditg.Library.Decimal
import Mathlib.Algebra.Order.Floor.Ring
import Mathlib.Data.Rat.Floor

/-!
# Formatted text

What `fprintf` and `fscanf` of C print and scan for the conversions `%u`, `%s`,
`%c` and `%lf`, with widths. Doubles are in exact arithmetic.

A format to scan is a list of directives on a state, which the conversions store
their values in. `Scans` says that a format matches a text and leaves another one;
a conversion with a maximum width leaves what does not fit in it (`unsigned_run`).

* `Scans.cons`: formats match directive by directive;
* `scanf_keeps`: a scan changes only what its conversions store.
-/

namespace Text

/-! ## Printing -/

/-- A text padded on the left to a minimum width. -/
def padLeft (c : UInt8) (width : ℕ) (s : List UInt8) : List UInt8 :=
  List.replicate (width - s.length) c ++ s

/-- `%lf`: six decimals. -/
def fixed (x : ℚ) : List UInt8 :=
  let n := ⌊|x| * 1000000 + 1 / 2⌋.toNat
  (if x < 0 then [45] else []) ++ decimal (n / 1000000) ++
    46 :: padLeft 48 6 (decimal (n % 1000000))

/-! ## Scanning -/

/-- `isspace` of `ctype.h`. -/
def isSpace (c : UInt8) : Bool := c = 32 ∨ (9 ≤ c ∧ c ≤ 13)

/-- A directive of a format, with the store of its value if it is a conversion. -/
inductive Directive (S : Type)
  /-- An ordinary character. -/
  | char (c : UInt8)
  /-- White space. -/
  | space
  /-- `%u`, with a maximum width. -/
  | unsigned (width : Option ℕ) (store : UInt32 → S → S)
  /-- `%c`, with the number of characters. -/
  | text (n : ℕ) (store : List UInt8 → S → S)
  /-- `%lf`. -/
  | double (store : ℚ → S → S)

/-- A directive fails at the end of the input, or as the input does not match. -/
inductive Failure
  | input
  | matching
  deriving DecidableEq

/-- The result of a scan: the failure if it stopped at one, the number of
    conversions, the state, and what has not been scanned. -/
structure Scanned (S : Type) where
  failure : Option Failure
  converted : ℕ
  state : S
  rest : List UInt8

/-- The sign of a number, and what follows it. -/
def sign : List UInt8 → Bool × List UInt8
  | [] => (false, [])
  | c :: s => if c = 45 then (true, s) else if c = 43 then (false, s) else (false, c :: s)

/-- The number that `strtoul` returns for a sign and digits, as an `unsigned int`. -/
def strtoul (negative : Bool) (n : ℕ) : UInt32 :=
  if n < 2 ^ 64 then (if negative then -UInt64.ofNat n else UInt64.ofNat n).toUInt32
  else 0xFFFFFFFF

/-- The number that decimals behind the point stand for. -/
def fraction (s : List UInt8) : ℚ := value s / 10 ^ s.length

variable {S : Type}

/-- The conversion `%u` on a text without leading white space. -/
def scanUnsigned (width : Option ℕ) (store : UInt32 → S → S) (x : S) (s : List UInt8) :
    Scanned S :=
  let field := match width with
    | some w => s.take w
    | none => s
  let digits := (sign field).2.takeWhile isDigit
  let rest := s.drop (field.length - (sign field).2.length + digits.length)
  if digits = [] then ⟨some .matching, 0, x, rest⟩
  else ⟨none, 1, store (strtoul (sign field).1 (value digits)) x, rest⟩

/-- The conversion `%lf` on a text without leading white space: digits with a point
    somewhere. -/
def scanDouble (store : ℚ → S → S) (x : S) (s : List UInt8) : Scanned S :=
  let digits := (sign s).2.takeWhile isDigit
  let tail := (sign s).2.dropWhile isDigit
  let point : Bool := tail.head? = some 46
  let decimals := if point then tail.tail.takeWhile isDigit else []
  let rest := if point then tail.tail.dropWhile isDigit else tail
  if digits = [] ∧ decimals = [] then ⟨some .matching, 0, x, rest⟩
  else
    let y := value digits + fraction decimals
    ⟨none, 1, store (if (sign s).1 then -y else y) x, rest⟩

/-- A directive on a state and a text. -/
def Directive.run (x : S) (s : List UInt8) : Directive S → Scanned S
  | .char c =>
    match s with
    | [] => ⟨some .input, 0, x, []⟩
    | b :: t => if b = c then ⟨none, 0, x, t⟩ else ⟨some .matching, 0, x, b :: t⟩
  | .space => ⟨none, 0, x, s.dropWhile isSpace⟩
  | .unsigned width store =>
    let s := s.dropWhile isSpace
    if s = [] then ⟨some .input, 0, x, []⟩ else scanUnsigned width store x s
  | .text n store =>
    if s.length < n then ⟨some .input, 0, x, []⟩ else ⟨none, 1, store (s.take n) x, s.drop n⟩
  | .double store =>
    let s := s.dropWhile isSpace
    if s = [] then ⟨some .input, 0, x, []⟩ else scanDouble store x s

/-- `fscanf`: the directives of a format in turn, up to one that fails. -/
def scanf : List (Directive S) → S → List UInt8 → Scanned S
  | [], x, s => ⟨none, 0, x, s⟩
  | d :: ds, x, s =>
    let r := d.run x s
    if r.failure = none then
      let r' := scanf ds r.state r.rest
      { r' with converted := r.converted + r'.converted }
    else r

/-- `fscanf` returns `EOF`: the input has ended before the first conversion. -/
def Scanned.eof (r : Scanned S) : Bool := r.failure = some .input ∧ r.converted = 0

/-- The directives of a text of ordinary characters. -/
def literal (s : List UInt8) : List (Directive S) := s.map .char

/-! ## Matching -/

/-- The format `ds` matches a part of the text `s` and leaves `s'`. -/
def Scans (ds : List (Directive S)) (x : S) (s : List UInt8) (x' : S) (s' : List UInt8) : Prop :=
  (scanf ds x s).failure = none ∧ (scanf ds x s).state = x' ∧ (scanf ds x s).rest = s'

theorem Scans.nil (x : S) (s : List UInt8) : Scans [] x s x s := ⟨rfl, rfl, rfl⟩

/-- Formats match directive by directive. -/
theorem Scans.cons {d : Directive S} {ds : List (Directive S)} {x x₁ x' : S}
    {s s₁ s' : List UInt8} {n : ℕ} (hd : d.run x s = ⟨none, n, x₁, s₁⟩)
    (h : Scans ds x₁ s₁ x' s') : Scans (d :: ds) x s x' s' := by
  simpa [Scans, scanf, hd] using h

theorem Scans.literal {ds : List (Directive S)} {x x' : S} {s s' : List UInt8} (t : List UInt8)
    (h : Scans ds x s x' s') : Scans (literal t ++ ds) x (t ++ s) x' s' := by
  induction t with
  | nil => exact h
  | cons c t ih => exact Scans.cons (n := 0) (by simp [Directive.run]) ih

/-- White space matches any white space. -/
theorem Scans.space {ds : List (Directive S)} {x x' : S} {s s' : List UInt8}
    (h : Scans ds x (s.dropWhile isSpace) x' s') : Scans (.space :: ds) x s x' s' :=
  Scans.cons rfl h

theorem dropWhile_isSpace_blanks (k : ℕ) (s : List UInt8) :
    (List.replicate k 32 ++ s).dropWhile isSpace = s.dropWhile isSpace := by
  induction k with
  | zero => rfl
  | succ k ih =>
    rw [List.replicate_succ, List.cons_append, List.dropWhile_cons_of_pos (by decide), ih]

theorem not_isSpace_of_isDigit {c : UInt8} (h : isDigit c) : ¬ isSpace c := by
  simp only [isDigit, isSpace, decide_eq_true_eq, UInt8.le_iff_toNat_le, ← UInt8.toNat_inj,
    UInt8.toNat_ofNat] at h ⊢
  omega

/-- The text goes on with something that is not a digit. -/
def NoDigit (s : List UInt8) : Prop := ∀ c ∈ s.head?, ¬ isDigit c

theorem takeWhile_of_noDigit {s : List UInt8} (h : NoDigit s) : s.takeWhile isDigit = [] := by
  rcases s with _ | ⟨c, s⟩
  · rfl
  · exact List.takeWhile_cons_of_neg (h c rfl)

theorem dropWhile_of_noDigit {s : List UInt8} (h : NoDigit s) : s.dropWhile isDigit = s := by
  rcases s with _ | ⟨c, s⟩
  · rfl
  · exact List.dropWhile_cons_of_neg (h c rfl)

theorem NoDigit.take {s : List UInt8} (h : NoDigit s) (n : ℕ) : NoDigit (s.take n) := by
  rcases n with _ | n
  · intro c hc
    cases hc
  · rcases s with _ | ⟨c, s⟩
    · exact h
    · exact h

section Digits

variable {ds t : List UInt8} (hds : ∀ c ∈ ds, isDigit c) (hne : ds ≠ [])

include hds

theorem takeWhile_digits (ht : NoDigit t) : (ds ++ t).takeWhile isDigit = ds := by
  rw [List.takeWhile_append_of_pos hds, takeWhile_of_noDigit ht, List.append_nil]

theorem dropWhile_digits (ht : NoDigit t) : (ds ++ t).dropWhile isDigit = t := by
  rw [List.dropWhile_append_of_pos hds, dropWhile_of_noDigit ht]

include hne

/-- Digits are not preceded by white space ... -/
theorem dropWhile_isSpace_digits (t : List UInt8) : (ds ++ t).dropWhile isSpace = ds ++ t := by
  obtain ⟨c, ds, rfl⟩ := List.exists_cons_of_ne_nil hne
  exact List.dropWhile_cons_of_neg (not_isSpace_of_isDigit (hds c List.mem_cons_self))

/-- ... and have no sign. -/
theorem sign_digits (t : List UInt8) : sign (ds ++ t) = (false, ds ++ t) := by
  obtain ⟨c, ds, rfl⟩ := List.exists_cons_of_ne_nil hne
  have hc := hds c List.mem_cons_self
  have h45 : c ≠ 45 := fun h => absurd hc (by rw [h]; decide)
  have h43 : c ≠ 43 := fun h => absurd hc (by rw [h]; decide)
  rw [List.cons_append, sign, if_neg h45, if_neg h43]

/-- A number that is preceded by blanks is read up to the maximum width. -/
theorem unsigned_run {w : ℕ} (hw : 0 < w) (ht : NoDigit t) (k : ℕ) (store : UInt32 → S → S)
    (x : S) : (Directive.unsigned (some w) store).run x (List.replicate k 32 ++ (ds ++ t)) =
      ⟨none, 1, store (strtoul false (value (ds.take w))) x, ds.drop w ++ t⟩ := by
  have hwds : ∀ c ∈ ds.take w, isDigit c := fun c hc => hds c (List.mem_of_mem_take hc)
  have hwne : ds.take w ≠ [] := by
    rw [Ne, List.take_eq_nil_iff, not_or]
    exact ⟨hw.ne', hne⟩
  have hfield : (ds ++ t).take w = ds.take w ++ t.take (w - ds.length) := List.take_append
  -- Of the field all digits are converted, and the text goes on behind them.
  have htake : ((ds ++ t).take w).takeWhile isDigit = ds.take w := by
    rw [hfield, takeWhile_digits hwds (ht.take _)]
  have hdrop : (ds ++ t).drop (ds.take w).length = ds.drop w ++ t := by
    rw [List.length_take, List.drop_append]
    rcases le_total w ds.length with h | h
    · rw [min_eq_left h, Nat.sub_eq_zero_of_le h, List.drop_zero]
    · rw [min_eq_right h, List.drop_length, List.drop_of_length_le h, Nat.sub_self, List.drop_zero]
  rw [Directive.run, dropWhile_isSpace_blanks, dropWhile_isSpace_digits hds hne]
  rw [if_neg (by simp [hne]), scanUnsigned]
  simp only [hfield, sign_digits hwds hwne]
  rw [← hfield, htake, if_neg hwne, Nat.sub_self, Nat.zero_add, hdrop]

/-- A number is read as a whole if there is no maximum width. -/
theorem unsigned_run_none (ht : NoDigit t) (store : UInt32 → S → S) (x : S) :
    (Directive.unsigned none store).run x (ds ++ t) =
      ⟨none, 1, store (strtoul false (value ds)) x, t⟩ := by
  rw [Directive.run, dropWhile_isSpace_digits hds hne]
  rw [if_neg (by simp [hne]), scanUnsigned]
  simp only [sign_digits hds hne, takeWhile_digits hds ht]
  rw [if_neg hne, Nat.sub_self, Nat.zero_add, List.drop_left]

/-- A number with a maximum width, between a name and another character. -/
theorem Scans.number {w : ℕ} (hw : 0 < w) (name : List UInt8) (k : ℕ) {c : UInt8}
    (hc : ¬ isDigit c) (t : List UInt8) (store : UInt32 → S → S) (x : S) :
    Scans (Text.literal name ++ [.unsigned (some w) store, .space]) x
      (name ++ (List.replicate k 32 ++ (ds ++ c :: t)))
      (store (strtoul false (value (ds.take w))) x)
      ((ds.drop w ++ c :: t).dropWhile isSpace) := by
  have ht : NoDigit (c :: t) := fun d hd => Option.some_injective _ hd ▸ hc
  exact .literal name (.cons (unsigned_run hds hne hw ht k store x) (.space (.nil _ _)))

end Digits

/-- A number that fits is read as it is. -/
theorem toNat_strtoul {n : ℕ} (hn : n < 2 ^ 32) : (strtoul false n).toNat = n := by
  rw [strtoul, if_pos (hn.trans (by decide)), if_neg Bool.false_ne_true, UInt64.toNat_toUInt32,
    UInt64.toNat_ofNat_of_lt' (by rw [UInt64.size]; omega), Nat.mod_eq_of_lt hn]

@[simp] theorem strtoul_toNat (n : UInt32) : strtoul false n.toNat = n :=
  UInt32.toNat_inj.1 (toNat_strtoul n.toNat_lt)

/-- Leading zeros do not count. -/
theorem value_zeros (k : ℕ) (s : List UInt8) : value (List.replicate k 48 ++ s) = value s := by
  induction k with
  | zero => rfl
  | succ k ih => exact ih

theorem isDigit_of_mem_padLeft {w n : ℕ} {c : UInt8} (h : c ∈ padLeft 48 w (decimal n)) :
    isDigit c := by
  rw [padLeft, List.mem_append] at h
  rcases h with h | h
  · rw [List.eq_of_mem_replicate h]
    decide
  · exact isDigit_of_mem_decimal h

/-- Digits that stand for a number, and are not more than `w` if that fits in `w` digits. -/
structure Numeral (w : ℕ) (n : UInt32) (ds : List UInt8) : Prop where
  digits : ∀ c ∈ ds, isDigit c
  ne_nil : ds ≠ []
  value_eq : value ds = n.toNat
  length_le : n.toNat < 10 ^ w → ds.length ≤ w

theorem numeral_decimal {w : ℕ} (hw : 0 < w) (n : UInt32) : Numeral w n (decimal n.toNat) where
  digits _ hc := isDigit_of_mem_decimal hc
  ne_nil := decimal_ne_nil _
  value_eq := value_decimal _
  length_le := (length_decimal_le_iff hw).2

/-- A number with zeros before it. -/
theorem numeral_padLeft {w : ℕ} (hw : 0 < w) (n : UInt32) :
    Numeral w n (padLeft 48 w (decimal n.toNat)) where
  digits _ hc := isDigit_of_mem_padLeft hc
  ne_nil := List.append_ne_nil_of_right_ne_nil _ (decimal_ne_nil _)
  value_eq := by rw [padLeft, value_zeros, value_decimal]
  length_le hn := by
    have hlen := (length_decimal_le_iff hw).2 hn
    rw [padLeft, List.length_append, List.length_replicate]
    omega

section Numeral

variable {w : ℕ} {n : UInt32} {ds t : List UInt8} (h : Numeral w n ds) (hw : 0 < w)
  (name : List UInt8) (k : ℕ) {c : UInt8} (store : UInt32 → S → S) (x : S)

include h hw

/-- A number that fits is read as a whole. -/
theorem Numeral.scans (hn : n.toNat < 10 ^ w) (hc : isSpace c) (ht : t.dropWhile isSpace = t) :
    Scans (Text.literal name ++ [.unsigned (some w) store, .space]) x
      (name ++ (List.replicate k 32 ++ (ds ++ c :: t))) (store n x) t := by
  have hdigit : ¬ isDigit c := fun h => not_isSpace_of_isDigit h hc
  have hscan := Scans.number h.digits h.ne_nil hw name k hdigit t store x
  rwa [List.take_of_length_le (h.length_le hn), List.drop_of_length_le (h.length_le hn),
    List.nil_append, List.dropWhile_cons_of_pos hc, ht, h.value_eq, strtoul_toNat] at hscan

/-- A number is read as it is exactly if it fits in the maximum width: else the first digits
    of it are a number that does. -/
theorem Numeral.scanf_eq_iff (hw' : w ≤ 9) (hc : ¬ isDigit c) (t : List UInt8) (part : S → UInt32)
    (hpart : ∀ m y, part (store m y) = m) :
    part (scanf (Text.literal name ++ [.unsigned (some w) store, .space]) x
      (name ++ (List.replicate k 32 ++ (ds ++ c :: t)))).state = n ↔ n.toNat < 10 ^ w := by
  rw [(Scans.number h.digits h.ne_nil hw name k hc t store x).2.1, hpart]
  constructor
  · intro heq
    have hlt : value (ds.take w) < 10 ^ w :=
      (value_lt fun c hc => h.digits c (List.mem_of_mem_take hc)).trans_le
        (Nat.pow_le_pow_right (by decide) (List.length_take_le ..))
    have hpow : 10 ^ w ≤ 10 ^ 9 := Nat.pow_le_pow_right (by decide) hw'
    rw [← heq, toNat_strtoul (by omega)]
    exact hlt
  · intro hn
    rw [List.take_of_length_le (h.length_le hn), h.value_eq, strtoul_toNat]

end Numeral

/-- Characters are read by their number. -/
theorem text_run {s : List UInt8} (t : List UInt8) (store : List UInt8 → S → S) (x : S) :
    (Directive.text s.length store).run x (s ++ t) = ⟨none, 1, store s x, t⟩ := by
  rw [Directive.run, if_neg (by simp), List.take_left, List.drop_left]

/-- The decimals of millionths. -/
theorem fraction_millionths {n : ℕ} (hn : n < 1000000) :
    fraction (padLeft 48 6 (decimal n)) = n / 1000000 := by
  have hlen : (decimal n).length ≤ 6 := (length_decimal_le_iff (by decide)).2 (by omega)
  have hpad : (padLeft 48 6 (decimal n)).length = 6 := by
    rw [padLeft, List.length_append, List.length_replicate]
    omega
  rw [fraction, hpad, padLeft, value_zeros, value_decimal]
  norm_num

/-- A number of millionths is printed as it is, ... -/
theorem fixed_millionths (n : ℕ) : fixed (n / 1000000) =
    decimal (n / 1000000) ++ 46 :: padLeft 48 6 (decimal (n % 1000000)) := by
  have hnonneg : (0 : ℚ) ≤ n / 1000000 := by positivity
  have hfloor : ⌊|(n : ℚ) / 1000000| * 1000000 + 1 / 2⌋ = n := by
    rw [abs_of_nonneg hnonneg, div_mul_cancel₀ _ (by norm_num), Int.floor_eq_iff]
    constructor
    · push_cast
      linarith
    · push_cast
      linarith
  rw [fixed]
  simp only [hfloor, Int.toNat_natCast, if_neg (not_lt.2 hnonneg), List.nil_append]

/-- ... and read back as it was. -/
theorem double_run (n : ℕ) {t : List UInt8} (ht : NoDigit t) (store : ℚ → S → S) (x : S) :
    (Directive.double store).run x (fixed (n / 1000000) ++ t) =
      ⟨none, 1, store (n / 1000000) x, t⟩ := by
  have hint : ∀ c ∈ decimal (n / 1000000), isDigit c := fun c hc => isDigit_of_mem_decimal hc
  have hdec : ∀ c ∈ padLeft 48 6 (decimal (n % 1000000)), isDigit c :=
    fun c hc => isDigit_of_mem_padLeft hc
  have hpoint : NoDigit (46 :: (padLeft 48 6 (decimal (n % 1000000)) ++ t)) := by
    intro c hc
    obtain rfl : 46 = c := Option.some_injective _ hc
    decide
  have hvalue : (((n / 1000000 : ℕ) : ℚ) + ((n % 1000000 : ℕ) : ℚ) / 1000000) = n / 1000000 := by
    have hdiv : (1000000 : ℚ) * (n / 1000000 : ℕ) + (n % 1000000 : ℕ) = n := by
      exact_mod_cast Nat.div_add_mod n 1000000
    field_simp
    linarith
  rw [Directive.run, fixed_millionths, List.append_assoc, List.cons_append,
    dropWhile_isSpace_digits hint (decimal_ne_nil _), if_neg (by simp), scanDouble]
  simp only [sign_digits hint (decimal_ne_nil _), takeWhile_digits hint hpoint,
    dropWhile_digits hint hpoint, List.head?_cons, List.tail_cons, decide_true, if_true,
    takeWhile_digits hdec ht, dropWhile_digits hdec ht, value_decimal,
    fraction_millionths (Nat.mod_lt n (by decide : 0 < 1000000)), hvalue]
  rw [if_neg fun h => decimal_ne_nil _ h.1]
  rfl

/-! ## What a scan changes -/

/-- The directive does not change a part of the state. -/
def Directive.Keeps {α : Type} (part : S → α) : Directive S → Prop
  | .char _ => True
  | .space => True
  | .unsigned _ store => ∀ v x, part (store v x) = part x
  | .text _ store => ∀ v x, part (store v x) = part x
  | .double store => ∀ v x, part (store v x) = part x

theorem run_keeps {α : Type} {part : S → α} {d : Directive S} (h : d.Keeps part) (x : S)
    (s : List UInt8) : part (d.run x s).state = part x := by
  cases d with
  | char c =>
    rcases s with _ | ⟨b, s⟩
    · rfl
    · rw [Directive.run]
      split_ifs <;> rfl
  | space => rfl
  | unsigned width store =>
    rw [Directive.run]
    split_ifs
    · rfl
    · simp only [scanUnsigned]
      split_ifs
      · rfl
      · exact h _ _
  | text n store =>
    rw [Directive.run]
    split_ifs
    · rfl
    · exact h _ _
  | double store =>
    rw [Directive.run]
    split_ifs
    · rfl
    · simp only [scanDouble]
      split_ifs <;> first | rfl | exact h _ _

/-- Ordinary characters store nothing. -/
theorem forall_keeps_literal {α : Type} {part : S → α} {s : List UInt8}
    {ds : List (Directive S)} :
    (∀ d ∈ literal s ++ ds, d.Keeps part) ↔ ∀ d ∈ ds, d.Keeps part := by
  rw [List.forall_mem_append]
  refine and_iff_right fun d hd => ?_
  obtain ⟨c, -, rfl⟩ := List.mem_map.1 hd
  trivial

/-- A scan does not change what none of its conversions stores. -/
theorem scanf_keeps {α : Type} {part : S → α} {ds : List (Directive S)}
    (h : ∀ d ∈ ds, d.Keeps part) (x : S) (s : List UInt8) :
    part (scanf ds x s).state = part x := by
  induction ds generalizing x s with
  | nil => rfl
  | cons d ds ih =>
    have hd := run_keeps (h d List.mem_cons_self) x s
    rw [scanf]
    split_ifs
    · exact (ih (fun d hd => h d (List.mem_cons_of_mem _ hd)) _ _).trans hd
    · exact hd

end Text
