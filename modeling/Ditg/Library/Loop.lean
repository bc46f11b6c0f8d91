import Mathlib.Tactic.Basic
import Mathlib.Data.Nat.Notation

/-!
# Loops with exits

A `while` loop whose body makes another state of its own, or leaves the program.

* `Returns.iff_body`, `returns_iff_of_error`, `returns_iff_of_not_goesOn`: what a loop returns, by
  its first turn;
* `ends_iff`: a loop whose turns reduce a measure, except in states in which it stays for ever, ends
  if and only if it never comes to one of these;
* `consumes_iff`: the same for a loop that takes something from a list in every turn.
-/

/-- A loop on states `S`, which may leave the program with `E`. -/
structure Loop (E S : Type*) where
  /-- Its condition. -/
  goesOn : S → Prop
  [decGoesOn : DecidablePred goesOn]
  /-- A turn. -/
  body : S → Except E S

namespace Loop

variable {E S : Type*} (l : Loop E S)

instance : DecidablePred l.goesOn := l.decGoesOn

/-- The result of at most `n` turns, if the loop has ended by then. -/
def run : ℕ → S → Option (Except E S)
  | 0, _ => none
  | n + 1, s =>
    if l.goesOn s then
      match l.body s with
      | .error e => some (.error e)
      | .ok s' => run n s'
    else some (.ok s)

/-- The loop ends with a result. -/
def Returns (s : S) (r : Except E S) : Prop := ∃ n, l.run n s = some r

/-- The loop ends. -/
def Ends (s : S) : Prop := ∃ r, l.Returns s r

/-- The states in which turns begin, or the loop ends. -/
inductive Reaches (s : S) : S → Prop
  | refl : Reaches s s
  | turn {s' s'' : S} : Reaches s s' → l.goesOn s' → l.body s' = .ok s'' → Reaches s s''

variable {l} {s s' s'' : S} {r : Except E S}

/-! ## The first turn -/

/-- What a turn does in two parts, neither of which leaves the program. -/
theorem bind_eq_ok {A B : Type*} {x : Except E A} {f : A → Except E B} {b : B} :
    x.bind f = .ok b ↔ ∃ a, x = .ok a ∧ f a = .ok b := by
  cases x with
  | error e =>
    constructor
    · nofun
    · rintro ⟨a, ha, -⟩
      cases ha
  | ok a =>
    constructor
    · intro h
      exact ⟨a, rfl, h⟩
    · rintro ⟨a, ⟨⟩, h⟩
      exact h

theorem run_of_body (h : l.goesOn s) (hbody : l.body s = .ok s') (n : ℕ) :
    l.run (n + 1) s = l.run n s' := by
  rw [run, if_pos h, hbody]

theorem map_eq_ok {A B : Type*} {x : Except E A} {f : A → B} {b : B} :
    x.map f = .ok b ↔ ∃ a, x = .ok a ∧ f a = b := by
  cases x with
  | error e =>
    constructor
    · nofun
    · rintro ⟨a, ha, -⟩
      cases ha
  | ok a =>
    constructor
    · rintro ⟨⟩
      exact ⟨a, rfl, rfl⟩
    · rintro ⟨a, ⟨⟩, rfl⟩
      rfl

/-- A turn that leaves the program. -/
theorem returns_iff_of_error {e : E} (h : l.goesOn s) (hbody : l.body s = .error e) :
    l.Returns s r ↔ r = .error e := by
  constructor
  · rintro ⟨n, hn⟩
    cases n with
    | zero => cases hn
    | succ n =>
      rw [run, if_pos h, hbody] at hn
      exact (Option.some.inj hn).symm
  · rintro rfl
    exact ⟨1, by rw [run, if_pos h, hbody]⟩

theorem returns_iff_of_not_goesOn (h : ¬l.goesOn s) : l.Returns s r ↔ r = .ok s := by
  constructor
  · rintro ⟨n, hn⟩
    cases n with
    | zero => cases hn
    | succ n =>
      rw [run, if_neg h] at hn
      exact (Option.some.inj hn).symm
  · rintro rfl
    exact ⟨1, by rw [run, if_neg h]⟩

/-- A turn that goes on. -/
theorem Returns.iff_body (h : l.goesOn s) (hbody : l.body s = .ok s') :
    l.Returns s r ↔ l.Returns s' r := by
  constructor
  · rintro ⟨n, hn⟩
    cases n with
    | zero => cases hn
    | succ n => exact ⟨n, run_of_body h hbody n ▸ hn⟩
  · rintro ⟨n, hn⟩
    exact ⟨n + 1, (run_of_body h hbody n).trans hn⟩

theorem Ends.iff_body (h : l.goesOn s) (hbody : l.body s = .ok s') : l.Ends s ↔ l.Ends s' :=
  exists_congr fun _ => Returns.iff_body h hbody

/-! ## Ends -/

/-- What is reached behind the first turn. -/
theorem Reaches.head (h : l.goesOn s) (hbody : l.body s = .ok s') (hreach : l.Reaches s' s'') :
    l.Reaches s s'' := by
  induction hreach with
  | refl => exact .turn .refl h hbody
  | turn _ hgoes hb ih => exact .turn ih hgoes hb

theorem Ends.of_reaches (h : l.Ends s) (hreach : l.Reaches s s') : l.Ends s' := by
  induction hreach with
  | refl => exact h
  | turn _ hgoes hbody ih => exact (Ends.iff_body hgoes hbody).1 ih

section Measure

variable {μ : S → ℕ} {Stuck : S → Prop}

/-- A loop does not end from a state in which it stays. -/
theorem not_ends_of_stuck
    (hstuck : ∀ s, l.goesOn s → Stuck s → ∃ s', l.body s = .ok s' ∧ l.goesOn s' ∧ Stuck s')
    (h : l.goesOn s) (hs : Stuck s) : ¬l.Ends s := by
  rintro ⟨r, n, hn⟩
  induction n generalizing s with
  | zero => cases hn
  | succ n ih =>
    obtain ⟨s', hbody, hgoes, hs'⟩ := hstuck s h hs
    exact ih hgoes hs' (run_of_body h hbody n ▸ hn)

/-- A loop ends if the turns of all states it comes to reduce the measure. -/
theorem ends_of_reduces
    (hreduces : ∀ s, l.goesOn s → ¬Stuck s → ∀ s', l.body s = .ok s' → μ s' < μ s)
    (h : ∀ s', l.Reaches s s' → l.goesOn s' → ¬Stuck s') : l.Ends s := by
  obtain ⟨n, hn⟩ : ∃ n, n = μ s := ⟨_, rfl⟩
  induction n using Nat.strongRecOn generalizing s with
  | ind n ih =>
    by_cases hgoes : l.goesOn s
    · cases hbody : l.body s with
      | error e => exact ⟨.error e, (returns_iff_of_error hgoes hbody).2 rfl⟩
      | ok s' =>
        have hlt : μ s' < n := hn ▸ hreduces s hgoes (h s .refl hgoes) s' hbody
        have hends : l.Ends s' := ih (μ s') hlt (fun u hu => h u (hu.head hgoes hbody)) rfl
        exact (Ends.iff_body hgoes hbody).2 hends
    · exact ⟨.ok s, (returns_iff_of_not_goesOn hgoes).2 rfl⟩

/-- When a loop ends. -/
theorem ends_iff
    (hreduces : ∀ s, l.goesOn s → ¬Stuck s → ∀ s', l.body s = .ok s' → μ s' < μ s)
    (hstuck : ∀ s, l.goesOn s → Stuck s → ∃ s', l.body s = .ok s' ∧ l.goesOn s' ∧ Stuck s') :
    l.Ends s ↔ ∀ s', l.Reaches s s' → l.goesOn s' → ¬Stuck s' :=
  ⟨fun h _ hreach hgoes hs => not_ends_of_stuck hstuck hgoes hs (h.of_reaches hreach),
   ends_of_reduces hreduces⟩

end Measure

/-! ## Loops over lists -/

section Lists

variable {A : Type*} {l : Loop E (S × List A)} {st : S × List A}

variable (l) in
/-- The loop ends, and every turn before leaves the program or takes something from the list. -/
def Consumes (st : S × List A) : Prop :=
  l.Ends st ∧ ∀ st', l.Reaches st st' → l.goesOn st' → ∀ st'', l.body st' = .ok st'' →
    st''.2.length < st'.2.length

/-- All turns are outside the states in which the loop stays. -/
theorem consumes_iff (Stuck : S × List A → Prop)
    (hreduces : ∀ st, l.goesOn st → ¬Stuck st → ∀ st', l.body st = .ok st' →
      st'.2.length < st.2.length)
    (hstuck : ∀ st, l.goesOn st → Stuck st →
      ∃ st', l.body st = .ok st' ∧ l.goesOn st' ∧ Stuck st') :
    l.Consumes st ↔ ∀ st', l.Reaches st st' → l.goesOn st' → ¬Stuck st' := by
  constructor
  · intro h
    exact (ends_iff hreduces hstuck).1 h.1
  · intro h
    refine ⟨(ends_iff hreduces hstuck).2 h, fun st' hreach hgoes => ?_⟩
    exact hreduces st' hgoes (h st' hreach hgoes)

end Lists

end Loop
