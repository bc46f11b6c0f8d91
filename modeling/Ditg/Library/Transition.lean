import Mathlib.Data.List.Induction
import Mathlib.Order.Basic

/-!
# Transition systems

A transition system on states `S`, whose steps are labelled by actions `A`: an
action says which step is taken and how its nondeterminism is resolved, so that
a step, if it is possible at all, has one result. The interleavings of a
concurrent system are the sequences of its actions.

* `ReachVia P`: the states reached by runs all of whose steps satisfy `P`, a
  condition on an action and on the state it is taken in; `Reachable` are the
  states reached by any run;
* `ReachVia.invariant`: the induction over runs, once and for all;
* `run`: the evaluation of a sequence of actions, every result of which is
  reachable; `exists_run_final`: a run to a final state, by a measure.
-/

/-- A transition system with labelled, deterministic steps. -/
structure Transition (S A : Type*) where
  /-- The initial states. -/
  init : S → Prop
  /-- The state after an action, if it is possible. -/
  step : S → A → Option S

namespace Transition

variable {S A : Type*} (t : Transition S A)

/-- The states reached by runs all of whose steps satisfy `P`. -/
inductive ReachVia (P : S → A → Prop) : S → Prop
  | init {s : S} : t.init s → ReachVia P s
  | step {s s' : S} {a : A} : ReachVia P s → P s a → t.step s a = some s' → ReachVia P s'

/-- The states reached by any run. -/
abbrev Reachable : S → Prop := t.ReachVia fun _ _ => True

variable {t}

/-- A property that holds initially and is preserved by every step satisfying
    `P` holds in every state reached by such steps. -/
theorem ReachVia.invariant {P : S → A → Prop} {Inv : S → Prop}
    (hinit : ∀ s, t.init s → Inv s)
    (hstep : ∀ s a s', Inv s → P s a → t.step s a = some s' → Inv s') {s : S}
    (h : t.ReachVia P s) : Inv s := by
  induction h with
  | init h => exact hinit _ h
  | step _ hP hs ih => exact hstep _ _ _ ih hP hs

/-- A weaker condition on the steps reaches more states. -/
theorem ReachVia.mono {P Q : S → A → Prop} (hPQ : ∀ s a, P s a → Q s a) {s : S}
    (h : t.ReachVia P s) : t.ReachVia Q s := by
  induction h with
  | init h => exact .init h
  | step _ hP hs ih => exact .step ih (hPQ _ _ hP) hs

/-- States reached under a condition are reachable. -/
theorem ReachVia.reachable {P : S → A → Prop} {s : S} (h : t.ReachVia P s) : t.Reachable s :=
  h.mono fun _ _ _ => trivial

variable (t) in
/-- The state after a sequence of actions, if all of them are possible. -/
def run (s : S) : List A → Option S
  | [] => some s
  | a :: as => (t.step s a).bind fun s' => run s' as

theorem run_cons (s : S) (a : A) (as : List A) :
    t.run s (a :: as) = (t.step s a).bind fun s' => t.run s' as := rfl

variable (t) in
/-- Every step of a sequence of actions taken from `s` satisfies `P`. -/
def StepsVia (P : S → A → Prop) (s : S) : List A → Prop
  | [] => True
  | a :: as => P s a ∧ ∀ s', t.step s a = some s' → StepsVia P s' as

/-- Steps are checked one after the other. -/
instance StepsVia.decidable {P : S → A → Prop} [∀ s a, Decidable (P s a)] :
    ∀ s as, Decidable (t.StepsVia P s as)
  | _, [] => isTrue trivial
  | s, a :: as => by
    have : Decidable (∀ s' ∈ t.step s a, t.StepsVia P s' as) :=
      have (s' : S) : Decidable (t.StepsVia P s' as) := StepsVia.decidable s' as
      inferInstance
    exact inferInstanceAs (Decidable (P s a ∧ ∀ s' ∈ t.step s a, t.StepsVia P s' as))

/-- The last step of a run. -/
theorem StepsVia.of_run_append {P : S → A → Prop} {s s' : S} {as : List A} {a : A}
    (h : t.StepsVia P s (as ++ [a])) (hr : t.run s as = some s') : P s' a := by
  induction as generalizing s with
  | nil => exact Option.some.inj hr ▸ h.1
  | cons b as ih =>
    rw [run_cons, Option.bind_eq_some_iff] at hr
    obtain ⟨u, hu, hr⟩ := hr
    exact ih (h.2 u hu) hr

/-- Under an invariant that steps with `P` keep, all steps of a run with `P` satisfy what `P` and
    the invariant imply. -/
theorem StepsVia.of_invariant {P Q : S → A → Prop} {Inv : S → Prop} {s : S} {as : List A}
    (h : t.StepsVia P s as) (hs : Inv s) (hQ : ∀ s a, Inv s → P s a → Q s a)
    (hstep : ∀ s a s', Inv s → P s a → t.step s a = some s' → Inv s') : t.StepsVia Q s as := by
  induction as generalizing s with
  | nil => trivial
  | cons a as ih =>
    exact ⟨hQ s a hs h.1, fun s' hs' => ih (h.2 s' hs') (hstep s a s' hs h.1 hs')⟩

/-- A run whose steps satisfy `P` from a state reached by such steps ends in one. -/
theorem ReachVia.run {P : S → A → Prop} {s s' : S} {as : List A} (h : t.ReachVia P s)
    (hP : t.StepsVia P s as) (hr : t.run s as = some s') : t.ReachVia P s' := by
  induction as generalizing s with
  | nil => exact Option.some.inj hr ▸ h
  | cons a as ih =>
    rw [run_cons, Option.bind_eq_some_iff] at hr
    obtain ⟨u, hu, hr⟩ := hr
    exact ih (.step h hP.1 hu) (hP.2 u hu) hr

/-- Every run from a reachable state ends in one. -/
theorem Reachable.run {s s' : S} {as : List A} (h : t.Reachable s)
    (hr : t.run s as = some s') : t.Reachable s' := by
  induction as generalizing s with
  | nil => exact Option.some.inj hr ▸ h
  | cons a as ih =>
    rw [run_cons, Option.bind_eq_some_iff] at hr
    obtain ⟨u, hu, hr⟩ := hr
    exact ih (.step h trivial hu) hr

/-- A system that can step, towards a smaller measure, from every state that
    satisfies an invariant and is not final, has a run to a final state. -/
theorem exists_run_final {Inv Final : S → Prop} (μ : S → ℕ)
    (h : ∀ s, Inv s → ¬Final s → ∃ a s', t.step s a = some s' ∧ Inv s' ∧ μ s' < μ s) {s : S}
    (hs : Inv s) : ∃ as s', t.run s as = some s' ∧ Inv s' ∧ Final s' := by
  obtain ⟨n, hn⟩ : ∃ n, n = μ s := ⟨_, rfl⟩
  induction n using Nat.strongRecOn generalizing s with
  | ind n ih =>
    by_cases hf : Final s
    · exact ⟨[], s, rfl, hs, hf⟩
    · obtain ⟨a, s₁, hstep, hs₁, hlt⟩ := h s hs hf
      obtain ⟨as, s', hrun, hs', hf'⟩ := ih (μ s₁) (hn ▸ hlt) hs₁ rfl
      exact ⟨a :: as, s', by rw [run_cons, hstep, Option.bind_some, hrun], hs', hf'⟩

/-- What is kept by every step is kept by a fold. -/
theorem foldlM_invariant {S A : Type*} {step : S → A → Option S} {I : S → Prop} {as : List A}
    (hstep : ∀ a ∈ as, ∀ s s', I s → step s a = some s' → I s') {s s' : S} (hs : I s)
    (h : as.foldlM step s = some s') : I s' := by
  induction as generalizing s with
  | nil =>
    cases h
    exact hs
  | cons a as ih =>
    rw [List.foldlM_cons, Option.bind_eq_bind, Option.bind_eq_some_iff] at h
    obtain ⟨s₁, hs₁, h⟩ := h
    rw [List.forall_mem_cons] at hstep
    exact ih hstep.2 (hstep.1 s s₁ hs hs₁) h

/-- The steps over a list, by their index. -/
theorem forall_steps_iff_getElem {A : Type*} {l : List A} {P : List A → A → Prop} :
    (∀ p a, p ≠ [] → p ++ [a] <+: l → P p a) ↔
      ∀ i, (h : i < l.tail.length) → P (l.take (i + 1)) l.tail[i] := by
  constructor
  · intro h i hi
    have hlt : i + 1 < l.length := by
      rw [List.length_tail] at hi
      omega
    refine h _ _ ?_ ?_
    · rw [Ne, List.take_eq_nil_iff]
      rintro (h | rfl)
      · exact Nat.succ_ne_zero i h
      · exact Nat.not_lt_zero _ hlt
    · rw [List.getElem_tail, ← List.take_succ_eq_append_getElem hlt]
      exact List.take_prefix _ _
  · rintro h p a hne ⟨t, rfl⟩
    obtain ⟨i, hi⟩ := Nat.exists_eq_add_of_lt (List.length_pos_iff.2 hne)
    rw [Nat.zero_add] at hi
    have key := h i (by
      rw [List.length_tail, List.length_append, List.length_append, List.length_singleton]
      omega)
    simpa [← hi, List.append_assoc] using key

/-- If two conditions on a step are the same under an invariant, which such steps keep,
    then all steps over a list satisfy the one if and only if they satisfy the other. -/
theorem forall_steps_iff {A : Type*} {l : List A} {Inv : List A → Prop}
    {P Q : List A → A → Prop} (hinit : ∀ a, [a] <+: l → Inv [a])
    (hiff : ∀ p a, p ≠ [] → p ++ [a] <+: l → Inv p → (P p a ↔ Q p a))
    (hstep : ∀ p a, p ≠ [] → p ++ [a] <+: l → Inv p → Q p a → Inv (p ++ [a])) :
    (∀ p a, p ≠ [] → p ++ [a] <+: l → P p a) ↔ ∀ p a, p ≠ [] → p ++ [a] <+: l → Q p a := by
  have key (h : (∀ p a, p ≠ [] → p ++ [a] <+: l → P p a) ∨
      ∀ p a, p ≠ [] → p ++ [a] <+: l → Q p a) : ∀ p, p ≠ [] → p <+: l → Inv p := by
    intro p hne hp
    induction p using List.reverseRecOn with
    | nil => exact absurd rfl hne
    | append_singleton p a ih =>
      by_cases hnil : p = []
      · subst hnil
        exact hinit a hp
      · have hInv := ih hnil ((List.prefix_append _ _).trans hp)
        have hQ : Q p a := h.elim (fun h => (hiff p a hnil hp hInv).1 (h p a hnil hp))
          fun h => h p a hnil hp
        exact hstep p a hnil hp hInv hQ
  constructor
  · intro h p a hne hp
    have hInv : Inv p := key (.inl h) p hne ((List.prefix_append _ _).trans hp)
    exact (hiff p a hne hp hInv).1 (h p a hne hp)
  · intro h p a hne hp
    have hInv : Inv p := key (.inr h) p hne ((List.prefix_append _ _).trans hp)
    exact (hiff p a hne hp hInv).2 (h p a hne hp)

end Transition
