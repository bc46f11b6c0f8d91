import Ditg.Library.Transition
import Mathlib.Order.Nat

/-!
# Runs that go on for ever

What a transition system does in the end. A run that goes on for ever is a sequence of
states (`Transition.Forever`); from one to the next there is a step, or nothing happens, so
that a run that ends is among them, its last state repeated (`trace`).

A system does not have to take the steps that it can take: that it does is a property of a
run (fairness), which a result about it has to assume.

* `Forever.reachVia`: the states of such a run are reached by its steps;
* `Forever.leadsTo`: from a state in a phase, the run gets to the goal, if all steps stay in
  the phase, or go on to a later one, or to the goal, and if the run leaves every phase;
* `forever_trace`: a sequence of actions, followed by nothing.
-/

namespace Transition

variable {S A : Type*} {t : Transition S A} {P : S → A → Prop}

/-- The states of a run that goes on for ever, all of whose steps satisfy `P`. -/
structure Forever (t : Transition S A) (P : S → A → Prop) (ρ : ℕ → S) : Prop where
  init : t.init (ρ 0)
  next : ∀ n, ρ (n + 1) = ρ n ∨ ∃ a, P (ρ n) a ∧ t.step (ρ n) a = some (ρ (n + 1))

section Forever

variable {ρ : ℕ → S}

theorem Forever.reachVia (h : t.Forever P ρ) (n : ℕ) : t.ReachVia P (ρ n) := by
  induction n with
  | zero => exact .init h.init
  | succ n ih =>
    obtain heq | ⟨a, ha, hstep⟩ := h.next n
    · rwa [heq]
    · exact .step ih ha hstep

/-- What every step keeps or gives up for the goal, is kept until the goal is reached. -/
theorem Forever.until (h : t.Forever P ρ) (Inv Goal : S → Prop)
    (hstep : ∀ s a s', t.ReachVia P s → Inv s → P s a → t.step s a = some s' → Goal s' ∨ Inv s')
    {n : ℕ} (hn : Inv (ρ n)) (k : ℕ) : (∃ m ≥ n, Goal (ρ m)) ∨ Inv (ρ (n + k)) := by
  induction k with
  | zero => exact .inr hn
  | succ k ih =>
    obtain hgoal | hinv := ih
    · exact .inl hgoal
    · obtain heq | ⟨a, ha, hs⟩ := h.next (n + k)
      · exact .inr (by rwa [← Nat.add_assoc, heq])
      · exact (hstep _ a _ (h.reachVia _) hinv ha hs).imp_left fun hgoal =>
          ⟨n + k + 1, by omega, hgoal⟩

/-- The goal is reached from a state of the invariant, if steps keep the invariant without going
    back to an earlier phase, or reach the goal, and the run does not stay in a phase. Phases are
    counted down. -/
theorem Forever.leadsTo (h : t.Forever P ρ) (Inv Goal : S → Prop) (phase : S → ℕ)
    (hstep : ∀ s a s', t.ReachVia P s → Inv s → P s a → t.step s a = some s' →
      Goal s' ∨ Inv s' ∧ phase s' ≤ phase s)
    (hleave : ∀ n, Inv (ρ n) → ∃ m ≥ n, ¬(Inv (ρ m) ∧ phase (ρ m) = phase (ρ n)))
    {n : ℕ} (hn : Inv (ρ n)) : ∃ m ≥ n, Goal (ρ m) := by
  obtain ⟨r, hr⟩ : ∃ r, r = phase (ρ n) := ⟨_, rfl⟩
  -- By induction on the phase: the run leaves it, for the goal or a later one.
  induction r using Nat.strongRecOn generalizing n with
  | ind r ih =>
    obtain ⟨m, hm, hleaves⟩ := hleave n hn
    obtain ⟨k, rfl⟩ := Nat.exists_eq_add_of_le hm
    have huntil := h.until (fun s => Inv s ∧ phase s ≤ r) Goal
      (fun s a s' hs hinv ha hstep' =>
        (hstep s a s' hs hinv.1 ha hstep').imp_right fun hinv' => ⟨hinv'.1, hinv'.2.trans hinv.2⟩)
      ⟨hn, hr.ge⟩ k
    obtain hgoal | ⟨hinv, hle⟩ := huntil
    · exact hgoal
    · have hne : phase (ρ (n + k)) ≠ r := fun heq => hleaves ⟨hinv, heq.trans hr⟩
      obtain ⟨m, hm, hgoal⟩ := ih _ (lt_of_le_of_ne hle hne) hinv rfl
      exact ⟨m, by omega, hgoal⟩

end Forever

variable (t) in
/-- The states of a sequence of actions that are all possible, the last one for ever. -/
def trace (s : S) (as : List A) (n : ℕ) : S := (t.run s (as.take n)).getD s

theorem run_append (s : S) (as bs : List A) :
    t.run s (as ++ bs) = (t.run s as).bind fun s' => t.run s' bs := by
  induction as generalizing s with
  | nil => rfl
  | cons a as ih =>
    rw [List.cons_append, run_cons, run_cons]
    rcases t.step s a with _ | s'
    · rfl
    · exact ih s'

theorem StepsVia.of_append {s : S} {as bs : List A} (h : t.StepsVia P s (as ++ bs)) :
    t.StepsVia P s as := by
  induction as generalizing s with
  | nil => trivial
  | cons a as ih => exact ⟨h.1, fun s' hs' => ih (h.2 s' hs')⟩

theorem trace_eq {s s' : S} {as : List A} {n : ℕ} (h : t.run s (as.take n) = some s') :
    t.trace s as n = s' := by
  rw [trace, h, Option.getD_some]

/-- After its actions the run stays where it is. -/
theorem trace_of_le {s s' : S} {as : List A} (h : t.run s as = some s') {n : ℕ}
    (hn : as.length ≤ n) : t.trace s as n = s' :=
  trace_eq (by rw [List.take_of_length_le hn, h])

/-- A run that ends, as one that goes on for ever. -/
theorem forever_trace {s s' : S} {as : List A} (hs : t.init s) (hP : t.StepsVia P s as)
    (hrun : t.run s as = some s') : t.Forever P (t.trace s as) := by
  refine ⟨hs, fun n => ?_⟩
  rcases Nat.lt_or_ge n as.length with hlt | hge
  · right
    have htake : as.take (n + 1) = as.take n ++ [as[n]] := List.take_succ_eq_append_getElem hlt
    have hsteps : t.StepsVia P s (as.take n ++ [as[n]]) := by
      rw [← List.take_append_drop (n + 1) as, htake] at hP
      exact hP.of_append
    rw [← List.take_append_drop (n + 1) as, run_append, htake, run_append] at hrun
    obtain ⟨v, hv, -⟩ := Option.bind_eq_some_iff.1 hrun
    have hnext : t.run s (as.take (n + 1)) = some v := by rw [htake, run_append, hv]
    obtain ⟨u, hu, hlast⟩ := Option.bind_eq_some_iff.1 hv
    rw [trace_eq hu, trace_eq hnext]
    obtain ⟨w, hw, hrest⟩ := Option.bind_eq_some_iff.1 (run_cons (t := t) u as[n] [] ▸ hlast)
    obtain rfl : w = v := Option.some.inj hrest
    exact ⟨as[n], hsteps.of_run_append hu, hw⟩
  · left
    rw [trace_of_le hrun hge, trace_of_le hrun (hge.trans (Nat.le_succ n))]

end Transition
