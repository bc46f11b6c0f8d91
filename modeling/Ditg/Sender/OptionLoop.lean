import Ditg.Sender.Options
import Mathlib.Tactic.IntervalCases

/-!
# The option loops end

Every turn of the loops of `flowParser` and `parserMultiFlows` leaves the program or moves by an
argument at least, with one exception in each of them: `flowParser` has no branch for the keyword
`AoM`, and `parserMultiFlows` none for arguments without a dash. They do not move then.

* `setOption_moved`, `setKeyword_moved`: by how many arguments the loop of `flowParser` moves;
* `optionLoops_consume_iff`: the loops end, and move in all their turns, if and only if they never
  come to one of these arguments.
-/

namespace Ditg

open Memory

/-! ## Keywords -/

/-- The number of a name is that of a place before the blank. -/
theorem findName_cases (s : Argument) (names : List Argument) (i : UInt8) :
    findName s i names = lxErrorByte ∨
      ∃ k < (names.takeWhile fun name => name ≠ chars " ").length,
        findName s i names = i + UInt8.ofNat k := by
  induction names generalizing i with
  | nil => exact Or.inl rfl
  | cons name names ih =>
    rw [findName]
    split_ifs with hblank hsame
    · exact Or.inl rfl
    · refine Or.inr ⟨0, ?_, (UInt8.add_zero i).symm⟩
      rw [List.takeWhile_cons, if_pos (decide_eq_true hblank), List.length_cons]
      exact Nat.succ_pos _
    · obtain h | ⟨k, hk, h⟩ := ih (i + 1)
      · exact Or.inl h
      · refine Or.inr ⟨k + 1, ?_, ?_⟩
        · rw [List.takeWhile_cons, if_pos (decide_eq_true hblank), List.length_cons]
          exact Nat.succ_lt_succ hk
        · rw [h, UInt8.add_assoc, UInt8.ofNat_add, UInt8.add_comm 1]
          rfl

/-- The keywords have the numbers from 1 to 7. -/
theorem findL7Proto_cases (arg : Argument) :
    findL7Proto arg = lxErrorByte ∨ ∃ k < 7, findL7Proto arg = 1 + UInt8.ofNat k := by
  have hlength : (l7Protocols.tail.takeWhile fun name => name ≠ chars " ").length = 7 := by decide
  exact hlength ▸ findName_cases arg l7Protocols.tail 1

/-- `L7_PROTO_AOM`. -/
def l7ProtoAoM : UInt8 := 4

/-- The loop of `flowParser` is at the keyword `AoM`. -/
def AtAoM : List Argument → Prop
  | [] => False
  | arg :: _ => arg.char 0 ≠ '-' ∧ findL7Proto arg = l7ProtoAoM

instance : DecidablePred AtAoM
  | [] => inferInstanceAs (Decidable False)
  | _ :: _ => inferInstanceAs (Decidable (_ ∧ _))

/-- A loop is at an argument without a dash. -/
def AtNoDash : List Argument → Prop
  | [] => False
  | arg :: _ => arg.char 0 ≠ '-'

instance : DecidablePred AtNoDash
  | [] => inferInstanceAs (Decidable False)
  | _ :: _ => inferInstanceAs (Decidable (¬_))

/-! ## Moves -/

section Moves

variable {F : Type} {env : OptionEnv F} {s s' : OptionState F} {args : List Argument} {n : ℕ}

theorem oneArgument_moved {failed : ParserExit}
    {set : Argument → Except ParserExit (OptionState F)}
    (h : oneArgument failed set args = .ok (s', n)) : n = 2 := by
  cases args with
  | nil => cases h
  | cons x args =>
    obtain ⟨s, -, h⟩ := Loop.map_eq_ok.1 h
    cases h
    rfl

theorem setDistribution_moved {failed : ParserExit} {reader : DistroReader F}
    {set : Distribution F → OptionState F}
    (h : setDistribution failed reader set args = .ok (s', n)) : n = reader.arity + 1 := by
  rw [setDistribution] at h
  split at h
  · cases h
  · cases h
    rfl

theorem setLog_moved {fid : ℤ} {target target' : LogTarget}
    (h : env.setLog fid target args = .ok (target', n)) : 1 ≤ n := by
  cases args with
  | nil =>
    cases h
    exact Nat.le_refl 1
  | cons x args =>
    rw [OptionEnv.setLog] at h
    split_ifs at h
    · obtain ⟨target₁, -, h⟩ := Loop.bind_eq_ok.1 h
      split at h
      · cases h
        omega
      · split_ifs at h
        · obtain ⟨target₂, -, h⟩ := Loop.bind_eq_ok.1 h
          cases h
          omega
        · cases h
          omega
    · cases h
      exact Nat.le_refl 1

theorem optionalName_moved (otherwise : Argument) : 1 ≤ (optionalName otherwise args).2 := by
  rw [optionalName]
  split <;> omega

theorem setL4Proto_moved (h : s.setL4Proto env args = .ok (s', n)) : 1 ≤ n := by
  cases args with
  | nil => cases h
  | cons x args =>
    unfold OptionState.setL4Proto at h
    dsimp only at h
    split_ifs at h
    · split at h
      · cases h
        omega
      · split_ifs at h <;> cases h <;> omega
    · split at h
      · split_ifs at h
        obtain ⟨s₁, -, h⟩ := Loop.map_eq_ok.1 h
        cases h
        omega
      · cases h
    · cases h
      omega

variable [CDouble F] [DecidableEq F]

/-- Every option moves the loop. -/
theorem setOption_moved {name : OptionName} (h : env.setOption s args name = .ok (s', n)) :
    1 ≤ n := by
  have hone : ∀ {failed set}, oneArgument failed set args = .ok (s', n) → 1 ≤ n := fun h => by
    rw [oneArgument_moved h]
    omega
  cases name with
  | p | a | rp | rk | f | t | z | k | d | b | j | s | sp | sk | Fp | Fs | Ft | Ssa | Ssp | Sda
  | Sdp => exact hone h
  | poll | D | H =>
    cases h
    exact Nat.le_refl 1
  | m =>
    obtain ⟨s₁, -, h⟩ := Loop.map_eq_ok.1 h
    cases h
    omega
  | i | sa =>
    rw [OptionEnv.setOption] at h
    split_ifs at h
    exact hone h
  | L | X =>
    rw [OptionEnv.setOption] at h
    split_ifs at h
    obtain ⟨⟨target, moved⟩, hlog, h⟩ := Loop.map_eq_ok.1 h
    cases h
    exact setLog_moved hlog
  | l | x =>
    rw [OptionEnv.setOption] at h
    split_ifs at h
    cases h
    exact optionalName_moved _
  | q =>
    rw [OptionEnv.setOption] at h
    split at h <;> cases h <;> omega
  | T => exact setL4Proto_moved h
  | intArriv letter | pktSize letter =>
    rw [setDistribution_moved h]
    omega
  | B =>
    rw [OptionEnv.setOption] at h
    split_ifs at h
    obtain ⟨⟨OnPeriod, OffPeriod, rest⟩, -, h⟩ := Loop.map_eq_ok.1 h
    cases h
    omega
  | Si =>
    obtain ⟨⟨s₁, moved⟩, -, h⟩ := Loop.map_eq_ok.1 h
    cases h
    omega

omit [DecidableEq F] in
/-- A keyword moves the loop, with one exception. -/
theorem setKeyword_moved {arg : Argument} (haom : findL7Proto arg ≠ l7ProtoAoM)
    (h : env.setKeyword s arg args = .ok (s', n)) : 1 ≤ n := by
  rw [OptionEnv.setKeyword] at h
  split at h
  next =>
    cases h
    exact Nat.le_refl 1
  next =>
    obtain ⟨traffic, -, h⟩ := Loop.map_eq_ok.1 h
    cases h
    omega
  next =>
    cases h
    exact Nat.le_refl 1
  next =>
    cases h
    exact Nat.le_refl 1
  next =>
    cases h
    exact Nat.le_refl 1
  next =>
    cases h
    exact Nat.le_refl 1
  next => cases h
  next h1 h2 h3 h5 h6 h7 h255 =>
    obtain hnone | ⟨k, hk, hproto⟩ := findL7Proto_cases arg
    · exact absurd hnone h255
    · rw [hproto] at haom h1 h2 h3 h5 h6 h7
      interval_cases k
      · exact absurd rfl h1
      · exact absurd rfl h2
      · exact absurd rfl h3
      · exact absurd rfl haom
      · exact absurd rfl h5
      · exact absurd rfl h6
      · exact absurd rfl h7

/-- A turn moves the loop, unless it is at `AoM`. -/
theorem turn_moved {argv : List Argument} (hargv : argv ≠ []) (haom : ¬AtAoM argv)
    (h : env.turn s argv = .ok (s', n)) : 1 ≤ n := by
  cases argv with
  | nil => exact absurd rfl hargv
  | cons arg args =>
    rw [OptionEnv.turn] at h
    split_ifs at h with hdash
    · obtain ⟨name, -, h⟩ := Loop.bind_eq_ok.1 h
      exact setOption_moved h
    · exact setKeyword_moved (fun hproto => haom ⟨hdash, hproto⟩) h

/-- There, only the number of the keyword is stored. -/
theorem turn_aom {argv : List Argument} (h : AtAoM argv) :
    env.turn s argv = .ok (s.setFlow { s.flow with l7Proto := l7ProtoAoM }, 0) := by
  cases argv with
  | nil => cases h
  | cons arg args =>
    obtain ⟨hdash, hproto⟩ := h
    rw [OptionEnv.turn, if_neg hdash, OptionEnv.setKeyword, hproto]
    rfl

omit [CDouble F] [DecidableEq F] in
/-- A turn of the other loop moves it, unless it is at an argument without a dash. -/
theorem multiTurn_moved {g g' : OptionGlobals} {argv : List Argument} (hargv : argv ≠ [])
    (hdash : ¬AtNoDash argv) (h : env.multiTurn g argv = .ok (g', n)) : 1 ≤ n := by
  cases argv with
  | nil => exact absurd rfl hargv
  | cons arg args =>
    unfold OptionEnv.multiTurn at h
    dsimp only at h
    rw [if_pos (not_not.1 hdash)] at h
    split at h
    next => cases h
    next =>
      split at h
      · cases h
        exact Nat.le_refl 1
      · split_ifs at h <;> cases h <;> omega
    next =>
      cases h
      exact optionalName_moved _
    next =>
      obtain ⟨⟨target, moved⟩, hlog, h⟩ := Loop.map_eq_ok.1 h
      cases h
      exact setLog_moved hlog
    next =>
      obtain ⟨⟨target, moved⟩, hlog, h⟩ := Loop.map_eq_ok.1 h
      cases h
      exact setLog_moved hlog
    next =>
      cases h
      exact optionalName_moved _
    next => cases h

omit [CDouble F] [DecidableEq F] in
theorem multiTurn_noDash {g : OptionGlobals} {argv : List Argument} (h : AtNoDash argv) :
    env.multiTurn g argv = .ok (g, 0) := by
  cases argv with
  | nil => cases h
  | cons arg args =>
    unfold OptionEnv.multiTurn
    exact if_neg h

end Moves

/-! ## Ends -/

section Ends

variable {F : Type} [CDouble F] [DecidableEq F] (env : OptionEnv F)

/-- At `AoM`, the loop stays. -/
theorem flowParserLoop_stays (st : OptionState F × List Argument)
    (hgoes : env.flowParserLoop.goesOn st) (haom : AtAoM st.2) :
    ∃ st', env.flowParserLoop.body st = .ok st' ∧ env.flowParserLoop.goesOn st' ∧ AtAoM st'.2 :=
  ⟨_, congrArg (Except.map _) (turn_aom haom), hgoes, haom⟩

theorem flowParserLoop_consumes {st : OptionState F × List Argument} :
    env.flowParserLoop.Consumes st ↔
      ∀ st', env.flowParserLoop.Reaches st st' → ¬AtAoM st'.2 := by
  rw [Loop.consumes_iff fun st => AtAoM st.2]
  · refine forall₂_congr fun st' _ => ⟨fun h haom => ?_, fun h _ => h⟩
    refine h ?_ haom
    rintro hnil
    rw [hnil] at haom
    cases haom
  · intro st hgoes haom st' hbody
    obtain ⟨⟨s', n⟩, hturn, rfl⟩ := Loop.map_eq_ok.1 hbody
    have hmoved := turn_moved hgoes haom hturn
    have hpos := List.length_pos_of_ne_nil hgoes
    rw [List.length_drop]
    omega
  · exact flowParserLoop_stays env

theorem multiFlowsLoop_consumes {F : Type} (env : OptionEnv F)
    {st : OptionGlobals × List Argument} :
    env.multiFlowsLoop.Consumes st ↔
      ∀ st', env.multiFlowsLoop.Reaches st st' → ¬AtNoDash st'.2 := by
  rw [Loop.consumes_iff fun st => AtNoDash st.2]
  · refine forall₂_congr fun st' _ => ⟨fun h hdash => ?_, fun h _ => h⟩
    refine h ?_ hdash
    rintro hnil
    rw [hnil] at hdash
    cases hdash
  · intro st hgoes hdash st' hbody
    obtain ⟨⟨g', n⟩, hturn, rfl⟩ := Loop.map_eq_ok.1 hbody
    have hmoved := multiTurn_moved hgoes hdash hturn
    have hpos := List.length_pos_of_ne_nil hgoes
    rw [List.length_drop]
    omega
  · intro st hgoes hdash
    refine ⟨_, congrArg (Except.map _) (multiTurn_noDash hdash), hgoes, hdash⟩

/-- Both loops, on any arguments. -/
theorem optionLoops_consume_iff :
    (∀ (s : OptionState F) (argv : List Argument),
      env.flowParserLoop.Consumes (s, skipGui argv) ↔
        ∀ st, env.flowParserLoop.Reaches (s, skipGui argv) st → ¬AtAoM st.2) ∧
    ∀ (g : OptionGlobals) (argv : List Argument),
      env.multiFlowsLoop.Consumes (g, argv) ↔
        ∀ st, env.multiFlowsLoop.Reaches (g, argv) st → ¬AtNoDash st.2 :=
  ⟨fun _ _ => flowParserLoop_consumes env, fun _ _ => multiFlowsLoop_consumes env⟩

end Ends

/-- A single keyword, and an argument without a dash. -/
theorem not_optionLoops_consume :
    (¬∀ argv : List Argument, localEnv.flowParserLoop.Consumes (localState, skipGui argv)) ∧
    ¬∀ argv : List Argument, localEnv.multiFlowsLoop.Consumes (localGlobals, argv) := by
  constructor
  · intro h
    have hnever := (flowParserLoop_consumes localEnv).1 (h [chars "AoM"])
    exact hnever _ .refl (by decide)
  · intro h
    have hnever := (multiFlowsLoop_consumes localEnv).1 (h [chars "x"])
    exact hnever _ .refl (by decide)

end Ditg
