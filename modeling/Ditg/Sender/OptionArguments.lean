import Ditg.Sender.OptionLoop

/-!
# The arguments of an option

Most options of `flowParser` have a fixed number of arguments. Behind an option and its arguments,
the loop goes on as it does without them from the state that they leave.

* `setOption_append`: what follows the arguments of an option does not matter to it;
* `consumesOwn_iff`: an option takes itself and its arguments from the line, and nothing else, if
  and only if it is not `-Si`, behind which the loop moves twice.
-/

namespace Ditg

open Memory

/-! ## The model -/

/-- The number of the parameters of a distribution. -/
def DistroLetter.arity : DistroLetter → ℕ
  | .C | .E | .O => 1
  | .U | .V | .Y | .N | .G | .W => 2

/-- The number of the arguments of an option, if it is fixed. That of `-T` depends on the protocol:
    there may be a type for ICMP, and there is an association, with its number of streams, for
    SCTP. -/
def OptionName.arity : OptionName → List Argument → Option ℕ
  | .poll, _ | .D, _ | .H, _ => some 0
  | .L, _ | .X, _ | .l, _ | .x, _ | .q, _ | .B, _ => none
  | .T, args =>
    args.head?.bind fun x =>
      if findL4Proto x = l4ProtoICMP then none
      else if findL4Proto x = l4ProtoSCTP then some 3
      else some 1
  | .intArriv letter, _ | .pktSize letter, _ => some letter.arity
  | _, _ => some 1

section Append

variable {F : Type} {env : OptionEnv F} {s s' : OptionState F} {args : List Argument} {n : ℕ}

/-- A distribution is read from its parameters. -/
theorem run_append {reader : DistroReader F} {args : List Argument}
    (h : args.length = reader.arity) (ys : List Argument) :
    reader.run (args ++ ys) = reader.run args := by
  cases reader with
  | one read =>
    obtain ⟨x, rfl⟩ := List.length_eq_one_iff.1 h
    rfl
  | two read =>
    obtain ⟨x, y, rfl⟩ := List.length_eq_two.1 h
    rfl

/-! ## What follows -/

theorem oneArgument_append {failed : ParserExit}
    {set : Argument → Except ParserExit (OptionState F)} (h : args.length = 1)
    (ys : List Argument) :
    oneArgument failed set (args ++ ys) = oneArgument failed set args := by
  obtain ⟨x, rfl⟩ := List.length_eq_one_iff.1 h
  rfl

theorem setDistribution_append {failed : ParserExit} {reader : DistroReader F}
    {set : Distribution F → OptionState F} (h : args.length = reader.arity)
    (ys : List Argument) :
    setDistribution failed reader set (args ++ ys) = setDistribution failed reader set args := by
  rw [setDistribution, setDistribution, run_append h]

theorem setL4Proto_append (h : OptionName.arity .T args = some args.length)
    (ys : List Argument) : s.setL4Proto env (args ++ ys) = s.setL4Proto env args := by
  cases args with
  | nil => cases h
  | cons x args =>
    rw [OptionName.arity, List.head?_cons, Option.bind_some, List.length_cons] at h
    split_ifs at h with hicmp hsctp
    · obtain ⟨y, z, rfl⟩ := List.length_eq_two.1 (Nat.succ.inj (Option.some.inj h)).symm
      rfl
    · obtain rfl := List.length_eq_zero_iff.1 (Nat.succ.inj (Option.some.inj h)).symm
      unfold OptionState.setL4Proto
      simp only [List.cons_append, if_neg hicmp, if_neg hsctp]

theorem setL4Proto_moved_eq (h : OptionName.arity .T args = some args.length)
    (hset : s.setL4Proto env args = .ok (s', n)) : n = args.length + 1 := by
  cases args with
  | nil => cases h
  | cons x args =>
    rw [OptionName.arity, List.head?_cons, Option.bind_some, List.length_cons] at h
    unfold OptionState.setL4Proto at hset
    dsimp only at hset
    split_ifs at h with hicmp hsctp
    · obtain ⟨y, z, rfl⟩ := List.length_eq_two.1 (Nat.succ.inj (Option.some.inj h)).symm
      simp only [if_neg hicmp, if_pos hsctp] at hset
      split_ifs at hset
      obtain ⟨s₁, -, hset⟩ := Loop.map_eq_ok.1 hset
      cases hset
      rfl
    · obtain rfl := List.length_eq_zero_iff.1 (Nat.succ.inj (Option.some.inj h)).symm
      simp only [if_neg hicmp, if_neg hsctp] at hset
      split_ifs at hset
      cases hset
      rfl

variable [CDouble F] [DecidableEq F] {name : OptionName}

theorem intArriv_arity (strtod : Argument → F) (letter : DistroLetter) :
    (intArriv strtod letter).arity = letter.arity := by
  cases letter <;> rfl

theorem pktSize_arity (strtod : Argument → F) (letter : DistroLetter) :
    (pktSize strtod letter).arity = letter.arity := by
  cases letter <;> rfl

/-- An option with all its arguments. -/
theorem setOption_append (h : name.arity args = some args.length) (ys : List Argument) :
    env.setOption s (args ++ ys) name = env.setOption s args name := by
  have hone : some 1 = some args.length → ∀ failed set,
      oneArgument (F := F) failed set (args ++ ys) = oneArgument failed set args :=
    fun h failed set => oneArgument_append (Option.some.inj h).symm ys
  cases name with
  | p | a | rp | rk | f | t | z | k | d | b | j | s | sp | sk | Fp | Fs | Ft | Ssa | Ssp | Sda
  | Sdp => exact hone h _ _
  | poll | D | H => rfl
  | L | X | l | x | q | B => cases h
  | m =>
    obtain ⟨x, rfl⟩ := List.length_eq_one_iff.1 (Option.some.inj h).symm
    rfl
  | i | sa =>
    rw [OptionEnv.setOption, OptionEnv.setOption, hone h]
  | T => exact setL4Proto_append h ys
  | intArriv letter =>
    refine setDistribution_append ?_ ys
    rw [intArriv_arity]
    exact (Option.some.inj h).symm
  | pktSize letter =>
    refine setDistribution_append ?_ ys
    rw [pktSize_arity]
    exact (Option.some.inj h).symm
  | Si =>
    rw [OptionEnv.setOption, OptionEnv.setOption, hone h]

/-- The loop moves by the option and its arguments. -/
theorem setOption_moved_eq (h : name.arity args = some args.length) (hSi : name ≠ .Si)
    (hset : env.setOption s args name = .ok (s', n)) : n = args.length + 1 := by
  have hone : some 1 = some args.length → ∀ {failed set},
      oneArgument failed set args = .ok (s', n) → n = args.length + 1 := fun h _ _ hset => by
    rw [oneArgument_moved hset, ← Option.some.inj h]
  cases name with
  | p | a | rp | rk | f | t | z | k | d | b | j | s | sp | sk | Fp | Fs | Ft | Ssa | Ssp | Sda
  | Sdp => exact hone h hset
  | poll | D | H =>
    cases hset
    rw [← Option.some.inj h]
  | L | X | l | x | q | B => cases h
  | m =>
    obtain ⟨s₁, -, hset⟩ := Loop.map_eq_ok.1 hset
    cases hset
    rw [← Option.some.inj h]
  | i | sa =>
    rw [OptionEnv.setOption] at hset
    split_ifs at hset
    exact hone h hset
  | T => exact setL4Proto_moved_eq h hset
  | intArriv letter =>
    rw [setDistribution_moved hset, intArriv_arity, ← Option.some.inj h]
  | pktSize letter =>
    rw [setDistribution_moved hset, pktSize_arity, ← Option.some.inj h]
  | Si => exact absurd rfl hSi

/-- Behind the option and its arguments, the loop goes on from the state that they leave, as if
    they had not been there. -/
structure OptionEnv.ConsumesOwn (env : OptionEnv F) (s : OptionState F) (opt : Argument)
    (args : List Argument) (s' : OptionState F) : Prop where
  moved : ∀ ys, env.turn s (opt :: (args ++ ys)) = .ok (s', args.length + 1)
  returns : ∀ ys r,
    env.flowParserLoop.Returns (s, opt :: (args ++ ys)) r ↔ env.flowParserLoop.Returns (s', ys) r

/-- What the turn at an option does. -/
theorem turn_option {opt : Argument} (hdash : opt.char 0 = '-')
    (hname : env.optionName opt = .ok name) :
    env.turn s (opt :: args) = env.setOption s args name := by
  rw [OptionEnv.turn, if_pos hdash, hname]
  rfl

/-- A turn that takes the option and its arguments. -/
theorem consumesOwn_of_moved {opt : Argument}
    (h : ∀ ys, env.turn s (opt :: (args ++ ys)) = .ok (s', args.length + 1)) :
    env.ConsumesOwn s opt args s' := by
  refine ⟨h, fun ys r => Loop.Returns.iff_body (List.cons_ne_nil _ _) ?_⟩
  refine (congrArg (Except.map _) (h ys)).trans ?_
  simp only [Except.map, List.drop_succ_cons, List.drop_left]

/-- The loop leaves the program at an argument that does not exist. -/
theorem returns_unknown (env : OptionEnv F) (s : OptionState F) {r} :
    env.flowParserLoop.Returns (s, [chars "x"]) r ↔ r = .error (env.whatIs (chars "x")) := by
  refine Loop.returns_iff_of_error (List.cons_ne_nil _ _) ?_
  rfl

/-- Behind `-Si` and its argument, the loop does not look at an argument that does not exist. -/
theorem returns_Si {opt x : Argument} (hdash : opt.char 0 = '-')
    (hname : env.optionName opt = .ok .Si) :
    env.flowParserLoop.Returns (s, [opt, x, chars "x"])
      (.ok (s.setFlow { s.flow with SigInterface := some x }, [])) := by
  have hbody : env.flowParserLoop.body (s, [opt, x, chars "x"]) =
      .ok (s.setFlow { s.flow with SigInterface := some x }, []) :=
    congrArg (Except.map _) (turn_option hdash hname)
  rw [Loop.Returns.iff_body (List.cons_ne_nil _ _) hbody]
  exact (Loop.returns_iff_of_not_goesOn (not_not.2 rfl)).2 rfl

/-- All options with a fixed number of arguments, with arguments that are valid. -/
theorem consumesOwn_iff {opt : Argument} (hdash : opt.char 0 = '-')
    (hname : env.optionName opt = .ok name) (harity : name.arity args = some args.length)
    (hvalid : env.turn s (opt :: args) = .ok (s', n)) :
    env.ConsumesOwn s opt args s' ↔ name ≠ .Si := by
  rw [turn_option hdash hname] at hvalid
  constructor
  · rintro h rfl
    obtain ⟨x, rfl⟩ := List.length_eq_one_iff.1 (Option.some.inj harity).symm
    cases hvalid
    have hrest := (h.returns [chars "x"] _).1 (returns_Si hdash hname)
    cases (returns_unknown env _).1 hrest
  · intro hSi
    refine consumesOwn_of_moved fun ys => ?_
    rw [turn_option hdash hname, setOption_append harity, hvalid,
      setOption_moved_eq harity hSi hvalid]

end Append

/-- `-d`, with a delay. -/
theorem consumesOwn_delay :
    localEnv.ConsumesOwn localState (chars "-d") [chars "5"] { localState with Delay := 5 } := by
  have hname : localEnv.optionName (chars "-d") = .ok .d := rfl
  exact (consumesOwn_iff (n := 2) (by decide) hname rfl rfl).2 nofun

/-- `-Si`, with an interface. -/
theorem not_consumesOwn : ¬∀ (opt : Argument) (args : List Argument) (name : OptionName),
    opt.char 0 = '-' → localEnv.optionName opt = .ok name → name.arity args = some args.length →
    ∀ s' n, localEnv.turn localState (opt :: args) = .ok (s', n) →
      ∀ ys r, localEnv.flowParserLoop.Returns (localState, opt :: (args ++ ys)) r ↔
        localEnv.flowParserLoop.Returns (s', ys) r := by
  intro h
  have hSi : localEnv.flowParserLoop.Returns
      (localState, [chars "-Si", chars "eth0", chars "x"]) _ := returns_Si (by decide) rfl
  have hrest := (h (chars "-Si") [chars "eth0"] .Si (by decide) rfl rfl _ _ rfl [chars "x"] _).1 hSi
  cases (returns_unknown localEnv _).1 hrest

end Ditg
