import Ditg.Library.Tokens

/-!
# The arguments of a flow

`flowParser` takes the options of its flow from a line, whatever the mode: one of a script, or one
that the manager sends, whose tokens are separated by blanks, or the arguments of the command line,
which `argvToString` puts into a line with a `^` before, between and behind them.

* `cstr_argvToString`: that line;
* `flowTokens_argvToString`: the tokens of it are the arguments.
-/

namespace Ditg

open Memory Tokens

/-! ## The model -/

/-- `MAX_FLOW_LINE_SIZE`. -/
def maxFlowLineSize : ℕ := 1460

/-- The end of a line. -/
def newline : UInt8 := 10

/-- `argvToString`. -/
def argvToString (argv : List (List UInt8)) (line : CharArray maxFlowLineSize) :
    CharArray maxFlowLineSize :=
  let line := strcpy line (chars "^")
  let line := argv.foldl (fun line arg => strcat (strcat line arg) (chars "^")) line
  strcat line (chars "\n")

/-- The newline at the end of a line becomes a NUL. A line that does not end with one is an
    error. -/
def stripNewline (line : List UInt8) : Option (List UInt8) :=
  if (line)[(cstr line).length - 1]? = some newline then some (line.set ((cstr line).length - 1) 0)
  else none

/-- The tokens of a line, as `flowParser` stores them in `argv`. There is no result, either, if
    there are too many of them for the array. -/
def flowTokens (cmdMode : Bool) (line : List UInt8) : Option (List (List UInt8)) :=
  (stripNewline line).bind fun line =>
    (tokens (chars (if cmdMode then "^" else " ")) 200 line 0).map fun r => r.2.map (strAt r.1)

/-! ## The line -/

/-- A character that no argument has. -/
def hat : UInt8 := 94

theorem chars_hat : chars "^" = [hat] := by decide

/-- The arguments, each with a `^` behind it. -/
def joinArgs (argv : List (List UInt8)) : List UInt8 := argv.flatMap (· ++ [hat])

section Line

variable {argv : List (List UInt8)} (line : CharArray maxFlowLineSize)

theorem cstr_foldl_strcat (hnul : ∀ arg ∈ argv, (0 : UInt8) ∉ arg)
    (hfits : (cstr line.toList).length + (joinArgs argv).length < maxFlowLineSize) :
    cstr (argv.foldl (fun line arg => strcat (strcat line arg) (chars "^")) line).toList =
      cstr line.toList ++ joinArgs argv := by
  induction argv generalizing line with
  | nil => exact (List.append_nil _).symm
  | cons arg argv ih =>
    rw [List.forall_mem_cons] at hnul
    rw [joinArgs, List.flatMap_cons, ← joinArgs, List.length_append, List.length_append,
      List.length_singleton] at hfits
    have harg : cstr arg = arg := cstr_of_notMem hnul.1
    have hhat : cstr (chars "^") = [hat] := by decide
    have hone : cstr (strcat line arg).toList = cstr line.toList ++ arg := by
      rw [cstr_strcat _ (by rw [harg]; omega), harg]
    have htwo : cstr (strcat (strcat line arg) (chars "^")).toList =
        cstr line.toList ++ (arg ++ [hat]) := by
      rw [cstr_strcat _ (by rw [hone, hhat, List.length_append, List.length_singleton]; omega),
        hone, hhat, List.append_assoc]
    rw [List.foldl_cons, ih _ hnul.2, htwo, joinArgs, joinArgs, List.flatMap_cons,
      List.append_assoc]
    rw [htwo, List.length_append, List.length_append, List.length_singleton]
    omega

/-- The line of the arguments, if it has room for them, the first `^`, the newline and the NUL. -/
theorem cstr_argvToString (hnul : ∀ arg ∈ argv, (0 : UInt8) ∉ arg)
    (hfits : (joinArgs argv).length + 3 ≤ maxFlowLineSize) :
    cstr (argvToString argv line).toList = hat :: joinArgs argv ++ [newline] := by
  have hhat : cstr (chars "^") = [hat] := by decide
  have hnewline : cstr (chars "\n") = [newline] := by decide
  have hfirst : cstr (strcpy line (chars "^")).toList = [hat] := by
    rw [cstr_strcpy _ (by decide), hhat]
  have hargs := cstr_foldl_strcat (strcpy line (chars "^")) hnul
    (by rw [hfirst, List.length_singleton]; omega)
  rw [hfirst] at hargs
  rw [argvToString, cstr_strcat, hargs, hnewline]
  · rfl
  · rw [hargs, hnewline, List.length_append, List.length_singleton, List.length_singleton]
    omega

/-- Its newline is removed. -/
theorem stripNewline_append {s : List UInt8} (hs : (0 : UInt8) ∉ s) (rest : List UInt8) :
    stripNewline (s ++ [newline] ++ 0 :: rest) = some (s ++ 0 :: 0 :: rest) := by
  have hcstr : cstr (s ++ [newline] ++ 0 :: rest) = s ++ [newline] :=
    cstr_append_nul (by simpa [newline] using hs) rest
  have hlast : (cstr (s ++ [newline] ++ 0 :: rest)).length - 1 = s.length := by
    rw [hcstr, List.length_append, List.length_singleton, Nat.add_sub_cancel]
  have hread : (s ++ [newline] ++ 0 :: rest)[s.length]? = some newline := by
    rw [List.append_assoc, List.getElem?_append_right le_rfl, Nat.sub_self]
    rfl
  rw [stripNewline, hlast, if_pos hread, List.append_assoc, List.set_append_right _ _ le_rfl,
    Nat.sub_self]
  rfl

end Line

/-! ## The tokens -/

/-- The tokens of the line are the arguments, whatever else is in them. -/
theorem flowTokens_argvToString {argv : List (List UInt8)} (hlen : argv.length ≤ 200)
    (hargs : ∀ arg ∈ argv, arg ≠ [] ∧ (0 : UInt8) ∉ arg ∧ hat ∉ arg)
    (hfits : (joinArgs argv).length + 3 ≤ maxFlowLineSize) (line : CharArray maxFlowLineSize) :
    flowTokens true (argvToString argv line).toList = some argv := by
  have hline := cstr_argvToString line (fun arg h => (hargs arg h).2.1) hfits
  have hnul : (0 : UInt8) ∉ hat :: joinArgs argv := by
    rw [joinArgs, List.mem_cons, List.mem_flatMap]
    rintro (h | ⟨arg, harg, h⟩)
    · exact absurd h (by decide)
    · rw [List.mem_append, List.mem_singleton] at h
      exact h.elim (hargs arg harg).2.1 (by decide)
  have hpieces : pieces (· ∈ [hat]) (hat :: joinArgs argv) = argv := by
    refine pieces_flatMap (by decide) fun arg h => ⟨(hargs arg h).1, fun c hc => ?_⟩
    have hne : c ≠ hat := fun heq => (hargs arg h).2.2 (heq ▸ hc)
    simpa using hne
  obtain ⟨rest, hrest⟩ := exists_toList_eq_cstr_append (a := argvToString argv line) (by
    rw [hline, List.length_append, List.length_cons, List.length_singleton]
    omega)
  have hdelim : (0 : UInt8) ∉ [hat] := by decide
  obtain ⟨mem, offs, -, hoffs, hrun⟩ := tokens_eq [] (0 :: rest) hdelim hnul (hpieces.symm ▸ hlen)
  rw [hpieces] at hoffs
  rw [flowTokens, hrest, hline, stripNewline_append hnul, Option.bind_some, if_pos rfl, chars_hat]
  rw [List.nil_append, List.length_nil] at hrun
  rw [hrun, Option.map_some, hoffs]

/-- An argument with a blank and a newline. -/
theorem flowTokens_argvToString_blank :
    flowTokens true (argvToString [chars "-L", chars "a b\n"] (charArray _ [])).toList =
      some [chars "-L", chars "a b\n"] :=
  flowTokens_argvToString (by decide) (by decide) (by decide) _

end Ditg
