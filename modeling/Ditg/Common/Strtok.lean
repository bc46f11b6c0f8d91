import Ditg.Library.Tokens

/-!
# `strtok_r` of the Windows build

There is no `strtok_r` on Windows, so the code has one of its own. It keeps between its calls where
the next one goes on, or NULL behind the last token.

* `strtokCalls_pieces`: however often it is called for a string, its results are the pieces of the
  string, and then NULL, and it reads nothing behind the string.
-/

namespace Ditg

open Memory
open Tokens (AllPieces behind behind_behind exists_pieces strAt strAt_append)

/-! ## The model -/

/-- Whether a loop over a string has been left before its NUL, at which address, and what it has
    read. -/
structure StringScan where
  found : Bool
  stop : ℕ
  reads : List ℕ
  deriving DecidableEq

/-- A loop over the bytes from the address `a` on, up to the NUL. It has no result if it reads
    behind the memory. -/
def scanString (leaves : UInt8 → Bool) : ℕ → List UInt8 → Option StringScan
  | _, [] => none
  | a, c :: bytes =>
    if c = 0 then some { found := false, stop := a, reads := [a] }
    else if leaves c then some { found := true, stop := a, reads := [a] }
    else (scanString leaves (a + 1) bytes).map fun scan => { scan with reads := a :: scan.reads }

variable (delim : List UInt8)

/-- The first loop, which is left at a character that is no delimiter. It compares the character
    with all delimiters. -/
def findToken : ℕ → List UInt8 → Option StringScan :=
  scanString fun c => !delim.foldl (fun found_delim d => if c = d then true else found_delim) false

/-- The second loop, which is left at a delimiter. It compares the character with the delimiters up
    to that one. -/
def findDelim : ℕ → List UInt8 → Option StringScan := scanString fun c => delim.any (c = ·)

/-- A call: the memory behind it, what it returns, what it stores in `*saveptr`, and the addresses
    of the string that it has read. -/
structure StrtokCall where
  mem : List UInt8
  token : Option ℕ
  saveptr : Option ℕ
  reads : List ℕ
  deriving DecidableEq

/-- `strtok_r`. Pointers are addresses in `mem`, or NULL. -/
def strtokR (mem : List UInt8) (string saveptr : Option ℕ) : Option StrtokCall :=
  match string.or saveptr with
  | none => some { mem, token := none, saveptr, reads := [] }
  | some string => do
    let c ← mem[string]?
    if c = 0 then return { mem, token := none, saveptr := none, reads := [string] }
    else if delim = [] then return { mem, token := some string, saveptr, reads := [string] }
    else
      let first ← findToken delim string (mem.drop string)
      if first.found then
        let string' := first.stop
        let second ← findDelim delim string' (mem.drop string')
        let reads := string :: first.reads ++ second.reads
        if second.found then
          return {
            mem := mem.set second.stop 0
            token := some string'
            saveptr := some (second.stop + 1)
            reads }
        else return { mem, token := some string', saveptr := none, reads }
      else return { mem, token := none, saveptr := none, reads := string :: first.reads }

/-- `n` calls in a row, with NULL for the string from the second one on. -/
def strtokCalls : ℕ → List UInt8 → Option ℕ → Option ℕ → Option (List StrtokCall)
  | 0, _, _, _ => some []
  | n + 1, mem, string, saveptr => do
    let call ← strtokR delim mem string saveptr
    let calls ← strtokCalls n call.mem none call.saveptr
    return call :: calls

/-- The token that is returned, with its address. -/
def StrtokCall.found (call : StrtokCall) : Option (ℕ × List UInt8) :=
  call.token.map fun token => (token, strAt call.mem token)

/-! ## The loops -/

/-- A loop over `bs`, which is left at the character behind it. -/
theorem scanString_append {leaves : UInt8 → Bool} {bs : List UInt8}
    (h : ∀ c ∈ bs, c ≠ 0 ∧ leaves c = false) {c : UInt8} (hc : c = 0 ∨ leaves c = true) (a : ℕ)
    (rest : List UInt8) :
    scanString leaves a (bs ++ c :: rest) =
      some {
        found := c ≠ 0
        stop := a + bs.length
        reads := List.range' a (bs.length + 1) } := by
  induction bs generalizing a with
  | nil =>
    rw [List.nil_append, scanString]
    by_cases h0 : c = 0
    · rw [if_pos h0]
      simp [h0]
    · rw [if_neg h0, if_pos (hc.resolve_left h0)]
      simp [h0]
  | cons b bs ih =>
    obtain ⟨⟨hb0, hb⟩, hbs⟩ := List.forall_mem_cons.1 h
    rw [List.cons_append, scanString, if_neg hb0, if_neg (by rw [hb]; exact Bool.false_ne_true),
      ih hbs, Option.map_some, List.length_cons, Nat.add_right_comm a, List.range'_succ]
    rfl

section Calls

variable {delim : List UInt8} {c : UInt8} {bs : List UInt8} (a : ℕ) (rest : List UInt8)

theorem foldl_foundDelim (c : UInt8) (found : Bool) :
    delim.foldl (fun found_delim d => if c = d then true else found_delim) found =
      (found || decide (c ∈ delim)) := by
  induction delim generalizing found with
  | nil => simp
  | cons d delim ih =>
    rw [List.foldl_cons, ih]
    by_cases hcd : c = d <;> simp [hcd]

/-- Delimiters, up to the NUL or to a character that is none. -/
theorem findToken_append (h0 : (0 : UInt8) ∉ delim) (hbs : ∀ c ∈ bs, c ∈ delim)
    (hc : c ∉ delim) :
    findToken delim a (bs ++ c :: rest) =
      some {
        found := c ≠ 0
        stop := a + bs.length
        reads := List.range' a (bs.length + 1) } := by
  refine scanString_append (fun b hb => ⟨fun h => h0 (h ▸ hbs b hb), ?_⟩) (Or.inr ?_) a rest
  · rw [foldl_foundDelim, decide_eq_true (hbs b hb)]
    rfl
  · rw [foldl_foundDelim, decide_eq_false hc]
    rfl

/-- A token, up to the NUL or to a delimiter. -/
theorem findDelim_append (hbs : ∀ c ∈ bs, c ≠ 0 ∧ c ∉ delim) (hc : c = 0 ∨ c ∈ delim) :
    findDelim delim a (bs ++ c :: rest) =
      some {
        found := c ≠ 0
        stop := a + bs.length
        reads := List.range' a (bs.length + 1) } := by
  refine scanString_append (fun b hb => ⟨(hbs b hb).1, ?_⟩) (hc.imp_right fun hc => ?_) a rest
  · refine List.any_eq_false.2 fun d hd heq => (hbs b hb).2 ?_
    exact of_decide_eq_true heq ▸ hd
  · exact List.any_eq_true.2 ⟨c, hc, decide_eq_true rfl⟩

end Calls

/-! ## A call -/

section Calls

variable {delim : List UInt8} (hdelim : delim ≠ []) (h0 : (0 : UInt8) ∉ delim)
  {pre ds t : List UInt8} (post : List UInt8) {string saveptr : Option ℕ}
  (hstring : string.or saveptr = some pre.length) (hds : ∀ d ∈ ds, d ∈ delim)

include hdelim h0 hstring hds

/-- A tail of delimiters has no token. -/
theorem strtokR_none :
    ∃ reads, strtokR delim (pre ++ ds ++ 0 :: post) string saveptr =
        some { mem := pre ++ ds ++ 0 :: post, token := none, saveptr := none, reads } ∧
      ∀ a ∈ reads, pre.length ≤ a ∧ a ≤ (pre ++ ds).length := by
  have hdrop : (pre ++ ds ++ 0 :: post).drop pre.length = ds ++ 0 :: post := by
    rw [List.append_assoc, List.drop_left]
  have hfirst : (pre ++ ds ++ 0 :: post)[pre.length]? = (ds ++ 0 :: post)[0]? := by
    rw [List.append_assoc, List.getElem?_append_right le_rfl, Nat.sub_self]
  rw [strtokR, hstring]
  dsimp only
  rw [hfirst, hdrop, findToken_append _ _ h0 hds h0]
  cases ds with
  | nil =>
    refine ⟨_, rfl, fun a ha => ?_⟩
    obtain rfl := List.mem_singleton.1 ha
    exact ⟨le_rfl, by rw [List.append_nil]⟩
  | cons d ds =>
    have hd : d ≠ 0 := fun h => h0 (h ▸ hds d List.mem_cons_self)
    have hcons : (d :: ds ++ 0 :: post)[0]? = some d := rfl
    rw [hcons]
    simp only [Option.bind_eq_bind, Option.bind_some, if_neg hd, if_neg hdelim]
    refine ⟨_, rfl, fun a ha => ?_⟩
    rw [List.mem_cons, List.mem_range'_1] at ha
    rw [List.length_append]
    omega

/-- A token, which ends at `c`. -/
theorem strtokR_some (ht : t ≠ []) (htoken : ∀ c ∈ t, c ≠ 0 ∧ c ∉ delim) {c : UInt8}
    (hc : c = 0 ∨ c ∈ delim) :
    ∃ reads, strtokR delim (pre ++ ds ++ t ++ c :: post) string saveptr =
        some {
          mem := pre ++ ds ++ t ++ 0 :: post
          token := some (pre ++ ds).length
          saveptr := if c = 0 then none else some ((pre ++ ds ++ t).length + 1)
          reads } ∧
      ∀ a ∈ reads, pre.length ≤ a ∧ a ≤ (pre ++ ds ++ t).length := by
  obtain ⟨b, t, rfl⟩ := List.exists_cons_of_ne_nil ht
  obtain ⟨hb0, hb⟩ := htoken b List.mem_cons_self
  have hdrop : (pre ++ ds ++ b :: t ++ c :: post).drop pre.length =
      ds ++ b :: (t ++ c :: post) := by
    rw [List.append_assoc, List.append_assoc, List.drop_left, List.cons_append]
  have hdrop' : (pre ++ ds ++ b :: t ++ c :: post).drop (pre ++ ds).length =
      b :: t ++ c :: post := by
    rw [List.append_assoc, List.drop_left]
  obtain ⟨d, hfirst, hd⟩ : ∃ d, (pre ++ ds ++ b :: t ++ c :: post)[pre.length]? = some d ∧
      d ≠ 0 := by
    rw [List.append_assoc, List.append_assoc, List.getElem?_append_right le_rfl, Nat.sub_self]
    cases ds with
    | nil => exact ⟨b, rfl, hb0⟩
    | cons d ds => exact ⟨d, rfl, fun h => h0 (h ▸ hds d List.mem_cons_self)⟩
  have hset : (pre ++ ds ++ b :: t ++ c :: post).set (pre ++ ds ++ b :: t).length 0 =
      pre ++ ds ++ b :: t ++ 0 :: post := by
    rw [List.set_append_right _ _ le_rfl, Nat.sub_self]
    rfl
  rw [strtokR, hstring]
  dsimp only
  rw [hfirst, hdrop, findToken_append _ _ h0 hds hb]
  simp only [Option.bind_eq_bind, Option.bind_some, if_neg hd, if_neg hdelim, ne_eq, hb0,
    not_false_eq_true, decide_true, if_true]
  rw [← List.length_append, hdrop', findDelim_append _ _ htoken hc, Option.bind_some]
  have hreads : ∀ a ∈ pre.length :: List.range' pre.length (ds.length + 1) ++
      List.range' (pre ++ ds).length ((b :: t).length + 1),
      pre.length ≤ a ∧ a ≤ (pre ++ ds ++ b :: t).length := by
    intro a ha
    simp only [List.mem_append, List.mem_cons, List.mem_range'_1, List.length_append] at ha ⊢
    omega
  refine ⟨_, ?_, hreads⟩
  by_cases hc0 : c = 0
  · rw [if_pos hc0, hc0]
    rfl
  · simp only [ne_eq, hc0, not_false_eq_true, decide_true, if_true, if_false]
    rw [← List.length_append, hset]
    rfl

/-- A token with more of the string behind it. The rest is a string of its own then. -/
theorem strtokR_cut (ht : t ≠ []) (htoken : ∀ c ∈ t, c ≠ 0 ∧ c ∉ delim) {d : UInt8}
    (hd : d ∈ delim) (rest : List UInt8) :
    ∃ reads, strtokR delim (pre ++ (ds ++ t ++ d :: rest) ++ 0 :: post) string saveptr =
        some {
          mem := pre ++ ds ++ t ++ 0 :: (rest ++ 0 :: post)
          token := some (pre ++ ds).length
          saveptr := some (pre ++ ds ++ t ++ [0]).length
          reads } ∧
      ∀ a ∈ reads, pre.length ≤ a ∧ a ≤ (pre ++ ds ++ t).length := by
  have hd0 : d ≠ 0 := fun h => h0 (h ▸ hd)
  have hmem : pre ++ (ds ++ t ++ d :: rest) ++ 0 :: post =
      pre ++ ds ++ t ++ d :: (rest ++ 0 :: post) := by simp
  have hend : (pre ++ ds ++ t ++ [0]).length = (pre ++ ds ++ t).length + 1 := List.length_append
  obtain ⟨reads, hcall, hreads⟩ :=
    strtokR_some hdelim h0 (rest ++ 0 :: post) hstring hds ht htoken (Or.inr hd)
  refine ⟨reads, ?_, hreads⟩
  rw [hmem, hcall, if_neg hd0, hend]

end Calls

/-- The memory from the rest on. -/
theorem cut_append (pre ds t rest post : List UInt8) :
    pre ++ ds ++ t ++ 0 :: (rest ++ 0 :: post) =
      pre ++ ds ++ t ++ [0] ++ rest ++ 0 :: post := by simp

/-! ## Calls in a row -/

/-- However many calls there are, they return the tokens `ts` in turn, and then NULL, and read
    addresses from `first` to `last` only. -/
def StrtokFinds (delim mem : List UInt8) (string saveptr : Option ℕ) (first last : ℕ)
    (ts : List (ℕ × List UInt8)) : Prop :=
  ∀ n, ∃ calls, strtokCalls delim n mem string saveptr = some calls ∧
    calls.map StrtokCall.found = (List.range n).map (fun k => ts[k]?) ∧
    ∀ call ∈ calls, ∀ a ∈ call.reads, first ≤ a ∧ a ≤ last

section Finds

variable {delim mem : List UInt8} {string saveptr : Option ℕ} {first last first' : ℕ}
  {ts : List (ℕ × List UInt8)} {call : StrtokCall}

/-- One call, and those behind it. -/
theorem strtokCalls_succ (h : strtokR delim mem string saveptr = some call) {n : ℕ}
    {calls : List StrtokCall}
    (hcalls : strtokCalls delim n call.mem none call.saveptr = some calls) :
    strtokCalls delim (n + 1) mem string saveptr = some (call :: calls) := by
  rw [strtokCalls, h, Option.bind_eq_bind, Option.bind_some, hcalls]
  rfl

/-- What a call returns is the first token, if there is one, and the calls behind it return the
    others. -/
theorem StrtokFinds.of_call (h : strtokR delim mem string saveptr = some call)
    (hfound : call.found = ts.head?) (hreads : ∀ a ∈ call.reads, first ≤ a ∧ a ≤ last)
    (hfirst : first ≤ first')
    (hrest : StrtokFinds delim call.mem none call.saveptr first' last ts.tail) :
    StrtokFinds delim mem string saveptr first last ts := by
  intro n
  cases n with
  | zero => exact ⟨[], rfl, rfl, nofun⟩
  | succ n =>
    obtain ⟨calls, hcalls, hfounds, hrest⟩ := hrest n
    refine ⟨_, strtokCalls_succ h hcalls, ?_, List.forall_mem_cons.2 ⟨hreads, ?_⟩⟩
    · rw [List.map_cons, hfound, hfounds, List.range_succ_eq_map, List.map_cons, List.map_map,
        List.head?_eq_getElem?]
      simp only [List.getElem?_tail]
      rfl
    · intro call hcall a ha
      have hbounds := hrest call hcall a ha
      exact ⟨hfirst.trans hbounds.1, hbounds.2⟩

/-- With NULL in `*saveptr`, all calls return NULL. -/
theorem strtokFinds_nil : StrtokFinds delim mem none none first last [] := by
  intro n
  induction n with
  | zero => exact ⟨[], rfl, rfl, nofun⟩
  | succ n ih =>
    obtain ⟨calls, hcalls, hfound, hreads⟩ := ih
    refine ⟨_, strtokCalls_succ rfl hcalls, ?_, List.forall_mem_cons.2 ⟨nofun, hreads⟩⟩
    rw [List.map_cons, hfound, List.range_succ_eq_map, List.map_cons, List.map_map]
    rfl

end Finds

/-- The token of a call that has found one. -/
theorem found_some {pre ds t : List UInt8} (hnul : (0 : UInt8) ∉ t) (post : List UInt8)
    (saveptr : Option ℕ) (reads : List ℕ) :
    StrtokCall.found {
      mem := pre ++ ds ++ t ++ 0 :: post
      token := some (pre ++ ds).length
      saveptr
      reads } = some (pre.length + ds.length, t) := by
  rw [StrtokCall.found, Option.map_some]
  dsimp only
  rw [strAt_append _ _ hnul, List.length_append]

/-- A token with more of the string behind it. The calls behind the first one are for the rest. -/
theorem StrtokFinds.cut {delim : List UInt8} (hdelim : delim ≠ []) (h0 : (0 : UInt8) ∉ delim)
    {pre ds t : List UInt8} (post : List UInt8) {string saveptr : Option ℕ}
    (hstring : string.or saveptr = some pre.length) (hds : ∀ d ∈ ds, d ∈ delim) (ht : t ≠ [])
    (htoken : ∀ c ∈ t, c ≠ 0 ∧ c ∉ delim) {d : UInt8} (hd : d ∈ delim) {rest : List UInt8}
    {ts : List (ℕ × List UInt8)}
    (hrest : StrtokFinds delim (pre ++ ds ++ t ++ [0] ++ rest ++ 0 :: post) none
      (some (pre ++ ds ++ t ++ [0]).length) (pre ++ ds ++ t ++ [0]).length
      (pre ++ ds ++ t ++ [0] ++ rest).length (behind (pre ++ ds ++ t ++ [0]).length ts)) :
    StrtokFinds delim (pre ++ (ds ++ t ++ d :: rest) ++ 0 :: post) string saveptr pre.length
      (pre ++ (ds ++ t ++ d :: rest)).length
      (behind pre.length (behind ds.length ((0, t) :: behind (t.length + 1) ts))) := by
  obtain ⟨reads, hcall, hreads⟩ := strtokR_cut hdelim h0 post hstring hds ht htoken hd rest
  have hlast : (pre ++ ds ++ t ++ [0] ++ rest).length =
      (pre ++ (ds ++ t ++ d :: rest)).length := by simp
  have hbehind : behind (pre ++ ds ++ t ++ [0]).length ts =
      behind pre.length (behind ds.length (behind (t.length + 1) ts)) := by
    rw [behind_behind, behind_behind]
    simp [Nat.add_assoc]
  rw [← cut_append, hlast, hbehind] at hrest
  have hnul : (0 : UInt8) ∉ t := fun h => (htoken 0 h).1 rfl
  refine .of_call hcall (found_some hnul ..) (fun a ha => ?_) ?_ hrest
  · have hbounds := hreads a ha
    refine ⟨hbounds.1, hbounds.2.trans ?_⟩
    rw [← List.append_assoc, ← List.append_assoc]
    exact (List.prefix_append _ _).length_le
  · rw [List.append_assoc, List.append_assoc]
    exact (List.prefix_append _ _).length_le

/-- All calls for a string. The NULs that they write do not change what they find. -/
theorem exists_strtokFinds {delim : List UInt8} (hdelim : delim ≠ []) (h0 : (0 : UInt8) ∉ delim)
    {s : List UInt8} (hs : (0 : UInt8) ∉ s) :
    ∃ ts, AllPieces (· ∈ delim) s ts ∧ ∀ (pre post : List UInt8) (string saveptr : Option ℕ),
      string.or saveptr = some pre.length →
        StrtokFinds delim (pre ++ s ++ 0 :: post) string saveptr pre.length (pre ++ s).length
          (behind pre.length ts) := by
  -- What is behind a token is shorter.
  induction hlen : s.length using Nat.strong_induction_on generalizing s with
  | _ n ih =>
    obtain ⟨ds, t, rest, rfl, hds, ht, hrest⟩ := exists_pieces delim s
    have hds' : ∀ d ∈ ds, decide (d ∈ delim) = true := by simpa using hds
    have ht' : ∀ c ∈ t, decide (c ∈ delim) = false := by simpa using ht
    rw [List.mem_append, List.mem_append, not_or, not_or] at hs
    have htoken : ∀ c ∈ t, c ≠ 0 ∧ c ∉ delim := fun c hc => ⟨fun h => hs.1.2 (h ▸ hc), ht c hc⟩
    rcases hrest with rfl | ⟨hne, d, s', rfl, hd⟩
    · rw [List.append_nil]
      by_cases hne : t = []
      · subst hne
        refine ⟨_, AllPieces.nil.append_delims hds', fun pre post string saveptr hstring => ?_⟩
        obtain ⟨reads, hcall, hreads⟩ := strtokR_none hdelim h0 post hstring hds
        rw [List.append_nil]
        exact .of_call hcall rfl hreads le_rfl strtokFinds_nil
      · refine ⟨_, (AllPieces.singleton hne ht').append_delims hds',
          fun pre post string saveptr hstring => ?_⟩
        obtain ⟨reads, hcall, hreads⟩ :=
          strtokR_some hdelim h0 post hstring hds hne htoken (Or.inl rfl)
        rw [if_pos rfl] at hcall
        rw [← List.append_assoc]
        exact .of_call hcall (found_some hs.1.2 ..) hreads le_rfl strtokFinds_nil
    · have hshort : s'.length < n := by
        rw [← hlen, List.length_append, List.length_cons]
        omega
      have hs' : (0 : UInt8) ∉ s' := fun h => hs.2 (List.mem_cons_of_mem _ h)
      obtain ⟨ts, hts, hfinds⟩ := ih _ hshort hs' rfl
      rw [List.append_assoc]
      refine ⟨_, (hts.append_cons hne ht' (decide_eq_true hd)).append_delims hds',
        fun pre post string saveptr hstring => ?_⟩
      rw [← List.append_assoc ds]
      exact .cut hdelim h0 post hstring hds hne htoken hd (hfinds _ post none _ rfl)

/-- The first call for a string, wherever it is in the memory, and those with NULL behind it.
    What is in `*saveptr` before does not matter. -/
theorem strtokCalls_pieces {delim : List UInt8} (hdelim : delim ≠ []) (h0 : (0 : UInt8) ∉ delim)
    {s : List UInt8} (hs : (0 : UInt8) ∉ s) :
    ∃ ts, AllPieces (· ∈ delim) s ts ∧
      ∀ (pre post : List UInt8) (saveptr : Option ℕ),
        StrtokFinds delim (pre ++ s ++ 0 :: post) (some pre.length) saveptr pre.length
          (pre ++ s).length (behind pre.length ts) := by
  obtain ⟨ts, hts, hfinds⟩ := exists_strtokFinds hdelim h0 hs
  exact ⟨ts, hts, fun pre post saveptr => hfinds pre post _ saveptr rfl⟩

/-- Delimiters at both ends, and two in a row. -/
theorem strtokCalls_pieces_hats :
    ∃ ts, AllPieces (· ∈ chars "^") (chars "^a^^b^") ts ∧
      (List.range 4).map (fun k => ts[k]?) =
        [some (1, chars "a"), some (4, chars "b"), none, none] := by
  obtain ⟨ts, hts, hfinds⟩ :=
    @strtokCalls_pieces (chars "^") (by decide) (by decide) (chars "^a^^b^") (by decide)
  obtain ⟨calls, hcalls, hfound, -⟩ := hfinds [] [] none 4
  have hrun : (strtokCalls (chars "^") 4 (chars "^a^^b^" ++ [0]) (some 0) none).map
      (List.map StrtokCall.found) =
        some [some (1, chars "a"), some (4, chars "b"), none, none] := by decide
  have hbehind : behind ([] : List UInt8).length ts = ts := by simp [behind]
  rw [hbehind] at hfound
  refine ⟨ts, hts, hfound.symm.trans (Option.some.inj ?_)⟩
  rw [← hrun]
  exact (congrArg (Option.map _) hcalls).symm

end Ditg
