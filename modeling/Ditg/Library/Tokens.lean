import Ditg.Library.Memory

/-!
# Cutting a string into tokens

`strtok_r` cuts a string at delimiters, in place: the token is a pointer into the string, the
delimiter behind it is overwritten with a NUL, and the next call goes on behind that. The tokens
stay where they are, so that they can be read when the whole string has been cut.

* `tokens_eq`: the loop over a string finds its pieces, that is, its longest parts without
  delimiters, and leaves them in the memory;
* `AllPieces.append_cons`, `AllPieces.singleton`: the pieces with their places in the string.
-/

namespace Tokens

open Memory

/-! ## Pieces -/

section Pieces

variable {α : Type} (isDelim : α → Bool) {s t : List α} {d : α}

/-- The longest parts of `s` without delimiters, those that are empty left out. -/
def pieces (s : List α) : List (List α) := (s.splitOnP isDelim).filter (!·.isEmpty)

theorem pieces_nil : pieces isDelim [] = [] := by
  rw [pieces, List.splitOnP_nil]
  rfl

variable {isDelim}

/-- A delimiter at the start cuts nothing. -/
theorem pieces_cons_delim (hd : isDelim d = true) :
    pieces isDelim (d :: s) = pieces isDelim s := by
  have hnone : ∀ x ∈ ([] : List α), isDelim x = false := fun x hx => absurd hx List.not_mem_nil
  have h := List.splitOnP_append_cons_of_forall_mem hnone d hd s
  rw [List.nil_append] at h
  rw [pieces, h]
  rfl

theorem pieces_append_delims {ds : List α} (hds : ∀ d ∈ ds, isDelim d = true) :
    pieces isDelim (ds ++ s) = pieces isDelim s := by
  induction ds with
  | nil => rfl
  | cons d ds ih =>
    rw [List.forall_mem_cons] at hds
    rw [List.cons_append, pieces_cons_delim hds.1, ih hds.2]

/-- A piece ends at the next delimiter. -/
theorem pieces_append_cons (ht : t ≠ []) (hdelim : ∀ c ∈ t, isDelim c = false)
    (hd : isDelim d = true) : pieces isDelim (t ++ d :: s) = t :: pieces isDelim s := by
  rw [pieces, List.splitOnP_append_cons_of_forall_mem hdelim d hd, pieces,
    List.filter_cons_of_pos (by simpa using ht)]

/-- Or at the end. -/
theorem pieces_singleton (ht : t ≠ []) (hdelim : ∀ c ∈ t, isDelim c = false) :
    pieces isDelim t = [t] := by
  rw [pieces, List.splitOnP_eq_singleton hdelim, List.filter_cons_of_pos (by simpa using ht)]
  rfl

/-- Parts without delimiters, with a delimiter before, between and behind them, are the pieces. -/
theorem pieces_flatMap {ts : List (List α)} (hd : isDelim d = true)
    (h : ∀ t ∈ ts, t ≠ [] ∧ ∀ c ∈ t, isDelim c = false) :
    pieces isDelim (d :: ts.flatMap (· ++ [d])) = ts := by
  rw [pieces_cons_delim hd]
  induction ts with
  | nil => exact pieces_nil isDelim
  | cons t ts ih =>
    rw [List.forall_mem_cons] at h
    rw [List.flatMap_cons, List.append_assoc, List.singleton_append,
      pieces_append_cons h.1.1 h.1.2 hd, ih h.2]

end Pieces

/-! ## Their places -/

section Places

variable {α : Type} (isDelim : α → Bool)

/-- A part of `s` without delimiters, at the place `off`, that cannot be made longer: the characters
    next to it, if there are any, are delimiters. -/
def IsPiece (s : List α) (off : ℕ) (t : List α) : Prop :=
  ∃ before after, s = before ++ t ++ after ∧ before.length = off ∧ t ≠ [] ∧
    (∀ c ∈ t, isDelim c = false) ∧ (∀ c ∈ before.getLast?, isDelim c = true) ∧
    ∀ c ∈ after.head?, isDelim c = true

/-- All pieces of `s` with their places, in order and each of them once. -/
structure AllPieces (s : List α) (ts : List (ℕ × List α)) : Prop where
  sorted : ts.Pairwise fun x y => x.1 < y.1
  mem_iff : ∀ off t, (off, t) ∈ ts ↔ IsPiece isDelim s off t

/-- The places of pieces behind `n` characters. -/
def behind (n : ℕ) (ts : List (ℕ × List α)) : List (ℕ × List α) :=
  ts.map fun x => (n + x.1, x.2)

variable {isDelim} {s t t' : List α} {d : α} {off : ℕ} {ts : List (ℕ × List α)}

theorem not_isPiece_nil : ¬IsPiece isDelim [] off t := by
  rintro ⟨before, after, hs, -, ht, -⟩
  rw [eq_comm, List.append_eq_nil_iff, List.append_eq_nil_iff] at hs
  exact ht hs.1.2

/-- Behind a delimiter, the last character is one, if there is any. -/
theorem getLast?_cons_delim (hd : isDelim d = true) :
    (∀ c ∈ (d :: s).getLast?, isDelim c = true) ↔ ∀ c ∈ s.getLast?, isDelim c = true := by
  rw [List.getLast?_cons]
  cases s.getLast? with
  | none => simpa using hd
  | some c => simp

/-- A delimiter at the start is no part of a piece. -/
theorem isPiece_cons_delim (hd : isDelim d = true) :
    IsPiece isDelim (d :: s) off t ↔ ∃ off', off = 1 + off' ∧ IsPiece isDelim s off' t := by
  constructor
  · rintro ⟨before, after, hs, rfl, ht, hdelim, hleft, hright⟩
    cases before with
    | nil =>
      obtain ⟨c, t, rfl⟩ := List.exists_cons_of_ne_nil ht
      obtain rfl : d = c := (List.cons.inj hs).1
      exact absurd hd (by rw [hdelim d List.mem_cons_self]; exact Bool.false_ne_true)
    | cons b before =>
      obtain ⟨rfl, rfl⟩ := List.cons.inj hs
      exact ⟨before.length, Nat.add_comm _ _, before, after, rfl, rfl, ht, hdelim,
        (getLast?_cons_delim hd).1 hleft, hright⟩
  · rintro ⟨off', rfl, before, after, rfl, rfl, ht, hdelim, hleft, hright⟩
    exact ⟨d :: before, after, rfl, Nat.add_comm _ _, ht, hdelim,
      (getLast?_cons_delim hd).2 hleft, hright⟩

/-- What is before a piece does not end within a part without delimiters. -/
theorem before_eq_nil {before : List α} (hdelim : ∀ c ∈ t, isDelim c = false)
    (hleft : ∀ c ∈ before.getLast?, isDelim c = true) (h : before <+: t) : before = [] := by
  by_contra hne
  have hlast : before.getLast hne ∈ t := h.subset (List.getLast_mem hne)
  have hd := hleft _ (List.getLast?_eq_some_getLast hne)
  rw [hdelim _ hlast] at hd
  exact Bool.false_ne_true hd

/-- A part without delimiters ends at the first one. -/
theorem takeWhile_piece {after : List α} (hdelim : ∀ c ∈ t, isDelim c = false)
    (hright : ∀ c ∈ after.head?, isDelim c = true) :
    (t ++ after).takeWhile (!isDelim ·) = t := by
  rw [List.takeWhile_append_of_pos fun c hc => by rw [hdelim c hc]; rfl]
  cases after with
  | nil => exact List.append_nil t
  | cons c after =>
    rw [List.takeWhile_cons_of_neg (by rw [hright c rfl]; exact Bool.false_ne_true),
      List.append_nil]

/-- A piece at the start ends at the next delimiter. -/
theorem isPiece_append_cons (ht : t ≠ []) (hdelim : ∀ c ∈ t, isDelim c = false)
    (hd : isDelim d = true) :
    IsPiece isDelim (t ++ d :: s) off t' ↔
      off = 0 ∧ t' = t ∨ ∃ off', off = t.length + 1 + off' ∧ IsPiece isDelim s off' t' := by
  have hhead : ∀ c ∈ (d :: s).head?, isDelim c = true := fun c hc => Option.some.inj hc ▸ hd
  constructor
  · rintro ⟨before, after, hs, rfl, ht', hdelim', hleft, hright⟩
    rw [List.append_assoc] at hs
    obtain ⟨rest, rfl, hs'⟩ | ⟨rest, rfl, hs'⟩ := List.append_eq_append_iff.1 hs
    · -- It is behind the delimiter.
      cases rest with
      | nil =>
        rw [List.append_nil] at hleft
        exact absurd (before_eq_nil hdelim hleft List.prefix_rfl) ht
      | cons c rest =>
        obtain ⟨rfl, rfl⟩ := List.cons.inj hs'
        rw [List.getLast?_append, List.getLast?_cons, Option.some_or, ← List.getLast?_cons] at hleft
        refine Or.inr ⟨rest.length, ?_, rest, after, (List.append_assoc ..).symm, rfl, ht', hdelim',
          (getLast?_cons_delim hd).1 hleft, hright⟩
        rw [List.length_append, List.length_cons]
        omega
    · obtain rfl := before_eq_nil hdelim hleft (List.prefix_append _ _)
      rw [List.nil_append] at hdelim ⊢
      have htake := takeWhile_piece hdelim' hright
      rw [hs', takeWhile_piece hdelim hhead] at htake
      exact Or.inl ⟨rfl, htake.symm⟩
  · rintro (⟨rfl, rfl⟩ | ⟨off', rfl, before, after, rfl, rfl, ht', hdelim', hleft, hright⟩)
    · exact ⟨[], d :: s, rfl, rfl, ht, hdelim, nofun, hhead⟩
    · have hs : t ++ d :: (before ++ t' ++ after) = t ++ d :: before ++ t' ++ after := by simp
      refine ⟨t ++ d :: before, after, hs, ?_, ht', hdelim', ?_, hright⟩
      · rw [List.length_append, List.length_cons]
        omega
      · rw [List.getLast?_append, List.getLast?_cons, Option.some_or, ← List.getLast?_cons]
        exact (getLast?_cons_delim hd).2 hleft

/-- Without a delimiter, there is one piece. -/
theorem isPiece_singleton (ht : t ≠ []) (hdelim : ∀ c ∈ t, isDelim c = false) :
    IsPiece isDelim t off t' ↔ off = 0 ∧ t' = t := by
  constructor
  · rintro ⟨before, after, hs, rfl, ht', hdelim', hleft, hright⟩
    rw [List.append_assoc] at hs
    obtain rfl := before_eq_nil hdelim hleft ⟨_, hs.symm⟩
    have htake := takeWhile_piece hdelim' hright
    have hall : t.takeWhile (!isDelim ·) = t :=
      List.takeWhile_eq_self_iff.2 fun c hc => by rw [hdelim c hc]; rfl
    rw [List.nil_append] at hs
    rw [← hs, hall] at htake
    exact ⟨rfl, htake.symm⟩
  · rintro ⟨rfl, rfl⟩
    exact ⟨[], [], (List.append_nil _).symm, rfl, ht, hdelim, nofun, nofun⟩

theorem mem_behind {n : ℕ} :
    (off, t) ∈ behind n ts ↔ ∃ off', off = n + off' ∧ (off', t) ∈ ts := by
  rw [behind, List.mem_map]
  constructor
  · rintro ⟨⟨off', t⟩, hmem, ⟨⟩⟩
    exact ⟨off', rfl, hmem⟩
  · rintro ⟨off', rfl, hmem⟩
    exact ⟨(off', t), hmem, rfl⟩

theorem behind_behind (m n : ℕ) : behind m (behind n ts) = behind (m + n) ts := by
  simp only [behind, List.map_map, Function.comp_def, Nat.add_assoc]

theorem sorted_behind {n : ℕ} (h : ts.Pairwise fun x y => x.1 < y.1) :
    (behind n ts).Pairwise fun x y => x.1 < y.1 :=
  List.pairwise_map.2 (h.imp fun hlt => Nat.add_lt_add_left hlt n)

namespace AllPieces

theorem nil : AllPieces isDelim [] [] where
  sorted := .nil
  mem_iff _ _ := iff_of_false List.not_mem_nil not_isPiece_nil

theorem cons_delim (hd : isDelim d = true) (h : AllPieces isDelim s ts) :
    AllPieces isDelim (d :: s) (behind 1 ts) where
  sorted := sorted_behind h.sorted
  mem_iff off t := by
    rw [mem_behind, isPiece_cons_delim hd]
    simp only [h.mem_iff]

theorem append_delims {ds : List α} (hds : ∀ d ∈ ds, isDelim d = true)
    (h : AllPieces isDelim s ts) : AllPieces isDelim (ds ++ s) (behind ds.length ts) := by
  induction ds with
  | nil => simpa [behind] using h
  | cons d ds ih =>
    rw [List.forall_mem_cons] at hds
    rw [List.cons_append, List.length_cons, Nat.add_comm, ← behind_behind]
    exact (ih hds.2).cons_delim hds.1

theorem append_cons (ht : t ≠ []) (hdelim : ∀ c ∈ t, isDelim c = false) (hd : isDelim d = true)
    (h : AllPieces isDelim s ts) :
    AllPieces isDelim (t ++ d :: s) ((0, t) :: behind (t.length + 1) ts) where
  sorted := by
    refine List.pairwise_cons.2 ⟨fun x hx => ?_, sorted_behind h.sorted⟩
    obtain ⟨off, hoff, -⟩ := mem_behind.1 hx
    omega
  mem_iff off t' := by
    rw [List.mem_cons, mem_behind, isPiece_append_cons ht hdelim hd, Prod.mk.injEq]
    simp only [h.mem_iff]

theorem singleton (ht : t ≠ []) (hdelim : ∀ c ∈ t, isDelim c = false) :
    AllPieces isDelim t [(0, t)] where
  sorted := List.pairwise_singleton ..
  mem_iff off t' := by
    rw [List.mem_singleton, isPiece_singleton ht hdelim, Prod.mk.injEq]

end AllPieces

end Places

/-! ## `strtok_r` -/

section Strtok

variable (delim : List UInt8)

/-- `strtok_r` at the place `p` of a memory: the memory after the call, the token, and the place
    at which the next call goes on. A list of delimiters has no NUL. -/
def strtokR (mem : List UInt8) (p : ℕ) : List UInt8 × Option ℕ × ℕ :=
  let start := p + ((mem.drop p).takeWhile (· ∈ delim)).length
  let stop := start + ((mem.drop start).takeWhile fun c => c ≠ 0 ∧ c ∉ delim).length
  if mem[start]?.getD 0 = 0 then (mem, none, start)
  else if mem[stop]?.getD 0 = 0 then (mem, some start, stop)
  else (mem.set stop 0, some start, stop + 1)

/-- The loop that stores the tokens in an array with `slots` places. There is no result if there
    are more of them, for which no place is left. -/
def tokens : ℕ → List UInt8 → ℕ → Option (List UInt8 × List ℕ)
  | slots, mem, p =>
    match strtokR delim mem p with
    | (mem, none, _) => some (mem, [])
    | (mem, some token, saveptr) =>
      match slots with
      | 0 => none
      | slots + 1 => (tokens slots mem saveptr).map fun r => (r.1, token :: r.2)

/-- The string at a place of the memory. -/
def strAt (mem : List UInt8) (p : ℕ) : List UInt8 := cstr (mem.drop p)

variable {delim} (pre : List UInt8) {ds t : List UInt8} {c : UInt8} (post : List UInt8)
  (h0 : (0 : UInt8) ∉ delim)
  (hds : ∀ d ∈ ds, d ∈ delim) (ht : t ≠ []) (hdelim : ∀ c ∈ t, c ∉ delim) (hnul : (0 : UInt8) ∉ t)

include h0 hds in
/-- At the end of the string there is no token. -/
theorem strtokR_none : strtokR delim (pre ++ ds ++ 0 :: post) pre.length =
    (pre ++ ds ++ 0 :: post, none, (pre ++ ds).length) := by
  have hspn : ((pre ++ ds ++ 0 :: post).drop pre.length).takeWhile (· ∈ delim) = ds := by
    rw [List.append_assoc, List.drop_left, List.takeWhile_append_of_pos (by simpa using hds),
      List.takeWhile_cons_of_neg (by simpa using h0), List.append_nil]
  have hend : (pre ++ ds ++ 0 :: post)[(pre ++ ds).length]?.getD 0 = 0 := by
    rw [List.getElem?_append_right le_rfl, Nat.sub_self]
    rfl
  rw [strtokR]
  simp only [hspn]
  rw [← List.length_append, if_pos hend]

include hds ht hdelim hnul in
/-- A token, which ends at `c`. -/
theorem strtokR_some (hc : c = 0 ∨ c ∈ delim) :
    strtokR delim (pre ++ ds ++ t ++ c :: post) pre.length =
      if c = 0 then
        (pre ++ ds ++ t ++ 0 :: post, some (pre ++ ds).length, (pre ++ ds ++ t).length)
      else
        (pre ++ ds ++ t ++ 0 :: post, some (pre ++ ds).length, (pre ++ ds ++ t).length + 1) := by
  obtain ⟨b, t', rfl⟩ := List.exists_cons_of_ne_nil ht
  have hspn : ((pre ++ ds ++ b :: t' ++ c :: post).drop pre.length).takeWhile (· ∈ delim) =
      ds := by
    rw [List.append_assoc, List.append_assoc, List.drop_left,
      List.takeWhile_append_of_pos (by simpa using hds), List.cons_append,
      List.takeWhile_cons_of_neg (by simpa using hdelim b List.mem_cons_self), List.append_nil]
  have hcspn : ((pre ++ ds ++ b :: t' ++ c :: post).drop (pre ++ ds).length).takeWhile
      (fun c => c ≠ 0 ∧ c ∉ delim) = b :: t' := by
    rw [List.append_assoc, List.drop_left, List.takeWhile_append_of_pos, List.takeWhile_cons_of_neg,
      List.append_nil]
    · rcases hc with rfl | hc
      · simp
      · simp [hc]
    · intro x hx
      have hx0 : x ≠ 0 := fun h => hnul (h ▸ hx)
      simpa using ⟨hx0, hdelim x hx⟩
  have hfirst : ¬(pre ++ ds ++ b :: t' ++ c :: post)[(pre ++ ds).length]?.getD 0 = 0 := by
    rw [List.append_assoc, List.getElem?_append_right le_rfl, Nat.sub_self]
    exact fun h => hnul (h ▸ List.mem_cons_self)
  have hlast : (pre ++ ds ++ b :: t' ++ c :: post)[(pre ++ ds ++ b :: t').length]?.getD 0 = c := by
    rw [List.getElem?_append_right le_rfl, Nat.sub_self]
    rfl
  have hset : (pre ++ ds ++ b :: t' ++ c :: post).set (pre ++ ds ++ b :: t').length 0 =
      pre ++ ds ++ b :: t' ++ 0 :: post := by
    rw [List.set_append_right _ _ le_rfl, Nat.sub_self]
    rfl
  rw [strtokR]
  simp only [hspn]
  rw [← List.length_append, hcspn, ← List.length_append, if_neg hfirst, hlast, hset]
  split_ifs with h
  · rw [h]
  · rfl

/-- Delimiters, a token that ends at a delimiter or at the end, and the rest behind that. -/
theorem exists_pieces (delim s : List UInt8) :
    ∃ ds t rest, s = ds ++ t ++ rest ∧ (∀ d ∈ ds, d ∈ delim) ∧ (∀ c ∈ t, c ∉ delim) ∧
      (rest = [] ∨ t ≠ [] ∧ ∃ d s', rest = d :: s' ∧ d ∈ delim) := by
  induction s with
  | nil => exact ⟨[], [], [], rfl, by simp, by simp, Or.inl rfl⟩
  | cons b s ih =>
    obtain ⟨ds, t, rest, rfl, hds, ht, hrest⟩ := ih
    by_cases hb : b ∈ delim
    · exact ⟨b :: ds, t, rest, rfl, List.forall_mem_cons.2 ⟨hb, hds⟩, ht, hrest⟩
    · cases ds with
      | nil =>
        refine ⟨[], b :: t, rest, rfl, hds, List.forall_mem_cons.2 ⟨hb, ht⟩, ?_⟩
        exact hrest.imp_right fun ⟨_, h⟩ => ⟨List.cons_ne_nil _ _, h⟩
      | cons d ds =>
        -- The token is `b`.
        refine ⟨[], [b], d :: ds ++ t ++ rest, rfl, by simp, by simpa using hb, Or.inr ?_⟩
        exact ⟨List.cons_ne_nil _ _, d, ds ++ t ++ rest, rfl, hds d List.mem_cons_self⟩

/-- A string without tokens is not changed. -/
theorem tokens_none (h0 : (0 : UInt8) ∉ delim) (hds : ∀ d ∈ ds, d ∈ delim) (slots : ℕ) :
    tokens delim slots (pre ++ ds ++ 0 :: post) pre.length =
      some (pre ++ ds ++ 0 :: post, []) := by
  cases slots with
  | zero => rw [tokens, strtokR_none pre post h0 hds]
  | succ slots => rw [tokens, strtokR_none pre post h0 hds]

/-- The string `t` behind `pre`, with its NUL. -/
theorem strAt_append (ht : (0 : UInt8) ∉ t) : strAt (pre ++ t ++ 0 :: post) pre.length = t := by
  rw [strAt, List.append_assoc, List.drop_left, cstr_append_nul ht]

/-- Behind a token, the loop goes on at the place that is stored. -/
theorem tokens_succ {mem mem' : List UInt8} {p token saveptr slots : ℕ}
    (h : strtokR delim mem p = (mem', some token, saveptr)) :
    tokens delim (slots + 1) mem p =
      (tokens delim slots mem' saveptr).map fun r => (r.1, token :: r.2) := by
  rw [tokens, h]

/-- The last token of a string ends at its NUL. -/
theorem tokens_last (h0 : (0 : UInt8) ∉ delim) (hds : ∀ d ∈ ds, d ∈ delim) (ht : t ≠ [])
    (hdelim : ∀ c ∈ t, c ∉ delim) (hnul : (0 : UInt8) ∉ t) (slots : ℕ) :
    tokens delim (slots + 1) (pre ++ ds ++ t ++ 0 :: post) pre.length =
      some (pre ++ ds ++ t ++ 0 :: post, [(pre ++ ds).length]) := by
  have hstr := strtokR_some pre post hds ht hdelim hnul (Or.inl rfl)
  rw [if_pos rfl] at hstr
  have hnone := tokens_none (pre ++ ds ++ t) post h0 (List.forall_mem_nil _) slots
  rw [List.append_nil] at hnone
  rw [tokens_succ hstr, hnone]
  rfl

/-- Any other one ends at a delimiter, which becomes its NUL. -/
theorem tokens_cut {d : UInt8} (h0 : (0 : UInt8) ∉ delim) (hds : ∀ d ∈ ds, d ∈ delim) (ht : t ≠ [])
    (hdelim : ∀ c ∈ t, c ∉ delim) (hnul : (0 : UInt8) ∉ t) (hd : d ∈ delim) (slots : ℕ) :
    tokens delim (slots + 1) (pre ++ ds ++ t ++ d :: post) pre.length =
      (tokens delim slots (pre ++ ds ++ t ++ [0] ++ post) (pre ++ ds ++ t ++ [0]).length).map
        fun r => (r.1, (pre ++ ds).length :: r.2) := by
  have hstr := strtokR_some pre post hds ht hdelim hnul (Or.inr hd)
  have hd0 : d ≠ 0 := fun h => h0 (h ▸ hd)
  rw [if_neg hd0] at hstr
  have hlen : (pre ++ ds ++ t ++ [0]).length = (pre ++ ds ++ t).length + 1 := List.length_append
  rw [tokens_succ hstr, hlen, List.append_assoc _ [0], List.singleton_append]

/-- The loop over a string finds its pieces, if there is a place for each of them, and leaves what
    is before the string as it is. -/
theorem tokens_eq (h0 : (0 : UInt8) ∉ delim) {s : List UInt8} (hs : (0 : UInt8) ∉ s) {slots : ℕ}
    (hslots : (pieces (· ∈ delim) s).length ≤ slots) :
    ∃ mem offs, pre <+: mem ∧ offs.map (strAt mem) = pieces (· ∈ delim) s ∧
      tokens delim slots (pre ++ s ++ 0 :: post) pre.length = some (mem, offs) := by
  -- What is behind a token is shorter.
  induction hlen : s.length using Nat.strong_induction_on generalizing pre s slots with
  | _ n ih =>
    obtain ⟨ds, t, rest, rfl, hds, hdelim, hrest⟩ := exists_pieces delim s
    have hds' : ∀ d ∈ ds, decide (d ∈ delim) = true := by simpa using hds
    have hdelim' : ∀ c ∈ t, decide (c ∈ delim) = false := by simpa using hdelim
    rw [List.mem_append, List.mem_append, not_or, not_or] at hs
    rw [List.append_assoc ds, pieces_append_delims hds'] at hslots ⊢
    rw [← List.append_assoc, ← List.append_assoc]
    rcases hrest with rfl | ⟨ht, d, s', rfl, hd⟩
    · simp only [List.append_nil] at hslots ⊢
      by_cases ht : t = []
      · subst ht
        simp only [pieces_nil, List.append_nil]
        refine ⟨pre ++ ds ++ 0 :: post, [], ?_, rfl, tokens_none pre post h0 hds slots⟩
        rw [List.append_assoc]
        exact List.prefix_append _ _
      · rw [pieces_singleton ht hdelim'] at hslots ⊢
        obtain ⟨slots, rfl⟩ := Nat.exists_eq_succ_of_ne_zero (Nat.pos_iff_ne_zero.1 hslots)
        refine ⟨pre ++ ds ++ t ++ 0 :: post, [(pre ++ ds).length], ?_, ?_,
          tokens_last pre post h0 hds ht hdelim hs.1.2 slots⟩
        · rw [List.append_assoc, List.append_assoc]
          exact List.prefix_append _ _
        · rw [List.map_singleton, strAt_append _ _ hs.1.2]
    · have hd' : decide (d ∈ delim) = true := by simpa using hd
      rw [pieces_append_cons ht hdelim' hd'] at hslots ⊢
      cases slots with
      | zero => exact absurd hslots (Nat.not_succ_le_zero _)
      | succ slots =>
        have hshort : s'.length < n := by
          rw [← hlen, List.length_append, List.length_cons]
          omega
        have hs' : (0 : UInt8) ∉ s' := fun h => hs.2 (List.mem_cons_of_mem _ h)
        obtain ⟨mem, offs, hpre, hoffs, hrun⟩ := ih _ hshort (pre ++ ds ++ t ++ [0]) hs'
          (Nat.le_of_succ_le_succ hslots) rfl
        refine ⟨mem, (pre ++ ds).length :: offs, ?_, ?_, ?_⟩
        · rw [List.append_assoc, List.append_assoc] at hpre
          exact (List.prefix_append _ _).trans hpre
        · obtain ⟨tail, rfl⟩ := hpre
          rw [List.map_cons, hoffs, List.append_assoc _ [0], List.singleton_append,
            strAt_append _ _ hs.1.2]
        · have hcut := tokens_cut pre (s' ++ 0 :: post) h0 hds ht hdelim hs.1.2 hd slots
          rw [← List.append_assoc _ s', hrun] at hcut
          rw [List.append_assoc _ (d :: s'), List.cons_append, hcut]
          rfl

end Strtok

end Tokens
