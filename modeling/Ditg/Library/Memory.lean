import Mathlib.Data.List.TakeWhile
import Mathlib.Data.Vector.Basic

/-!
# Buffers and C strings

A buffer is the list of its bytes; `blit` is `memcpy` into it. A C string is the
part of a buffer before its first NUL (`cstr`), which is what `strcmp`, `strcpy`
and `strncpy` look at; the whole buffer when it has no NUL, where the C functions
read on into whatever follows.
-/

namespace Memory

/-- The buffer after copying `bs` to the offset `off` of `buf`. -/
def blit (buf : List UInt8) (off : ℕ) (bs : List UInt8) : List UInt8 :=
  buf.take off ++ bs ++ buf.drop (off + bs.length)

@[simp] theorem blit_nil (buf : List UInt8) (off : ℕ) : blit buf off [] = buf := by
  simp [blit]

/-- A copy within the buffer keeps its length. -/
theorem length_blit {buf bs : List UInt8} {off : ℕ} (h : off + bs.length ≤ buf.length) :
    (blit buf off bs).length = buf.length := by
  simp only [blit, List.length_append, List.length_take, List.length_drop]
  omega

/-- A copy extends what the buffer held before the offset. -/
theorem take_blit {buf bs : List UInt8} {off : ℕ} (h : off ≤ buf.length) :
    (blit buf off bs).take (off + bs.length) = buf.take off ++ bs := by
  rw [blit, List.take_left']
  rw [List.length_append, List.length_take, min_eq_left h]

/-- So does a part of it. -/
theorem take_blit_le {buf bs : List UInt8} {off n : ℕ} (h : off ≤ buf.length) (hn : n ≤ bs.length) :
    (blit buf off bs).take (off + n) = buf.take off ++ bs.take n := by
  have hlen : (buf.take off).length = off := by rw [List.length_take, min_eq_left h]
  rw [blit, List.append_assoc, List.take_append, hlen, Nat.add_sub_cancel_left,
    List.take_of_length_le (by omega), List.take_append_of_le_length hn]

/-- A copy does not make the buffer shorter. -/
theorem length_le_length_blit (buf : List UInt8) (off : ℕ) (bs : List UInt8) :
    buf.length ≤ (blit buf off bs).length := by
  rw [blit, List.length_append, List.length_append, List.length_take, List.length_drop]
  omega

/-- A byte of the copy. -/
theorem getElem?_blit_add {buf bs : List UInt8} {off i : ℕ} (h : off ≤ buf.length)
    (hi : i < bs.length) : (blit buf off bs)[off + i]? = bs[i]? := by
  rw [blit, List.append_assoc, List.getElem?_append_right (by simp), List.length_take,
    min_eq_left h, Nat.add_sub_cancel_left, List.getElem?_append_left hi]

/-- Two copies one after the other are one. -/
theorem blit_blit (buf : List UInt8) (off : ℕ) (h : off ≤ buf.length) (bs bs' : List UInt8) :
    blit (blit buf off bs) (off + bs.length) bs' = blit buf off (bs ++ bs') := by
  have hdrop : (blit buf off bs).drop (off + bs.length + bs'.length) =
      buf.drop (off + (bs ++ bs').length) := by
    have hlen : (buf.take off ++ bs).length = off + bs.length := by
      rw [List.length_append, List.length_take, min_eq_left h]
    rw [blit, ← hlen, List.drop_length_add_append, List.drop_drop, List.length_append,
      List.length_take, min_eq_left h, List.length_append, Nat.add_assoc]
  rw [blit, take_blit h, hdrop, blit, List.append_assoc (buf.take off)]

/-- A copy to the start of the buffer is found there. -/
theorem take_blit_zero (buf bs : List UInt8) : (blit buf 0 bs).take bs.length = bs := by
  simpa using @take_blit buf bs 0 (Nat.zero_le _)

/-! ## C strings -/

/-- The C string at the start of a buffer. -/
def cstr (bs : List UInt8) : List UInt8 := bs.takeWhile (· ≠ 0)

/-- The characters of a literal, without the NUL. -/
def chars (s : String) : List UInt8 := s.toList.map fun c => UInt8.ofNat c.toNat

theorem cstr_length_le (bs : List UInt8) : (cstr bs).length ≤ bs.length :=
  (List.takeWhile_sublist _).length_le

/-- A string ends at its NUL, whatever follows. -/
theorem cstr_append_nul {s : List UInt8} (hs : (0 : UInt8) ∉ s) (rest : List UInt8) :
    cstr (s ++ 0 :: rest) = s := by
  induction s with
  | nil => simp [cstr]
  | cons b s ih =>
    rw [List.mem_cons, not_or] at hs
    have ih := ih hs.2
    rw [cstr] at ih ⊢
    rw [List.cons_append, List.takeWhile_cons_of_pos (by simpa using Ne.symm hs.1), ih]

theorem nul_notMem_cstr (bs : List UInt8) : (0 : UInt8) ∉ cstr bs :=
  fun h => by simpa using List.mem_takeWhile_imp h

/-- A string without NUL is all of itself. -/
theorem cstr_of_notMem {s : List UInt8} (hs : (0 : UInt8) ∉ s) : cstr s = s := by
  rw [cstr, List.takeWhile_eq_self_iff]
  intro b hb
  simpa using fun h0 : b = 0 => hs (h0 ▸ hb)

@[simp] theorem cstr_cstr (bs : List UInt8) : cstr (cstr bs) = cstr bs :=
  cstr_of_notMem (nul_notMem_cstr bs)

/-- A buffer with a NUL starts with its string and the NUL. -/
theorem exists_eq_cstr_append {bs : List UInt8} (h : (0 : UInt8) ∈ bs) :
    ∃ rest, bs = cstr bs ++ 0 :: rest := by
  induction bs with
  | nil => exact absurd h List.not_mem_nil
  | cons b bs ih =>
    by_cases hb : b = 0
    · exact ⟨bs, by simp [cstr, hb]⟩
    · obtain ⟨rest, hrest⟩ := ih ((List.mem_cons.1 h).resolve_left (Ne.symm hb))
      refine ⟨rest, ?_⟩
      rw [cstr, List.takeWhile_cons_of_pos (by simpa using hb), List.cons_append]
      exact congrArg _ hrest

/-! ## Character arrays -/

/-- An array of `n` characters. -/
abbrev CharArray (n : ℕ) := List.Vector UInt8 n

/-- The array of the first `n` bytes of a buffer. -/
def charArray (n : ℕ) (bs : List UInt8) : CharArray n :=
  ⟨(bs ++ List.replicate n 0).take n, by simp⟩

/-- The bytes of an array at the start of a buffer are the array. -/
theorem charArray_append {n : ℕ} (a : CharArray n) (bs : List UInt8) :
    charArray n (a.toList ++ bs) = a := by
  apply List.Vector.toList_injective
  rw [charArray, List.Vector.toList_mk, List.append_assoc, List.take_left' a.toList_length]

/-- `strcmp` finds the strings of two arrays equal. -/
def strcmpEq {n m : ℕ} (a : CharArray n) (b : CharArray m) : Bool :=
  cstr a.toList = cstr b.toList

/-- `strncpy` of the string in `src` to an array of `n` characters: it is cut
    at `n` characters and padded with NULs. -/
def strncpy (n : ℕ) (src : List UInt8) : CharArray n :=
  ⟨(cstr src ++ List.replicate n 0).take n, by simp⟩

/-- `strcpy` of the string in `src`, with its NUL, over an array: the array
    keeps what stands after the NUL. -/
def strcpy {n : ℕ} (dst : CharArray n) (src : List UInt8) : CharArray n :=
  ⟨(cstr src ++ 0 :: dst.toList.drop ((cstr src).length + 1)).take n, by simp; omega⟩

/-- `strcat` of the string in `src`, with its NUL, behind the string of an array. -/
def strcat {n : ℕ} (dst : CharArray n) (src : List UInt8) : CharArray n :=
  ⟨(cstr dst.toList ++ (cstr src ++
    0 :: dst.toList.drop ((cstr dst.toList).length + (cstr src).length + 1))).take n, by
    simp; omega⟩

/-- A string that fits is copied as a whole by `strncpy`. -/
theorem cstr_strncpy {n : ℕ} {src : List UInt8} (h : (cstr src).length ≤ n) :
    cstr (strncpy n src).toList = cstr src := by
  have htake : (strncpy n src).toList = cstr src ++ List.replicate (n - (cstr src).length) 0 := by
    rw [strncpy, List.Vector.toList_mk, List.take_append, List.take_of_length_le h,
      List.take_replicate, min_eq_left (Nat.sub_le _ _)]
  rw [htake]
  rcases hn : n - (cstr src).length with _ | k
  · rw [List.replicate_zero, List.append_nil, cstr_cstr]
  · rw [List.replicate_succ, cstr_append_nul (nul_notMem_cstr src)]

/-- A string with its NUL that fits is copied by `strcpy`. -/
theorem cstr_strcpy {n : ℕ} (dst : CharArray n) {src : List UInt8} (h : (cstr src).length < n) :
    cstr (strcpy dst src).toList = cstr src := by
  obtain ⟨k, hk⟩ := Nat.exists_eq_add_of_lt h
  have htake : n - (cstr src).length = k + 1 := by omega
  rw [strcpy, List.Vector.toList_mk, List.take_append, List.take_of_length_le h.le, htake,
    List.take_succ_cons, cstr_append_nul (nul_notMem_cstr src)]

/-- Two strings that fit are put together by `strcat`. -/
theorem cstr_strcat {n : ℕ} (dst : CharArray n) {src : List UInt8}
    (h : (cstr dst.toList).length + (cstr src).length < n) :
    cstr (strcat dst src).toList = cstr dst.toList ++ cstr src := by
  obtain ⟨k, hk⟩ := Nat.exists_eq_add_of_lt h
  have htake : n - (cstr dst.toList ++ cstr src).length = k + 1 := by
    rw [List.length_append]
    omega
  have hnul : (0 : UInt8) ∉ cstr dst.toList ++ cstr src := by
    rw [List.mem_append, not_or]
    exact ⟨nul_notMem_cstr _, nul_notMem_cstr _⟩
  rw [strcat, List.Vector.toList_mk, ← List.append_assoc, List.take_append,
    List.take_of_length_le (by rw [List.length_append]; exact h.le), htake, List.take_succ_cons,
    cstr_append_nul hnul]

/-- An array whose string is shorter has a NUL behind it. -/
theorem exists_toList_eq_cstr_append {n : ℕ} {a : CharArray n} (h : (cstr a.toList).length < n) :
    ∃ rest, a.toList = cstr a.toList ++ 0 :: rest := by
  refine exists_eq_cstr_append ?_
  by_contra hnul
  rw [cstr_of_notMem hnul, a.toList_length] at h
  exact absurd h (lt_irrefl n)

/-- What stood in the array before `strcpy` is not part of its string. -/
theorem strncpy_strcpy {n : ℕ} (dst : CharArray n) (src : List UInt8) :
    strncpy n (strcpy dst src).toList = strncpy n src := by
  have hcstr : cstr (strcpy dst src).toList = (cstr src).take n := by
    rcases lt_or_ge (cstr src).length n with h | h
    · rw [cstr_strcpy dst h, List.take_of_length_le h.le]
    · -- A string that does not fit leaves no NUL.
      rw [strcpy, List.Vector.toList_mk, List.take_append_of_le_length h]
      exact cstr_of_notMem fun hmem => nul_notMem_cstr src (List.mem_of_mem_take hmem)
  apply List.Vector.toList_injective
  simp only [strncpy, List.Vector.toList_mk, hcstr, List.take_append, List.take_take, min_self,
    List.length_take]
  rcases le_total n (cstr src).length with h | h
  · rw [min_eq_left h, Nat.sub_eq_zero_of_le h, Nat.sub_self]
  · rw [min_eq_right h]

/-- The string of an array is copied as a whole to one of the same size. -/
theorem cstr_strncpy_toList {n : ℕ} (a : CharArray n) :
    cstr (strncpy n a.toList).toList = cstr a.toList :=
  cstr_strncpy ((cstr_length_le _).trans a.toList_length.le)

end Memory
