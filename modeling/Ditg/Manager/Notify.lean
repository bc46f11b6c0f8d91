import Ditg.Library.Bytes
import Ditg.Sender.CommandLine

/-!
# Telling the manager about flows

In daemon mode the sender gets the command lines of flows in datagrams of a manager, and
tells it, with the command line, when a flow starts (`modeManager`) and when it ends
(`flowParser`). The library of the manager decodes both datagrams in one function
(`catchManagerMsg`). The three do not agree on where things are:

* at the start of a flow, the type is a byte, the length is in the bytes 2 and 3 and the
  text comes after 8 bytes, of which the length of the datagram only counts 3;
* at the end, type and length are words, and the text comes after them;
* the library expects a byte, the length in the bytes 1 and 2, and the text after them.

So only the empty command line could be told, by a little-endian host whose buffer holds no
other line. But this line has no token, and `flowParser` compares the first of its tokens
before it sends anything: no command line is told (`not_notified`).
-/

namespace Ditg

open Bytes Memory Tokens

/-! ## The model -/

/-- The types of the datagrams. -/
def mngFlowStart : UInt8 := 1
@[inherit_doc mngFlowStart] def mngFlowEnd : UInt8 := 2

/-- What the sender does with a command line: it keeps it for the flow, and sends a
    datagram. -/
structure FlowStart where
  line : CharArray (maxFlowLineSize - 3)
  datagram : List UInt8
  deriving DecidableEq

/-- The sender gets a command line, given what its buffer held before. `strstr` looks for
    the end of the line up to the first NUL, which may come long after the text. -/
def modeManager (e : Endian) (buffer : CharArray maxFlowLineSize) (text : List UInt8) :
    FlowStart :=
  let received := text.take (maxFlowLineSize - 3)
  let buffer := blit buffer.toList 0 received
  let size_r := ((cstr buffer).findIdx? (· = newline)).getD received.length
  let buffer := blit buffer size_r [newline, 0]
  let line := strncpy (maxFlowLineSize - 3) buffer
  -- The text goes after two words, with the length at the byte 2.
  let buffer := blit buffer 8 (buffer.take size_r)
  let buffer := blit buffer 0 [mngFlowStart]
  let buffer := blit buffer 2 (store16 e (UInt16.ofNat size_r))
  ⟨line, buffer.take (size_r + 3)⟩

/-- What a flow keeps of its line for the end: the line without its newline. Without
    one, the process exits. -/
def managerMsg (line : List UInt8) : Option (List UInt8) :=
  if (cstr line).getLast? = some newline then some (cstr line).dropLast else none

/-- The datagram at the end of a flow. -/
def flowEnd (e : Endian) (ManagerMsg : List UInt8) : List UInt8 :=
  store32 e mngFlowEnd.toUInt32 ++ store32 e (UInt32.ofNat ManagerMsg.length) ++ ManagerMsg

/-- From the line of a flow to the datagram at its end, if one is sent. Without a token in the
    line `argv[0]` has never been set when it is compared with `-gui`, and nothing is defined
    from there on. -/
def flowParserMsg (e : Endian) (line : List UInt8) : Option (List UInt8) := do
  let ManagerMsg ← managerMsg line
  let argv ← flowTokens false line
  if argv = [] then none else return flowEnd e ManagerMsg

/-- What the library finds in a datagram; `length` bytes of it are moved, from the
    fourth on. -/
structure Caught where
  msgtype : UInt8
  length : UInt16
  msg : List UInt8
  deriving DecidableEq

/-- Decoding a datagram, given what the new buffer holds. -/
def catchManagerMsg (e : Endian) (buffer : CharArray maxFlowLineSize) (datagram : List UInt8) :
    Caught :=
  let buffer := blit buffer.toList 0 (datagram.take maxFlowLineSize)
  let msgtype := buffer.headD 0
  -- The length may exceed what has been received.
  let length := load16 e (buffer.drop 1)
  let buffer := blit buffer 0 ((buffer.drop 3).take length.toNat)
  let buffer := blit buffer length.toNat [0]
  ⟨msgtype, length, cstr buffer⟩

/-! ## What is decoded -/

/-- A datagram is decoded to a type and a text, and only bytes of it are moved. -/
def DecodedAs (e : Endian) (buffer : CharArray maxFlowLineSize) (datagram : List UInt8)
    (msgtype : UInt8) (text : List UInt8) : Prop :=
  (catchManagerMsg e buffer datagram).msgtype = msgtype ∧
    (catchManagerMsg e buffer datagram).msg = text ∧
    3 + (catchManagerMsg e buffer datagram).length.toNat ≤ datagram.length

/-- The manager is told the start and the end of a flow, with its command line, whatever
    the buffers held before. -/
structure Notified (e₁ e₂ : Endian) (buffer buffer₁ buffer₂ : CharArray maxFlowLineSize)
    (text : List UInt8) : Prop where
  start : DecodedAs e₂ buffer₁ (modeManager e₁ buffer text).datagram mngFlowStart text
  finish : ∃ datagram, flowParserMsg e₁ (modeManager e₁ buffer text).line.toList = some datagram ∧
    DecodedAs e₂ buffer₂ datagram mngFlowEnd text

section Caught

variable {e : Endian} {buffer : CharArray maxFlowLineSize} {datagram rest : List UInt8}
  {t x u v : UInt8}

theorem cstr_cons_eq_nil {b : UInt8} {bs : List UInt8} : cstr (b :: bs) = [] ↔ b = 0 := by
  rw [cstr, List.takeWhile_eq_nil_iff]
  simp

/-- The first bytes of a datagram are its type and its length. -/
theorem caught_header (h : datagram = t :: x :: u :: rest) :
    (catchManagerMsg e buffer datagram).msgtype = t ∧
      (catchManagerMsg e buffer datagram).length = load16 e [x, u] := by
  subst h
  exact ⟨rfl, rfl⟩

/-- Without a length there is no text. -/
theorem caught_nil (h : datagram = t :: 0 :: 0 :: rest) :
    catchManagerMsg e buffer datagram = ⟨t, 0, []⟩ := by
  subst h
  have hlength (r : List UInt8) : load16 e (0 :: 0 :: r) = 0 := by cases e <;> rfl
  have hbuffer : blit buffer.toList 0 ((t :: 0 :: 0 :: rest).take maxFlowLineSize) =
      t :: 0 :: 0 :: ((rest.take (maxFlowLineSize - 3)) ++
        buffer.toList.drop (0 + ((t :: 0 :: 0 :: rest).take maxFlowLineSize).length)) := rfl
  simp only [catchManagerMsg, hbuffer, List.drop_succ_cons, List.drop_zero, hlength,
    UInt16.toNat_zero, List.take_zero, List.headD_cons]
  rfl

/-- With one, the text is only empty if it starts with NUL. -/
theorem caught_msg_eq_nil (h : datagram = t :: x :: u :: v :: rest)
    (hlength : (catchManagerMsg e buffer datagram).length ≠ 0)
    (hmsg : (catchManagerMsg e buffer datagram).msg = []) : v = 0 := by
  obtain ⟨n, hn⟩ : ∃ n, (catchManagerMsg e buffer datagram).length.toNat = n + 1 :=
    Nat.exists_eq_succ_of_ne_zero fun h0 => hlength (UInt16.toNat_inj.1 h0)
  subst h
  change cstr (blit (blit _ 0 ((v :: _).take _)) _ [0]) = [] at hmsg
  change (load16 e (List.drop 1 _)).toNat = n + 1 at hn
  rw [hn, List.take_succ_cons] at hmsg
  exact cstr_cons_eq_nil.1 hmsg

end Caught

section Notified

variable {e₁ e₂ : Endian} {buffer buffer₁ buffer₂ : CharArray maxFlowLineSize} {text : List UInt8}

/-- The word of the type at the end of a flow, in the memory of the host. -/
theorem exists_flowEnd_eq (e : Endian) (ManagerMsg : List UInt8) :
    ∃ rest, flowEnd e ManagerMsg = (match e with
      | .little => [mngFlowEnd, 0, 0, 0]
      | .big => [0, 0, 0, mngFlowEnd]) ++ rest := by
  refine ⟨store32 e (UInt32.ofNat ManagerMsg.length) ++ ManagerMsg, ?_⟩
  rw [flowEnd, List.append_assoc]
  cases e <;> rfl

/-- The end of a flow is decoded to the empty text, on a little-endian host; on the other
    hosts it is decoded to no type. -/
theorem flowEnd_decoded {ManagerMsg : List UInt8}
    (h : DecodedAs e₂ buffer₂ (flowEnd e₁ ManagerMsg) mngFlowEnd text) :
    e₁ = .little ∧ text = [] := by
  obtain ⟨htype, hmsg, -⟩ := h
  obtain ⟨rest, hrest⟩ := exists_flowEnd_eq e₁ ManagerMsg
  cases e₁ with
  | little =>
    rw [caught_nil hrest] at hmsg
    exact ⟨rfl, hmsg.symm⟩
  | big =>
    rw [(caught_header hrest).1] at htype
    exact absurd htype (by decide)

/-- The header put over a buffer leaves its second byte. -/
theorem exists_take_header (t a x c d u v : UInt8) (bs line : List UInt8) (k : ℕ) :
    ∃ rest, (blit (blit (blit (a :: x :: c :: d :: bs) 8 line) 0 [t]) 2 [u, v]).take (k + 3) =
      t :: x :: u :: (v :: rest).take k :=
  ⟨_, rfl⟩

theorem exists_eq_cons₄ {bs : List UInt8} (h : 4 ≤ bs.length) :
    ∃ a x c d rest, bs = a :: x :: c :: d :: rest := by
  match bs, h with
  | a :: x :: c :: d :: rest, _ => exact ⟨a, x, c, d, rest, rfl⟩

/-- The datagram at the start of a flow with an empty line, on a little-endian host; `size_r`
    is where the newline has been found, if at all. -/
theorem exists_datagram_eq {size_r : ℕ} (hlt : size_r < maxFlowLineSize)
    (hsize : ((cstr buffer.toList).findIdx? (· = newline)).getD 0 = size_r) :
    ∃ rest, (modeManager .little buffer []).datagram =
      mngFlowStart :: (blit buffer.toList size_r [newline, 0]).getD 1 0 :: UInt8.ofNat size_r ::
        (UInt8.ofNat (size_r / 256) :: rest).take size_r := by
  have hlen : 4 ≤ (blit buffer.toList size_r [newline, 0]).length := by
    simp only [blit, List.length_append, List.length_take, List.length_drop, buffer.toList_length]
    simp only [maxFlowLineSize] at hlt ⊢
    omega
  obtain ⟨a, x, c, d, bs, hb⟩ := exists_eq_cons₄ hlen
  have hstore : store16 .little (UInt16.ofNat size_r) =
      [UInt8.ofNat size_r, UInt8.ofNat (size_r / 256)] := by
    rw [store16, UInt16.toNat_ofNat_of_lt' (hlt.trans (by decide))]
    rfl
  have hbuffer : blit buffer.toList 0 [] = buffer.toList := rfl
  simp only [modeManager, List.take_nil, hbuffer, List.length_nil, hsize, hb, hstore]
  exact exists_take_header ..

/-- The line of a flow whose text is empty, if the buffer does not hold another line, has no
    token. -/
theorem flowTokens_nil (h : newline ∈ cstr buffer.toList →
    (cstr buffer.toList).head? = some newline) :
    flowTokens false (modeManager .little buffer []).line.toList = some [] := by
  have hsize : ((cstr buffer.toList).findIdx? (· = newline)).getD 0 = 0 := by
    by_cases hmem : newline ∈ cstr buffer.toList
    · obtain ⟨tl, htl⟩ := List.head?_eq_some_iff.1 (h hmem)
      rw [htl, List.findIdx?_cons, if_pos (decide_eq_true rfl)]
      rfl
    · have hnone : (cstr buffer.toList).findIdx? (· = newline) = none :=
        List.findIdx?_eq_none_iff.2 fun b hb => decide_eq_false fun he => hmem (he ▸ hb)
      rw [hnone]
      rfl
  have hbuffer : blit buffer.toList 0 [] = buffer.toList := rfl
  have hcstr : cstr (blit buffer.toList 0 [newline, 0]) = [newline] :=
    cstr_append_nul (s := [newline]) (by decide) _
  have hline : cstr (strncpy (maxFlowLineSize - 3) (blit buffer.toList 0 [newline, 0])).toList =
      [newline] := by
    rw [cstr_strncpy (by rw [hcstr]; decide), hcstr]
  simp only [modeManager, List.take_nil, hbuffer, List.length_nil, hsize]
  obtain ⟨rest, hrest⟩ := exists_toList_eq_cstr_append
    (a := strncpy (maxFlowLineSize - 3) (blit buffer.toList 0 [newline, 0]))
    (by rw [hline]; decide)
  have hstrip : stripNewline ([newline] ++ 0 :: rest) = some (0 :: 0 :: rest) :=
    stripNewline_append (s := []) List.not_mem_nil rest
  rw [flowTokens, hrest, hline, hstrip, Option.bind_some, if_neg Bool.false_ne_true]
  have htokens : tokens (chars " ") 200 (0 :: 0 :: rest) 0 = some (0 :: 0 :: rest, []) :=
    tokens_none [] (0 :: rest) (by decide) (List.forall_mem_nil _) 200
  rw [htokens]
  rfl

/-- With another line in the buffer, the second byte of the datagram is not NUL. -/
theorem second_ne_nul {size_r : ℕ}
    (hsize : (cstr buffer.toList).findIdx? (· = newline) = some (size_r + 1)) :
    (blit buffer.toList (size_r + 1) [newline, 0]).getD 1 0 ≠ 0 := by
  obtain ⟨hlt, -⟩ := List.findIdx?_eq_some_iff_getElem.1 hsize
  obtain ⟨suffix, hsuffix⟩ : cstr buffer.toList <+: buffer.toList := List.takeWhile_prefix _
  have hnul := nul_notMem_cstr buffer.toList
  rw [← hsuffix]
  match hc : cstr buffer.toList with
  | [] => exact absurd hlt (by rw [hc]; exact Nat.not_lt_zero _)
  | [b] => exact absurd hlt (by rw [hc, List.length_singleton]; omega)
  | b₀ :: b₁ :: bs =>
    cases size_r with
    | zero => exact show newline ≠ 0 by decide
    | succ k =>
      rw [hc] at hnul
      exact fun h0 : b₁ = 0 => hnul (by simp [h0])

/-- The length the library finds in the second and third byte. -/
theorem toNat_load16 (e : Endian) (x u : UInt8) : (load16 e [x, u]).toNat =
    match e with
    | .little => x.toNat + 256 * u.toNat
    | .big => u.toNat + 256 * x.toNat := by
  have hx := x.toNat_lt
  have hu := u.toNat_lt
  cases e
  · exact UInt16.toNat_ofNat_of_lt' (show x.toNat + 256 * (u.toNat + 256 * 0) < 2 ^ 16 by omega)
  · exact UInt16.toNat_ofNat_of_lt' (show u.toNat + 256 * (x.toNat + 256 * 0) < 2 ^ 16 by omega)

/-- With another line in the buffer, the start of a flow is not decoded to the empty text,
    or bytes after the datagram are moved. -/
theorem not_decoded_of_newline {n : ℕ}
    (hsize : (cstr buffer.toList).findIdx? (· = newline) = some (n + 1)) :
    ¬DecodedAs e₂ buffer₁ (modeManager .little buffer []).datagram mngFlowStart [] := by
  rintro ⟨-, hmsg, hmoved⟩
  have hlt : n + 1 < maxFlowLineSize := by
    obtain ⟨hlt, -⟩ := List.findIdx?_eq_some_iff_getElem.1 hsize
    exact hlt.trans_le ((cstr_length_le _).trans buffer.toList_length.le)
  obtain ⟨rest, hrest⟩ := exists_datagram_eq hlt (by rw [hsize]; rfl)
  obtain ⟨x, hx⟩ : ∃ x, (blit buffer.toList (n + 1) [newline, 0]).getD 1 0 = x := ⟨_, rfl⟩
  have hx₀ : x.toNat ≠ 0 := fun h0 => second_ne_nul hsize (hx.trans (UInt8.toNat_inj.1 h0))
  rw [hx, List.take_succ_cons] at hrest
  have hlen : (modeManager .little buffer []).datagram.length ≤ n + 4 := by
    rw [hrest]
    simp only [List.length_cons, List.length_take]
    omega
  have hlength := congrArg UInt16.toNat (@caught_header e₂ buffer₁ _ _ _ _ _ hrest).2
  rw [toNat_load16] at hlength
  -- The text is only empty if the fourth byte, the high one of the length, is 0.
  have hv : ((n + 1) / 256) % 256 = 0 := by
    have hne :
        (catchManagerMsg e₂ buffer₁ (modeManager .little buffer []).datagram).length ≠ 0 := by
      intro h0
      rw [h0, UInt16.toNat_zero] at hlength
      cases e₂ <;> simp only at hlength <;> omega
    simpa using congrArg UInt8.toNat (caught_msg_eq_nil hrest hne hmsg)
  -- The line is shorter than 256 bytes, so the third byte is its length.
  have hu : (UInt8.ofNat (n + 1)).toNat = n + 1 := by
    rw [maxFlowLineSize] at hlt
    rw [UInt8.toNat_ofNat']
    omega
  rw [hu] at hlength
  cases e₂ <;> simp only at hlength <;> omega

/-- Whatever its command line is, the manager is not told both the start and the end of a flow. -/
theorem not_notified : ¬Notified e₁ e₂ buffer buffer₁ buffer₂ text := by
  rintro ⟨hstart, datagram, hflow, hfinish⟩
  obtain ⟨M, -, hflow⟩ := Option.bind_eq_some_iff.1 hflow
  obtain ⟨argv, hargv, hflow⟩ := Option.bind_eq_some_iff.1 hflow
  split_ifs at hflow with hne
  obtain rfl := Option.some.inj hflow
  obtain ⟨rfl, rfl⟩ := flowEnd_decoded hfinish
  have hhead : newline ∈ cstr buffer.toList →
      (cstr buffer.toList).head? = some newline := by
    intro hmem
    rcases hsize : (cstr buffer.toList).findIdx? (· = newline) with _ | _ | n
    · exact absurd (List.findIdx?_eq_none_iff.1 hsize _ hmem) (by simp)
    · -- A line that starts with its newline is empty.
      obtain ⟨hlt, hfirst, -⟩ := List.findIdx?_eq_some_iff_getElem.1 hsize
      rw [List.head?_eq_getElem?, List.getElem?_eq_getElem hlt, of_decide_eq_true hfirst]
    · exact absurd hstart (not_decoded_of_newline hsize)
  rw [flowTokens_nil hhead] at hargv
  exact hne (Option.some.inj hargv).symm

end Notified

/-- A buffer before it is used. -/
def zeroLine : CharArray maxFlowLineSize :=
  ⟨List.replicate maxFlowLineSize 0, List.length_replicate⟩

/-- The start of a flow to 10.0.0.1 is told with the empty command line, and so is its end. -/
theorem not_notified_line :
    ¬Notified .little .little zeroLine zeroLine zeroLine (chars "-a 10.0.0.1") := by
  rintro ⟨⟨-, hmsg, -⟩, -⟩
  exact absurd hmsg (by decide +kernel)

end Ditg
