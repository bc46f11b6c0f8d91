import Ditg.Dec.Record
import Ditg.Library.Format

/-!
# Logs in text mode

The decoder writes the records of a log as lines of text (`writeline` with the
option `-l`) and reads them back (`readline` with `-t`). Numbers are printed with
minimum widths, and some are scanned with maximum widths: of a number that is
longer, `readline` reads the first digits and goes on with the others. Addresses are
scanned without a NUL, over the memory that `malloc` returned.

* `textReadsBack_iff`: which records are read back, and with which memory.
-/

namespace Ditg

open Memory Text

/-! ## The model -/

/-- A line of text (`writeline`). -/
def flowText (infos : Info ℚ) : List UInt8 :=
  chars "Flow>" ++ padLeft 48 4 (decimal infos.flowId.toNat) ++ chars " "

@[inherit_doc flowText]
def seqText (infos : Info ℚ) : List UInt8 :=
  chars "Seq>" ++ padLeft 32 7 (decimal infos.seqNum.toNat) ++ chars " "

/-- An address and a port (`%hu`). -/
def hostText (name : String) (addr : CharArray inet6Addrstrlen) (port : UInt32) : List UInt8 :=
  chars name ++ padLeft 32 46 (cstr addr.toList) ++ chars "/" ++
    decimal (port.toNat % 65536) ++ chars " "

/-- A time. -/
def timeText (name : String) (time1 time2 : UInt32) (time3 : ℚ) : List UInt8 :=
  chars name ++ decimal time1.toNat ++ chars ":" ++ decimal time2.toNat ++ chars ":" ++
    fixed time3 ++ chars " "

@[inherit_doc flowText]
def sizeText (infos : Info ℚ) : List UInt8 :=
  chars "Size>" ++ padLeft 32 5 (decimal infos.size.toNat) ++ chars "\n"

@[inherit_doc flowText]
def writeline (infos : Info ℚ) : List UInt8 :=
  flowText infos ++ (seqText infos ++ (hostText "Src>" infos.srcAddr infos.srcPort ++
    (hostText "Dest>" infos.destAddr infos.destPort ++
      (timeText "txTime>" infos.txTime1 infos.txTime2 infos.txTime3 ++
        (timeText "rxTime>" infos.rxTime1 infos.rxTime2 infos.rxTime3 ++ sizeText infos)))))

/-- The lines of a log. -/
def writelines (log : List (Info ℚ)) : List UInt8 := log.flatMap writeline

/-- `"Flow>%04u "`. -/
def scanFlow : List (Directive (Info ℚ)) :=
  literal (chars "Flow>") ++ [.unsigned (some 4) fun n infos => { infos with flowId := n }, .space]

/-- `"Seq>%7u "`. -/
def scanSeq : List (Directive (Info ℚ)) :=
  literal (chars "Seq>") ++ [.unsigned (some 7) fun n infos => { infos with seqNum := n }, .space]

/-- `"Src>%1c%45c/%u "`: no NUL is written behind the characters. -/
def scanSrc : List (Directive (Info ℚ)) :=
  literal (chars "Src>") ++ [.text 1 fun _ infos => infos,
    .text 45 fun s infos => { infos with srcAddr := charArray _ (blit infos.srcAddr.toList 0 s) },
    .char 47, .unsigned none fun n infos => { infos with srcPort := n }, .space]

/-- `"Dest>%1c%45c/%u "`. -/
def scanDest : List (Directive (Info ℚ)) :=
  literal (chars "Dest>") ++ [.text 1 fun _ infos => infos,
    .text 45 fun s infos => { infos with destAddr := charArray _ (blit infos.destAddr.toList 0 s) },
    .char 47, .unsigned none fun n infos => { infos with destPort := n }, .space]

/-- `"txTime>%u:%u:%lf "`. -/
def scanTxTime : List (Directive (Info ℚ)) :=
  literal (chars "txTime>") ++ [.unsigned none fun n infos => { infos with txTime1 := n }, .char 58,
    .unsigned none fun n infos => { infos with txTime2 := n }, .char 58,
    .double fun x infos => { infos with txTime3 := x }, .space]

/-- `"rxTime>%u:%u:%lf "`. -/
def scanRxTime : List (Directive (Info ℚ)) :=
  literal (chars "rxTime>") ++ [.unsigned none fun n infos => { infos with rxTime1 := n }, .char 58,
    .unsigned none fun n infos => { infos with rxTime2 := n }, .char 58,
    .double fun x infos => { infos with rxTime3 := x }, .space]

/-- `"Size>%5u\n"`. -/
def scanSize : List (Directive (Info ℚ)) :=
  literal (chars "Size>") ++ [.unsigned (some 5) fun n infos => { infos with size := n }, .space]

/-- Scans one after the other, whatever comes of them. -/
def scanAll {S : Type} : List (List (Directive S)) → S → List UInt8 → S × List UInt8
  | [], x, s => (x, s)
  | ds :: dss, x, s => scanAll dss (scanf ds x s).state (scanf ds x s).rest

/-- The record read from a text, over the memory `infos_loc`, and what is left of the
    text. There is none at the end of the text, nor with the flow id `0` (`size` of the
    source is then `0`). -/
def readline (infos_loc : Info ℚ) (ftxt : List UInt8) : Option (Info ℚ × List UInt8) :=
  let flow := scanf scanFlow infos_loc ftxt
  if flow.eof then none
  else
    let r := scanAll [scanSeq, scanSrc, scanDest, scanTxTime, scanRxTime, scanSize]
      flow.state flow.rest
    if r.1.flowId = 0 then none else some r

/-- The records that are read from a text in turn, each with what it leaves of the
    text. `mem` is the memory that `malloc` returns in the calls. -/
def readlines (mem : ℕ → Info ℚ) : ℕ → ℕ → List UInt8 → List (Info ℚ × List UInt8)
  | 0, _, _ => []
  | n + 1, k, ftxt =>
    match readline (mem k) ftxt with
    | some (infos, ftxt) => (infos, ftxt) :: readlines mem n (k + 1) ftxt
    | none => []

/-! ## The scans of a record -/

/-- What is left of the text starts with something to scan, if there is any. -/
def LineStart (ftxt : List UInt8) : Prop := ftxt.dropWhile isSpace = ftxt

theorem lineStart_writelines (log : List (Info ℚ)) : LineStart (writelines log) := by
  rcases log with _ | ⟨infos, log⟩ <;> rfl

section Scans

variable (infos x : Info ℚ) {t : List UInt8}

theorem flowText_append (t : List UInt8) : flowText infos ++ t = chars "Flow>" ++
    (List.replicate 0 32 ++ (padLeft 48 4 (decimal infos.flowId.toNat) ++ 32 :: t)) := by
  simp only [flowText, List.append_assoc, List.replicate_zero, List.nil_append]
  rfl

theorem seqText_append (t : List UInt8) : seqText infos ++ t = chars "Seq>" ++
    (List.replicate (7 - (decimal infos.seqNum.toNat).length) 32 ++
      (decimal infos.seqNum.toNat ++ 32 :: t)) := by
  simp only [seqText, padLeft, List.append_assoc]
  rfl

theorem sizeText_append (t : List UInt8) : sizeText infos ++ t = chars "Size>" ++
    (List.replicate (5 - (decimal infos.size.toNat).length) 32 ++
      (decimal infos.size.toNat ++ 10 :: t)) := by
  simp only [sizeText, padLeft, List.append_assoc]
  rfl

theorem flowId_scanFlow_iff (t : List UInt8) :
    (scanf scanFlow x (flowText infos ++ t)).state.flowId = infos.flowId ↔
      infos.flowId.toNat < 10 ^ 4 := by
  rw [flowText_append]
  exact (numeral_padLeft (by decide) infos.flowId).scanf_eq_iff (by decide) _ 0 _ x (by decide)
    (by decide) t Info.flowId fun _ _ => rfl

theorem seqNum_scanSeq_iff (t : List UInt8) :
    (scanf scanSeq x (seqText infos ++ t)).state.seqNum = infos.seqNum ↔
      infos.seqNum.toNat < 10 ^ 7 := by
  rw [seqText_append]
  exact (numeral_decimal (by decide) infos.seqNum).scanf_eq_iff (by decide) _ _ _ x (by decide)
    (by decide) t Info.seqNum fun _ _ => rfl

theorem size_scanSize_iff (t : List UInt8) :
    (scanf scanSize x (sizeText infos ++ t)).state.size = infos.size ↔
      infos.size.toNat < 10 ^ 5 := by
  rw [sizeText_append]
  exact (numeral_decimal (by decide) infos.size).scanf_eq_iff (by decide) _ _ _ x (by decide)
    (by decide) t Info.size fun _ _ => rfl

/-- A flow id of four digits is read as a whole. -/
theorem scans_flowText (hn : infos.flowId.toNat < 10 ^ 4) (ht : LineStart t) :
    Scans scanFlow x (flowText infos ++ t) { x with flowId := infos.flowId } t := by
  rw [flowText_append]
  exact (numeral_padLeft (by decide) infos.flowId).scans (by decide) _ 0 _ x hn (by decide) ht

theorem scans_seqText (hn : infos.seqNum.toNat < 10 ^ 7) (ht : LineStart t) :
    Scans scanSeq x (seqText infos ++ t) { x with seqNum := infos.seqNum } t := by
  rw [seqText_append]
  exact (numeral_decimal (by decide) infos.seqNum).scans (by decide) _ _ _ x hn (by decide) ht

theorem scans_sizeText (hn : infos.size.toNat < 10 ^ 5) (ht : LineStart t) :
    Scans scanSize x (sizeText infos ++ t) { x with size := infos.size } t := by
  rw [sizeText_append]
  exact (numeral_decimal (by decide) infos.size).scans (by decide) _ _ _ x hn (by decide) ht

end Scans

/-- An address fills the characters behind the first blank. -/
theorem padLeft_address {s : List UInt8} (hs : s.length ≤ 45) :
    padLeft 32 46 s = 32 :: padLeft 32 45 s ∧ (padLeft 32 45 s).length = 45 := by
  constructor
  · rw [padLeft, padLeft, ← List.cons_append, ← List.replicate_succ]
    congr 2
    omega
  · rw [padLeft, List.length_append, List.length_replicate]
    omega

theorem scans_host {name : List UInt8} {s : List UInt8} (hs : s.length ≤ 45) {port : UInt32}
    (hport : port.toNat < 65536) {t : List UInt8} (ht : LineStart t)
    (store₁ : List UInt8 → Info ℚ → Info ℚ) (store₂ : UInt32 → Info ℚ → Info ℚ) (x : Info ℚ) :
    Scans (literal name ++ [.text 1 fun _ infos => infos, .text 45 store₁, .char 47,
        .unsigned none store₂, .space]) x
      (name ++ (padLeft 32 46 s ++ 47 :: (decimal (port.toNat % 65536) ++ 32 :: t)))
      (store₂ port (store₁ (padLeft 32 45 s) x)) t := by
  obtain ⟨hpad, hlen⟩ := padLeft_address hs
  have hblank : NoDigit (32 :: t) := fun c hc => Option.some_injective _ hc ▸ by decide
  have haddr := text_run (47 :: (decimal port.toNat ++ 32 :: t)) store₁ x (s := padLeft 32 45 s)
  have hnum := unsigned_run_none (fun c hc => isDigit_of_mem_decimal hc)
    (decimal_ne_nil port.toNat) hblank store₂ (store₁ (padLeft 32 45 s) x)
  rw [value_decimal, strtoul_toNat] at hnum
  rw [hlen] at haddr
  rw [hpad, Nat.mod_eq_of_lt hport]
  refine .literal name (.cons (text_run (s := [32]) _ _ _) (.cons haddr (.cons (n := 0) ?_
    (.cons hnum (.space ?_)))))
  · rfl
  · rw [List.dropWhile_cons_of_pos (by decide), ht]
    exact .nil _ _

theorem scans_time {name : List UInt8} (time1 time2 : UInt32) (n : ℕ) {t : List UInt8}
    (ht : LineStart t) (store₁ store₂ : UInt32 → Info ℚ → Info ℚ)
    (store₃ : ℚ → Info ℚ → Info ℚ) (x : Info ℚ) :
    Scans (literal name ++ [.unsigned none store₁, .char 58, .unsigned none store₂, .char 58,
        .double store₃, .space]) x
      (name ++ (decimal time1.toNat ++ 58 :: (decimal time2.toNat ++
        58 :: (fixed (n / 1000000) ++ 32 :: t))))
      (store₃ (n / 1000000) (store₂ time2 (store₁ time1 x))) t := by
  have hdigits : ∀ m : ℕ, ∀ c ∈ decimal m, isDigit c := fun m c hc => isDigit_of_mem_decimal hc
  have hcolon : ∀ s : List UInt8, NoDigit (58 :: s) :=
    fun s c hc => Option.some_injective _ hc ▸ by decide
  have hblank : NoDigit (32 :: t) := fun c hc => Option.some_injective _ hc ▸ by decide
  have hours := unsigned_run_none (hdigits _) (decimal_ne_nil time1.toNat)
    (hcolon (decimal time2.toNat ++ 58 :: (fixed (n / 1000000) ++ 32 :: t))) store₁ x
  have minutes := unsigned_run_none (hdigits _) (decimal_ne_nil time2.toNat)
    (hcolon (fixed (n / 1000000) ++ 32 :: t)) store₂ (store₁ time1 x)
  have seconds := double_run n hblank store₃ (store₂ time2 (store₁ time1 x))
  rw [value_decimal, strtoul_toNat] at hours minutes
  refine .literal name (.cons hours (.cons (n := 0) ?_ (.cons minutes (.cons (n := 0) ?_
    (.cons seconds (.space ?_))))))
  · rfl
  · rfl
  · rw [List.dropWhile_cons_of_pos (by decide), ht]
    exact .nil _ _

/-! ## The scans in turn -/

theorem scanAll_cons {S : Type} {ds : List (Directive S)} {x x' : S} {s s' : List UInt8}
    (h : Scans ds x s x' s') (dss : List (List (Directive S))) :
    scanAll (ds :: dss) x s = scanAll dss x' s' := by
  rw [scanAll, h.2.1, h.2.2]

theorem scanAll_keeps {S α : Type} (part : S → α) {dss : List (List (Directive S))}
    (h : ∀ ds ∈ dss, ∀ d ∈ ds, d.Keeps part) (x : S) (s : List UInt8) :
    part (scanAll dss x s).1 = part x := by
  induction dss generalizing x s with
  | nil => rfl
  | cons ds dss ih =>
    rw [scanAll, ih fun ds hds => h ds (List.mem_cons_of_mem _ hds)]
    exact scanf_keeps (h ds List.mem_cons_self) x s

/-- A record that is read comes from the scans in turn. -/
theorem readline_eq_some {infos_loc : Info ℚ} {ftxt : List UInt8} {r : Info ℚ × List UInt8}
    (h : readline infos_loc ftxt = some r) :
    r = scanAll [scanSeq, scanSrc, scanDest, scanTxTime, scanRxTime, scanSize]
      (scanf scanFlow infos_loc ftxt).state (scanf scanFlow infos_loc ftxt).rest := by
  rw [readline] at h
  dsimp only at h
  split_ifs at h
  exact (Option.some_injective _ h).symm

/-- What the code takes for an address. -/
structure IsAddress (s : List UInt8) : Prop where
  nonempty : s ≠ []
  length : s.length ≤ 45
  blank : 32 ∉ s

/-- The records of packets, with the microseconds of a time. -/
structure Loggable (infos : Info ℚ) : Prop where
  flowId : infos.flowId ≠ 0
  srcPort : infos.srcPort.toNat < 65536
  destPort : infos.destPort.toNat < 65536
  srcAddr : IsAddress (cstr infos.srcAddr.toList)
  destAddr : IsAddress (cstr infos.destAddr.toList)
  txTime3 : ∃ n : ℕ, infos.txTime3 = n / 1000000
  rxTime3 : ∃ n : ℕ, infos.rxTime3 = n / 1000000

/-- Two records are the same, up to the blanks before an address in the second one. -/
structure SameRecord (infos infos' : Info ℚ) : Prop where
  fields : { infos with srcAddr := infos'.srcAddr, destAddr := infos'.destAddr } = infos'
  srcAddr : (cstr infos'.srcAddr.toList).dropWhile (· = 32) = cstr infos.srcAddr.toList
  destAddr : (cstr infos'.destAddr.toList).dropWhile (· = 32) = cstr infos.destAddr.toList

theorem SameRecord.flowId {infos infos' : Info ℚ} (h : SameRecord infos infos') :
    infos'.flowId = infos.flowId := (congrArg Info.flowId h.fields).symm

theorem SameRecord.seqNum {infos infos' : Info ℚ} (h : SameRecord infos infos') :
    infos'.seqNum = infos.seqNum := (congrArg Info.seqNum h.fields).symm

theorem SameRecord.size {infos infos' : Info ℚ} (h : SameRecord infos infos') :
    infos'.size = infos.size := (congrArg Info.size h.fields).symm

/-- The numbers of a record are not longer than the maximum widths, and in the memory
    the addresses end with a NUL. -/
structure Fits (infos_loc infos : Info ℚ) : Prop where
  flowId : infos.flowId.toNat < 10 ^ 4
  seqNum : infos.seqNum.toNat < 10 ^ 7
  size : infos.size.toNat < 10 ^ 5
  srcAddr : infos_loc.srcAddr.toList.drop 45 = [0]
  destAddr : infos_loc.destAddr.toList.drop 45 = [0]

/-- The array of an address that has been read over `a`. -/
def readAddr (a : CharArray inet6Addrstrlen) (s : List UInt8) : CharArray inet6Addrstrlen :=
  charArray _ (blit a.toList 0 (padLeft 32 45 s))

/-- An address is read as a string if a NUL stands behind it. -/
theorem cstr_readAddr_iff (a : CharArray inet6Addrstrlen) {s : List UInt8} (hs : IsAddress s)
    (hnul : 0 ∉ s) :
    (cstr (readAddr a s).toList).dropWhile (· = 32) = s ↔ a.toList.drop 45 = [0] := by
  have hlen := (padLeft_address hs.length).2
  -- The byte behind the characters that are read.
  obtain ⟨b, hb⟩ : ∃ b, a.toList.drop 45 = [b] := by
    rw [← List.length_eq_one_iff, List.length_drop, a.toList_length]
    rfl
  have hread : (readAddr a s).toList = padLeft 32 45 s ++ [b] := by
    rw [readAddr, charArray, List.Vector.toList_mk, blit, List.take_zero, List.nil_append, hlen,
      hb, List.take_left']
    rw [List.length_append, hlen]
    rfl
  have hdrop : ∀ r : List UInt8, (padLeft 32 45 s ++ r).dropWhile (· = 32) = s ++ r := by
    intro r
    obtain ⟨c, s', hc⟩ := List.exists_cons_of_ne_nil hs.nonempty
    have hne : c ≠ 32 := fun h => hs.blank (by rw [hc, h]; exact List.mem_cons_self)
    rw [padLeft, List.append_assoc, List.dropWhile_append_of_pos fun d hd => by
      rw [List.eq_of_mem_replicate hd]; decide]
    rw [hc, List.cons_append, List.dropWhile_cons_of_neg (by simpa using hne)]
  have hpad : 0 ∉ padLeft 32 45 s := by
    rw [padLeft, List.mem_append, not_or]
    exact ⟨fun h => absurd (List.eq_of_mem_replicate h) (by decide), hnul⟩
  rw [hread, hb]
  by_cases h0 : b = 0
  · -- It ends the string.
    rw [h0, cstr_append_nul hpad, ← List.append_nil (padLeft 32 45 s), hdrop, List.append_nil]
    exact iff_of_true rfl rfl
  · -- It is part of the string.
    have hmem : 0 ∉ padLeft 32 45 s ++ [b] := by
      rw [List.mem_append, List.mem_singleton, not_or]
      exact ⟨hpad, Ne.symm h0⟩
    rw [cstr_of_notMem hmem, hdrop]
    refine iff_of_false (fun h => ?_) (fun h => h0 (List.cons.inj h).1)
    exact List.cons_ne_nil b [] (List.append_right_eq_self.1 h)

/-- What follows the sequence number in a line, and the text behind the line. -/
def lineRest (infos : Info ℚ) (t : List UInt8) : List UInt8 :=
  hostText "Src>" infos.srcAddr infos.srcPort ++
    (hostText "Dest>" infos.destAddr infos.destPort ++
      (timeText "txTime>" infos.txTime1 infos.txTime2 infos.txTime3 ++
        (timeText "rxTime>" infos.rxTime1 infos.rxTime2 infos.rxTime3 ++ (sizeText infos ++ t))))

theorem writeline_append (infos : Info ℚ) (t : List UInt8) :
    writeline infos ++ t = flowText infos ++ (seqText infos ++ lineRest infos t) := by
  simp only [writeline, lineRest, List.append_assoc]

section Line

variable {infos : Info ℚ} (h : Loggable infos) (t : List UInt8)

include h

/-- Between the sequence number and the size everything is read. -/
theorem scanAll_lineRest (x : Info ℚ) :
    scanAll [scanSrc, scanDest, scanTxTime, scanRxTime, scanSize] x (lineRest infos t) =
      scanAll [scanSize] { infos with
        flowId := x.flowId, seqNum := x.seqNum, size := x.size,
        srcAddr := readAddr x.srcAddr (cstr infos.srcAddr.toList),
        destAddr := readAddr x.destAddr (cstr infos.destAddr.toList) } (sizeText infos ++ t) := by
  obtain ⟨ntx, htx⟩ := h.txTime3
  obtain ⟨nrx, hrx⟩ := h.rxTime3
  have hhost : ∀ (name : String) (addr : CharArray inet6Addrstrlen) (port : UInt32) s,
      hostText name addr port ++ s = chars name ++ (padLeft 32 46 (cstr addr.toList) ++
        47 :: (decimal (port.toNat % 65536) ++ 32 :: s)) := by
    intro name addr port s
    simp only [hostText, List.append_assoc]
    rfl
  have htime : ∀ (name : String) (time1 time2 : UInt32) (time3 : ℚ) s,
      timeText name time1 time2 time3 ++ s = chars name ++ (decimal time1.toNat ++
        58 :: (decimal time2.toNat ++ 58 :: (fixed time3 ++ 32 :: s))) := by
    intro name time1 time2 time3 s
    simp only [timeText, List.append_assoc]
    rfl
  rw [lineRest, hhost, hhost, htime, htime, htx, hrx]
  refine (scanAll_cons (scans_host h.srcAddr.length h.srcPort (by rfl) _ _ x) _).trans ?_
  refine (scanAll_cons (scans_host h.destAddr.length h.destPort (by rfl) _ _ _) _).trans ?_
  refine (scanAll_cons (scans_time infos.txTime1 infos.txTime2 ntx (by rfl) _ _ _ _) _).trans ?_
  refine (scanAll_cons (scans_time infos.rxTime1 infos.rxTime2 nrx (by rfl) _ _ _ _) _).trans ?_
  rfl

variable {t} (ht : LineStart t) {infos_loc : Info ℚ}

include ht

/-- A record that fits is read back, up to the next line. -/
theorem readline_of_fits (hfits : Fits infos_loc infos) :
    ∃ infos', readline infos_loc (writeline infos ++ t) = some (infos', t) ∧
      SameRecord infos infos' := by
  have hflow := scans_flowText infos infos_loc hfits.flowId
    (t := seqText infos ++ lineRest infos t) (by rfl)
  rw [readline, writeline_append, hflow.2.1, hflow.2.2, Scanned.eof, hflow.1]
  rw [scanAll_cons (scans_seqText infos _ hfits.seqNum (by rfl)), scanAll_lineRest h,
    scanAll_cons (scans_sizeText infos _ hfits.size ht)]
  simp only [scanAll, reduceCtorEq, false_and, decide_false, Bool.false_eq_true, if_false]
  refine ⟨_, if_neg h.flowId, ⟨rfl, ?_, ?_⟩⟩
  · exact (cstr_readAddr_iff _ h.srcAddr (nul_notMem_cstr _)).2 hfits.srcAddr
  · exact (cstr_readAddr_iff _ h.destAddr (nul_notMem_cstr _)).2 hfits.destAddr

omit ht in
/-- A record that is read back fits. -/
theorem fits_of_readline {r : Info ℚ × List UInt8}
    (hr : readline infos_loc (writeline infos ++ t) = some r) (hsame : SameRecord infos r.1) :
    Fits infos_loc infos := by
  have hread := readline_eq_some hr
  rw [writeline_append] at hread
  -- No later scan stores to the flow id, the sequence number or the addresses.
  have hflowId : infos.flowId.toNat < 10 ^ 4 := by
    rw [← flowId_scanFlow_iff infos infos_loc (seqText infos ++ lineRest infos t)]
    rw [← hsame.flowId, hread]
    refine (scanAll_keeps Info.flowId ?_ _ _).symm
    simp only [scanSeq, scanSrc, scanDest, scanTxTime, scanRxTime, scanSize,
      List.forall_mem_cons, forall_keeps_literal]
    simp [Directive.Keeps]
  have hflow := scans_flowText infos infos_loc hflowId
    (t := seqText infos ++ lineRest infos t) (by rfl)
  rw [hflow.2.1, hflow.2.2] at hread
  have hseqNum : infos.seqNum.toNat < 10 ^ 7 := by
    rw [← seqNum_scanSeq_iff infos { infos_loc with flowId := infos.flowId } (lineRest infos t)]
    rw [← hsame.seqNum, hread, scanAll]
    refine (scanAll_keeps Info.seqNum ?_ _ _).symm
    simp only [scanSrc, scanDest, scanTxTime, scanRxTime, scanSize, List.forall_mem_cons,
      forall_keeps_literal]
    simp [Directive.Keeps]
  rw [scanAll_cons (scans_seqText infos _ hseqNum (by rfl)), scanAll_lineRest h] at hread
  have hkeep : r.1.srcAddr = readAddr infos_loc.srcAddr (cstr infos.srcAddr.toList) ∧
      r.1.destAddr = readAddr infos_loc.destAddr (cstr infos.destAddr.toList) := by
    rw [hread]
    constructor
    · rw [scanAll_keeps Info.srcAddr]
      simp only [scanSize, List.forall_mem_cons, forall_keeps_literal]
      simp [Directive.Keeps]
    · rw [scanAll_keeps Info.destAddr]
      simp only [scanSize, List.forall_mem_cons, forall_keeps_literal]
      simp [Directive.Keeps]
  refine ⟨hflowId, hseqNum, ?_, ?_, ?_⟩
  · have hsize := hsame.size
    rw [hread, scanAll, scanAll, size_scanSize_iff] at hsize
    exact hsize
  · rw [← cstr_readAddr_iff _ h.srcAddr (nul_notMem_cstr _), ← hkeep.1]
    exact hsame.srcAddr
  · rw [← cstr_readAddr_iff _ h.destAddr (nul_notMem_cstr _), ← hkeep.2]
    exact hsame.destAddr

end Line

/-! ## A log -/

/-- Reading the text of a log returns its records in turn and then no more, and each
    call leaves the text at the start of the next line. -/
def TextReadsBack (mem : ℕ → Info ℚ) (log : List (Info ℚ)) : Prop :=
  let reads := readlines mem (log.length + 1) 0 (writelines log)
  List.Forall₂ SameRecord log (reads.map Prod.fst) ∧
    reads.map Prod.snd = log.tails.tail.map writelines

theorem tails_eq_cons {α : Type} (l : List α) : l.tails = l :: l.tails.tail := by
  rcases l with _ | ⟨x, l⟩ <;> rfl

/-- The calls from the `k`-th on, for what is left of the log. -/
theorem readlines_iff (mem : ℕ → Info ℚ) {log : List (Info ℚ)} (h : ∀ infos ∈ log, Loggable infos)
    (k : ℕ) :
    (List.Forall₂ SameRecord log
        ((readlines mem (log.length + 1) k (writelines log)).map Prod.fst) ∧
      (readlines mem (log.length + 1) k (writelines log)).map Prod.snd =
        log.tails.tail.map writelines) ↔
      ∀ i infos, log[i]? = some infos → Fits (mem (k + i)) infos := by
  induction log generalizing k with
  | nil =>
    have hread : readlines mem 1 k (writelines []) = [] := rfl
    simp [hread]
  | cons infos log ih =>
    have ih := ih (fun r hr => h r (List.mem_cons_of_mem _ hr)) (k + 1)
    have hinfos := h infos List.mem_cons_self
    have hwrite : writelines (infos :: log) = writeline infos ++ writelines log :=
      List.flatMap_cons
    have hsplit : (∀ i r, (infos :: log)[i]? = some r → Fits (mem (k + i)) r) ↔
        Fits (mem k) infos ∧ ∀ i r, log[i]? = some r → Fits (mem (k + 1 + i)) r := by
      constructor
      · intro hall
        refine ⟨hall 0 infos rfl, fun i r hr => ?_⟩
        rw [Nat.add_assoc, Nat.add_comm 1]
        exact hall (i + 1) r hr
      · rintro ⟨h₀, hall⟩ (_ | i) r hr
        · exact Option.some_injective _ hr ▸ h₀
        · rw [← Nat.add_comm 1, ← Nat.add_assoc]
          exact hall i r hr
    rw [hsplit, List.length_cons, readlines, hwrite, List.tails_cons, List.tail_cons,
      tails_eq_cons log]
    by_cases hfits : Fits (mem k) infos
    · obtain ⟨infos', hread, hsame⟩ :=
        readline_of_fits hinfos (lineStart_writelines log) hfits
      simp only [hread, List.map_cons, List.forall₂_cons, List.cons.injEq, true_and, hsame, hfits]
      exact ih
    · -- A record that does not fit is read as another one, or not at all.
      refine iff_of_false (fun hreads => hfits ?_) fun hall => hfits hall.1
      rcases hread : readline (mem k) (writeline infos ++ writelines log) with _ | r
      · rw [hread] at hreads
        cases hreads.1
      · rw [hread] at hreads
        simp only [List.map_cons, List.forall₂_cons] at hreads
        exact fits_of_readline hinfos hread hreads.1.1

/-- The records of a log are read back as they were exactly if all of them fit. -/
theorem textReadsBack_iff (mem : ℕ → Info ℚ) (log : List (Info ℚ))
    (h : ∀ infos ∈ log, Loggable infos) :
    TextReadsBack mem log ↔ ∀ i infos, log[i]? = some infos → Fits (mem i) infos := by
  rw [TextReadsBack, readlines_iff mem h 0]
  simp only [Nat.zero_add]

/-- A record with the longest numbers and addresses that fit. -/
def widest : Info ℚ :=
  { (default : Info ℚ) with
    flowId := 9999, seqNum := 9999999, srcPort := 65535, destPort := 8999, size := 99999,
    srcAddr := charArray _ (List.replicate 45 102), destAddr := charArray _ (chars "10.0.0.1"),
    txTime1 := 23, txTime2 := 59, txTime3 := 59999999 / 1000000,
    rxTime1 := 0, rxTime2 := 0, rxTime3 := 1 / 1000000 }

theorem loggable_widest : Loggable widest where
  flowId := by decide
  srcPort := by decide
  destPort := by decide
  srcAddr := ⟨by decide +kernel, by decide +kernel, by decide +kernel⟩
  destAddr := ⟨by decide +kernel, by decide +kernel, by decide +kernel⟩
  txTime3 := ⟨59999999, by rfl⟩
  rxTime3 := ⟨1, by rfl⟩

/-- Two of them, read into cleared memory. -/
theorem textReadsBack_iff_widest :
    (∀ infos ∈ [widest, widest], Loggable infos) ∧
      (TextReadsBack (fun _ => default) [widest, widest] ↔
        ∀ (i : ℕ) infos, [widest, widest][i]? = some infos → Fits default infos) := by
  have h : ∀ infos ∈ [widest, widest], Loggable infos := by
    simpa using loggable_widest
  exact ⟨h, textReadsBack_iff (fun _ => default) [widest, widest] h⟩

/-- The record of a flow id with five digits. -/
def longFlow : Info ℚ := { widest with flowId := 12345 }

/-- The flow id `12345` is read as `1234`, also into cleared memory. -/
theorem longFlow_lost : Loggable longFlow ∧ ¬ TextReadsBack (fun _ => default) [longFlow] := by
  refine ⟨{ loggable_widest with flowId := by decide }, fun h => ?_⟩
  have hread : (readlines (fun _ => default) 2 0 (writelines [longFlow])).map
      (fun r => r.1.flowId) = [1234] := by decide +kernel
  obtain ⟨hrecords, -⟩ := h
  rcases hr : readlines (fun _ => default) 2 0 (writelines [longFlow]) with _ | ⟨r, rs⟩
  · rw [hr] at hread
    cases hread
  · rw [List.length_singleton, hr, List.map_cons, List.forall₂_cons] at hrecords
    rw [hr, List.map_cons, List.cons.injEq, hrecords.1.flowId] at hread
    exact absurd hread.1 (by decide)

end Ditg
