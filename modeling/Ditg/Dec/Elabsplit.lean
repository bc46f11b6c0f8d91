import Ditg.Dec.FlowTable
import Ditg.Library.Binning

/-!
# The series of a flow

From the records of a flow, `elabsplit` writes up to four series with a line for each
interval: the bitrate, the jitter, the delay and the packets lost. Each of them has a block
of its own, which closes intervals when a record comes behind the open one (`Block.close`)
and adds up what it is to write (`bitBlock`, `jitBlock`, `delBlock`, `pktBlock`). The
intervals are counted from the first record of the whole log, so that those before the first
record of the flow are written as zeros by a branch of their own.

With exact arithmetic, a block refines the series of intervals of the library
(`Block.Refines`).
-/

namespace Ditg

open Binning (slot lt_slot_iff le_slot_add_one)

section Model

variable {F : Type} [CDouble F]

/-! ## The model -/

/-- `ceil` of `math.h`. -/
def ceil (x : F) : F := ((0 : ℤ) : F) - CDouble.floor (((0 : ℤ) : F) - x)

/-- The conversion of a counter to a double. -/
def ofULong (n : ℕ) : F := ((n : ℤ) : F)

/-- The quotient by a counter. There is none by zero. -/
def quot (x : F) (n : ℕ) : Option F := if n = 0 then none else some (x / ofULong n)

/-- A counter less one, unsigned and of 64 bits. -/
def predULong (n : ℕ) : ℕ := if n = 0 then 2 ^ 64 - 1 else n - 1

/-- The receive time of a record, as `elabsplit` computes it: hours and minutes are
    multiplied before they are converted. -/
def Info.secrxTime (infos : Info F) : F :=
  ofUInt32 (infos.rxTime1 * 3600) + ofUInt32 (infos.rxTime2 * 60) + infos.rxTime3

/-- The delay of a record. -/
def Info.currentdelay (infos : Info F) : F :=
  deltatime (secTime infos.txTime1 infos.txTime2 infos.txTime3) infos.secrxTime

/-- The variables of a block: the intervals closed, the left edge of the open one, what is
    added up in it, and the lines written, of a time and a value each. -/
structure Block (F A V : Type) where
  intclosed : ℕ
  secinit : F
  temp : A
  lines : List (F × V)

/-- In what the blocks differ. -/
structure BlockKind (F A V E : Type) where
  /-- The length in seconds of the first intervals, given that of one in milliseconds. -/
  edge : F → ℕ → F
  /-- The value of an interval before the flow. -/
  zero : V
  /-- The value of an interval that is closed, and what is added up then. -/
  close : F → A → V × A
  init : A
  add : A → E → A
  /-- The value of the last interval. -/
  last : F → A → V

section Block

variable {A V E : Type} (kind : BlockKind F A V E) (ms secfirstline_gl secfirstline_loc : F)

/-- The time of a line. -/
def lineTime (k : ℕ) : F := ofULong k * ms / ((1000 : ℤ) : F)

/-- One round of the loop that closes intervals. -/
def Block.closeOne (b : Block F A V) : Block F A V :=
  if kind.edge ms (b.intclosed + 1) + secfirstline_gl < secfirstline_loc then
    { b with
      lines := b.lines ++ [(lineTime ms b.intclosed, kind.zero)]
      intclosed := b.intclosed + 1 }
  else
    { b with
      lines := b.lines ++ [(lineTime ms b.intclosed, (kind.close ms b.temp).1)]
      temp := (kind.close ms b.temp).2
      intclosed := b.intclosed + 1 }

/-- The intervals before a time are closed. -/
def Block.close (secrxTime : F) (b : Block F A V) : Block F A V :=
  if secrxTime - b.secinit > ms / ((1000 : ℤ) : F) then
    let temporary := deltatime secfirstline_gl secrxTime * ((1000 : ℤ) : F) / ms
    let inttoclose :=
      (CDouble.trunc (ceil temporary - ofULong b.intclosed - ((1 : ℤ) : F))).toNat
    let b := (closeOne kind ms secfirstline_gl secfirstline_loc)^[inttoclose] b
    { b with secinit := lineTime ms b.intclosed + secfirstline_gl }
  else b

/-- The block after a record. -/
def Block.record (b : Block F A V) (secrxTime : F) (e : E) : Block F A V :=
  let b := b.close kind ms secfirstline_gl secfirstline_loc secrxTime
  { b with temp := kind.add b.temp e }

/-- The block after many records: of each, its receive time and what is added. -/
def Block.records (b : Block F A V) (es : List (F × E)) : Block F A V :=
  es.foldl (fun b e => b.record kind ms secfirstline_gl secfirstline_loc e.1 e.2) b

/-- The lines, with that of the last interval. -/
def Block.finish (b : Block F A V) : List (F × V) :=
  b.lines ++ [(lineTime ms b.intclosed, kind.last ms b.temp)]

/-- A block before the first record. -/
def Block.start : Block F A V := ⟨0, ((0 : ℤ) : F), kind.init, []⟩

/-- At the first record, the first interval begins with the log. -/
def Block.firstline : Block F A V := { Block.start kind with secinit := secfirstline_gl }

end Block

/-- The bitrate: `tempbitrate`, to which the sizes are added. -/
def bitBlock : BlockKind F F F UInt32 where
  edge ms k := ofULong k * ms / ((1000 : ℤ) : F)
  zero := ((0 : ℤ) : F)
  close ms tempbitrate := (tempbitrate * ((8 : ℤ) : F) / ms, ((0 : ℤ) : F))
  init := ((0 : ℤ) : F)
  add tempbitrate size := tempbitrate + ofUInt32 size
  last ms tempbitrate := tempbitrate * ((8 : ℤ) : F) / ms

/-- The jitter: `tempjitter`, to which the differences between delays are added, and the
    records `pktjitter`, starting with one that belongs to the interval before. -/
def jitBlock : BlockKind F (F × ℕ) (Option F) F where
  edge ms k := ofULong k * ms / ((1000 : ℤ) : F)
  zero := some ((0 : ℤ) : F)
  close _ temp :=
    if temp.2 > 1 then (quot temp.1 (temp.2 - 1), (((0 : ℤ) : F), 1))
    else (some ((0 : ℤ) : F), (((0 : ℤ) : F), temp.2))
  init := (((0 : ℤ) : F), 0)
  add temp difference := (temp.1 + difference, temp.2 + 1)
  last _ temp := quot temp.1 (predULong temp.2)

/-- The delay: `tempdelay`, to which the delays are added, and the records `pktdelay`. -/
def delBlock : BlockKind F (F × ℕ) (Option F) F where
  edge ms k := ofULong k * (ms / ((1000 : ℤ) : F))
  zero := some ((0 : ℤ) : F)
  close _ temp :=
    if temp.2 > 0 then (quot temp.1 temp.2, (((0 : ℤ) : F), 0)) else (some ((0 : ℤ) : F), temp)
  init := (((0 : ℤ) : F), 0)
  add temp currentdelay := (temp.1 + currentdelay, temp.2 + 1)
  last _ temp := quot temp.1 temp.2

/-- The counters of the packets lost: those of the interval, and over all intervals the
    records and the packets lost. -/
structure PktTemp where
  temppktloss : ℕ
  pktpktloss : ℕ
  totalpktloss : ℕ
  deriving DecidableEq

/-- The counters after a record. -/
def PktTemp.add (t : PktTemp) (seqNum : UInt32) : PktTemp :=
  let pktpktloss := t.pktpktloss + 1
  if seqNum.toNat > pktpktloss + t.totalpktloss then
    { temppktloss := t.temppktloss + seqNum.toNat - pktpktloss - t.totalpktloss
      pktpktloss := pktpktloss
      totalpktloss := seqNum.toNat - pktpktloss }
  else { t with pktpktloss := pktpktloss }

/-- The packets lost. -/
def pktBlock : BlockKind F PktTemp ℕ UInt32 where
  edge ms k := ofULong k * ms / ((1000 : ℤ) : F)
  zero := 0
  close _ temp := (temp.temppktloss, { temp with temppktloss := 0 })
  init := ⟨0, 0, 0⟩
  add := PktTemp.add
  last _ temp := temp.temppktloss

/-- Which series are asked for, and the lengths of their intervals in milliseconds. -/
structure SeriesOptions (F : Type) where
  flagbit : Bool
  flagjit : Bool
  flagdel : Bool
  flagpkt : Bool
  msbitrate : F
  msjitter : F
  msdelay : F
  mspktloss : F

/-- The variables of `elabsplit` for a flow. -/
structure ElabState (F : Type) where
  flagfirstline : Bool
  secfirstline_loc : F
  lastdelay : F
  bit : Block F F F
  jit : Block F (F × ℕ) (Option F)
  del : Block F (F × ℕ) (Option F)
  pkt : Block F PktTemp ℕ

/-- Before the first record of the flow. -/
def ElabState.start : ElabState F where
  flagfirstline := false
  secfirstline_loc := ((90000 : ℤ) : F)
  lastdelay := ((0 : ℤ) : F)
  bit := .start bitBlock
  jit := .start jitBlock
  del := .start delBlock
  pkt := .start pktBlock

/-- At the first record of the flow, the first interval begins with the log. -/
def ElabState.first (s : ElabState F) (o : SeriesOptions F) (secfirstline_gl : F)
    (infos : Info F) : ElabState F where
  flagfirstline := true
  secfirstline_loc := infos.secrxTime
  lastdelay := if o.flagjit then infos.currentdelay else s.lastdelay
  bit := if o.flagbit then { s.bit with secinit := secfirstline_gl } else s.bit
  jit := if o.flagjit then { s.jit with secinit := secfirstline_gl } else s.jit
  del := if o.flagdel then { s.del with secinit := secfirstline_gl } else s.del
  pkt := if o.flagpkt then { s.pkt with secinit := secfirstline_gl } else s.pkt

/-- After a record of the flow. -/
def ElabState.record (o : SeriesOptions F) (secfirstline_gl : F) (s : ElabState F)
    (infos : Info F) : ElabState F :=
  let s := if s.flagfirstline then s else s.first o secfirstline_gl infos
  { s with
    bit := if o.flagbit then s.bit.record bitBlock o.msbitrate secfirstline_gl s.secfirstline_loc
      infos.secrxTime infos.size else s.bit
    jit := if o.flagjit then s.jit.record jitBlock o.msjitter secfirstline_gl s.secfirstline_loc
      infos.secrxTime (CDouble.fabs (infos.currentdelay - s.lastdelay)) else s.jit
    lastdelay := if o.flagjit then infos.currentdelay else s.lastdelay
    del := if o.flagdel then s.del.record delBlock o.msdelay secfirstline_gl s.secfirstline_loc
      infos.secrxTime infos.currentdelay else s.del
    pkt := if o.flagpkt then s.pkt.record pktBlock o.mspktloss secfirstline_gl s.secfirstline_loc
      infos.secrxTime infos.seqNum else s.pkt }

/-- The files of the series of a flow. -/
structure ElabFiles (F : Type) where
  bit : List (F × F)
  jit : List (F × Option F)
  del : List (F × Option F)
  pkt : List (F × ℕ)

/-- The series of a flow, from its records. A file that is not asked for is empty here. -/
def elabFlow (o : SeriesOptions F) (secfirstline_gl : F) (log : List (Info F)) : ElabFiles F :=
  let s := log.foldl (ElabState.record o secfirstline_gl) .start
  { bit := if o.flagbit then s.bit.finish bitBlock o.msbitrate else []
    jit := if o.flagjit then s.jit.finish jitBlock o.msjitter else []
    del := if o.flagdel then s.del.finish delBlock o.msdelay else []
    pkt := if o.flagpkt then s.pkt.finish pktBlock o.mspktloss else [] }

end Model

/-! ## Exact arithmetic -/

theorem ceil_eq (x : ℚ) : ceil x = ⌈x⌉ := by
  simp [ceil, CDouble.floor, Int.floor_neg]

theorem ofULong_eq (n : ℕ) : (ofULong n : ℚ) = n := by simp [ofULong]

theorem lineTime_eq (ms : ℚ) (k : ℕ) : lineTime ms k = k * (ms / 1000) := by
  rw [lineTime, ofULong_eq]
  push_cast
  ring

/-- A time in intervals since the first record of the log. -/
def intervals (ms secfirstline_gl secrxTime : ℚ) : ℚ := (secrxTime - secfirstline_gl) / (ms / 1000)

section Exact

variable {A V E : Type} {kind : BlockKind ℚ A V E} {ms secfirstline_gl secfirstline_loc : ℚ}
  {b : Block ℚ A V} {s : Binning.State A V}

/-- The series of intervals that a block writes. -/
def BlockKind.binning (kind : BlockKind ℚ A V E) (ms : ℚ) : Binning A V E where
  value temp := (kind.close ms temp).1
  reset temp := (kind.close ms temp).2
  add := kind.add

/-- A block is where a series of intervals is. -/
structure Block.Refines (ms : ℚ) (b : Block ℚ A V) (s : Binning.State A V) : Prop where
  intclosed : b.intclosed = s.out.length
  temp : b.temp = s.acc
  lines : b.lines = s.out.zipIdx.map fun line => (lineTime ms line.2, line.1)

/-- The open interval is not before the flow. -/
def Started (ms secfirstline_gl secfirstline_loc : ℚ) (s : Binning.State A V) : Prop :=
  secfirstline_loc ≤ lineTime ms (s.out.length + 1) + secfirstline_gl

/-- An interval before the flow is open, in which nothing is added up, or a later one. -/
def Settled (kind : BlockKind ℚ A V E) (ms secfirstline_gl secfirstline_loc : ℚ)
    (s : Binning.State A V) : Prop :=
  kind.close ms s.acc = (kind.zero, s.acc) ∨ Started ms secfirstline_gl secfirstline_loc s

theorem Started.mono (hms : 0 < ms) {s' : Binning.State A V}
    (h : Started ms secfirstline_gl secfirstline_loc s) (hle : s.out.length ≤ s'.out.length) :
    Started ms secfirstline_gl secfirstline_loc s' := by
  have hpos : (0 : ℚ) < ms / 1000 := by positivity
  have hcast : ((s.out.length + 1 : ℕ) : ℚ) ≤ ((s'.out.length + 1 : ℕ) : ℚ) :=
    Nat.cast_le.2 (Nat.add_le_add_right hle 1)
  rw [Started, lineTime_eq] at h ⊢
  have hmul := mul_le_mul_of_nonneg_right hcast hpos.le
  linarith

/-- A closed interval is a closed interval: before the flow, nothing is added up. -/
theorem Block.Refines.closeOne (hms : 0 < ms)
    (hedge : ∀ k, kind.edge ms k = lineTime ms k) (h : b.Refines ms s)
    (hs : Settled kind ms secfirstline_gl secfirstline_loc s) :
    (b.closeOne kind ms secfirstline_gl secfirstline_loc).Refines ms ((kind.binning ms).close s) ∧
      Settled kind ms secfirstline_gl secfirstline_loc ((kind.binning ms).close s) := by
  have hlines (v : V) : b.lines ++ [(lineTime ms b.intclosed, v)] =
      (s.out ++ [v]).zipIdx.map fun line => (lineTime ms line.2, line.1) := by
    rw [List.zipIdx_append, List.map_append, ← h.lines, h.intclosed]
    simp
  have hlen : ((kind.binning ms).close s).out.length = s.out.length + 1 := by
    rw [Binning.close, List.length_append, List.length_singleton]
  have hvalue : ((kind.binning ms).close s).out = s.out ++ [(kind.close ms s.acc).1] := rfl
  have hreset : ((kind.binning ms).close s).acc = (kind.close ms s.acc).2 := rfl
  rw [Block.closeOne, hedge]
  refine ⟨?_, ?_⟩
  · split_ifs with hlead
    · have hidle : kind.close ms s.acc = (kind.zero, s.acc) := by
        refine hs.resolve_right (not_le.2 ?_)
        rwa [← h.intclosed]
      refine ⟨by rw [hlen, ← h.intclosed], ?_, ?_⟩
      · rw [hreset, hidle]
        exact h.temp
      · rw [hvalue, hidle]
        exact hlines _
    · refine ⟨by rw [hlen, ← h.intclosed], ?_, ?_⟩
      · rw [hreset, ← h.temp]
      · rw [hvalue, ← h.temp]
        exact hlines _
  · rcases hs with hidle | hle
    · left
      rw [hreset, hidle, hidle]
    · exact .inr (hle.mono hms (hlen ▸ Nat.le_succ _))

/-- A record is behind the open interval if it is more than an interval from its left
    edge. -/
theorem behind_iff (hms : 0 < ms) (k : ℕ) (secrxTime : ℚ) :
    secrxTime - (lineTime ms k + secfirstline_gl) > ms / ((1000 : ℤ) : ℚ) ↔
      k < slot (intervals ms secfirstline_gl secrxTime) := by
  have hpos : (0 : ℚ) < ms / 1000 := by positivity
  rw [lt_slot_iff, intervals, lt_div_iff₀ hpos, lineTime_eq]
  push_cast
  constructor
  · intro h
    linarith
  · intro h
    linarith

/-- The intervals to close are those before that of the record. -/
theorem inttoclose_eq {secrxTime : ℚ} (hms : 0 < ms) (hgl : secfirstline_gl ≤ secrxTime) (k : ℕ) :
    (CDouble.trunc (ceil (deltatime secfirstline_gl secrxTime * ((1000 : ℤ) : ℚ) / ms) -
      ofULong k - ((1 : ℤ) : ℚ))).toNat = slot (intervals ms secfirstline_gl secrxTime) - k := by
  have hx : deltatime secfirstline_gl secrxTime * ((1000 : ℤ) : ℚ) / ms =
      intervals ms secfirstline_gl secrxTime := by
    rw [deltatime, intervals]
    push_cast
    field_simp
  have hnonneg : 0 ≤ intervals ms secfirstline_gl secrxTime := by
    rw [intervals]
    have hsub : 0 ≤ secrxTime - secfirstline_gl := sub_nonneg.2 hgl
    positivity
  have hceil : (⌈intervals ms secfirstline_gl secrxTime⌉ : ℤ) =
      (⌈intervals ms secfirstline_gl secrxTime⌉₊ : ℤ) :=
    (Int.natCast_ceil_eq_ceil hnonneg).symm
  have hint : ceil (intervals ms secfirstline_gl secrxTime) - ofULong k - ((1 : ℤ) : ℚ) =
      ((⌈intervals ms secfirstline_gl secrxTime⌉ - k - 1 : ℤ) : ℚ) := by
    rw [ceil_eq, ofULong_eq]
    push_cast
    ring
  have htrunc (n : ℤ) : CDouble.trunc (n : ℚ) = n := by
    simp [CDouble.trunc]
  rw [hx, hint, htrunc, slot, hceil]
  omega

/-- Closing intervals. -/
theorem Block.Refines.close (hms : 0 < ms) (hedge : ∀ k, kind.edge ms k = lineTime ms k)
    (h : b.Refines ms s) (hinit : b.secinit = lineTime ms b.intclosed + secfirstline_gl)
    (hs : Settled kind ms secfirstline_gl secfirstline_loc s) {secrxTime : ℚ}
    (hgl : secfirstline_gl ≤ secrxTime) :
    (b.close kind ms secfirstline_gl secfirstline_loc secrxTime).Refines ms
        ((kind.binning ms).closeTo s (slot (intervals ms secfirstline_gl secrxTime))) ∧
      (b.close kind ms secfirstline_gl secfirstline_loc secrxTime).secinit = lineTime ms
        (b.close kind ms secfirstline_gl secfirstline_loc secrxTime).intclosed + secfirstline_gl ∧
      Settled kind ms secfirstline_gl secfirstline_loc
        ((kind.binning ms).closeTo s (slot (intervals ms secfirstline_gl secrxTime))) := by
  have hiter (n : ℕ) : ((Block.closeOne kind ms secfirstline_gl secfirstline_loc)^[n] b).Refines ms
      ((kind.binning ms).close^[n] s) ∧ Settled kind ms secfirstline_gl secfirstline_loc
        ((kind.binning ms).close^[n] s) := by
    induction n with
    | zero => exact ⟨h, hs⟩
    | succ n ih =>
      rw [Function.iterate_succ_apply', Function.iterate_succ_apply']
      exact ih.1.closeOne hms hedge ih.2
  rw [Binning.closeTo, ← h.intclosed]
  have hbehind : secrxTime - b.secinit > ms / ((1000 : ℤ) : ℚ) ↔
      b.intclosed < slot (intervals ms secfirstline_gl secrxTime) := by
    rw [hinit, behind_iff hms]
  by_cases hlt : b.intclosed < slot (intervals ms secfirstline_gl secrxTime)
  · simp only [Block.close, if_pos (hbehind.2 hlt), inttoclose_eq hms hgl]
    obtain ⟨⟨hclosed, htemp, hlines⟩, hsettled⟩ :=
      hiter (slot (intervals ms secfirstline_gl secrxTime) - b.intclosed)
    exact ⟨⟨hclosed, htemp, hlines⟩, trivial, hsettled⟩
  · rw [Block.close, if_neg (hbehind.not.2 hlt), Nat.sub_eq_zero_of_le (not_lt.1 hlt)]
    exact ⟨h, hinit, hs⟩

/-! ## The records of a flow -/

/-- From its first record on, no interval is before the flow. -/
theorem started_first (hms : 0 < ms) {secrxTime : ℚ}
    (h : slot (intervals ms secfirstline_gl secrxTime) ≤ s.out.length) :
    Started ms secfirstline_gl secrxTime s := by
  have hpos : (0 : ℚ) < ms / 1000 := by positivity
  have hle := (le_slot_add_one (intervals ms secfirstline_gl secrxTime)).trans
    (Nat.cast_le.2 (Nat.add_le_add_right h 1))
  rw [intervals, div_le_iff₀ hpos] at hle
  rw [Started, lineTime_eq]
  linarith

/-- The records of a flow, with their intervals. -/
def slots (ms secfirstline_gl : ℚ) (es : List (ℚ × E)) : List (ℕ × E) :=
  es.map fun e => (slot (intervals ms secfirstline_gl e.1), e.2)

section Records

variable (hms : 0 < ms) (hedge : ∀ k, kind.edge ms k = lineTime ms k)

include hms hedge

theorem Block.Refines.record (h : b.Refines ms s)
    (hinit : b.secinit = lineTime ms b.intclosed + secfirstline_gl)
    (hs : Settled kind ms secfirstline_gl secfirstline_loc s) {e : ℚ × E}
    (hgl : secfirstline_gl ≤ e.1) :
    (b.record kind ms secfirstline_gl secfirstline_loc e.1 e.2).Refines ms
        ((kind.binning ms).step s (slot (intervals ms secfirstline_gl e.1), e.2)) ∧
      (b.record kind ms secfirstline_gl secfirstline_loc e.1 e.2).secinit =
        lineTime ms (b.record kind ms secfirstline_gl secfirstline_loc e.1 e.2).intclosed +
          secfirstline_gl := by
  obtain ⟨⟨hclosed, htemp, hlines⟩, hinit', -⟩ := h.close hms hedge hinit hs hgl
  exact ⟨⟨hclosed, congrArg (kind.add · e.2) htemp, hlines⟩, hinit'⟩

/-- Once the flow has started, a block refines the series of intervals... -/
theorem Block.Refines.records (h : b.Refines ms s)
    (hinit : b.secinit = lineTime ms b.intclosed + secfirstline_gl)
    (hs : Started ms secfirstline_gl secfirstline_loc s) {es : List (ℚ × E)}
    (hgl : ∀ e ∈ es, secfirstline_gl ≤ e.1) :
    (b.records kind ms secfirstline_gl secfirstline_loc es).Refines ms
      ((kind.binning ms).run s (slots ms secfirstline_gl es)) := by
  induction es generalizing b s with
  | nil => exact h
  | cons e es ih =>
    obtain ⟨hrecord, hinit'⟩ := h.record hms hedge hinit (.inr hs) (hgl e List.mem_cons_self)
    refine ih hrecord hinit' (hs.mono hms ?_) fun x hx => hgl x (List.mem_cons_of_mem _ hx)
    rw [Binning.step, Binning.length_closeTo]
    exact le_max_left _ _

variable (kind) in
/-- ... and so it does from the start on. -/
theorem Block.refines_records (hidle : kind.close ms kind.init = (kind.zero, kind.init))
    (e : ℚ × E) (es : List (ℚ × E)) (hgl : ∀ x ∈ e :: es, secfirstline_gl ≤ x.1) :
    ((Block.firstline kind secfirstline_gl).records kind ms secfirstline_gl e.1
      (e :: es)).Refines ms
        ((kind.binning ms).run ⟨[], kind.init⟩ (slots ms secfirstline_gl (e :: es))) := by
  have hinit : secfirstline_gl = lineTime ms 0 + secfirstline_gl := by
    rw [lineTime_eq, Nat.cast_zero, zero_mul, zero_add]
  have hstart : (Block.firstline kind secfirstline_gl).Refines ms ⟨[], kind.init⟩ := ⟨rfl, rfl, rfl⟩
  have hsettled : Settled kind ms secfirstline_gl e.1 ⟨[], kind.init⟩ := .inl hidle
  obtain ⟨hrecord, hinit'⟩ := hstart.record hms hedge hinit hsettled (hgl e List.mem_cons_self)
  refine hrecord.records hms hedge hinit' (started_first hms ?_) fun x hx =>
    hgl x (List.mem_cons_of_mem _ hx)
  rw [Binning.step, Binning.length_closeTo]
  exact le_max_right _ _

end Records

/-- The lines of a block are those of the series, with their times. -/
theorem Block.Refines.finish (h : b.Refines ms s) : b.finish kind ms =
    (s.out ++ [kind.last ms s.acc]).zipIdx.map fun line => (lineTime ms line.2, line.1) := by
  rw [Block.finish, h.lines, h.intclosed, h.temp, List.zipIdx_append, List.map_append]
  simp

theorem map_fst_labelled (lines : List V) :
    (lines.zipIdx.map fun line => (lineTime ms line.2, line.1)).map Prod.fst =
      (List.range lines.length).map (lineTime ms) := by
  rw [List.map_map, List.range_eq_range', ← List.zipIdx_map_snd 0 lines, List.map_map]
  rfl

theorem map_snd_labelled (lines : List V) :
    (lines.zipIdx.map fun line => (lineTime ms line.2, line.1)).map Prod.snd = lines := by
  rw [List.map_map]
  exact List.zipIdx_map_fst 0 lines

end Exact

section Events

variable {F : Type} [CDouble F]

/-- What is added to the bitrate. -/
def bitEvents (log : List (Info F)) : List (F × UInt32) := log.map fun r => (r.secrxTime, r.size)

/-- What is added to the jitter. -/
def jitEvents (lastdelay : F) : List (Info F) → List (F × F)
  | [] => []
  | r :: log => (r.secrxTime, CDouble.fabs (r.currentdelay - lastdelay)) ::
      jitEvents r.currentdelay log

/-- What is added to the delay. -/
def delEvents (log : List (Info F)) : List (F × F) := log.map fun r => (r.secrxTime, r.currentdelay)

/-- What is added to the packets lost. -/
def pktEvents (log : List (Info F)) : List (F × UInt32) := log.map fun r => (r.secrxTime, r.seqNum)

variable (o : SeriesOptions F) (secfirstline_gl : F)

/-- After the first record, the blocks do not depend on each other. -/
theorem foldl_record {s : ElabState F} (hs : s.flagfirstline = true) (log : List (Info F)) :
    (log.foldl (ElabState.record o secfirstline_gl) s).bit = (if o.flagbit then
        s.bit.records bitBlock o.msbitrate secfirstline_gl s.secfirstline_loc (bitEvents log)
      else s.bit) ∧
    (log.foldl (ElabState.record o secfirstline_gl) s).jit = (if o.flagjit then
        s.jit.records jitBlock o.msjitter secfirstline_gl s.secfirstline_loc
          (jitEvents s.lastdelay log)
      else s.jit) ∧
    (log.foldl (ElabState.record o secfirstline_gl) s).del = (if o.flagdel then
        s.del.records delBlock o.msdelay secfirstline_gl s.secfirstline_loc (delEvents log)
      else s.del) ∧
    (log.foldl (ElabState.record o secfirstline_gl) s).pkt = (if o.flagpkt then
        s.pkt.records pktBlock o.mspktloss secfirstline_gl s.secfirstline_loc (pktEvents log)
      else s.pkt) := by
  induction log generalizing s with
  | nil => simp [Block.records, bitEvents, jitEvents, delEvents, pktEvents]
  | cons r log ih =>
    have hfirst : (s.record o secfirstline_gl r).flagfirstline = true := by
      rw [ElabState.record, if_pos hs, hs]
    obtain ⟨hbit, hjit, hdel, hpkt⟩ := ih hfirst
    rw [List.foldl_cons, hbit, hjit, hdel, hpkt, ElabState.record, if_pos hs]
    refine ⟨?_, ?_, ?_, ?_⟩
    · split_ifs <;> rfl
    · split_ifs <;> rfl
    · split_ifs <;> rfl
    · split_ifs <;> rfl

/-- The series of a flow are those of its blocks. -/
theorem elabFlow_cons (r : Info F) (log : List (Info F)) : elabFlow o secfirstline_gl (r :: log) =
    { bit := if o.flagbit then ((Block.firstline bitBlock secfirstline_gl).records bitBlock
          o.msbitrate secfirstline_gl r.secrxTime (bitEvents (r :: log))).finish bitBlock
          o.msbitrate else []
      jit := if o.flagjit then ((Block.firstline jitBlock secfirstline_gl).records jitBlock
          o.msjitter secfirstline_gl r.secrxTime (jitEvents r.currentdelay (r :: log))).finish
          jitBlock o.msjitter else []
      del := if o.flagdel then ((Block.firstline delBlock secfirstline_gl).records delBlock
          o.msdelay secfirstline_gl r.secrxTime (delEvents (r :: log))).finish delBlock
          o.msdelay else []
      pkt := if o.flagpkt then ((Block.firstline pktBlock secfirstline_gl).records pktBlock
          o.mspktloss secfirstline_gl r.secrxTime (pktEvents (r :: log))).finish pktBlock
          o.mspktloss else [] } := by
  have hfirst : ElabState.record o secfirstline_gl .start r =
      (ElabState.start.first o secfirstline_gl r).record o secfirstline_gl r := rfl
  obtain ⟨hbit, hjit, hdel, hpkt⟩ :=
    foldl_record o secfirstline_gl (s := ElabState.start.first o secfirstline_gl r) rfl (r :: log)
  rw [elabFlow, List.foldl_cons, hfirst, ← List.foldl_cons]
  simp only [hbit, hjit, hdel, hpkt]
  congr 1
  · split_ifs with h
    · simp only [ElabState.first, if_pos h]
      rfl
    · rfl
  · split_ifs with h
    · simp only [ElabState.first, if_pos h]
      rfl
    · rfl
  · split_ifs with h
    · simp only [ElabState.first, if_pos h]
      rfl
    · rfl
  · split_ifs with h
    · simp only [ElabState.first, if_pos h]
      rfl
    · rfl

end Events

end Ditg
